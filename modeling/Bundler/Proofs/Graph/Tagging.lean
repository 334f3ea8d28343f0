import Bundler.Proofs.Graph.Reachability

/-! Adding an owner as a loop that nothing bounds. Every step takes an id off the stack, and every
dependency of a module comes onto the stack at most once, when the module is tagged. So the loop
ends, with as many steps as there are dependencies of the modules that it tags, and one more. -/

namespace Bundler.Graph

variable {graph after : Graph} {entry : String} {stack : List String} {steps : Nat}

/-- A run of the loop that hands an owner on, with the number of its steps: an id that is missing or
has the owner is passed over, and any other is tagged and replaced by its dependencies. -/
inductive TagRun (entry : String) : Nat → List String → Graph → Graph → Prop where
  | done {graph : Graph} : TagRun entry 0 [] graph graph
  | skip {steps : Nat} {id : String} {rest : List String} {graph after : Graph}
      (hskip : id ∉ graph.ids ∨ graph.Owns entry id) (hrest : TagRun entry steps rest graph after) :
      TagRun entry (steps + 1) (id :: rest) graph after
  | tag {steps : Nat} {id : String} {rest : List String} {graph after : Graph} {module : Module}
      (hm : graph.get? id = some module) (hfree : entry ∉ module.owners)
      (hrest : TagRun entry steps (module.dependencies ++ rest) (graph.tagModule id entry) after) :
      TagRun entry (steps + 1) (id :: rest) graph after

/-- A run takes one step for each id on its stack, and one for each dependency of the modules that
it tags. -/
theorem TagRun.count (h : TagRun entry steps stack graph after) :
    steps + after.untaggedWork entry = stack.length + graph.untaggedWork entry := by
  induction h with
  | done => simp
  | skip _ _ ih =>
      rw [List.length_cons]
      omega
  | tag hm hfree _ ih =>
      have hwork := untaggedWork_tagModule hm hfree
      rw [List.length_append] at ih
      rw [List.length_cons]
      omega

/-- A bound on the steps that lets a run end does not change what it comes to. -/
theorem TagRun.tagFrom_eq (h : TagRun entry steps stack graph after) {fuel : Nat}
    (hfuel : steps ≤ fuel) : tagFrom entry fuel graph stack = after := by
  induction h generalizing fuel with
  | done => cases fuel <;> rfl
  | skip hskip _ ih =>
      obtain ⟨fuel, rfl⟩ := Nat.exists_eq_succ_of_ne_zero (Nat.ne_zero_of_lt hfuel)
      rw [Nat.succ_eq_add_one, tagFrom_cons_of_skip hskip]
      exact ih (Nat.le_of_succ_le_succ hfuel)
  | tag hm hfree _ ih =>
      obtain ⟨fuel, rfl⟩ := Nat.exists_eq_succ_of_ne_zero (Nat.ne_zero_of_lt hfuel)
      rw [Nat.succ_eq_add_one, tagFrom_cons_of_free hm hfree]
      exact ih (Nat.le_of_succ_le_succ hfuel)

/-- The ids on the stack, and the dependencies of what is still untagged, become fewer with every
step, so that every run ends. -/
theorem exists_tagRun (entry : String) (stack : List String) (graph : Graph) :
    ∃ steps after, TagRun entry steps stack graph after := by
  induction hleft : stack.length + graph.untaggedWork entry using Nat.strongRecOn
    generalizing stack graph with
  | ind left ih =>
      subst hleft
      cases stack with
      | nil => exact ⟨0, graph, .done⟩
      | cons id rest =>
          rw [List.length_cons] at ih
          rcases graph.skip_or_free entry id with hskip | ⟨module, hm, hfree⟩
          · obtain ⟨steps, after, hrun⟩ := ih _ (by omega) rest graph rfl
            exact ⟨steps + 1, after, .skip hskip hrun⟩
          · have hwork := untaggedWork_tagModule hm hfree
            obtain ⟨steps, after, hrun⟩ := ih
              ((module.dependencies ++ rest).length + (graph.tagModule id entry).untaggedWork entry)
              (by rw [List.length_append]; omega) _ _ rfl
            exact ⟨steps + 1, after, .tag hm hfree hrun⟩

/-- The loop for one id comes to what `addOwner` gives, and to nothing else. -/
theorem tagRun_iff {id : String} : TagRun entry steps [id] graph after ↔
    after = graph.addOwner id entry ∧
      steps + (graph.addOwner id entry).untaggedWork entry = 1 + graph.untaggedWork entry := by
  have hend : ∀ {steps after}, TagRun entry steps [id] graph after →
      after = graph.addOwner id entry := by
    intro steps after hrun
    have hcount : steps + after.untaggedWork entry = 1 + graph.untaggedWork entry := hrun.count
    have hsteps := untaggedWork_le_tagSteps graph entry
    exact (hrun.tagFrom_eq (by omega)).symm
  constructor
  · intro hrun
    obtain rfl := hend hrun
    exact ⟨rfl, hrun.count⟩
  · rintro ⟨rfl, hcount⟩
    obtain ⟨steps', after, hrun⟩ := exists_tagRun entry [id] graph
    obtain rfl := hend hrun
    have hcount' : steps' + (graph.addOwner id entry).untaggedWork entry =
        1 + graph.untaggedWork entry := hrun.count
    obtain rfl : steps = steps' := by omega
    exact hrun

/-! ### What is tagged -/

/-- Whatever an entry owns hands the owner on to all its dependencies that are there. -/
def ClosedFor (graph : Graph) (entry : String) : Prop :=
  ∀ id dependency, graph.Owns entry id → graph.DependsOn id dependency → dependency ∈ graph.ids →
    graph.Owns entry dependency

/-- Where an owner was handed on before, the untagged ways lead to all that is reached without
it. -/
theorem ClosedFor.untagged_of_reaches (hclosed : graph.ClosedFor entry) {id last : String}
    (h : graph.Reaches id last) (hlast : last ∈ graph.ids) (hfree : ¬ graph.Owns entry last) :
    graph.Untagged entry id last := by
  induction h using Relation.ReflTransGen.head_induction_on with
  | refl => exact .here hlast hfree
  | head hdep _ ih =>
      refine .step (fun hown => ?_) hdep ih
      exact ih.first.2 (hclosed _ _ hown hdep ih.first.1)

/-- The modules before and after an owner was added: those that are tagged gain it behind their
other owners, and the others stay as they are. -/
theorem forall₂_addOwner (graph : Graph) (id entry : String) :
    List.Forall₂ (fun old new =>
      (graph.Untagged entry id old.id →
        entry ∉ old.owners ∧ new = { old with owners := old.owners ++ [entry] }) ∧
      (¬ graph.Untagged entry id old.id → new = old))
      graph.modules (graph.addOwner id entry).modules := by
  classical
  rw [addOwner_eq_tagAll, tagAll, List.forall₂_map_right_iff, List.forall₂_same]
  intro module hm
  refine ⟨fun hway => ?_, fun hway => if_neg hway⟩
  have hfree : entry ∉ module.owners := fun ho => hway.last.2 ⟨module, get?_of_mem hm, ho⟩
  rw [if_pos hway, Module.addOwner, if_neg (by simp [Module.isOwnedBy, hfree])]
  exact ⟨hfree, rfl⟩

/-- A module that is missing or has the owner is passed over. -/
theorem addOwner_of_skip {id : String} (h : id ∉ graph.ids ∨ graph.Owns entry id) :
    graph.addOwner id entry = graph :=
  ((tagRun_iff.mp (.skip h .done)).1).symm

theorem addOwner_again (graph : Graph) (id entry : String) :
    (graph.addOwner id entry).addOwner id entry = graph.addOwner id entry := by
  apply addOwner_of_skip
  by_cases hid : id ∈ graph.ids
  · exact .inr (owns_addOwner_self entry hid)
  · left
    rwa [addOwner_eq_tagAll, ids_tagAll]

/-- On every graph the loop that adds an owner ends, with the stated number of steps. The owner
reaches exactly the modules at the end of a way from the id on which every module was there without
it, each of them gains it once and behind its other owners, and nothing else changes. If what was
owned before had handed the owner on, that is all that the id reaches; and doing it again changes
nothing. -/
theorem addOwner_exact (graph : Graph) (id entry : String) :
    let after := graph.addOwner id entry
    (∀ steps final, TagRun entry steps [id] graph final ↔
      final = after ∧ steps + after.untaggedWork entry = 1 + graph.untaggedWork entry) ∧
    (∀ other, after.Owns entry other ↔ graph.Owns entry other ∨ graph.Untagged entry id other) ∧
    List.Forall₂ (fun old new =>
      (graph.Untagged entry id old.id →
        entry ∉ old.owners ∧ new = { old with owners := old.owners ++ [entry] }) ∧
      (¬ graph.Untagged entry id old.id → new = old)) graph.modules after.modules ∧
    (graph.ClosedFor entry → ∀ other, after.Owns entry other ↔
      graph.Owns entry other ∨ (other ∈ graph.ids ∧ graph.Reaches id other)) ∧
    after.addOwner id entry = after := by
  intro after
  refine ⟨fun _ _ => tagRun_iff, fun _ => owns_addOwner_iff, forall₂_addOwner graph id entry, ?_,
    addOwner_again graph id entry⟩
  intro hclosed other
  rw [owns_addOwner_iff]
  constructor
  · rintro (hown | hway)
    · exact .inl hown
    · exact .inr ⟨hway.last.1, hway.reaches⟩
  · rintro (hown | ⟨hother, hreach⟩)
    · exact .inl hown
    · by_cases hown : graph.Owns entry other
      · exact .inl hown
      · exact .inr (hclosed.untagged_of_reaches hreach hother hown)

/-- A cycle with a loop in it, a dependency that is missing, and a module that has the owner. -/
theorem addOwner_exact_cycle :
    let module (id : String) (owners dependencies : List String) : Module :=
      ⟨id, ⟨id⟩, owners, dependencies, "", ""⟩
    let graph : Graph := ⟨[module "a" ["main"] ["b", "missing"],
      module "b" ["main"] ["b", "a", "c"], module "c" ["main", "other"] [],
      module "d" ["main"] ["a"]], by decide⟩
    let after := graph.addOwner "b" "other"
    graph.ClosedFor "other" ∧
      after.modules.map (fun module => (module.id, module.owners)) =
        [("a", ["main", "other"]), ("b", ["main", "other"]), ("c", ["main", "other"]),
          ("d", ["main"])] ∧
      ∀ other, after.Owns "other" other ↔
        graph.Owns "other" other ∨ (other ∈ graph.ids ∧ graph.Reaches "b" other) := by
  intro module graph after
  have hclosed : graph.ClosedFor "other" := by
    rintro id dependency ⟨owner, hm, hown⟩ ⟨same, hsame, hdep⟩ -
    obtain rfl := Option.some.inj (hm.symm.trans hsame)
    obtain ⟨hmem, -⟩ := get?_eq_some_iff.mp hm
    have hnone : ∀ found ∈ graph.modules, "other" ∈ found.owners → found.dependencies = [] := by
      decide
    rw [hnone owner hmem hown] at hdep
    cases hdep
  exact ⟨hclosed, by decide, (addOwner_exact graph "b" "other").2.2.2.1 hclosed⟩

end Bundler.Graph
