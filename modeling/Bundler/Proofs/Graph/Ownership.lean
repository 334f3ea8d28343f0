import Bundler.Proofs.Graph.Lookup

/-! Adding an owner reaches exactly the modules at the end of a way along dependencies on which
every module is there and lacks the owner. Dangling ids, loops and cycles are allowed. -/

namespace Bundler.Graph

variable {graph : Graph} {entry : String}

/-- A module of an id is there and has an owner. -/
def Owns (graph : Graph) (entry id : String) : Prop :=
  ∃ module, graph.get? id = some module ∧ entry ∈ module.owners

/-- A module of an id is there and requires another id, which need not be there. -/
def DependsOn (graph : Graph) (id dependency : String) : Prop :=
  ∃ module, graph.get? id = some module ∧ dependency ∈ module.dependencies

/-- A way along dependencies through modules that are there and lack an owner, both ends
included. -/
inductive Untagged (graph : Graph) (entry : String) : String → String → Prop where
  | here {id : String} (hid : id ∈ graph.ids) (hfree : ¬ graph.Owns entry id) :
      Untagged graph entry id id
  | step {id dependency last : String} (hfree : ¬ graph.Owns entry id)
      (hdep : graph.DependsOn id dependency) (hrest : Untagged graph entry dependency last) :
      Untagged graph entry id last

instance (graph : Graph) (entry id : String) : Decidable (graph.Owns entry id) :=
  decidable_of_iff (∃ module ∈ graph.get? id, entry ∈ module.owners) Iff.rfl

instance (graph : Graph) (id dependency : String) : Decidable (graph.DependsOn id dependency) :=
  decidable_of_iff (∃ module ∈ graph.get? id, dependency ∈ module.dependencies) Iff.rfl

theorem Owns.mem_ids {id : String} (h : graph.Owns entry id) : id ∈ graph.ids := by
  obtain ⟨module, hm, -⟩ := h
  exact mem_ids_iff.mpr ⟨module, hm⟩

theorem DependsOn.mem_ids {id dependency : String} (h : graph.DependsOn id dependency) :
    id ∈ graph.ids := by
  obtain ⟨module, hm, -⟩ := h
  exact mem_ids_iff.mpr ⟨module, hm⟩

theorem Untagged.first {id last : String} (h : graph.Untagged entry id last) :
    id ∈ graph.ids ∧ ¬ graph.Owns entry id := by
  cases h with
  | here hid hfree => exact ⟨hid, hfree⟩
  | step hfree hdep _ => exact ⟨hdep.mem_ids, hfree⟩

theorem Untagged.last {id last : String} (h : graph.Untagged entry id last) :
    last ∈ graph.ids ∧ ¬ graph.Owns entry last := by
  induction h with
  | here hid hfree => exact ⟨hid, hfree⟩
  | step _ _ _ ih => exact ih

/-! ### Tagging a set of modules -/

open Classical in
/-- Adds an owner to the modules whose ids have a property. -/
noncomputable def tagAll (graph : Graph) (entry : String) (chosen : String → Prop) : Graph where
  modules := graph.modules.map fun module =>
    if chosen module.id then module.addOwner entry else module
  nodup := by
    have hid : ∀ module : Module,
        (if chosen module.id then module.addOwner entry else module).id = module.id := by
      intro module
      split
      · exact module.id_addOwner entry
      · rfl
    simpa [Function.comp_def, hid] using graph.nodup

open Classical in
theorem get?_tagAll (graph : Graph) (entry : String) (chosen : String → Prop) (id : String) :
    (graph.tagAll entry chosen).get? id =
      (graph.get? id).map fun module => if chosen id then module.addOwner entry else module := by
  cases hg : graph.get? id with
  | some module =>
      obtain ⟨hm, rfl⟩ := get?_eq_some_iff.mp hg
      rw [Option.map_some, get?_eq_some_iff]
      refine ⟨List.mem_map.mpr ⟨module, hm, rfl⟩, ?_⟩
      split
      · exact module.id_addOwner entry
      · rfl
  | none =>
      rw [Option.map_none, get?_eq_none_iff]
      rw [get?_eq_none_iff] at hg
      simpa [ids, tagAll, Function.comp_def, apply_ite Module.id, Module.id_addOwner] using hg

@[simp] theorem ids_tagAll (graph : Graph) (entry : String) (chosen : String → Prop) :
    (graph.tagAll entry chosen).ids = graph.ids := by
  simp [ids, tagAll, Function.comp_def, apply_ite Module.id, Module.id_addOwner]

theorem owns_tagAll_iff {chosen : String → Prop} {id : String} :
    (graph.tagAll entry chosen).Owns entry id ↔
      graph.Owns entry id ∨ (id ∈ graph.ids ∧ chosen id) := by
  classical
  simp only [Owns, get?_tagAll, mem_ids_iff]
  cases hg : graph.get? id with
  | none => simp
  | some module =>
      by_cases hc : chosen id
      · simp [hc, Module.mem_owners_addOwner]
      · simp [hc]

@[simp] theorem dependsOn_tagAll_iff {chosen : String → Prop} {id dependency : String} :
    (graph.tagAll entry chosen).DependsOn id dependency ↔ graph.DependsOn id dependency := by
  classical
  simp only [DependsOn, get?_tagAll]
  cases hg : graph.get? id with
  | none => simp
  | some module =>
      by_cases hc : chosen id
      · simp [hc]
      · simp [hc]

theorem tagAll_congr {chosen other : String → Prop}
    (h : ∀ id ∈ graph.ids, chosen id ↔ other id) :
    graph.tagAll entry chosen = graph.tagAll entry other := by
  classical
  apply ext_modules
  apply List.map_congr_left
  intro module hm
  have hid := h module.id (List.mem_map.mpr ⟨module, hm, rfl⟩)
  by_cases hc : chosen module.id
  · simp [hc, hid.mp hc]
  · simp [hc, mt hid.mpr hc]

theorem tagAll_of_false (graph : Graph) (entry : String) :
    graph.tagAll entry (fun _ => False) = graph := by
  apply ext_modules
  simp [tagAll]

theorem tagAll_tagModule (graph : Graph) (id entry : String) (chosen : String → Prop) :
    (graph.tagModule id entry).tagAll entry chosen =
      graph.tagAll entry (fun other => other = id ∨ chosen other) := by
  classical
  apply ext_modules
  change (graph.modules.map (tag id entry)).map _ = graph.modules.map _
  rw [List.map_map]
  apply List.map_congr_left
  intro module _
  by_cases hid : module.id = id
  · by_cases hc : chosen id
    · simp [tag, hid, hc, Module.id_addOwner]
    · simp [tag, hid, hc, Module.id_addOwner]
  · simp [tag, hid]

/-! ### The steps that suffice -/

/-- The dependencies of the modules that lack an owner, each counted as often as it is listed. -/
def untaggedWork (graph : Graph) (entry : String) : Nat :=
  ((graph.modules.filter fun module => entry ∉ module.owners).flatMap Module.dependencies).length

theorem untaggedWork_le_tagSteps (graph : Graph) (entry : String) :
    1 + graph.untaggedWork entry ≤ graph.tagSteps := by
  have hfold : ∀ (modules : List Module) (steps : Nat),
      steps + ((modules.filter fun module => entry ∉ module.owners).flatMap
        Module.dependencies).length ≤
      modules.foldl (fun steps module => steps + module.dependencies.length) steps := by
    intro modules
    induction modules with
    | nil => simp
    | cons module rest ih =>
        intro steps
        have hr := ih (steps + module.dependencies.length)
        rw [List.foldl_cons]
        by_cases hown : entry ∈ module.owners
        · rw [List.filter_cons_of_neg (by simpa using hown)]
          omega
        · rw [List.filter_cons_of_pos (by simpa using hown), List.flatMap_cons, List.length_append]
          omega
  exact hfold graph.modules 1

/-- Tagging changes one module and leaves those in front of it and behind it as they are. -/
theorem exists_modules_tagModule {module : Module} (hmem : module ∈ graph.modules)
    (entry : String) :
    ∃ front back, graph.modules = front ++ module :: back ∧
      (graph.tagModule module.id entry).modules = front ++ tag module.id entry module :: back := by
  obtain ⟨front, back, hsplit⟩ := List.append_of_mem hmem
  have hnodup := graph.nodup
  rw [hsplit, List.map_append, List.map_cons] at hnodup
  have hother : ∀ other ∈ front ++ back, other.id ≠ module.id := by
    intro other ho heq
    obtain ⟨-, hcons, hdisj⟩ := List.nodup_append.mp hnodup
    rcases List.mem_append.mp ho with ho | ho
    · exact hdisj _ (List.mem_map_of_mem ho) _ List.mem_cons_self heq
    · exact (List.nodup_cons.mp hcons).1 (heq ▸ List.mem_map_of_mem ho)
  have hsame : ∀ part : List Module, (∀ other ∈ part, other.id ≠ module.id) →
      part.map (tag module.id entry) = part := by
    intro part hp
    calc part.map (tag module.id entry) = part.map id :=
          List.map_congr_left fun other ho => by simp [tag, hp other ho]
      _ = part := List.map_id part
  have hf := hsame front fun other ho => hother other (List.mem_append_left _ ho)
  have hb := hsame back fun other ho => hother other (List.mem_append_right _ ho)
  refine ⟨front, back, hsplit, ?_⟩
  simp only [tagModule, hsplit, List.map_append, List.map_cons, hf, hb]

/-- Tagging a module takes its dependencies off the work that is left. -/
theorem untaggedWork_tagModule {id : String} {module : Module}
    (hm : graph.get? id = some module) (hfree : entry ∉ module.owners) :
    (graph.tagModule id entry).untaggedWork entry + module.dependencies.length =
      graph.untaggedWork entry := by
  obtain ⟨hmem, rfl⟩ := get?_eq_some_iff.mp hm
  obtain ⟨front, back, hsplit, htagged⟩ := exists_modules_tagModule hmem entry
  have hself : entry ∈ (tag module.id entry module).owners := by
    simp [tag, Module.mem_owners_addOwner]
  rw [untaggedWork, untaggedWork, htagged, hsplit, List.filter_append, List.filter_append,
    List.filter_cons_of_neg (by simpa using hself), List.filter_cons_of_pos (by simpa using hfree)]
  simp only [List.flatMap_append, List.flatMap_cons, List.length_append]
  omega

/-! ### Working off a stack -/

theorem tagModule_eq (graph : Graph) (id entry : String) :
    graph.tagModule id entry = graph.tagAll entry (· = id) := by
  rw [← tagAll_of_false (graph.tagModule id entry) entry, tagAll_tagModule]
  simp only [or_false]

theorem owns_tagModule_iff {id other : String} :
    (graph.tagModule id entry).Owns entry other ↔
      graph.Owns entry other ∨ (other ∈ graph.ids ∧ other = id) := by
  rw [tagModule_eq, owns_tagAll_iff]

theorem Untagged.of_tagModule {id start last : String}
    (h : (graph.tagModule id entry).Untagged entry start last) :
    graph.Untagged entry start last := by
  induction h with
  | here hid hfree =>
      rw [tagModule_eq, ids_tagAll] at hid
      exact .here hid fun ho => hfree (owns_tagModule_iff.mpr (.inl ho))
  | step hfree hdep _ ih =>
      rw [tagModule_eq, dependsOn_tagAll_iff] at hdep
      exact .step (fun ho => hfree (owns_tagModule_iff.mpr (.inl ho))) hdep ih

/-- A way that avoids a module stays open when the module gains the owner. Any other ends at the
module, or leaves it for the last time along one of its dependencies. -/
theorem Untagged.avoid (id : String) {start last : String}
    (h : graph.Untagged entry start last) :
    last = id ∨ (graph.tagModule id entry).Untagged entry start last ∨
      ∃ dependency, graph.DependsOn id dependency ∧
        (graph.tagModule id entry).Untagged entry dependency last := by
  have hstill : ∀ {other : String}, ¬ graph.Owns entry other → other ≠ id →
      ¬ (graph.tagModule id entry).Owns entry other := by
    intro other hfree hne ho
    rcases owns_tagModule_iff.mp ho with ho | ⟨-, ho⟩
    · exact hfree ho
    · exact hne ho
  induction h with
  | @here first hid hfree =>
      by_cases hne : first = id
      · exact .inl hne
      · refine .inr (.inl (.here ?_ (hstill hfree hne)))
        rwa [tagModule_eq, ids_tagAll]
  | @step first dependency last hfree hdep _ ih =>
      rcases ih with hlast | hopen | hleaves
      · exact .inl hlast
      · by_cases hne : first = id
        · exact .inr (.inr ⟨dependency, hne ▸ hdep, hopen⟩)
        · refine .inr (.inl (.step (hstill hfree hne) ?_ hopen))
          rwa [tagModule_eq, dependsOn_tagAll_iff]
      · exact .inr (.inr hleaves)

/-- Tagging the first module of a stack and putting its dependencies in its place leaves the same
modules to reach, itself apart. -/
theorem exists_untagged_cons_iff {id last : String} {rest : List String} {module : Module}
    (hm : graph.get? id = some module) (hfree : entry ∉ module.owners) (hlast : last ∈ graph.ids) :
    (∃ first ∈ id :: rest, graph.Untagged entry first last) ↔
      last = id ∨ ∃ first ∈ module.dependencies ++ rest,
        (graph.tagModule id entry).Untagged entry first last := by
  have hdeps : ∀ dependency, dependency ∈ module.dependencies ↔ graph.DependsOn id dependency := by
    intro dependency
    simp [DependsOn, hm]
  have hnot : ¬ graph.Owns entry id := by
    rintro ⟨other, ho, howned⟩
    exact hfree (Option.some.inj (hm.symm.trans ho) ▸ howned)
  constructor
  · rintro ⟨first, hfirst, hway⟩
    rcases hway.avoid id with hend | hopen | ⟨dependency, hdep, hopen⟩
    · exact .inl hend
    · have hne : first ≠ id := by
        rintro rfl
        exact hopen.first.2 (owns_tagModule_iff.mpr (.inr ⟨hway.first.1, rfl⟩))
      have hrest : first ∈ rest := (List.mem_cons.mp hfirst).resolve_left hne
      exact .inr ⟨first, List.mem_append_right _ hrest, hopen⟩
    · exact .inr ⟨dependency, List.mem_append_left _ ((hdeps dependency).mpr hdep), hopen⟩
  · rintro (rfl | ⟨first, hfirst, hway⟩)
    · exact ⟨last, List.mem_cons_self, .here hlast hnot⟩
    · rcases List.mem_append.mp hfirst with hdep | hrest
      · exact ⟨id, List.mem_cons_self, .step hnot ((hdeps first).mp hdep) hway.of_tagModule⟩
      · exact ⟨first, List.mem_cons_of_mem id hrest, hway.of_tagModule⟩

/-- An id on the stack is passed over, or it is that of a module without the owner. -/
theorem skip_or_free (graph : Graph) (entry id : String) :
    (id ∉ graph.ids ∨ graph.Owns entry id) ∨
      ∃ module, graph.get? id = some module ∧ entry ∉ module.owners := by
  by_cases hskip : id ∉ graph.ids ∨ graph.Owns entry id
  · exact .inl hskip
  · obtain ⟨hid, hnot⟩ := not_or.mp hskip
    obtain ⟨module, hm⟩ := mem_ids_iff.mp (not_not.mp hid)
    exact .inr ⟨module, hm, fun ho => hnot ⟨module, hm, ho⟩⟩

theorem tagFrom_cons_of_skip {fuel : Nat} {id : String} {rest : List String}
    (h : id ∉ graph.ids ∨ graph.Owns entry id) :
    tagFrom entry (fuel + 1) graph (id :: rest) = tagFrom entry fuel graph rest := by
  rw [tagFrom]
  rcases h with habsent | ⟨module, hm, howned⟩
  · rw [get?_eq_none_iff.mpr habsent]
  · simp [hm, Module.isOwnedBy, howned]

theorem tagFrom_cons_of_free {fuel : Nat} {id : String} {rest : List String} {module : Module}
    (hm : graph.get? id = some module) (hfree : entry ∉ module.owners) :
    tagFrom entry (fuel + 1) graph (id :: rest) =
      tagFrom entry fuel (graph.tagModule id entry) (module.dependencies ++ rest) := by
  rw [tagFrom]
  simp [hm, Module.isOwnedBy, hfree]

/-- With enough steps, the owner reaches exactly the modules at the end of an untagged way from
an id on the stack. -/
theorem tagFrom_eq_tagAll (fuel : Nat) (graph : Graph) (stack : List String)
    (hfuel : stack.length + graph.untaggedWork entry ≤ fuel) :
    tagFrom entry fuel graph stack =
      graph.tagAll entry (fun last => ∃ first ∈ stack, graph.Untagged entry first last) := by
  induction fuel generalizing graph stack with
  | zero =>
      have hnil : stack = [] := List.length_eq_zero_iff.mp (by omega)
      simp [hnil, tagFrom, tagAll_of_false]
  | succ fuel ih =>
      cases stack with
      | nil => simp [tagFrom, tagAll_of_false]
      | cons id rest =>
          rw [List.length_cons] at hfuel
          rcases graph.skip_or_free entry id with hskip | ⟨module, hm, hfree⟩
          · have hnone : ∀ last, ¬ graph.Untagged entry id last := fun last hway =>
              hskip.elim (· hway.first.1) hway.first.2
            rw [tagFrom_cons_of_skip hskip, ih graph rest (by omega)]
            simp [hnone]
          · have hwork := untaggedWork_tagModule hm hfree
            rw [tagFrom_cons_of_free hm hfree, ih _ _ (by rw [List.length_append]; omega),
              tagAll_tagModule]
            exact tagAll_congr fun last hlast => (exists_untagged_cons_iff hm hfree hlast).symm

/-- An owner is added to exactly the modules at the end of an untagged way from an id. -/
theorem addOwner_eq_tagAll (graph : Graph) (id entry : String) :
    graph.addOwner id entry = graph.tagAll entry (graph.Untagged entry id) := by
  have hwork := untaggedWork_le_tagSteps graph entry
  unfold addOwner
  rw [tagFrom_eq_tagAll graph.tagSteps graph [id] (by simpa using hwork)]
  simp

/-- What an owner more does not change holds of the modules after an owner was added. -/
theorem forall_modules_addOwner {holds : Module → Prop} {id : String}
    (howner : ∀ {module : Module}, holds module → holds (module.addOwner entry))
    (h : ∀ module ∈ graph.modules, holds module) :
    ∀ module ∈ (graph.addOwner id entry).modules, holds module := by
  intro module hm
  rw [addOwner_eq_tagAll] at hm
  obtain ⟨old, ho, rfl⟩ := List.mem_map.mp hm
  split
  · exact howner (h old ho)
  · exact h old ho

theorem owns_addOwner_iff {id other : String} :
    (graph.addOwner id entry).Owns entry other ↔
      graph.Owns entry other ∨ graph.Untagged entry id other := by
  rw [addOwner_eq_tagAll, owns_tagAll_iff]
  exact or_congr_right ⟨And.right, fun hway => ⟨hway.last.1, hway⟩⟩

@[simp] theorem dependsOn_addOwner_iff {id other dependency : String} :
    (graph.addOwner id entry).DependsOn other dependency ↔ graph.DependsOn other dependency := by
  rw [addOwner_eq_tagAll, dependsOn_tagAll_iff]

theorem owns_addOwner_self (entry : String) {id : String} (hid : id ∈ graph.ids) :
    (graph.addOwner id entry).Owns entry id := by
  by_cases hown : graph.Owns entry id
  · exact owns_addOwner_iff.mpr (.inl hown)
  · exact owns_addOwner_iff.mpr (.inr (.here hid hown))

theorem Untagged.extend {id last dependency : String} (h : graph.Untagged entry id last)
    (hdep : graph.DependsOn last dependency) (hid : dependency ∈ graph.ids)
    (hfree : ¬ graph.Owns entry dependency) : graph.Untagged entry id dependency := by
  induction h with
  | here _ hown => exact .step hown hdep (.here hid hfree)
  | step hown hnext _ ih => exact .step hown hnext (ih hdep)

/-- A module that gains the owner hands it on to all its dependencies that are there. -/
theorem owns_addOwner_of_dependsOn {id other dependency : String}
    (hway : graph.Untagged entry id other) (hdep : graph.DependsOn other dependency)
    (hid : dependency ∈ graph.ids) : (graph.addOwner id entry).Owns entry dependency := by
  by_cases hown : graph.Owns entry dependency
  · exact owns_addOwner_iff.mpr (.inl hown)
  · exact owns_addOwner_iff.mpr (.inr (hway.extend hdep hid hown))

end Bundler.Graph
