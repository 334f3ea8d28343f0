import Bundler.Proofs.Graph.Ownership
import Mathlib.Logic.Relation

/-! Reachability along recorded dependencies, and how a graph grows while modules are added and
tagged on behalf of one entry. What a closed part of the graph reaches never changes. -/

namespace Bundler.Graph

variable {graph before after : Graph} {entry : String}

/-- An id can be reached from another along recorded dependencies, in any number of steps. -/
def Reaches (graph : Graph) : String → String → Prop :=
  Relation.ReflTransGen graph.DependsOn

/-- Every dependency that a module records is there. -/
def Closed (graph : Graph) : Prop :=
  ∀ {id dependency : String}, graph.DependsOn id dependency → dependency ∈ graph.ids

/-- The owners of an id, none if it is not there. -/
def ownersOf (graph : Graph) (id : String) : List String :=
  ((graph.get? id).map Module.owners).getD []

theorem mem_ownersOf_iff {id : String} : entry ∈ graph.ownersOf id ↔ graph.Owns entry id := by
  unfold ownersOf Owns
  cases graph.get? id <;> simp

theorem ownersOf_of_mem {module : Module} (hm : module ∈ graph.modules) :
    graph.ownersOf module.id = module.owners := by
  simp [ownersOf, get?_of_mem hm]

theorem Untagged.reaches {id last : String} (h : graph.Untagged entry id last) :
    graph.Reaches id last := by
  induction h with
  | here _ _ => exact .refl
  | step _ hdep _ ih => exact .head hdep ih

theorem Closed.mem_of_reaches (hc : graph.Closed) {id last : String} (hid : id ∈ graph.ids)
    (h : graph.Reaches id last) : last ∈ graph.ids := by
  induction h with
  | refl => exact hid
  | tail _ hdep _ => exact hc hdep

/-! ### Growth on behalf of an entry -/

/-- A module that is there stays as it is or gains the entry as an owner, and a new one has no
other owner. -/
structure Grows (entry : String) (before after : Graph) : Prop where
  kept : ∀ {id : String} {module : Module}, before.get? id = some module →
    after.get? id = some module ∨ after.get? id = some (module.addOwner entry)
  added : ∀ {id : String} {module : Module}, before.get? id = none →
    after.get? id = some module → module.owners = [entry]

theorem Grows.refl (entry : String) (graph : Graph) : Grows entry graph graph :=
  ⟨.inl, fun hn hs => by simp [hn] at hs⟩

theorem Grows.trans {middle : Graph} (h : Grows entry before middle)
    (h' : Grows entry middle after) : Grows entry before after where
  kept := by
    intro id module hm
    rcases h.kept hm with hk | hk
    · exact h'.kept hk
    · rcases h'.kept hk with hk' | hk'
      · exact .inr hk'
      · rw [Module.addOwner_addOwner] at hk'
        exact .inr hk'
  added := by
    intro id module hn hm
    cases hmid : middle.get? id with
    | none => exact h'.added hmid hm
    | some other =>
        have howners := h.added hn hmid
        have hsame : other.addOwner entry = other := Module.addOwner_of_mem (by simp [howners])
        rcases h'.kept hmid with hk | hk
        · rw [hm] at hk
          rw [Option.some.inj hk, howners]
        · rw [hm, hsame] at hk
          rw [Option.some.inj hk, howners]

theorem grows_insert (entry : String) {module : Module} (habsent : module.id ∉ graph.ids)
    (howners : module.owners = [entry]) : Grows entry graph (graph.insert module) where
  kept := by
    intro id other ho
    have hne : id ≠ module.id := by
      rintro rfl
      exact habsent (mem_ids_iff.mpr ⟨other, ho⟩)
    exact .inl (by rw [get?_insert_of_ne habsent hne, ho])
  added := by
    intro id other hn ho
    by_cases hid : id = module.id
    · subst hid
      rw [get?_insert_self habsent] at ho
      rw [← Option.some.inj ho, howners]
    · rw [get?_insert_of_ne habsent hid, hn] at ho
      simp at ho

theorem grows_addOwner (graph : Graph) (id entry : String) :
    Grows entry graph (graph.addOwner id entry) where
  kept := by
    intro other module hm
    classical
    rw [addOwner_eq_tagAll, get?_tagAll, hm, Option.map_some]
    by_cases hway : graph.Untagged entry id other
    · exact .inr (by rw [if_pos hway])
    · exact .inl (by rw [if_neg hway])
  added := by
    intro other module hn hm
    classical
    rw [addOwner_eq_tagAll, get?_tagAll, hn] at hm
    simp at hm

namespace Grows

variable {id dependency : String} (h : Grows entry before after)

include h

theorem mem_ids (hid : id ∈ before.ids) : id ∈ after.ids := by
  obtain ⟨module, hm⟩ := mem_ids_iff.mp hid
  rcases h.kept hm with hk | hk
  · exact mem_ids_iff.mpr ⟨_, hk⟩
  · exact mem_ids_iff.mpr ⟨_, hk⟩

theorem dependsOn_iff (hid : id ∈ before.ids) :
    after.DependsOn id dependency ↔ before.DependsOn id dependency := by
  obtain ⟨module, hm⟩ := mem_ids_iff.mp hid
  rcases h.kept hm with hk | hk
  · simp [DependsOn, hm, hk]
  · simp [DependsOn, hm, hk]

theorem dependsOn (hdep : before.DependsOn id dependency) : after.DependsOn id dependency :=
  (h.dependsOn_iff hdep.mem_ids).mpr hdep

theorem reaches (hr : before.Reaches id dependency) : after.Reaches id dependency :=
  Relation.ReflTransGen.mono (fun _ _ => h.dependsOn) _ _ hr

theorem owns {other : String} (ho : before.Owns other id) : after.Owns other id := by
  obtain ⟨module, hm, howned⟩ := ho
  rcases h.kept hm with hk | hk
  · exact ⟨module, hk, howned⟩
  · exact ⟨_, hk, (module.mem_owners_addOwner entry other).mpr (.inl howned)⟩

/-- No other entry gains a module. -/
theorem owns_iff_of_ne {other : String} (hne : other ≠ entry) :
    after.Owns other id ↔ before.Owns other id := by
  refine ⟨?_, h.owns⟩
  rintro ⟨module, hm, howned⟩
  cases hb : before.get? id with
  | none =>
      rw [h.added hb hm, List.mem_singleton] at howned
      exact absurd howned hne
  | some old =>
      rcases h.kept hb with hk | hk
      · rw [hm] at hk
        exact ⟨old, hb, Option.some.inj hk ▸ howned⟩
      · rw [hm] at hk
        rw [Option.some.inj hk, Module.mem_owners_addOwner] at howned
        exact ⟨old, hb, howned.resolve_right hne⟩

open Classical in
/-- A new owner of an id comes behind all others. -/
theorem ownersOf_eq (hnew : ¬ before.Owns entry id) :
    after.ownersOf id = before.ownersOf id ++ if after.Owns entry id then [entry] else [] := by
  cases hb : before.get? id with
  | none =>
      cases ha : after.get? id with
      | none =>
          rw [if_neg (by simp [Owns, ha])]
          simp [ownersOf, hb, ha]
      | some module =>
          have howners := h.added hb ha
          rw [if_pos ⟨module, ha, by simp [howners]⟩]
          simp [ownersOf, hb, ha, howners]
  | some module =>
      have hfree : entry ∉ module.owners := fun ho => hnew ⟨module, hb, ho⟩
      rcases h.kept hb with hk | hk
      · rw [if_neg (by simp [Owns, hk, hfree])]
        simp [ownersOf, hb, hk]
      · have howners : (module.addOwner entry).owners = module.owners ++ [entry] := by
          rw [Module.owners_addOwner, if_neg hfree]
        rw [if_pos ⟨_, hk, by simp [howners]⟩]
        simp [ownersOf, hb, hk, howners]

/-- A closed graph reaches the same modules however it grows. -/
theorem reaches_iff (hc : before.Closed) (hid : id ∈ before.ids) :
    after.Reaches id dependency ↔ before.Reaches id dependency := by
  refine ⟨?_, h.reaches⟩
  intro hr
  induction hr with
  | refl => exact .refl
  | tail _ hdep ih =>
      exact .tail ih ((h.dependsOn_iff (hc.mem_of_reaches hid ih)).mp hdep)

end Grows

end Bundler.Graph
