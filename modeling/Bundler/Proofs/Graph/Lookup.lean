import Bundler.Module.Graph
import Mathlib.Data.List.Nodup

/-! What looking up an id finds, before and after a module was added. -/

namespace Bundler

namespace Module

theorem isOwnedBy_iff (module : Module) (entry : String) :
    module.isOwnedBy entry = true ↔ entry ∈ module.owners := by
  simp [isOwnedBy]

/-- A new owner comes last, and one that is there stays in its place. -/
theorem owners_addOwner (module : Module) (entry : String) :
    (module.addOwner entry).owners =
      if entry ∈ module.owners then module.owners else module.owners ++ [entry] := by
  unfold addOwner
  by_cases h : entry ∈ module.owners
  · simp [h, isOwnedBy]
  · simp [h, isOwnedBy]

theorem mem_owners_addOwner (module : Module) (entry other : String) :
    other ∈ (module.addOwner entry).owners ↔ other ∈ module.owners ∨ other = entry := by
  rw [owners_addOwner]
  by_cases h : entry ∈ module.owners
  · rw [if_pos h]
    refine ⟨.inl, ?_⟩
    rintro (ho | rfl)
    · exact ho
    · exact h
  · simp [h]

@[simp] theorem dependencies_addOwner (module : Module) (entry : String) :
    (module.addOwner entry).dependencies = module.dependencies := by
  unfold addOwner
  split <;> rfl

theorem addOwner_of_mem {module : Module} {entry : String} (h : entry ∈ module.owners) :
    module.addOwner entry = module := by
  simp [addOwner, isOwnedBy, h]

@[simp] theorem addOwner_addOwner (module : Module) (entry : String) :
    (module.addOwner entry).addOwner entry = module.addOwner entry :=
  addOwner_of_mem ((mem_owners_addOwner module entry entry).mpr (.inr rfl))

end Module

namespace Graph

@[ext] theorem ext_modules {graph other : Graph} (h : graph.modules = other.modules) :
    graph = other := by
  cases graph
  cases other
  simpa using h

theorem get?_eq_some_iff {graph : Graph} {id : String} {module : Module} :
    graph.get? id = some module ↔ module ∈ graph.modules ∧ module.id = id := by
  constructor
  · intro h
    exact ⟨List.mem_of_find?_eq_some h, by simpa using List.find?_some h⟩
  · rintro ⟨hm, rfl⟩
    unfold get?
    cases hf : graph.modules.find? fun other => other.id == module.id with
    | none => simpa using List.find?_eq_none.mp hf module hm
    | some other =>
        have hid : other.id = module.id := by simpa using List.find?_some hf
        have hmem := List.mem_of_find?_eq_some hf
        rw [List.inj_on_of_nodup_map graph.nodup hmem hm hid]

theorem get?_of_mem {graph : Graph} {module : Module} (hm : module ∈ graph.modules) :
    graph.get? module.id = some module :=
  get?_eq_some_iff.mpr ⟨hm, rfl⟩

theorem mem_ids_iff {graph : Graph} {id : String} :
    id ∈ graph.ids ↔ ∃ module, graph.get? id = some module := by
  simp [ids, get?_eq_some_iff]

theorem get?_eq_none_iff {graph : Graph} {id : String} :
    graph.get? id = none ↔ id ∉ graph.ids := by
  rw [mem_ids_iff, Option.eq_none_iff_forall_ne_some, not_exists]

theorem contains_iff {graph : Graph} {id : String} :
    graph.contains id = true ↔ id ∈ graph.ids := by
  simp [contains]

@[simp] theorem ids_empty : empty.ids = [] := rfl

@[simp] theorem get?_empty (id : String) : empty.get? id = none := rfl

/-! ### Adding a module -/

theorem modules_insert {graph : Graph} {module : Module} (h : module.id ∉ graph.ids) :
    (graph.insert module).modules = graph.modules ++ [module] := by
  simp [insert, h]

theorem get?_insert_self {graph : Graph} {module : Module} (h : module.id ∉ graph.ids) :
    (graph.insert module).get? module.id = some module := by
  rw [get?_eq_some_iff, modules_insert h]
  simp

theorem get?_insert_of_ne {graph : Graph} {module : Module} (h : module.id ∉ graph.ids)
    {id : String} (hne : id ≠ module.id) : (graph.insert module).get? id = graph.get? id := by
  unfold get?
  rw [modules_insert h, List.find?_append]
  simp [hne.symm]

end Graph

end Bundler
