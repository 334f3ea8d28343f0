import Bundler.Chunk
import Bundler.Proofs.Graph.Lookup

/-! Graphs without the paths of their modules. Nothing that is done to a graph looks at a path, and
neither does a bundle. -/

namespace Bundler

namespace Module

/-- The module without its path. -/
def unplaced (module : Module) : Module := { module with path := ⟨""⟩ }

@[simp] theorem id_unplaced (module : Module) : module.unplaced.id = module.id := rfl

@[simp] theorem code_unplaced (module : Module) : module.unplaced.code = module.code := rfl

theorem unplaced_addOwner (module : Module) (entry : String) :
    (module.addOwner entry).unplaced = module.unplaced.addOwner entry := by
  have howned : module.unplaced.isOwnedBy entry = module.isOwnedBy entry := rfl
  rw [addOwner, addOwner, howned]
  split
  · rfl
  · rfl

end Module

namespace Graph

/-- The graph without the paths of its modules. -/
def unplaced (graph : Graph) : Graph :=
  ⟨graph.modules.map Module.unplaced, by
    rw [List.map_map]
    exact graph.nodup⟩

variable {graph : Graph} {entry : String}

@[simp] theorem modules_unplaced (graph : Graph) :
    graph.unplaced.modules = graph.modules.map Module.unplaced := rfl

@[simp] theorem ids_unplaced (graph : Graph) : graph.unplaced.ids = graph.ids := by
  simp [ids, Function.comp_def]

theorem get?_unplaced (graph : Graph) (id : String) :
    graph.unplaced.get? id = (graph.get? id).map Module.unplaced := by
  rw [get?, get?, modules_unplaced, List.find?_map]
  rfl

theorem unplaced_insert (graph : Graph) (module : Module) :
    (graph.insert module).unplaced = graph.unplaced.insert module.unplaced := by
  by_cases h : module.id ∈ graph.ids
  · have h' : module.unplaced.id ∈ graph.unplaced.ids := by rwa [ids_unplaced]
    rw [insert, dif_pos h, insert, dif_pos h']
  · have h' : module.unplaced.id ∉ graph.unplaced.ids := by rwa [ids_unplaced]
    ext1
    rw [modules_unplaced, modules_insert h, modules_insert h', List.map_append]
    rfl

theorem unplaced_tagModule (graph : Graph) (id entry : String) :
    (graph.tagModule id entry).unplaced = graph.unplaced.tagModule id entry := by
  have htag : ∀ module : Module, (tag id entry module).unplaced = tag id entry module.unplaced := by
    intro module
    rw [tag, tag, Module.id_unplaced]
    split
    · exact module.unplaced_addOwner entry
    · rfl
  ext1
  simp [tagModule, List.map_map, Function.comp_def, htag]

theorem unplaced_tagFrom (fuel : Nat) (graph : Graph) (stack : List String) :
    (tagFrom entry fuel graph stack).unplaced = tagFrom entry fuel graph.unplaced stack := by
  induction fuel generalizing graph stack with
  | zero => rfl
  | succ fuel ih =>
      cases stack with
      | nil => rfl
      | cons id rest =>
          rw [tagFrom, tagFrom, get?_unplaced]
          cases graph.get? id with
          | none => exact ih graph rest
          | some module =>
              have howned : module.unplaced.isOwnedBy entry = module.isOwnedBy entry := rfl
              simp only [Option.map_some, howned]
              split
              · exact ih graph rest
              · rw [ih, unplaced_tagModule]
                rfl

theorem unplaced_addOwner (graph : Graph) (id entry : String) :
    (graph.addOwner id entry).unplaced = graph.unplaced.addOwner id entry := by
  have hsteps : graph.unplaced.tagSteps = graph.tagSteps := by
    simp [tagSteps, List.foldl_map, Module.unplaced]
  rw [addOwner, addOwner, unplaced_tagFrom, hsteps]

/-- Two graphs differ in the paths of their modules at most. -/
def Alike (graph other : Graph) : Prop := graph.unplaced = other.unplaced

variable {other : Graph}

theorem Alike.ids_eq (h : graph.Alike other) : graph.ids = other.ids := by
  rw [← ids_unplaced graph, h, ids_unplaced]

theorem Alike.insert {module module' : Module} (h : graph.Alike other)
    (hmodule : module.unplaced = module'.unplaced) :
    (graph.insert module).Alike (other.insert module') := by
  rw [Alike, unplaced_insert, unplaced_insert, h, hmodule]

theorem Alike.addOwner (h : graph.Alike other) (id entry : String) :
    (graph.addOwner id entry).Alike (other.addOwner id entry) := by
  rw [Alike, unplaced_addOwner, unplaced_addOwner, h]

end Graph

namespace Chunk

/-- The chunk without the paths of its modules. -/
def unplaced (chunk : Chunk) : Chunk :=
  ⟨chunk.name, chunk.entryModule.unplaced, chunk.modules.map Module.unplaced⟩

theorem unplaced_ofModules (name : String) (module : Module) (modules : List Module) :
    (ofModules name module modules).unplaced =
      ofModules name module.unplaced (modules.map Module.unplaced) := by
  simp only [unplaced, ofModules, owned, List.filter_map]
  rfl

/-- A bundle does not tell where its modules are. -/
theorem render_unplaced (chunk : Chunk) : Bundle.render chunk.unplaced = Bundle.render chunk := by
  have hkey : ∀ module : Module, Bundle.key module.unplaced = Bundle.key module := by
    intro module
    unfold Bundle.key
    rw [Module.id_unplaced]
  have hentry : ∀ module : Module,
      Bundle.registryEntry module.unplaced = Bundle.registryEntry module := by
    intro module
    unfold Bundle.registryEntry
    rw [hkey, Module.code_unplaced]
  have hmain : Bundle.key chunk.unplaced.entryModule = Bundle.key chunk.entryModule :=
    hkey chunk.entryModule
  have hentries : chunk.unplaced.modules.map Bundle.registryEntry =
      chunk.modules.map Bundle.registryEntry := by
    rw [unplaced, List.map_map]
    exact List.map_congr_left fun module _ => hentry module
  unfold Bundle.render
  rw [hmain, hentries]

end Chunk

end Bundler
