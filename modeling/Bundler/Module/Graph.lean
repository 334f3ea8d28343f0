import Bundler.Path

/-!
# Modules and their graph

A module is a file that was read, loaded and rewritten. The modules of a build form a graph
along their dependencies, and each is owned by the entries that it was reached from.
-/

namespace Bundler

/-- One file of a build. -/
structure Module where
  id : String
  path : Path
  owners : List String
  dependencies : List String
  rawSource : String
  code : String
deriving DecidableEq, Repr, Inhabited

namespace Module

def isOwnedBy (module : Module) (entry : String) : Bool :=
  module.owners.contains entry

/-- Adds an owner at the end unless it is there. -/
def addOwner (module : Module) (entry : String) : Module :=
  if module.isOwnedBy entry then module
  else { module with owners := module.owners ++ [entry] }

theorem id_addOwner (module : Module) (entry : String) :
    (module.addOwner entry).id = module.id := by
  unfold addOwner
  split <;> rfl

end Module

/-- The modules of a build, under distinct ids and in the order in which they came. -/
structure Graph where
  modules : List Module
  nodup : (modules.map Module.id).Nodup

namespace Graph

/-- The graph without modules. -/
def empty : Graph := ⟨[], List.nodup_nil⟩

instance : Inhabited Graph := ⟨empty⟩

def ids (graph : Graph) : List String := graph.modules.map Module.id

def get? (graph : Graph) (id : String) : Option Module :=
  graph.modules.find? fun module => module.id == id

def contains (graph : Graph) (id : String) : Bool := graph.ids.contains id

/-- Adds a module at the end; a module with the same id stays as it is. -/
def insert (graph : Graph) (module : Module) : Graph :=
  if absent : module.id ∈ graph.ids then graph
  else
    ⟨graph.modules ++ [module], by
      rw [List.map_append, List.map_cons, List.map_nil]
      refine List.nodup_append.2 ⟨graph.nodup, by simp, ?_⟩
      intro id present other single
      rw [List.mem_singleton] at single
      exact fun same => absent (single ▸ same ▸ present)⟩

def tag (id entry : String) (module : Module) : Module :=
  if module.id = id then module.addOwner entry else module

theorem id_tag (id entry : String) (module : Module) : (tag id entry module).id = module.id := by
  unfold tag
  split
  · exact module.id_addOwner entry
  · rfl

/-- Adds an owner to the module of an id and to no other. -/
def tagModule (graph : Graph) (id entry : String) : Graph :=
  ⟨graph.modules.map (tag id entry), by
    have same : (graph.modules.map (tag id entry)).map Module.id = graph.modules.map Module.id := by
      simp [List.map_map, Function.comp_def, id_tag]
    rw [same]
    exact graph.nodup⟩

/-- Works off a stack of ids: a module that lacks the owner gets it, and its dependencies are
put onto the stack. The first argument bounds the number of steps. -/
def tagFrom (entry : String) : Nat → Graph → List String → Graph
  | 0, graph, _ => graph
  | _, graph, [] => graph
  | fuel + 1, graph, id :: rest =>
      match graph.get? id with
      | none => tagFrom entry fuel graph rest
      | some module =>
          if module.isOwnedBy entry then tagFrom entry fuel graph rest
          else tagFrom entry fuel (graph.tagModule id entry) (module.dependencies ++ rest)

/-- The steps that suffice to work off a stack of one id: each dependency is put there once. -/
def tagSteps (graph : Graph) : Nat :=
  graph.modules.foldl (fun steps module => steps + module.dependencies.length) 1

/-- Adds an owner to a module and to all that it requires, as far as they lack it. -/
def addOwner (graph : Graph) (id entry : String) : Graph :=
  tagFrom entry graph.tagSteps graph [id]

end Graph

end Bundler
