import Bundler.Compilation
import Bundler.Loader
import Bundler.Script.Rewrite

/-!
# Building the graph

The file of an entry becomes a module, and so does every file that a module requires. A module
is built once; when it is reached again, it and all that it requires only gain an owner.
-/

namespace Bundler

/-- What modules are built from. -/
structure Workshop where
  disk : Disk
  resolver : Resolver
  rules : List Rule
  loaders : LoaderRegistry

/-- A module that still has to be visited. -/
structure Visit where
  id : String
  path : Path
deriving DecidableEq, Repr

namespace Workshop

/-- Reads a file, runs loaders over its text and rewrites the result. -/
def buildModule (shop : Workshop) (entry : String) (visit : Visit) :
    Report BuildError (Module × List Visit) := do
  let source ← Report.ofExcept
    ((shop.disk.readText visit.path).mapError (BuildError.ofFile visit.path))
  let context : LoaderContext := ⟨visit.path, shop.resolver.root, entry⟩
  let loaded ← Loader.apply shop.rules shop.loaders context source
  let rewritten ← Script.rewrite shop.disk shop.resolver loaded visit.path visit.id
  let dependencies := rewritten.dependencies
  Report.log (.moduleBuilt visit.id entry dependencies.size)
  return (
    { id := visit.id
      path := visit.path
      owners := [entry]
      dependencies := dependencies.keys
      rawSource := source
      code := rewritten.code },
    dependencies.entries.map fun dependency => ⟨dependency.1, dependency.2⟩)

/-- Works off a stack of visits. A module that is there gains an owner; any other is built and
added, and its dependencies are put onto the stack, the first one on top. There is no result
if the steps do not suffice. -/
def visitFrom (shop : Workshop) (entry : String) :
    Nat → List Visit → Graph → Option (Outcome Graph BuildError Unit)
  | _, [], graph => some ⟨graph, [], .ok ()⟩
  | 0, _ :: _, _ => none
  | fuel + 1, visit :: rest, graph =>
      if graph.contains visit.id then
        visitFrom shop entry fuel rest (graph.addOwner visit.id entry)
      else
        let built := shop.buildModule entry visit
        match built.result with
        | .error error => some ⟨graph, built.events, .error error⟩
        | .ok (module, dependencies) =>
            (visitFrom shop entry fuel (dependencies ++ rest) (graph.insert module)).map
              fun outcome => { outcome with events := built.events ++ outcome.events }

/-- How many modules there can be: a module other than the entry's comes from a file, reached by
a path that differs from the file's place in leading steps upwards and in an extension. -/
def moduleBound (shop : Workshop) : Nat :=
  (2 + FileTree.maxPath) * (2 + shop.disk.tree.entries.length) *
    (2 + shop.resolver.extensions.length)

/-- How many visits there can be: each module puts each other one onto the stack at most once. -/
def visitBound (shop : Workshop) : Nat :=
  1 + shop.moduleBound * (1 + shop.moduleBound)

/-- What finished visits leave: the id of the first module in place of no result. Visits that the
bound did not suffice for leave the graph as it was. -/
def finish (id : String) (path : Path) (graph : Graph) :
    Option (Outcome Graph BuildError Unit) → Outcome Graph BuildError String
  | some outcome => ⟨outcome.state, outcome.events, outcome.result.map fun _ => id⟩
  | none => ⟨graph, [], .error (.ofFile path .nameTooLong)⟩

/-- Builds the file at a path and all that it requires on behalf of an entry; gives the id of
its module. -/
def buildEntry (shop : Workshop) (entry : String) (path : Path) :
    Action Graph BuildError String := fun graph =>
  let id := shop.resolver.moduleId path
  finish id path graph (shop.visitFrom entry shop.visitBound [⟨id, path⟩] graph)

end Workshop

namespace Compilation

def workshop (state : Compilation) (disk : Disk) (loaders : LoaderRegistry) : Workshop :=
  ⟨disk, state.resolver, state.options.rules, loaders⟩

def buildEntry (shop : Workshop) (entry : String) (path : Path) :
    Action Compilation BuildError Unit := do
  let id ← Action.focus Compilation.graph (fun state graph => { state with graph := graph })
    (shop.buildEntry entry path)
  Action.log (.entryBuilt entry id)
  Action.modify fun state => { state with entries := state.entries.insert entry id }

def buildEntries (shop : Workshop) : List (String × Path) → Action Compilation BuildError Unit
  | [] => Action.ok ()
  | (entry, path) :: rest => do
      buildEntry shop entry path
      buildEntries shop rest

def assembleChunks : List (String × String) → Action Compilation BuildError Unit
  | [] => Action.ok ()
  | (name, id) :: rest => do
      let state ← Action.get
      match state.graph.get? id with
      | none => Action.ok ()
      | some module =>
          let chunk ← Action.ofReport (Chunk.assemble name module state.graph.modules)
          Action.modify fun state => { state with chunks := state.chunks ++ [chunk] }
      assembleChunks rest

/-- Builds the modules of every entry, and then a chunk for each. -/
def buildModules (disk : Disk) (loaders : LoaderRegistry) :
    Action Compilation BuildError Unit := do
  let state ← Action.get
  buildEntries (state.workshop disk loaders) state.options.entries.entries
  let state ← Action.get
  assembleChunks state.entries.entries

end Compilation

end Bundler
