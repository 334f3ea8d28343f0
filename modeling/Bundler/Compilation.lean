import Bundler.Chunk
import Bundler.Hook.Basic
import Bundler.Options
import Bundler.Resolver

/-!
# Compilations

The state of one run: the modules found so far, the chunks made of them, and the assets that
are to be written.
-/

namespace Bundler

/-- The state of one run. -/
structure Compilation where
  options : Options
  resolver : Resolver
  assetPath : Hook AssetPathTap
  entries : Table String
  graph : Graph
  chunks : List Chunk
  assets : Table String
  chunkAssets : Table String
  files : List String

namespace Compilation

/-- The state in which a run begins. -/
def ofOptions (options : Options) : Compilation :=
  { options := options
    resolver := .ofRoot options.context options.extensions
    assetPath := .ofKind .assetPath
    entries := .empty
    graph := .empty
    chunks := []
    assets := .empty
    chunkAssets := .empty
    files := [] }

def tapAssetPath {ε : Type} (tap : Tap AssetPathTap) : Action Compilation ε Unit := do
  let state ← Action.get
  Action.log (state.assetPath.registered tap)
  Action.modify fun state => { state with assetPath := state.assetPath.add tap }

/-- Adds an asset, or puts it in place of the one with the same name. -/
def emit {ε : Type} (name source : String) : Action Compilation ε Unit :=
  Action.modify fun state => { state with assets := state.assets.insert name source }

end Compilation

/-- Why a name is refused for an asset. -/
inductive AssetNameProblem where
  | empty
  | leavesDirectory
  | absolute
deriving DecidableEq, Repr

namespace AssetNameProblem

def message : AssetNameProblem → String
  | empty => "empty name"
  | leavesDirectory => "'..' leaves the output directory"
  | absolute => "absolute paths are not allowed"

end AssetNameProblem

namespace AssetName

def problemOfComponent? : Path.Component → Option AssetNameProblem
  | .name _ => none
  | .current => none
  | .parent => some .leavesDirectory
  | .root => some .absolute

/-- The first thing that is wrong with an asset name. -/
def problem? (name : String) : Option AssetNameProblem :=
  if name.isEmpty then some .empty
  else (Path.mk name).components.findSome? problemOfComponent?

/-- Asset names are relative paths that stay inside the output directory. -/
def check (name : String) : Except BuildError Unit :=
  match problem? name with
  | some problem => .error (.invalidAsset name problem.message)
  | none => .ok ()

end AssetName

namespace Compilation

/-- The name of the first chunk that has an asset path already. -/
def holder? (state : Compilation) (path : String) : Option String :=
  (state.chunkAssets.entries.find? fun entry => entry.2 == path).map Prod.fst

def createAsset (chunk : Chunk) : Action Compilation BuildError Unit := do
  let state ← Action.get
  let source := Bundle.render chunk
  let options := state.options
  let data : AssetPathData := ⟨chunk.name, options.filename, options.outputPath⟩
  let path ← Action.ofReport (state.assetPath.assetPath data (options.filenameFor chunk.name))
  Action.ofExcept (AssetName.check path)
  match state.holder? path with
  | some other =>
    Action.fail (.invalidAsset path s!"chunks '{other}' and '{chunk.name}' share this path")
  | none =>
    Action.log (.chunkRendered chunk.name path source.utf8ByteSize)
    Action.modify fun state =>
      { state with
        chunkAssets := state.chunkAssets.insert chunk.name path
        assets := state.assets.insert path source }

def createAssetsOf : List Chunk → Action Compilation BuildError Unit
  | [] => Action.ok ()
  | chunk :: rest => do
      createAsset chunk
      createAssetsOf rest

/-- Makes an asset of every chunk. -/
def createAssets : Action Compilation BuildError Unit := do
  let state ← Action.get
  createAssetsOf state.chunks

end Compilation

/-- A compilation and the files it may write to. -/
structure Site where
  compilation : Compilation
  disk : Disk

namespace Site

def makeDirectories (path : Path) : Action Site BuildError Unit := fun site =>
  let made := site.disk.makeDirectories path
  ⟨{ site with disk := made.1 }, [], made.2.mapError (BuildError.ofFile path)⟩

def writeFile (path : Path) (text : String) : Action Site BuildError Unit := fun site =>
  match site.disk.writeText path text with
  | .ok disk => ⟨{ site with disk := disk }, [], .ok ()⟩
  | .error error => ⟨site, [], .error (.ofFile path error)⟩

/-- Notes that an asset was written. -/
def record (name : String) : Action Site BuildError Unit :=
  Action.modify fun site =>
    { site with compilation := { site.compilation with files := site.compilation.files ++ [name] } }

/-- Makes the directory that a file is put into. -/
def makeParent (target : Path) : Action Site BuildError Unit :=
  match target.parent? with
  | some parent => makeDirectories parent
  | none => Action.ok ()

def writeAsset (directory : Path) (name source : String) : Action Site BuildError Unit := do
  let target := directory.join ⟨name⟩
  makeParent target
  writeFile target source
  Action.log (.fileWritten target)
  record name

def writeAll (directory : Path) : List (String × String) → Action Site BuildError Unit
  | [] => Action.ok ()
  | (name, source) :: rest => do
      writeAsset directory name source
      writeAll directory rest

def checkNames : List String → Except BuildError Unit
  | [] => .ok ()
  | name :: rest => do
      AssetName.check name
      checkNames rest

/-- Writes every asset below the output directory. Nothing is written before all names have
been checked. -/
def writeAssets : Action Site BuildError Unit := do
  let site ← Action.get
  let assets := site.compilation.assets
  Action.ofExcept (checkNames assets.keys)
  let directory := site.compilation.options.outputPath
  makeDirectories directory
  writeAll directory assets.entries

end Site

end Bundler
