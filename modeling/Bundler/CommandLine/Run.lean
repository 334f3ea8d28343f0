import Bundler.Build
import Bundler.CommandLine.Command
import Bundler.Settings

/-!
# Running commands

What the command line gives takes the place of what the configuration file says, and its paths
are read from the current directory.
-/

namespace Bundler

/-- Where a command runs: the current directory and the home directory. -/
structure Surroundings where
  current : Path
  home : String

/-- Values from the command line that take the place of settings. -/
structure Overrides where
  entries : List (String × String)
  outputPath : Option Path
  filename : Option String

namespace Overrides

def absolute (here : Surroundings) (path : String) : String :=
  (here.current.join ⟨Settings.expandHome here.home path⟩).normalize.text

def entryTable (overrides : Overrides) (here : Surroundings) : Table String :=
  Table.ofList (overrides.entries.map fun entry => (entry.1, absolute here entry.2))

def apply (overrides : Overrides) (here : Surroundings) (settings : Settings) : Settings :=
  { settings with
    entry :=
      if overrides.entries.isEmpty then settings.entry
      else some (.named (overrides.entryTable here))
    outputPath :=
      match overrides.outputPath with
      | some path => some (absolute here path.text)
      | none => settings.outputPath
    filename := overrides.filename.orElse fun _ => settings.filename }

end Overrides

namespace Command

/-- The settings of a build and the directory that they were found in. Without a file of the
usual name there are none if the command line names entries. -/
def loadSettings (here : Surroundings) (disk : Disk) (explicit : Option Path)
    (hasEntries : Bool) : Report BuildError (Settings × Path) :=
  let usual := here.current.join ⟨Settings.defaultName⟩
  let load (path : Path) : Report BuildError (Settings × Path) := do
    let settings ← Report.ofExcept ((Settings.ofFile disk path).mapError BuildError.config)
    Report.log (.configLoaded path)
    return (settings, path.parent?.getD here.current)
  match explicit with
  | some path => load (here.current.join path)
  | none =>
    if !disk.isFile usual && hasEntries then
      ⟨[.configAbsent], .ok (.empty, here.current)⟩
    else load usual

def fileLines (directory : Path) (files : List String) : String :=
  String.join (files.map fun file => (directory.join ⟨file⟩).text ++ "\n")

/-- Runs a build; gives what it prints. -/
def runBuild (here : Surroundings) (config : Option Path) (overrides : Overrides)
    (json : Bool) : Action Disk BuildError String := do
  let disk ← Action.get
  let (settings, base) ← Action.ofReport
    (loadSettings here disk config (!overrides.entries.isEmpty))
  let options ← Action.ofExcept
    (((overrides.apply here settings).toOptions here.home base).mapError BuildError.config)
  let plugins ← Action.ofExcept (PluginRegistry.builtin.createAll settings.plugins)
  let compiler ← Action.ofReport (Compiler.create options LoaderRegistry.builtin plugins)
  let stats ← compiler.build
  return if json then stats.toJson.pretty ++ "\n" else fileLines options.outputPath stats.files

/-- Resolves a specifier; gives what it prints. -/
def runResolve (here : Surroundings) (disk : Disk) (specifier : String) (base : Option Path)
    (extensions : List String) : Report BuildError String := do
  let directory := (here.current.join (base.getD ⟨""⟩)).normalize
  let extensions := if extensions.isEmpty then Options.defaultExtensions else extensions
  let path ← (Resolver.ofRoot here.current extensions).resolve disk directory specifier
  return path.text ++ "\n"

/-- Runs a command; gives what it prints. -/
def run (here : Surroundings) : Command → Action Disk BuildError String
  | build config entries outputPath filename json =>
    runBuild here config ⟨entries, outputPath, filename⟩ json
  | resolve specifier base extensions => do
    let disk ← Action.get
    Action.ofReport (runResolve here disk specifier base extensions)

end Command

end Bundler
