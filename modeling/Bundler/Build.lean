import Bundler.Compiler
import Bundler.Module.Build

/-!
# Builds

One run of a compiler: its taps are called, modules are built, and assets are made and written.
Nothing is written unless all that comes before succeeds.
-/

namespace Bundler

namespace Compiler

/-- What a run does to its compilation before anything is written. -/
def stages (compiler : Compiler) (disk : Disk) : Action Compilation BuildError Unit := do
  let options := compiler.setup.options
  Action.log (.buildStarted options.context options.entries.size)
  Action.ofReport (compiler.run.observe fun tap => tap compiler.setup)
  let params : CompilationParams := ⟨options.context, options.outputPath⟩
  compiler.compilation.callAll fun tap => tap params
  Compilation.buildModules disk compiler.setup.loaders
  Compilation.createAssets
  compiler.emit.callAll fun tap => tap

/-- The compilation with all its assets, before anything is written. -/
def compile (compiler : Compiler) (disk : Disk) : Report BuildError Compilation :=
  let outcome := compiler.stages disk (Compilation.ofOptions compiler.setup.options)
  ⟨outcome.events,
    match outcome.result with
    | .ok () => .ok outcome.state
    | .error error => .error error⟩

def write (compilation : Compilation) : Action Disk BuildError Compilation := fun disk =>
  let outcome := Site.writeAssets ⟨compilation, disk⟩
  ⟨outcome.state.disk, outcome.events,
    match outcome.result with
    | .ok () => .ok outcome.state.compilation
    | .error error => .error error⟩

def build (compiler : Compiler) : Action Disk BuildError Stats := do
  let disk ← Action.get
  let compilation ← Action.ofReport (compiler.compile disk)
  let compilation ← write compilation
  let stats := Stats.ofCompilation compilation
  Action.ofReport (compiler.done.observe fun tap => tap stats)
  Action.log (.buildFinished stats.modules.length stats.chunks.length stats.files.length)
  return stats

end Compiler

end Bundler
