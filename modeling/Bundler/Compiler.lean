import Bundler.Compilation
import Bundler.Loader

/-!
# Compilers

A compiler holds options, loaders and the taps that are called while a build runs.
-/

namespace Bundler

/-- What a build works with. -/
structure Setup where
  options : Options
  loaders : LoaderRegistry

/-- What the taps of a fresh compilation are told. -/
structure CompilationParams where
  context : Path
  outputPath : Path

/-- The summary of a finished build. -/
structure Stats where
  entries : Table String
  modules : List Module
  chunks : List Chunk
  files : List String
  assets : Table String

namespace Stats

def ofCompilation (compilation : Compilation) : Stats :=
  { entries := compilation.entries
    modules := compilation.graph.modules
    chunks := compilation.chunks
    files := compilation.files
    assets := compilation.assets }

/-- The names and texts of a table as an object. -/
def jsonOfTable (table : Table String) : Json :=
  .ofFields (table.entries.map fun entry => (entry.1, .string entry.2))

/-- A module without its texts. -/
def jsonOfModule (module : Module) : Json :=
  .ofFields [
    ("id", .string module.id),
    ("owning_entries", .strings module.owners),
    ("dependencies", .strings module.dependencies)]

def jsonOfChunk (chunk : Chunk) : Json :=
  .ofFields [
    ("name", .string chunk.name),
    ("entry_module", jsonOfModule chunk.entryModule),
    ("modules", .array (chunk.modules.map jsonOfModule))]

/-- The summary as JSON. -/
def toJson (stats : Stats) : Json :=
  .ofFields [
    ("entries", jsonOfTable stats.entries),
    ("modules", .array (stats.modules.map jsonOfModule)),
    ("chunks", .array (stats.chunks.map jsonOfChunk)),
    ("files", .strings stats.files),
    ("assets", jsonOfTable stats.assets)]

end Stats

/-- A tap that is called when a build starts. -/
abbrev RunTap := Setup → Report Cause Unit

/-- A tap that is called on a fresh compilation. -/
abbrev CompilationTap := CompilationParams → Action Compilation Cause Unit

/-- A tap that is called before assets are written. -/
abbrev EmitTap := Action Compilation Cause Unit

/-- A tap that is called after assets were written. -/
abbrev DoneTap := Stats → Report Cause Unit

/-- A setup with the taps of every hook. -/
structure Compiler where
  setup : Setup
  run : Hook RunTap
  compilation : Hook CompilationTap
  emit : Hook EmitTap
  done : Hook DoneTap

namespace Compiler

/-- A compiler without taps. The options have to be valid and the rules may only name
registered loaders. -/
def ofSetup (options : Options) (loaders : LoaderRegistry) : Except BuildError Compiler := do
  options.validate.mapError BuildError.config
  loaders.validate options.rules
  return {
    setup := ⟨options, loaders⟩
    run := .ofKind .run
    compilation := .ofKind .compilation
    emit := .ofKind .emit
    done := .ofKind .done }

/-- Adds a tap that is called when a build starts. -/
def tapRun {ε : Type} (compiler : Compiler) (tap : Tap RunTap) : Report ε Compiler :=
  ⟨[compiler.run.registered tap], .ok { compiler with run := compiler.run.add tap }⟩

/-- Adds a tap that is called on a fresh compilation. -/
def tapCompilation {ε : Type} (compiler : Compiler) (tap : Tap CompilationTap) :
    Report ε Compiler :=
  ⟨[compiler.compilation.registered tap],
    .ok { compiler with compilation := compiler.compilation.add tap }⟩

/-- Adds a tap that is called before assets are written. -/
def tapEmit {ε : Type} (compiler : Compiler) (tap : Tap EmitTap) : Report ε Compiler :=
  ⟨[compiler.emit.registered tap], .ok { compiler with emit := compiler.emit.add tap }⟩

/-- Adds a tap that is called after assets were written. -/
def tapDone {ε : Type} (compiler : Compiler) (tap : Tap DoneTap) : Report ε Compiler :=
  ⟨[compiler.done.registered tap], .ok { compiler with done := compiler.done.add tap }⟩

end Compiler

end Bundler
