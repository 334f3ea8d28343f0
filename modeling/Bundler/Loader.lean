import Bundler.Json.Printer
import Bundler.Json.Reader
import Bundler.Options
import Bundler.Report

/-!
# Loaders

A loader turns the text of a module into another text before the module is read as a program.
The loaders of all rules that apply to a file run one after another, the last one first.
-/

namespace Bundler

/-- The file that a loader works on, the root of module ids, and the entry that led to the
file. -/
structure LoaderContext where
  resourcePath : Path
  rootPath : Path
  entry : String
deriving Inhabited

/-- The path of the file as rules see it. -/
def LoaderContext.resource (context : LoaderContext) : String :=
  context.resourcePath.unixText

abbrev Loader := String → LoaderContext → Report Cause String

namespace Loader

/-- The character that may mark the start of a text. -/
def byteOrderMark : Char := '\uFEFF'

/-- A text without the mark at its start. -/
def withoutMark (text : String) : String :=
  match text.toList with
  | [] => text
  | c :: rest => if c = byteOrderMark then String.ofList rest else text

def stripMark : Loader := fun source _ => .ok (withoutMark source)

/-- Turns a JSON document into a module that exports its value. -/
def json : Loader := fun source context =>
  let document := withoutMark source
  match Json.parse document with
  | .ok _ => .ok s!"module.exports = JSON.parse({Json.quote document});\n"
  | .error reason => .fail (.ofMessage s!"invalid JSON in {context.resource}: {reason}")

end Loader

/-- The loaders that rules may name, in the order of their names. -/
structure LoaderRegistry where
  loaders : List (String × Loader)
deriving Inhabited

namespace LoaderRegistry

/-- No loaders. -/
def empty : LoaderRegistry := ⟨[]⟩

/-- Puts a loader under its name in sorted order, in place of one with the same name. -/
def registerIn (name : String) (loader : Loader) :
    List (String × Loader) → List (String × Loader)
  | [] => [(name, loader)]
  | (other, old) :: rest =>
      if name = other then (name, loader) :: rest
      else if name < other then (name, loader) :: (other, old) :: rest
      else (other, old) :: registerIn name loader rest

def register (registry : LoaderRegistry) (name : String) (loader : Loader) : LoaderRegistry :=
  ⟨registerIn name loader registry.loaders⟩

/-- The loaders that are always there. -/
def builtin : LoaderRegistry :=
  (empty.register "strip-bom" Loader.stripMark).register "json" Loader.json

def get? (registry : LoaderRegistry) (name : String) : Option Loader :=
  registry.loaders.lookup name

/-- The registered names, sorted. -/
def names (registry : LoaderRegistry) : List String :=
  registry.loaders.map Prod.fst

def contains (registry : LoaderRegistry) (name : String) : Bool :=
  registry.names.contains name

/-- Every loader that a rule names has to be registered. -/
def validate (registry : LoaderRegistry) (rules : List Rule) : Except BuildError Unit :=
  match (rules.flatMap Rule.loaders).find? fun name => !registry.contains name with
  | some name => .error (.unknownLoader name)
  | none => .ok ()

/-- The registry as it is shown to a developer. -/
def inspect (registry : LoaderRegistry) : String :=
  "LoaderRegistry \x7b loaders: " ++ Text.inspectList registry.names ++ " \x7d"

end LoaderRegistry

namespace Loader

/-- The loaders of the rules that apply to a path, in the order of the rules. -/
def matching (rules : List Rule) (resource : String) : List String :=
  (rules.filter fun rule => rule.appliesTo resource).flatMap Rule.loaders

def runNamed (registry : LoaderRegistry) (context : LoaderContext) (name source : String) :
    Report BuildError String :=
  match registry.get? name with
  | none => .fail (.unknownLoader name)
  | some loader => do
      Report.log (.loaderCalled name context.resource)
      (loader source context).mapError fun cause =>
        .loaderFailed name context.resource cause.render

/-- Runs loaders in the given order, each on the text that the one before it left. -/
def runAll (registry : LoaderRegistry) (context : LoaderContext) :
    List String → String → Report BuildError String
  | [], source => .ok source
  | name :: rest, source => do
      let next ← runNamed registry context name source
      runAll registry context rest next

/-- The text of a module after the loaders of all rules that apply to it, the last one first. -/
def apply (rules : List Rule) (registry : LoaderRegistry) (context : LoaderContext)
    (source : String) : Report BuildError String :=
  runAll registry context (matching rules context.resource).reverse source

end Loader

end Bundler
