import Bundler.Options
import Bundler.Plugin
import Bundler.Toml.Reader

/-!
# Settings

The configuration file of a project, and the options that it stands for.
-/

namespace Bundler

/-- The entries of a configuration: one path, or a path under each name. -/
inductive EntrySetting where
  | single (path : String)
  | named (paths : Table String)

namespace EntrySetting

/-- The entries by name; a single path is the entry `main`. -/
def toTable : EntrySetting → Table String
  | single path => Table.empty.insert "main" path
  | named paths => paths

end EntrySetting

/-- A rule as it is configured. -/
structure RuleSetting where
  test : String
  loaders : List String
deriving DecidableEq, Repr

/-- A configuration file. -/
structure Settings where
  context : Option String
  entry : Option EntrySetting
  outputPath : Option String
  filename : Option String
  extensions : Option (List String)
  rules : List RuleSetting
  plugins : List PluginSpec

namespace Settings

def empty : Settings := ⟨none, none, none, none, none, [], []⟩

def defaultName : String := "tinypack.toml"

/-! ### Reading values -/

def asText : Toml → Option String
  | .string text => some text
  | _ => none

/-- The fields of a table; a date counts as a table with a single field. -/
def asFields : Toml → Option (List (String × Toml))
  | .table fields => some fields
  | .dateTime text => some [(Toml.dateTimeField, .string text)]
  | _ => none

def asItems : Toml → Option (List Toml)
  | .array items => some items
  | _ => none

/-- The values of a record: its fields by name, or in the order of an array. -/
def asRecord (names : List String) : Toml → Option (List (Option Toml))
  | .array items => some (names.zipIdx.map fun name => items[name.2]?)
  | value => (asFields value).map fun fields => names.map fun name => fields.lookup name

/-- Reads a value that may be absent. -/
def optional {α : Type} (read : Toml → Option α) : Option Toml → Option (Option α)
  | none => some none
  | some value => (read value).map some

/-- Reads a value that may be absent, with a default. -/
def withDefault {α : Type} (default : α) (read : Toml → Option α) (value : Option Toml) :
    Option α :=
  (optional read value).map (·.getD default)

def asTexts (value : Toml) : Option (List String) := do
  (← asItems value).mapM asText

/-- The entries: a text or a table of texts. -/
def asEntry (value : Toml) : Option EntrySetting :=
  match asText value with
  | some path => some (.single path)
  | none => do
    let fields ← asFields value
    let pairs ← fields.mapM fun field => (asText field.2).map fun path => (field.1, path)
    return .named (Table.ofList pairs)

/-- The loaders of a rule: one name, or several. -/
def asLoaders (value : Toml) : Option (List String) :=
  match asText value with
  | some name => some [name]
  | none => asTexts value

def asRule (value : Toml) : Option RuleSetting := do
  match ← asRecord ["test", "use"] value with
  | [some test, some loaders] => return ⟨← asText test, ← asLoaders loaders⟩
  | _ => none

def asPlugin (value : Toml) : Option PluginSpec := do
  match ← asRecord ["name", "options"] value with
  | [some name, options] =>
    return ⟨← asText name, ← withDefault .null Toml.toJson options⟩
  | _ => none

def asOutput (value : Toml) : Option (Option String × Option String) := do
  match ← asRecord ["path", "filename"] value with
  | [path, filename] => return (← optional asText path, ← optional asText filename)
  | _ => none

def asResolve (value : Toml) : Option (Option (List String)) := do
  match ← asRecord ["extensions"] value with
  | [extensions] => optional asTexts extensions
  | _ => none

def asRules (value : Toml) : Option (List RuleSetting) := do
  (← asItems value).mapM asRule

def asModule (value : Toml) : Option (List RuleSetting) := do
  match ← asRecord ["rules"] value with
  | [rules] => withDefault [] asRules rules
  | _ => none

def asPlugins (value : Toml) : Option (List PluginSpec) := do
  (← asItems value).mapM asPlugin

/-- The settings of a document. Fields that are not known are ignored. -/
def ofFields? (fields : List (String × Toml)) : Option Settings := do
  let output ← withDefault (none, none) asOutput (fields.lookup "output")
  return {
    context := ← optional asText (fields.lookup "context")
    entry := ← optional asEntry (fields.lookup "entry")
    outputPath := output.1
    filename := output.2
    extensions := ← withDefault none asResolve (fields.lookup "resolve")
    rules := ← withDefault [] asModule (fields.lookup "module")
    plugins := ← withDefault [] asPlugins (fields.lookup "plugins") }

/-- Reads a document that came from the given path. -/
def ofText (source : Path) (text : String) : Except ConfigError Settings :=
  match Toml.ofText? text with
  | none => .error (.malformed source "invalid document")
  | some fields =>
    match ofFields? fields with
    | some settings => .ok settings
    | none => .error (.malformed source "invalid value")

def ofFile (disk : Disk) (path : Path) : Except ConfigError Settings :=
  match disk.readText path with
  | .ok text => ofText path text
  | .error error => .error (.unreadable path error.message)

/-! ### From settings to options -/

/-- Puts the home directory in place of a tilde that is the whole first component of a path. -/
def expandHome (home path : String) : String :=
  match path.toList with
  | ['~'] => home
  | '~' :: '/' :: rest => home ++ String.ofList ('/' :: rest)
  | _ => path

def addRules (options : Options) : List RuleSetting → Except ConfigError Options
  | [] => .ok options
  | setting :: rest => do
      let rule ← Rule.ofText? setting.test setting.loaders
      addRules (options.withRule rule) rest

def addEntries (home : String) (options : Options) (entries : List (String × String)) : Options :=
  entries.foldl (fun options entry => options.withEntry entry.1 ⟨expandHome home entry.2⟩) options

/-- Applies a change for a setting that is there. -/
def applySetting {α : Type} (change : Options → α → Options) (setting : Option α)
    (options : Options) : Options :=
  match setting with
  | some value => change options value
  | none => options

/-- The context directory: as it is set, seen from the directory of the file. -/
def contextPath (settings : Settings) (home : String) (base : Path) : Path :=
  match settings.context with
  | some context => base.join ⟨expandHome home context⟩
  | none => base

/-- The options that settings stand for. A relative context is read from the directory `base`,
and all other paths from the context. -/
def toOptions (settings : Settings) (home : String) (base : Path) :
    Except ConfigError Options := do
  let options := Options.ofContext (settings.contextPath home base)
  let entry ← match settings.entry with
    | some entry => Except.ok entry
    | none => Except.error (ConfigError.invalid "No entry configured")
  let options := addEntries home options entry.toTable.entries
  let options := applySetting (fun options path => options.withOutputPath ⟨expandHome home path⟩)
    settings.outputPath options
  let options := applySetting Options.withFilename settings.filename options
  let options := applySetting Options.withExtensions settings.extensions options
  let options ← addRules options settings.rules
  options.validate
  return options

end Settings

end Bundler
