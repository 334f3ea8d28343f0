import Bundler.Compiler

/-!
# Plugins

A plugin adds taps to a compiler. The configuration names plugins and may give each of them
options.
-/

namespace Bundler

/-- A named way to add taps to a compiler. -/
structure Plugin where
  name : String
  apply : Compiler → Report Cause Compiler

namespace Plugin

/-- What a value is called where another kind of value was expected. -/
def describe : Json → String
  | .null => "null"
  | .bool value => s!"boolean `{value}`"
  | .number (.real isNegative value) =>
    s!"floating point `{(JsonNumber.real isNegative value).render}`"
  | .number value => s!"integer `{value.render}`"
  | .string value => s!"string {Text.inspect value}"
  | .array _ => "sequence"
  | .object _ => "map"

/-- The shape of the options of a plugin: one text, which may have a default. -/
structure OptionShape where
  typeName : String
  field : String
  default? : Option String

namespace OptionShape

/-- A value that has to be a text. -/
def readText : Json → Except String String
  | .string text => .ok text
  | other => .error s!"invalid type: {describe other}, expected a string"

/-- Reads the fields of an object in order; only the one field may occur. -/
def readFields (shape : OptionShape) : List (String × Json) → Option String → Except String String
  | [], some text => .ok text
  | [], none =>
    match shape.default? with
    | some text => .ok text
    | none => .error s!"missing field `{shape.field}`"
  | (key, value) :: rest, found =>
      if key = shape.field then do
        let text ← readText value
        readFields shape rest (found.orElse fun _ => some text)
      else .error s!"unknown field `{key}`, expected `{shape.field}`"

/-- Reads options, which are an object or the values of its fields in an array. -/
def read (shape : OptionShape) : Json → Except String String
  | .object fields => shape.readFields fields none
  | .array [] =>
    match shape.default? with
    | some text => .ok text
    | none => .error s!"invalid length 0, expected struct {shape.typeName} with 1 element"
  | .array (first :: rest) => do
    let text ← readText first
    if rest.isEmpty then .ok text
    else .error s!"invalid length {rest.length + 1}, expected fewer elements in array"
  | other => .error s!"invalid type: {describe other}, expected struct {shape.typeName}"

end OptionShape

/-- Logs the start of a build, its assets and its files. -/
def lifecycleLog : Plugin where
  name := "lifecycle-log"
  apply compiler := do
    let log (kind : HookKind) (subject : String) (count : Nat) : Report Cause Unit :=
      Report.log (.lifecycle kind subject count)
    let compiler ← compiler.tapRun
      ⟨"lifecycle-log", fun setup => log .run "entries" setup.options.entries.size⟩
    let compiler ← compiler.tapEmit
      ⟨"lifecycle-log", do
        let state ← Action.get
        Action.ofReport (log .emit "assets" state.assets.size)⟩
    compiler.tapDone ⟨"lifecycle-log", fun stats => log .done "files" stats.files.length⟩

/-- The manifest of a compilation: the asset path of every chunk, in order. -/
def manifestText (chunkAssets : Table String) : String :=
  (Json.object (chunkAssets.entries.map fun entry => (entry.1, .string entry.2))).pretty

/-- Emits an asset that tells the asset path of every chunk. -/
def manifest (filename : String) : Plugin where
  name := "manifest"
  apply compiler :=
    compiler.tapEmit
      ⟨"manifest", do
        let state ← Action.get
        Compilation.emit filename (manifestText state.chunkAssets)⟩

/-- Puts a text in front of every asset path. -/
def outputPrefix (text : String) : Plugin where
  name := "output-prefix"
  apply compiler :=
    compiler.tapCompilation
      ⟨"output-prefix", fun _ =>
        Compilation.tapAssetPath ⟨"output-prefix", fun _ path => .ok (text ++ path)⟩⟩

def manifestShape : OptionShape := ⟨"ManifestOptions", "filename", some "manifest.json"⟩

def outputPrefixShape : OptionShape := ⟨"OutputPrefixOptions", "prefix", none⟩

/-- The manifest of given options; no options stand for the default. -/
def manifestOf (options : Json) : Except String Plugin :=
  match options with
  | .null => .ok (manifest "manifest.json")
  | options => (manifestShape.read options).map manifest

def outputPrefixOf (options : Json) : Except String Plugin :=
  (outputPrefixShape.read options).map outputPrefix

end Plugin

/-- A plugin as a configuration asks for it. -/
structure PluginSpec where
  name : String
  options : Json
deriving Inhabited

/-- The plugins that a configuration may name, sorted. -/
structure PluginRegistry where
  factories : List (String × (Json → Except String Plugin))

namespace PluginRegistry

/-- No plugins. -/
def empty : PluginRegistry := ⟨[]⟩

/-- The plugins that are always there. -/
def builtin : PluginRegistry :=
  ⟨[("lifecycle-log", fun _ => .ok Plugin.lifecycleLog),
    ("manifest", Plugin.manifestOf),
    ("output-prefix", Plugin.outputPrefixOf)]⟩

def names (registry : PluginRegistry) : List String :=
  registry.factories.map Prod.fst

def contains (registry : PluginRegistry) (name : String) : Bool :=
  registry.names.contains name

/-- Makes the plugin that a configuration asks for. -/
def create (registry : PluginRegistry) (spec : PluginSpec) : Except BuildError Plugin :=
  match registry.factories.lookup spec.name with
  | none => .error (.config (.unknownPlugin spec.name))
  | some factory => (factory spec.options).mapError (.pluginFailed spec.name)

def createAll (registry : PluginRegistry) : List PluginSpec → Except BuildError (List Plugin)
  | [] => .ok []
  | spec :: rest => do
      let plugin ← registry.create spec
      let plugins ← createAll registry rest
      return plugin :: plugins

/-- The registry as it is shown to a developer. -/
def inspect (registry : PluginRegistry) : String :=
  "PluginRegistry \x7b plugins: " ++ Text.inspectList registry.names ++ " \x7d"

end PluginRegistry

namespace Compiler

def applyPlugin (compiler : Compiler) (plugin : Plugin) : Report BuildError Compiler := do
  Report.log (.pluginApplied plugin.name)
  (plugin.apply compiler).mapError fun cause => .pluginFailed plugin.name cause.render

def applyPlugins (compiler : Compiler) : List Plugin → Report BuildError Compiler
  | [] => .ok compiler
  | plugin :: rest => do
      let next ← compiler.applyPlugin plugin
      applyPlugins next rest

def create (options : Options) (loaders : LoaderRegistry) (plugins : List Plugin) :
    Report BuildError Compiler := do
  let compiler ← Report.ofExcept (ofSetup options loaders)
  compiler.applyPlugins plugins

end Compiler

end Bundler
