import Bundler.Proofs.Report
import Bundler.Proofs.Table
import Bundler.Settings

/-! What settings stand for, field by field: the context, and seen from it the entries and the
output directory, and everything else as it is set or by default. -/

namespace Bundler.Settings

variable {settings : Settings} {options made : Options} {home : String} {base : Path}

/-- Only a text that begins with a tilde is changed. -/
theorem expandHome_of_head_ne {path : String} (h : path.toList.head? ≠ some '~') :
    expandHome home path = path := by
  unfold expandHome
  split
  · next hpath => simp [hpath] at h
  · next hpath => simp [hpath] at h
  · rfl

/-- The directory that other paths of the settings are seen from. -/
def contextDirectory (settings : Settings) (home : String) (base : Path) : Path :=
  (settings.contextPath home base).normalize

/-- Where a path of the settings leads. -/
def placeOf (settings : Settings) (home : String) (base : Path) (path : String) : Path :=
  ((settings.contextDirectory home base).join ⟨expandHome home path⟩).normalize

def entriesOf (settings : Settings) (home : String) (base : Path) (entry : EntrySetting) :
    Table Path :=
  Table.ofList (entry.toTable.entries.map fun entry =>
    (entry.1, settings.placeOf home base entry.2))

theorem entries_entriesOf (settings : Settings) (home : String) (base : Path)
    (entry : EntrySetting) :
    (settings.entriesOf home base entry).entries =
      entry.toTable.entries.map fun entry => (entry.1, settings.placeOf home base entry.2) := by
  refine Table.entries_ofList ?_
  rw [Table.names, List.map_map]
  exact entry.toTable.nodup

theorem keys_entriesOf (settings : Settings) (home : String) (base : Path) (entry : EntrySetting) :
    (settings.entriesOf home base entry).keys = entry.toTable.keys := by
  rw [Table.keys, Table.names, entries_entriesOf, List.map_map]
  rfl

theorem get?_entriesOf (settings : Settings) (home : String) (base : Path) (entry : EntrySetting)
    (name : String) :
    (settings.entriesOf home base entry).get? name =
      (entry.toTable.get? name).map (settings.placeOf home base) := by
  rw [Table.get?, entries_entriesOf, Table.lookup_map_snd, Table.get?]

def outputDirectory (settings : Settings) (home : String) (base : Path) : Path :=
  (settings.outputPath.map (settings.placeOf home base)).getD
    ((settings.contextDirectory home base).join ⟨"dist"⟩)

def template (settings : Settings) : String :=
  settings.filename.getD (Options.placeholder ++ ".js")

def triedExtensions (settings : Settings) : List String :=
  settings.extensions.getD Options.defaultExtensions

/-- The rules, unless one of their patterns cannot be read. -/
def builtRules (settings : Settings) : Except ConfigError (List Rule) :=
  settings.rules.mapM fun setting => Rule.ofText? setting.test setting.loaders

theorem addEntries_eq (home : String) (options : Options) (entries : List (String × String)) :
    addEntries home options entries =
      { options with
        entries := (entries.map fun entry =>
          (entry.1, options.absolute ⟨expandHome home entry.2⟩)).foldl
            (fun table entry => table.insert entry.1 entry.2) options.entries } := by
  induction entries generalizing options with
  | nil => rfl
  | cons entry entries ih =>
      have hrest := ih (options.withEntry entry.1 ⟨expandHome home entry.2⟩)
      rw [addEntries] at hrest ⊢
      rw [List.foldl_cons, hrest]
      simp only [Options.withEntry, Options.absolute, List.map_cons, List.foldl_cons]

theorem addRules_eq (options : Options) (rules : List RuleSetting) :
    addRules options rules = do
      let built ← rules.mapM fun setting => Rule.ofText? setting.test setting.loaders
      return { options with rules := options.rules ++ built } := by
  induction rules generalizing options with
  | nil =>
      rw [addRules, List.mapM_nil, pure_bind, List.append_nil]
      rfl
  | cons setting rest ih =>
      rw [addRules, List.mapM_cons]
      cases Rule.ofText? setting.test setting.loaders with
      | error error => rfl
      | ok rule =>
          refine (ih (options.withRule rule)).trans ?_
          cases rest.mapM fun setting => Rule.ofText? setting.test setting.loaders with
          | error error => rfl
          | ok built => simp [Options.withRule, bind, Except.bind, pure, Except.pure]

/-- What the settings for the context, the entries and the output path come to. -/
theorem withOutputPath_eq (settings : Settings) (home : String) (base : Path)
    (entry : EntrySetting) :
    let start := Options.ofContext (settings.contextPath home base)
    applySetting (fun options path => options.withOutputPath ⟨expandHome home path⟩)
        settings.outputPath (addEntries home start entry.toTable.entries) = {
      context := settings.contextDirectory home base
      entries := settings.entriesOf home base entry
      outputPath := settings.outputDirectory home base
      filename := start.filename
      extensions := start.extensions
      rules := [] } := by
  intro start
  rw [addEntries_eq, outputDirectory]
  cases settings.outputPath with
  | none => rfl
  | some path =>
      simp only [applySetting, Options.withOutputPath, Options.absolute, Option.map_some,
        Option.getD_some, placeOf]
      rfl

/-- What all settings but those for rules come to. -/
theorem withExtensions_eq (settings : Settings) (home : String) (base : Path)
    (entry : EntrySetting) :
    let start := Options.ofContext (settings.contextPath home base)
    applySetting Options.withExtensions settings.extensions
        (applySetting Options.withFilename settings.filename
          (applySetting (fun options path => options.withOutputPath ⟨expandHome home path⟩)
            settings.outputPath (addEntries home start entry.toTable.entries))) = {
      context := settings.contextDirectory home base
      entries := settings.entriesOf home base entry
      outputPath := settings.outputDirectory home base
      filename := settings.template
      extensions := settings.triedExtensions
      rules := [] } := by
  intro start
  rw [withOutputPath_eq, template, triedExtensions]
  cases settings.filename <;> cases settings.extensions <;> rfl

/-- Settings stand for options exactly if there are entries, all patterns can be read and the
options are valid. -/
theorem toOptions_eq_ok_iff :
    settings.toOptions home base = .ok options ↔ ∃ entry rules, settings.entry = some entry ∧
      settings.builtRules = .ok rules ∧ options.validate = .ok () ∧
      options = {
        context := settings.contextDirectory home base
        entries := settings.entriesOf home base entry
        outputPath := settings.outputDirectory home base
        filename := settings.template
        extensions := settings.triedExtensions
        rules := rules } := by
  let start := Options.ofContext (settings.contextPath home base)
  cases hentry : settings.entry with
  | none =>
      rw [toOptions, hentry]
      constructor
      · intro h
        cases h
      · rintro ⟨entry, -, h, -⟩
        cases h
  | some entry =>
      have hrun : settings.toOptions home base =
          (addRules (applySetting Options.withExtensions settings.extensions
            (applySetting Options.withFilename settings.filename
              (applySetting (fun options path => options.withOutputPath ⟨expandHome home path⟩)
                settings.outputPath (addEntries home start entry.toTable.entries))))
            settings.rules >>= fun made => made.validate >>= fun _ => pure made) := by
        rw [toOptions, hentry]
        rfl
      rw [hrun, withExtensions_eq, addRules_eq]
      simp only [bind_eq_ok_iff, List.nil_append]
      constructor
      · rintro ⟨made, ⟨rules, hrules, hmade⟩, _, hvalid, hsame⟩
        obtain rfl := Except.ok.inj hmade
        obtain rfl := Except.ok.inj hsame
        exact ⟨entry, rules, rfl, hrules, hvalid, rfl⟩
      · rintro ⟨_, rules, hsame, hrules, hvalid, rfl⟩
        obtain rfl := Option.some.inj hsame
        exact ⟨_, ⟨rules, hrules, rfl⟩, (), hvalid, rfl⟩

end Bundler.Settings
