import Bundler.CommandLine.Run
import Bundler.Proofs.Path.Canonical
import Bundler.Proofs.Settings

/-! Values from the command line in place of settings. Their paths are seen from the current
directory, and stay what they are when they are read as settings, whatever directory these are seen
from. -/

namespace Bundler.Overrides

open Settings (expandHome)

variable {overrides : Overrides} {here : Surroundings} {settings : Settings} {base : Path}
variable {options : Options}

/-- Where a path on the command line leads. -/
def placeOf (here : Surroundings) (path : String) : Path :=
  (here.current.join ⟨expandHome here.home path⟩).normalize

theorem isAbsolute_placeOf (hcurrent : here.current.isAbsolute = true) (path : String) :
    (placeOf here path).isAbsolute = true :=
  Path.isAbsolute_normalize (Path.isAbsolute_join _ hcurrent)

/-- A path that was read already does not begin with a tilde. -/
theorem expandHome_absolute (hcurrent : here.current.isAbsolute = true) (path : String) :
    expandHome here.home (absolute here path) = absolute here path := by
  have habsolute := isAbsolute_placeOf hcurrent path
  refine Settings.expandHome_of_head_ne fun hhead => ?_
  rw [Path.isAbsolute, show (placeOf here path).text = absolute here path from rfl, hhead]
    at habsolute
  cases habsolute

theorem normalize_join_absolute (hcurrent : here.current.isAbsolute = true) (directory : Path)
    (path : String) : (directory.join ⟨absolute here path⟩).normalize = placeOf here path := by
  have hplace : (⟨absolute here path⟩ : Path) = placeOf here path := rfl
  rw [hplace, Path.join_of_isAbsolute directory (isAbsolute_placeOf hcurrent path), placeOf,
    Path.normalize_normalize]

/-- Read as a setting it leads where it leads on the command line. -/
theorem placeOf_absolute (hcurrent : here.current.isAbsolute = true) (settings : Settings)
    (base : Path) (path : String) :
    settings.placeOf here.home base (absolute here path) = placeOf here path := by
  rw [Settings.placeOf, expandHome_absolute hcurrent, normalize_join_absolute hcurrent]

/-! ### Entries -/

theorem keys_entriesOf_entryTable (overrides : Overrides) (here : Surroundings)
    (settings : Settings) (base : Path) :
    (settings.entriesOf here.home base (.named (overrides.entryTable here))).keys =
      (overrides.entries.map Prod.fst).eraseDups := by
  rw [Settings.keys_entriesOf, EntrySetting.toTable, entryTable, Table.keys_ofList, Table.names,
    List.map_map]
  rfl

theorem get?_entriesOf_entryTable (hcurrent : here.current.isAbsolute = true)
    (overrides : Overrides) (settings : Settings) (base : Path) (name : String) :
    (settings.entriesOf here.home base (.named (overrides.entryTable here))).get? name =
      (overrides.entries.reverse.lookup name).map (placeOf here) := by
  have hplace : settings.placeOf here.home base ∘ absolute here = placeOf here := by
    funext path
    rw [Function.comp_apply, placeOf_absolute hcurrent]
  rw [Settings.get?_entriesOf, EntrySetting.toTable, entryTable, Table.get?_ofList,
    ← List.map_reverse, Table.lookup_map_snd, Option.map_map, hplace]

/-! ### What stays as it is set -/

theorem outputDirectory_apply (hcurrent : here.current.isAbsolute = true) (overrides : Overrides)
    (settings : Settings) (base : Path) :
    (overrides.apply here settings).outputDirectory here.home base =
      (overrides.outputPath.map fun path => placeOf here path.text).getD
        (settings.outputDirectory here.home base) := by
  rw [Settings.outputDirectory, apply]
  cases overrides.outputPath with
  | none => rfl
  | some path =>
      simp only [Option.map_some, Option.getD_some]
      exact placeOf_absolute hcurrent _ base path.text

theorem template_apply (overrides : Overrides) (here : Surroundings) (settings : Settings) :
    (overrides.apply here settings).template = overrides.filename.getD settings.template := by
  rw [Settings.template, apply]
  cases overrides.filename with
  | none => rfl
  | some filename => rfl

/-- Options from the command line do not depend on where the settings were found. If it names
entries, these are all there are, in the order in which their names came first and each at the last
path given for it; otherwise they are those that are set. Its output directory and file name
template stand in place of those that are set, and everything else is as it is set. -/
theorem apply_overrides (hcurrent : here.current.isAbsolute = true)
    (hoptions : (overrides.apply here settings).toOptions here.home base = .ok options) :
    (overrides.entries ≠ [] →
      options.entries.keys = (overrides.entries.map Prod.fst).eraseDups ∧
      ∀ name, options.entries.get? name =
        (overrides.entries.reverse.lookup name).map (placeOf here)) ∧
    (overrides.entries = [] → ∃ entry, settings.entry = some entry ∧
      options.entries = settings.entriesOf here.home base entry) ∧
    options.outputPath = (overrides.outputPath.map fun path => placeOf here path.text).getD
      (settings.outputDirectory here.home base) ∧
    options.filename = overrides.filename.getD settings.template ∧
    options.context = settings.contextDirectory here.home base ∧
    options.extensions = settings.triedExtensions ∧
    settings.builtRules = .ok options.rules ∧
    (∀ own, settings.toOptions here.home base = .ok own →
      (overrides.entries = [] → options.entries = own.entries) ∧
      (overrides.outputPath = none → options.outputPath = own.outputPath) ∧
      (overrides.filename = none → options.filename = own.filename) ∧
      options.context = own.context ∧ options.extensions = own.extensions ∧
      options.rules = own.rules) ∧
    ∀ path, expandHome here.home (absolute here path) = absolute here path ∧
      ∀ directory : Path, (directory.join ⟨absolute here path⟩).normalize = placeOf here path := by
  obtain ⟨entry, rules, hentry, hrules, -, rfl⟩ := Settings.toOptions_eq_ok_iff.mp hoptions
  have hset (hnone : overrides.entries = []) : settings.entry = some entry := by
    rw [← hentry, apply]
    simp [hnone]
  refine ⟨fun hsome => ?_, fun hnone => ⟨entry, hset hnone, rfl⟩,
    outputDirectory_apply hcurrent overrides settings base,
    template_apply overrides here settings, rfl, rfl, hrules, ?_, fun path => ?_⟩
  · have hnamed : EntrySetting.named (overrides.entryTable here) = entry := by
      rw [apply] at hentry
      simpa [hsome] using hentry
    subst hnamed
    exact ⟨keys_entriesOf_entryTable overrides here settings base,
      get?_entriesOf_entryTable hcurrent overrides settings base⟩
  · intro own hown
    obtain ⟨entry', rules', hentry', hrules', -, rfl⟩ := Settings.toOptions_eq_ok_iff.mp hown
    refine ⟨fun hnone => ?_, fun hnone => ?_, fun hnone => ?_, rfl, rfl, ?_⟩
    · obtain rfl := Option.some.inj ((hset hnone).symm.trans hentry')
      rfl
    · have houtput := outputDirectory_apply hcurrent overrides settings base
      rwa [hnone, Option.map_none, Option.getD_none] at houtput
    · have htemplate := template_apply overrides here settings
      rwa [hnone, Option.getD_none] at htemplate
    · exact Except.ok.inj (hrules.symm.trans hrules')
  · exact ⟨expandHome_absolute hcurrent path,
      fun directory => normalize_join_absolute hcurrent directory path⟩

/-- A name that is given twice, and settings that are seen from elsewhere. -/
theorem apply_overrides_repeated :
    let here : Surroundings := ⟨⟨"/work"⟩, "/home/me"⟩
    let overrides : Overrides :=
      ⟨[("b", "~/x.js"), ("a", "./src/../c.js"), ("b", "d.js")], some ⟨"~"⟩, none⟩
    let settings : Settings :=
      ⟨some "../other", some (.single "m.js"), some "out", some "[name].mjs", none, [], []⟩
    ∃ options, (overrides.apply here settings).toOptions here.home ⟨"/project"⟩ = .ok options ∧
      options.entries.keys = ["b", "a"] ∧ options.entries.get? "b" = some ⟨"/work/d.js"⟩ ∧
      options.entries.get? "m" = none ∧ options.outputPath = ⟨"/home/me"⟩ ∧
      options.filename = "[name].mjs" ∧ options.context = ⟨"/other"⟩ ∧
      options.extensions = [".js"] := by
  intro here overrides settings
  have hrun : ((overrides.apply here settings).toOptions here.home ⟨"/project"⟩).isOk = true := by
    decide +kernel
  obtain ⟨options, hoptions⟩ := exists_eq_ok hrun
  obtain ⟨hentries, -, houtput, hfilename, hcontext, hextensions, -⟩ :=
    apply_overrides (by decide +kernel) hoptions
  obtain ⟨hkeys, hvalues⟩ := hentries (by decide)
  refine ⟨options, hoptions, hkeys.trans (by decide +kernel), (hvalues "b").trans ?_,
    (hvalues "m").trans ?_, houtput.trans ?_, hfilename, hcontext.trans ?_, hextensions⟩
  all_goals decide +kernel

end Bundler.Overrides
