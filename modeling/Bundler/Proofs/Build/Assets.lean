import Bundler.Proofs.Build.Stages
import Bundler.Proofs.Disk.Writing
import Bundler.Proofs.Module.Chunks

/-! The files that a run leaves. Assets are told apart by their names, but files by their places.
Where the names of two assets denote the same file, the later one is written over the other. -/

namespace Bundler

/-- The text of a component that is a name. -/
def Path.Component.name? : Path.Component → Option String
  | .name text => some text
  | _ => none

namespace AssetName

/-- The file that an asset name denotes: the names that lead to it, without any `.`. -/
def file (name : String) : Place :=
  (Path.mk name).components.filterMap Path.Component.name?

/-- The text of the last asset that denotes the same file as a name. -/
def lastText? (assets : List (String × String)) (name : String) : Option String :=
  ((assets.filter fun asset => file asset.1 = file name).getLast?).map Prod.snd

variable {assets : List (String × String)} {name : String}

/-! ### Names and files -/

theorem lastText?_append (assets : List (String × String)) (asset : String × String)
    (name : String) :
    lastText? (assets ++ [asset]) name =
      if file asset.1 = file name then some asset.2 else lastText? assets name := by
  by_cases h : file asset.1 = file name
  · simp [lastText?, List.filter_append, h]
  · simp [lastText?, List.filter_append, h]

theorem exists_of_lastText? {text : String} (h : lastText? assets name = some text) :
    ∃ asset ∈ assets, file asset.1 = file name ∧ asset.2 = text := by
  obtain ⟨asset, hlast, rfl⟩ := Option.map_eq_some_iff.mp h
  have hmem := List.mem_of_getLast? hlast
  rw [List.mem_filter, decide_eq_true_iff] at hmem
  exact ⟨asset, hmem.1, hmem.2, rfl⟩

theorem lastText?_congr {other : String} (h : file name = file other) :
    lastText? assets name = lastText? assets other := by
  rw [lastText?, h, lastText?]

/-- Each asset is the last one that denotes its file, as far as texts go, exactly if no two of
different texts denote the same file. -/
theorem lastText?_own_iff :
    (∀ asset ∈ assets, lastText? assets asset.1 = some asset.2) ↔
      ∀ asset ∈ assets, ∀ other ∈ assets, file asset.1 = file other.1 → asset.2 = other.2 := by
  constructor
  · intro hown asset hasset other ho hfile
    have htext := hown asset hasset
    rw [lastText?_congr hfile, hown other ho] at htext
    exact (Option.some.inj htext).symm
  · intro hsame asset hasset
    cases htext : lastText? assets asset.1 with
    | none =>
        have hnone := List.getLast?_eq_none_iff.mp (Option.map_eq_none_iff.mp htext)
        exact absurd (decide_eq_true rfl) (List.filter_eq_nil_iff.mp hnone asset hasset)
    | some text =>
        obtain ⟨last, hlast, hfile, rfl⟩ := exists_of_lastText? htext
        rw [hsame last hlast asset hasset hfile]

theorem foldl_step_of_allowed {parts : List Path.Component} (here : Place)
    (h : ∀ part ∈ parts, problemOfComponent? part = none) :
    parts.foldl Place.step here = here ++ parts.filterMap Path.Component.name? := by
  induction parts generalizing here with
  | nil => simp
  | cons part rest ih =>
      have hpart := h part List.mem_cons_self
      rw [List.foldl_cons, ih _ fun other ho => h other (List.mem_cons_of_mem part ho)]
      cases part with
      | root => cases hpart
      | parent => cases hpart
      | current => rfl
      | name text => exact List.append_assoc here [text] _

theorem allowed_of_check (h : check name = .ok ()) :
    ∀ part ∈ (Path.mk name).components, problemOfComponent? part = none := by
  unfold check problem? at h
  by_cases hempty : name.isEmpty = true
  · simp [hempty] at h
  · cases hfound : (Path.mk name).components.findSome? problemOfComponent? with
    | some problem => simp [hempty, hfound] at h
    | none => exact List.findSome?_eq_none_iff.mp hfound

/-- A name that passes the check leads straight down from the directory to its file. -/
theorem place_of_check (h : check name = .ok ()) (directory : Path) (base : Place) :
    (directory.join ⟨name⟩).place base = directory.place base ++ file name := by
  rw [Path.place_join]
  exact foldl_step_of_allowed _ (allowed_of_check h)

end AssetName

namespace Site

theorem checkNames_eq_ok {names : List String} (h : checkNames names = .ok ()) :
    ∀ name ∈ names, AssetName.check name = .ok () := by
  induction names with
  | nil => exact fun _ hname => absurd hname List.not_mem_nil
  | cons first rest ih =>
      obtain ⟨_, hfirst, hrest⟩ := bind_eq_ok_iff.mp h
      intro name hname
      rcases List.mem_cons.mp hname with rfl | hname
      · exact hfirst
      · exact ih hrest name hname

/-! ### Writing assets one after the other -/

/-- The files that were written are those of some assets, in order, and each holds the text of
the last of them that denotes it. -/
structure Wrote (site : Site) (directory : Path) (assets : List (String × String)) : Prop where
  files : site.compilation.files = Table.names assets
  held : ∀ asset ∈ assets, ∃ text, AssetName.lastText? assets asset.1 = some text ∧
    site.disk.Holds (directory.join ⟨asset.1⟩) text

variable {site : Site} {directory : Path} {assets : List (String × String)}

theorem makeParent_state (target : Path) (site : Site) :
    (makeParent target site).state.compilation = site.compilation ∧
      site.disk.Grows (makeParent target site).state.disk := by
  unfold makeParent
  cases target.parent? with
  | none => exact ⟨rfl, .refl site.disk⟩
  | some parent => exact ⟨rfl, Disk.grows_makeDirectories site.disk parent⟩

theorem writeFile_eq_ok {path : Path} {text : String}
    (h : (writeFile path text site).result = .ok ()) :
    site.disk.writeText path text = .ok (writeFile path text site).state.disk ∧
      (writeFile path text site).state.compilation = site.compilation := by
  unfold writeFile at h ⊢
  cases hwrite : site.disk.writeText path text with
  | error error =>
      simp only [hwrite] at h
      cases h
  | ok disk => exact ⟨rfl, rfl⟩

theorem writeAsset_eq_ok {name source : String}
    (h : (writeAsset directory name source site).result = .ok ()) :
    ∃ made after : Disk, site.disk.Grows made ∧
      made.writeText (directory.join ⟨name⟩) source = .ok after ∧
      (writeAsset directory name source site).state =
        ⟨{ site.compilation with files := site.compilation.files ++ [name] }, after⟩ := by
  rw [writeAsset] at h ⊢
  obtain ⟨hkept, hgrows⟩ := makeParent_state (directory.join ⟨name⟩) site
  obtain ⟨_, -, h, hparent⟩ := Action.bind_eq_ok h
  obtain ⟨_, hfile, h, hwritten⟩ := Action.bind_eq_ok h
  obtain ⟨_, -, -, hlog⟩ := Action.bind_eq_ok h
  obtain ⟨hwrite, hcompilation⟩ := writeFile_eq_ok hfile
  refine ⟨_, _, hgrows, hwrite, ?_⟩
  rw [hparent, hwritten, hlog, ← hkept, ← hcompilation]
  rfl

/-- One step: an asset that is written takes the place of those that denote the same file. -/
theorem Wrote.writeAsset {name source : String} (h : site.Wrote directory assets)
    (hchecked : ∀ asset ∈ assets ++ [(name, source)], AssetName.check asset.1 = .ok ())
    (hok : (Site.writeAsset directory name source site).result = .ok ()) :
    (Site.writeAsset directory name source site).state.Wrote directory
      (assets ++ [(name, source)]) := by
  obtain ⟨made, after, hgrows, hwrite, hstate⟩ := writeAsset_eq_ok hok
  rw [hstate]
  refine ⟨?_, ?_⟩
  · simp [h.files, Table.names]
  · intro asset hasset
    have hplace : ∀ {base}, (directory.join ⟨asset.1⟩).place base =
        (directory.join ⟨name⟩).place base ↔ AssetName.file name = AssetName.file asset.1 := by
      intro base
      rw [AssetName.place_of_check (hchecked asset hasset),
        AssetName.place_of_check (hchecked (name, source) (by simp)), List.append_cancel_left_eq,
        eq_comm]
    rw [AssetName.lastText?_append]
    rcases List.mem_append.mp hasset with hbefore | hnew
    · obtain ⟨text, htext, hheld⟩ := h.held asset hbefore
      have hafter := (hheld.grows hgrows).writeText hwrite
      refine ⟨_, ?_, hafter⟩
      by_cases hsame : AssetName.file name = AssetName.file asset.1
      · rw [if_pos hsame, if_pos (hplace.mpr hsame)]
      · rw [if_neg hsame, if_neg (mt hplace.mp hsame), htext]
    · obtain rfl := List.mem_singleton.mp hnew
      exact ⟨source, if_pos rfl, Disk.holds_of_writeText hwrite⟩

/-- A whole run. -/
theorem Wrote.writeAll {rest : List (String × String)} (h : site.Wrote directory assets)
    (hchecked : ∀ asset ∈ assets ++ rest, AssetName.check asset.1 = .ok ())
    (hok : (Site.writeAll directory rest site).result = .ok ()) :
    (Site.writeAll directory rest site).state.Wrote directory (assets ++ rest) := by
  induction rest generalizing site assets with
  | nil =>
      rw [List.append_nil]
      exact h
  | cons asset rest ih =>
      obtain ⟨name, source⟩ := asset
      rw [Site.writeAll] at hok ⊢
      obtain ⟨_, hasset, hrest, hstate⟩ := Action.bind_eq_ok hok
      rw [List.append_cons] at hchecked ⊢
      have hnext := h.writeAsset (fun other ho => hchecked other (List.mem_append_left _ ho)) hasset
      rw [hstate]
      exact ih hnext hchecked hrest

/-- Writing all assets of a compilation that has written none yet. -/
theorem wrote_writeAssets (site : Site) (hfiles : site.compilation.files = [])
    (h : (writeAssets site).result = .ok ()) :
    (writeAssets site).state.Wrote site.compilation.options.outputPath
      site.compilation.assets.entries := by
  rw [writeAssets] at h ⊢
  obtain ⟨_, hget, h, hstart⟩ := Action.bind_eq_ok h
  obtain rfl := Except.ok.inj hget
  obtain ⟨_, hnames, h, hchecked⟩ := Action.bind_eq_ok h
  obtain ⟨_, -, hall, hmade⟩ := Action.bind_eq_ok h
  rw [hstart, hchecked, hmade]
  have hcheck : ∀ asset ∈ site.compilation.assets.entries, AssetName.check asset.1 = .ok () :=
    fun asset hasset => checkNames_eq_ok hnames asset.1 (List.mem_map_of_mem hasset)
  have hnone : ∀ disk, Wrote ⟨site.compilation, disk⟩ site.compilation.options.outputPath [] :=
    fun _ => ⟨hfiles, by simp⟩
  exact (hnone _).writeAll hcheck hall

end Site

namespace Compilation

/-- Neither the output directory nor the list of files has changed. -/
structure SameOutput (before after : Compilation) : Prop where
  directory : after.options.outputPath = before.options.outputPath
  files : after.files = before.files

theorem SameOutput.refl (state : Compilation) : SameOutput state state :=
  ⟨rfl, rfl⟩

theorem SameOutput.trans {first second third : Compilation} (h : SameOutput first second)
    (h' : SameOutput second third) : SameOutput first third :=
  ⟨h'.directory.trans h.directory, h'.files.trans h.files⟩

theorem SameBuild.sameOutput {before after : Compilation} (h : SameBuild before after) :
    SameOutput before after :=
  ⟨congrArg Options.outputPath h.options, h.files⟩

theorem sameOutput_buildModules (disk : Disk) (loaders : LoaderRegistry) (state : Compilation) :
    SameOutput state (buildModules disk loaders state).state :=
  rel_buildModules .refl .trans (fun _ _ _ _ => ⟨rfl, rfl⟩) disk loaders state

end Compilation

namespace Compiler

variable {compiler : Compiler} {disk : Disk}

theorem sameOutput_compile {compilation : Compilation}
    (htaps : ∀ tap ∈ compiler.compilation.taps, ∀ params state,
      Compilation.SameOutput state (tap.call params state).state)
    (hemit : ∀ tap ∈ compiler.emit.taps, ∀ state,
      Compilation.SameOutput state (tap.call state).state)
    (h : (compiler.compile disk).result = .ok compilation) :
    Compilation.SameOutput (.ofOptions compiler.setup.options) compilation := by
  obtain ⟨-, -, rfl⟩ := compile_eq_ok h
  have hprepared : Compilation.SameOutput (.ofOptions compiler.setup.options) compiler.prepared :=
    Hook.rel_callTaps Compilation.SameOutput.refl Compilation.SameOutput.trans _ _
      (fun tap ht state => htaps tap ht _ state) _
  refine hprepared.trans ?_
  refine (Compilation.sameOutput_buildModules disk compiler.setup.loaders _).trans ?_
  refine (Compilation.sameBuild_createAssets _).sameOutput.trans ?_
  exact Hook.rel_callTaps Compilation.SameOutput.refl Compilation.SameOutput.trans _ _ hemit _

/-- A successful run lists its files in the order of the assets, and each of them holds the text of
the last asset that denotes it, if no tap meddles with the output directory or the list of files.
So every asset is found as it was made exactly if no two assets of different texts denote the same
file. -/
theorem build_writes_assets {stats : Stats}
    (htaps : ∀ tap ∈ compiler.compilation.taps, ∀ params state,
      Compilation.SameOutput state (tap.call params state).state)
    (hemit : ∀ tap ∈ compiler.emit.taps, ∀ state,
      Compilation.SameOutput state (tap.call state).state)
    (h : (compiler.build disk).result = .ok stats) :
    let after := (compiler.build disk).state
    let target (name : String) : Path := compiler.setup.options.outputPath.join ⟨name⟩
    let assets := stats.assets.entries
    stats.files = stats.assets.keys ∧
      (∀ asset ∈ assets, ∃ text, AssetName.lastText? assets asset.1 = some text ∧
        after.readText (target asset.1) = .ok text) ∧
      ((∀ asset ∈ assets, after.readText (target asset.1) = .ok asset.2) ↔
        ∀ asset ∈ assets, ∀ other ∈ assets,
          AssetName.file asset.1 = AssetName.file other.1 → asset.2 = other.2) := by
  intro after target assets
  obtain ⟨compilation, hcompile, hok, rfl, hafter⟩ := build_eq_ok h
  have hsame := sameOutput_compile htaps hemit hcompile
  have hwrote := Site.wrote_writeAssets ⟨compilation, disk⟩ hsame.files hok
  have hkept : (Site.writeAssets ⟨compilation, disk⟩).state.compilation.assets =
      compilation.assets := by rw [Site.sameAssets_writeAssets ⟨compilation, disk⟩]
  have hassets : assets = compilation.assets.entries := congrArg Table.entries hkept
  have hread : ∀ asset ∈ assets, ∃ text, AssetName.lastText? assets asset.1 = some text ∧
      after.readText (target asset.1) = .ok text := by
    rw [hassets]
    intro asset hasset
    obtain ⟨text, htext, hheld⟩ := hwrote.held asset hasset
    refine ⟨text, htext, ?_⟩
    rw [hsame.directory] at hheld
    rw [show after = _ from hafter]
    exact hheld.readText
  have hown : ∀ asset ∈ assets, after.readText (target asset.1) = .ok asset.2 ↔
      AssetName.lastText? assets asset.1 = some asset.2 := by
    intro asset hasset
    obtain ⟨text, htext, htold⟩ := hread asset hasset
    rw [htext, htold, Except.ok.injEq, Option.some.injEq]
  refine ⟨hwrote.files.trans (congrArg Table.names hassets.symm), hread, ?_⟩
  rw [← AssetName.lastText?_own_iff]
  exact forall₂_congr hown

set_option maxRecDepth 100000 in
theorem build_writes_assets_overwritten :
    let disk : Disk := ⟨⟨[(["r"], .directory), (["r", "a.js"], .file "exports.x = 1;".toUTF8),
      (["r", "b.js"], .file "exports.x = 2;".toUTF8)]⟩, []⟩
    let options := ((Options.ofContext ⟨"/r"⟩).withEntry "a" ⟨"a.js"⟩).withEntry "./a" ⟨"b.js"⟩
    let notes : Tap EmitTap := ⟨"notes", Compilation.emit "notes.txt" "built"⟩
    let compiler : Compiler :=
      ⟨⟨options, .empty⟩, .ofKind .run, .ofKind .compilation, ⟨.emit, [notes]⟩, .ofKind .done⟩
    ∃ stats, (compiler.build disk).result = .ok stats ∧
      stats.files = ["a.js", "./a.js", "notes.txt"] ∧
      ∃ asset ∈ stats.assets.entries,
        (compiler.build disk).state.readText (Path.join ⟨"/r/dist"⟩ ⟨asset.1⟩) ≠ .ok asset.2 := by
  intro disk options notes compiler
  have hok : (compiler.build disk).result.isOk = true := by decide +kernel
  have hclash : ((compiler.build disk).result.map fun stats =>
      (stats.files, decide (∀ asset ∈ stats.assets.entries, ∀ other ∈ stats.assets.entries,
        AssetName.file asset.1 = AssetName.file other.1 → asset.2 = other.2))).toOption =
      some (["a.js", "./a.js", "notes.txt"], false) := by
    decide +kernel
  obtain ⟨stats, h⟩ := exists_eq_ok hok
  rw [h] at hclash
  obtain ⟨hfiles, htexts⟩ := Prod.mk.inj (Option.some.inj hclash)
  have hemit : ∀ tap ∈ compiler.emit.taps, ∀ state,
      Compilation.SameOutput state (tap.call state).state := by
    intro tap ht state
    obtain rfl : tap = notes := List.mem_singleton.mp ht
    exact ⟨rfl, rfl⟩
  obtain ⟨-, -, hexact⟩ := build_writes_assets (by simp [compiler, Hook.ofKind]) hemit h
  refine ⟨stats, h, hfiles, ?_⟩
  by_contra hnone
  push Not at hnone
  exact of_decide_eq_false htexts (hexact.mp hnone)

end Compiler

end Bundler
