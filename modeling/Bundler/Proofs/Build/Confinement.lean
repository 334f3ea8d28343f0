import Bundler.Proofs.Build.Assets
import Bundler.Proofs.Disk.Changes
import Bundler.Proofs.Path.Normal

/-! Where a run writes. An asset name that passes the check leads straight down from the output
directory, so that nothing changes outside of it but for directories that are made above it. -/

namespace Bundler

namespace AssetName

variable {name : String}

theorem isAbsolute_of_check (h : check name = .ok ()) : Path.isAbsolute ⟨name⟩ = false := by
  by_contra habsolute
  rw [Bool.not_eq_false] at habsolute
  have hroot := Path.isAbsolute_iff_mem.mp habsolute
  cases allowed_of_check h _ hroot

/-- A name that passes the check adds names to a directory, and `.` at most beside them. -/
theorem components_join_of_check (h : check name = .ok ()) (directory : Path) :
    ∃ rest, (directory.join ⟨name⟩).components = directory.components ++ rest ∧
      (∀ part ∈ rest, problemOfComponent? part = none) ∧
      rest.filterMap Path.Component.name? = file name := by
  have hallowed := allowed_of_check h
  by_cases hempty : directory.text.toList = []
  · refine ⟨(Path.mk name).components, ?_, hallowed, rfl⟩
    rw [Path.join_of_empty hempty, Path.components, Path.components, hempty]
    rfl
  · refine ⟨Path.componentsOfSegments (Path.segments name.toList),
      Path.components_join hempty (isAbsolute_of_check h), ?_, ?_⟩
    · intro part hp
      refine hallowed part ?_
      rw [Path.components_eq]
      exact List.mem_append_right _ hp
    · rw [file, Path.components_eq, List.filterMap_append, Path.lead, isAbsolute_of_check h,
        if_neg Bool.false_ne_true]
      split
      · rfl
      · rfl

theorem foldl_stepNormal_of_allowed {rest : List Path.Component} (stack : List Path.Component)
    (h : ∀ part ∈ rest, problemOfComponent? part = none) :
    rest.foldl Path.stepNormal stack =
      ((rest.filterMap Path.Component.name?).map .name).reverse ++ stack := by
  induction rest generalizing stack with
  | nil => rfl
  | cons part rest ih =>
      obtain ⟨hpart, hrest⟩ := List.forall_mem_cons.mp h
      rw [List.foldl_cons, ih _ hrest]
      cases part with
      | root => cases hpart
      | parent => cases hpart
      | current => rfl
      | name text => simp [Path.stepNormal, Path.Component.name?]

/-- The normal form of an asset's path is that of the directory, and then names. -/
theorem normalComponents_of_check (h : check name = .ok ()) (directory : Path) :
    Path.normalComponents (directory.join ⟨name⟩).components =
      Path.normalComponents directory.components ++ (file name).map .name := by
  obtain ⟨rest, hcomponents, hallowed, hfile⟩ := components_join_of_check h directory
  rw [hcomponents, Path.normalComponents, List.foldl_append,
    foldl_stepNormal_of_allowed _ hallowed, List.reverse_append, List.reverse_reverse, hfile,
    Path.normalComponents]

/-- What is above an asset is above its directory or below it. -/
theorem place_of_front {front : Path} (h : check name = .ok ()) (directory : Path) (base : Place)
    (hfront : front.components <+: (directory.join ⟨name⟩).components) :
    directory.place base <+: front.place base ∨ front.components <+: directory.components := by
  obtain ⟨rest, hcomponents, hallowed, -⟩ := components_join_of_check h directory
  rw [hcomponents] at hfront
  rcases List.prefix_or_prefix_of_prefix hfront (List.prefix_append _ rest) with habove | hbelow
  · exact .inr habove
  · obtain ⟨down, hdown⟩ := hbelow
    rw [← hdown, List.prefix_append_right_inj] at hfront
    refine .inl ⟨down.filterMap Path.Component.name?, ?_⟩
    rw [Path.place, Path.place, ← hdown, List.foldl_append]
    exact (foldl_step_of_allowed _ fun part hp => hallowed part (hfront.subset hp)).symm

end AssetName

namespace Site

variable {directory : Path} {name source : String} {assets : List (String × String)}

/-- Nothing has changed on the disk but in a directory and above it. -/
def ConfinedTo (directory : Path) (before after : Site) : Prop :=
  before.disk.ConfinedTo directory after.disk

theorem ConfinedTo.trans {first second third : Site} (h : ConfinedTo directory first second)
    (h' : ConfinedTo directory second third) : ConfinedTo directory first third :=
  Disk.ConfinedTo.trans h h'

theorem confinedTo_makeParent (h : AssetName.check name = .ok ()) (site : Site) :
    ConfinedTo directory site (makeParent (directory.join ⟨name⟩) site).state := by
  unfold makeParent
  cases hparent : (directory.join ⟨name⟩).parent? with
  | none => exact .refl directory site.disk
  | some parent =>
      refine Disk.confinedTo_makeDirectories site.disk parent fun front hfront base => ?_
      have htarget := hfront.trans (Path.components_isPrefix_of_parent? hparent)
      exact AssetName.place_of_front h directory base htarget

theorem confinedTo_writeFile (h : AssetName.check name = .ok ()) (site : Site) :
    ConfinedTo directory site (writeFile (directory.join ⟨name⟩) source site).state := by
  unfold writeFile
  cases hwrite : site.disk.writeText (directory.join ⟨name⟩) source with
  | error error => exact .refl directory site.disk
  | ok disk =>
      refine Disk.confinedTo_writeText hwrite ?_
      rw [AssetName.place_of_check h]
      exact List.prefix_append _ _

/-- One step. -/
theorem confinedTo_writeAsset (h : AssetName.check name = .ok ()) (site : Site) :
    ConfinedTo directory site (writeAsset directory name source site).state := by
  rw [writeAsset]
  refine Action.rel_bind _ ConfinedTo.trans (confinedTo_makeParent h site) fun _ => ?_
  refine Action.rel_bind _ ConfinedTo.trans (confinedTo_writeFile h _) fun _ => ?_
  have hnoted : ∀ here : Site, ((do
      Action.log (.fileWritten (directory.join ⟨name⟩))
      record name : Action Site BuildError Unit) here).state.disk = here.disk := fun _ => rfl
  rw [ConfinedTo, hnoted]
  exact .refl directory _

/-- A whole run, also one that fails. -/
theorem confinedTo_writeAll (h : ∀ asset ∈ assets, AssetName.check asset.1 = .ok ())
    (site : Site) : ConfinedTo directory site (writeAll directory assets site).state := by
  rw [writeAll_eq_each]
  exact Action.rel_each (ConfinedTo directory) (fun site => .refl directory site.disk) .trans
    (fun asset hasset => confinedTo_writeAsset (h asset hasset)) site

theorem confinedTo_writeAssets (site : Site) :
    ConfinedTo site.compilation.options.outputPath site (writeAssets site).state := by
  cases hnames : checkNames site.compilation.assets.keys with
  | error error =>
      rw [writeAssets_state_of_error hnames]
      exact .refl _ site.disk
  | ok =>
      have hcheck : ∀ asset ∈ site.compilation.assets.entries, AssetName.check asset.1 = .ok () :=
        fun asset hasset => checkNames_eq_ok hnames asset.1 (List.mem_map_of_mem hasset)
      rw [(writeAssets_of_checked hnames).1]
      refine Action.rel_bind _ ConfinedTo.trans ?_ fun _ => confinedTo_writeAll hcheck _
      exact Disk.confinedTo_makeDirectories site.disk _ fun front hfront _ => .inr hfront

/-! ### Files that are written -/

variable {site : Site} {target : Path}

theorem target_of_writeAsset
    (h : .fileWritten target ∈ (writeAsset directory name source site).events) :
    target = directory.join ⟨name⟩ := by
  have hparents : ∀ {path : Path}, (makeParent path site).events = [] := by
    intro path
    unfold makeParent
    cases path.parent? with
    | none => rfl
    | some parent => rfl
  have hfiles : ∀ {path : Path} {here : Site}, (writeFile path source here).events = [] := by
    intro path here
    unfold writeFile
    cases here.disk.writeText path source with
    | error error => rfl
    | ok disk => rfl
  rw [writeAsset] at h
  rcases Action.mem_events_bind h with hparent | ⟨_, -, h⟩
  · rw [hparents] at hparent
    cases hparent
  rcases Action.mem_events_bind h with hfile | ⟨_, -, h⟩
  · rw [hfiles] at hfile
    cases hfile
  rcases Action.mem_events_bind h with hlog | ⟨_, -, hrecord⟩
  · exact Event.fileWritten.inj (List.mem_singleton.mp hlog)
  · cases hrecord

theorem target_of_writeAll
    (h : .fileWritten target ∈ (writeAll directory assets site).events) :
    ∃ asset ∈ assets, target = directory.join ⟨asset.1⟩ := by
  induction assets generalizing site with
  | nil => cases h
  | cons asset rest ih =>
      obtain ⟨name, source⟩ := asset
      rw [writeAll] at h
      rcases Action.mem_events_bind h with hfirst | ⟨_, -, hrest⟩
      · exact ⟨(name, source), List.mem_cons_self, target_of_writeAsset hfirst⟩
      · obtain ⟨asset, hasset, htarget⟩ := ih hrest
        exact ⟨asset, List.mem_cons_of_mem _ hasset, htarget⟩

/-- Only assets whose names pass the check are written. -/
theorem target_of_writeAssets (h : .fileWritten target ∈ (writeAssets site).events) :
    ∃ name, AssetName.check name = .ok () ∧
      target = site.compilation.options.outputPath.join ⟨name⟩ := by
  rw [writeAssets] at h
  rcases Action.mem_events_bind h with hget | ⟨_, hget, h⟩
  · cases hget
  obtain rfl := Except.ok.inj hget
  rcases Action.mem_events_bind h with hcheck | ⟨_, hnames, h⟩
  · cases hcheck
  rcases Action.mem_events_bind h with hmake | ⟨_, -, hwrite⟩
  · cases hmake
  obtain ⟨asset, hasset, htarget⟩ := target_of_writeAll hwrite
  exact ⟨asset.1, checkNames_eq_ok hnames asset.1 (List.mem_map_of_mem hasset), htarget⟩

end Site

namespace Compiler

/-- A run changes nothing outside of the output directory, whatever its assets are called and
whether it succeeds or not, but for directories that it makes above it. Each file that it writes has
the normal form of the output directory, and then names. The output directory is that of the
options, unless a tap puts another compilation in place of the one it is given. -/
theorem build_confined (compiler : Compiler) (disk : Disk) :
    let base := disk.workingDirectory
    let after := (compiler.build disk).state
    (∀ error, (compiler.compile disk).result = .error error → after = disk) ∧
    ∀ compilation, (compiler.compile disk).result = .ok compilation →
      let output := compilation.options.outputPath
      (∀ target, .fileWritten target ∈ (write compilation disk).events → ∃ names : List String,
        Path.normalComponents target.components =
          Path.normalComponents output.components ++ names.map .name ∧
        (output.isAbsolute = true →
          target.normalize.components = output.normalize.components ++ names.map .name)) ∧
      (∀ place, after.tree.find? place = disk.tree.find? place ∨ output.place base <+: place ∨
        ((∃ above : Path, above.components <+: output.components ∧ place = above.place base) ∧
          disk.tree.find? place = none ∧ after.tree.find? place = some .directory)) ∧
      ((∀ tap ∈ compiler.compilation.taps, ∀ params state,
          Compilation.SameOutput state (tap.call params state).state) →
        (∀ tap ∈ compiler.emit.taps, ∀ state,
          Compilation.SameOutput state (tap.call state).state) →
        output = compiler.setup.options.outputPath) := by
  intro base after
  refine ⟨fun error => build_state_of_error, ?_⟩
  intro compilation hcompile output
  refine ⟨?_, ?_, ?_⟩
  · intro target htarget
    obtain ⟨name, hcheck, rfl⟩ := Site.target_of_writeAssets htarget
    have hnormal := AssetName.normalComponents_of_check hcheck output
    refine ⟨AssetName.file name, hnormal, fun habsolute => ?_⟩
    rw [Path.components_normalize_of_absolute habsolute,
      Path.components_normalize_of_absolute (Path.isAbsolute_join _ habsolute)]
    exact hnormal
  · have hconfined := Site.confinedTo_writeAssets ⟨compilation, disk⟩
    have hafter : after = (Site.writeAssets ⟨compilation, disk⟩).state.disk :=
      build_state_of_ok hcompile
    rw [hafter]
    exact hconfined.changed
  · intro htaps hemit
    exact (sameOutput_compile htaps hemit hcompile).directory

set_option maxRecDepth 100000 in
theorem build_confined_nested :
    let disk : Disk :=
      ⟨⟨[(["r"], .directory), (["r", "a.js"], .file "exports.x = 1;".toUTF8)]⟩, []⟩
    let options := (Options.ofContext ⟨"/r"⟩).withEntry "main" ⟨"a.js"⟩
    let notes : Tap EmitTap := ⟨"notes", Compilation.emit "sub//./notes.txt" "built"⟩
    let compiler : Compiler :=
      ⟨⟨options, .empty⟩, .ofKind .run, .ofKind .compilation, ⟨.emit, [notes]⟩, .ofKind .done⟩
    let after := (compiler.build disk).state
    after.readText ⟨"/r/dist/sub/notes.txt"⟩ = .ok "built" ∧
      ∀ place, after.tree.find? place = disk.tree.find? place ∨ ["r", "dist"] <+: place ∨
        ((∃ above : Path, above.components <+: [.root, .name "r", .name "dist"] ∧
          place = above.place []) ∧
          disk.tree.find? place = none ∧ after.tree.find? place = some .directory) := by
  intro disk options notes compiler after
  have hok : (compiler.compile disk).result.isOk = true := by decide +kernel
  obtain ⟨compilation, hcompile⟩ := exists_eq_ok hok
  have hemit : ∀ tap ∈ compiler.emit.taps, ∀ state,
      Compilation.SameOutput state (tap.call state).state := by
    intro tap ht state
    obtain rfl : tap = notes := List.mem_singleton.mp ht
    exact ⟨rfl, rfl⟩
  obtain ⟨-, hplaces, houtput⟩ := (build_confined compiler disk).2 compilation hcompile
  have hdirectory : compilation.options.outputPath = ⟨"/r/dist"⟩ :=
    houtput (by simp [compiler, Hook.ofKind]) hemit
  rw [hdirectory] at hplaces
  exact ⟨by decide +kernel, hplaces⟩

end Compiler

end Bundler
