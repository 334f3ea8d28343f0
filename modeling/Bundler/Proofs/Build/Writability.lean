import Bundler.Proofs.Build.Confinement
import Bundler.Proofs.Build.Failing
import Bundler.Proofs.Build.Saving
import Bundler.Proofs.Disk.Making
import Bundler.Proofs.Path.Rooted

/-! Which sets of assets can be written. Names are checked one by one, but whether their files can
stand beside each other is a matter of all of them: no name may be a directory for another one, and
none may ask for a directory itself. -/

namespace Bundler

namespace AssetName

variable {name : String} {names : List String}

/-- Assets that can stand beside each other: no name asks for a directory, and no file is in the
way to another one. -/
structure Compatible (names : List String) : Prop where
  files : ∀ name ∈ names, (Path.mk name).asksDirectory = false
  apart : ∀ name ∈ names, ∀ other ∈ names, file name <+: file other → file name = file other

instance (names : List String) : Decidable (Compatible names) :=
  decidable_of_iff ((∀ name ∈ names, (Path.mk name).asksDirectory = false) ∧
      ∀ name ∈ names, ∀ other ∈ names, file name <+: file other → file name = file other)
    ⟨fun h => ⟨h.1, h.2⟩, fun h => ⟨h.files, h.apart⟩⟩

theorem Compatible.subset {fewer : List String} (h : Compatible names) (hfewer : fewer ⊆ names) :
    Compatible fewer :=
  ⟨fun name hname => h.files name (hfewer hname),
    fun name hname other ho => h.apart name (hfewer hname) other (hfewer ho)⟩

/-- The path of an asset ends in a name, unless it asks for a directory. -/
theorem exists_last_of_check (h : check name = .ok ())
    (hfile : (Path.mk name).asksDirectory = false)
    {directory : Path} (hdirectory : directory.text.toList ≠ []) :
    ∃ above last, (directory.join ⟨name⟩).components =
        directory.components ++ (above ++ [.name last]) ∧
      (∀ part ∈ above, problemOfComponent? part = none) ∧
      file name = above.filterMap Path.Component.name? ++ [last] := by
  obtain ⟨rest, hrest, hallowed, hnames⟩ := components_join_of_check h directory
  obtain ⟨parts, last, hparts, hlast⟩ := Path.exists_last_of_asksDirectory hfile
  obtain ⟨part, hpart⟩ : ∃ part, Path.componentOfSegment last = some part := by
    rw [← Option.ne_none_iff_exists', ne_eq, ← Path.isBlankSegment_iff, hlast]
    exact Bool.false_ne_true
  obtain rfl : rest = Path.componentsOfSegments parts ++ [part] := by
    rw [Path.components_join hdirectory (isAbsolute_of_check h),
      List.append_cancel_left_eq] at hrest
    rw [← hrest, hparts, Path.componentsOfSegments_append]
    simp [Path.componentsOfSegments, hpart]
  have hname := hallowed part (by simp)
  obtain ⟨-, rfl | rfl⟩ := Path.componentOfSegment_eq_some hpart
  · cases hname
  · refine ⟨_, _, hrest, fun other ho => hallowed other (List.mem_append_left _ ho), ?_⟩
    rw [← hnames, List.filterMap_append]
    rfl

/-- What is above an asset is on the way to its directory, or it is a directory of the asset. -/
theorem through_parent {directory parent : Path} {base place : Place} (h : check name = .ok ())
    (hfile : (Path.mk name).asksDirectory = false) (hdirectory : directory.text.toList ≠ [])
    (hparent : (directory.join ⟨name⟩).parent? = some parent) (hplace : parent.Through base place) :
    directory.Through base place ∨
      ∃ down, place = directory.place base ++ down ∧ down <+: file name ∧ down ≠ file name := by
  obtain ⟨above, last, hcomponents, hallowed, hnames⟩ := exists_last_of_check h hfile hdirectory
  obtain ⟨front, hfront, rfl⟩ := hplace
  rw [Path.components_parent? hparent, hcomponents, ← List.append_assoc, List.dropLast_concat]
    at hfront
  rcases List.prefix_or_prefix_of_prefix hfront (List.prefix_append _ above) with hup | ⟨rest, rfl⟩
  · exact .inl ⟨front, hup, rfl⟩
  · rw [List.prefix_append_right_inj] at hfront
    obtain ⟨more, rfl⟩ := hfront
    right
    refine ⟨rest.filterMap Path.Component.name?, ?_, ?_, ?_⟩
    · rw [List.foldl_append, foldl_step_of_allowed _ fun part hp =>
        hallowed part (List.mem_append_left _ hp)]
      rfl
    · rw [hnames, List.filterMap_append, List.append_assoc]
      exact List.prefix_append _ _
    · rw [hnames, List.filterMap_append, List.append_assoc]
      intro hsame
      have hlength := congrArg List.length hsame
      simp only [List.length_append, List.length_singleton] at hlength
      omega

end AssetName

/-! ### A directory that is not there yet -/

/-- An output directory that is not there yet and can be made. The way to it does not end in a `.`,
and does not lead through what will be below it. -/
structure Disk.Vacant (disk : Disk) (output : Path) : Prop where
  sound : disk.IsSound
  absent : disk.tree.find? (output.place disk.workingDirectory) = none
  clear : disk.Clear output
  settled : output.Settled
  direct : ∀ down, output.Through disk.workingDirectory
    (output.place disk.workingDirectory ++ down) → down = []

namespace Disk

variable {disk after : Disk} {output : Path}

/-- Nothing is below what is not there. -/
theorem IsSound.find?_append (hsound : disk.IsSound) {place : Place}
    (habsent : disk.tree.find? place = none) (down : Place) :
    disk.tree.find? (place ++ down) = none := by
  by_contra hfound
  obtain ⟨entry, hentry⟩ := Option.ne_none_iff_exists'.mp hfound
  by_cases hdown : down = []
  · rw [hdown, List.append_nil, habsent] at hentry
    cases hentry
  · have hdirectory := hsound.tree.directory_of_isPrefix hentry (List.prefix_append place down)
      (by simpa using hdown)
    rw [habsent] at hdirectory
    cases hdirectory

theorem Vacant.text_ne_nil (h : disk.Vacant output) : output.text.toList ≠ [] := by
  intro hempty
  have habsent := h.absent
  rw [Path.place, Path.components, hempty] at habsent
  exact absurd (habsent.symm.trans h.sound.workingDirectory) (by simp)

/-- Where no component leaves a directory again, the segments might be those of an asset. -/
theorem problemOfComponent?_of_parent_not_mem (h : .parent ∉ output.components) :
    ∀ part ∈ Path.componentsOfSegments (Path.segments output.text.toList),
      AssetName.problemOfComponent? part = none := by
  intro part hpart
  have hplain := Path.isPlain_of_mem hpart
  have hmem : part ∈ output.components := by
    rw [Path.components_eq]
    exact List.mem_append_right _ hpart
  cases part with
  | root => exact absurd hplain (by simp [Path.Component.IsPlain])
  | current => rfl
  | parent => exact absurd hmem h
  | name text => rfl

/-- A way on which nothing is left again does not lead through what is below its end. -/
theorem vacant_of_not_mem (hsound : disk.IsSound)
    (habsent : disk.tree.find? (output.place disk.workingDirectory) = none)
    (hclear : disk.Clear output) (hsettled : output.Settled)
    (hparent : .parent ∉ output.components) : disk.Vacant output := by
  refine ⟨hsound, habsent, hclear, hsettled, ?_⟩
  rintro down ⟨front, hfront, hplace⟩
  have hbelow := hsound.find?_append habsent down
  have hbase : output.place disk.workingDirectory ++ down ≠ disk.workingDirectory := by
    intro hbase
    rw [hbase, hsound.workingDirectory] at hbelow
    cases hbelow
  have hallowed := problemOfComponent?_of_parent_not_mem hparent
  rw [Path.components_eq] at hfront
  rcases List.prefix_or_prefix_of_prefix hfront (List.prefix_append output.lead _) with
    habove | ⟨rest, rfl⟩
  · rcases Path.eq_nil_or_eq_lead habove with rfl | rfl
    · exact absurd hplace.symm hbase
    · rw [Path.foldl_lead, Path.start] at hplace
      split at hplace
      · exact (List.append_eq_nil_iff.mp hplace.symm).2
      · exact absurd hplace.symm hbase
  · rw [List.prefix_append_right_inj] at hfront
    obtain ⟨more, hmore⟩ := hfront
    rw [← hmore] at hallowed
    rw [Path.place, Path.components_eq, ← hmore, List.foldl_append, List.foldl_append,
      AssetName.foldl_step_of_allowed _ hallowed, AssetName.foldl_step_of_allowed _ fun part hp =>
        hallowed part (List.mem_append_left _ hp)] at hplace
    have hlength := congrArg List.length hplace
    simp only [List.length_append, List.filterMap_append] at hlength
    exact List.length_eq_zero_iff.mp (by omega)

/-- A directory in normal form that is not there yet can be made where no file is in the way. -/
theorem vacant_of_normal (hsound : disk.IsSound) (habsolute : output.isAbsolute = true)
    (hnormal : output.normalize = output)
    (habsent : disk.tree.find? (output.place disk.workingDirectory) = none)
    (hclear : disk.Clear output) : disk.Vacant output := by
  obtain ⟨names, hnames, hrooted, -⟩ := Path.exists_rooted habsolute
  rw [hnormal] at hrooted
  subst hrooted
  exact vacant_of_not_mem hsound habsent hclear (Path.settled_rooted hnames)
    (by simp [Path.components_rooted hnames])

/-! ### The assets below a directory -/

/-- The output directory is there. Every file in it is that of an asset, and every directory in it
leads to one. -/
structure Laid (disk : Disk) (output : Path) (names : List String) : Prop where
  sound : disk.IsSound
  reached : ∀ place, output.Through disk.workingDirectory place →
    disk.tree.find? place = some .directory
  files : ∀ down bytes,
    disk.tree.find? (output.place disk.workingDirectory ++ down) = some (.file bytes) →
      ∃ name ∈ names, AssetName.file name = down
  directories : ∀ down,
    disk.tree.find? (output.place disk.workingDirectory ++ down) = some .directory →
      down = [] ∨ ∃ name ∈ names, down <+: AssetName.file name ∧ down ≠ AssetName.file name

theorem Vacant.makeDirectories (h : disk.Vacant output) (hfits : output.Fits) :
    (disk.makeDirectories output).2 = .ok () ∧
      (disk.makeDirectories output).1.Laid output [] := by
  obtain ⟨hok, hdirectories⟩ := makeDirectories_of_clear h.sound hfits h.settled h.clear
  have hmade := madeAlong_makeDirectories disk output
  refine ⟨hok, hmade.sound h.sound, ?_, ?_, ?_⟩
  · intro place hthrough
    rw [hmade.workingDirectory] at hthrough
    exact hdirectories place hthrough
  · intro down bytes hfile
    rw [hmade.workingDirectory, hmade.file_iff, h.sound.find?_append h.absent] at hfile
    cases hfile
  · intro down hdirectory
    rw [hmade.workingDirectory] at hdirectory
    rcases hmade.changed (output.place disk.workingDirectory ++ down) with
      hsame | ⟨hthrough, -, -⟩
    · rw [hsame, h.sound.find?_append h.absent] at hdirectory
      cases hdirectory
    · exact .inl (h.direct down hthrough)

variable {names : List String} {name source : String} {parent : Path} {made : Disk}

/-- Above a new asset there are directories only, or nothing. -/
theorem Laid.clear (h : disk.Laid output names) (hcheck : AssetName.check name = .ok ())
    (hcompatible : AssetName.Compatible (names ++ [name])) (hdirectory : output.text.toList ≠ [])
    (hparent : (output.join ⟨name⟩).parent? = some parent) : disk.Clear parent := by
  intro place hthrough bytes hfile
  have hname := hcompatible.files name (by simp)
  rcases AssetName.through_parent hcheck hname hdirectory hparent hthrough with
    hway | ⟨down, rfl, hdown, hne⟩
  · rw [h.reached place hway] at hfile
    cases hfile
  · obtain ⟨other, ho, rfl⟩ := h.files down bytes hfile
    exact hne (hcompatible.apart other (by simp [ho]) name (by simp) hdown)

/-- What is made above a new asset leads to it, or was on the way to the output directory. -/
theorem Laid.makeParent (h : disk.Laid output names) (hcheck : AssetName.check name = .ok ())
    (hcompatible : AssetName.Compatible (names ++ [name])) (hdirectory : output.text.toList ≠ [])
    (hparent : (output.join ⟨name⟩).parent? = some parent)
    (hmade : MadeAlong parent disk made) (down : Place)
    (hfound : made.tree.find? (output.place disk.workingDirectory ++ down) = some .directory) :
    down = [] ∨
      ∃ other ∈ names ++ [name], down <+: AssetName.file other ∧ down ≠ AssetName.file other := by
  rcases hmade.changed (output.place disk.workingDirectory ++ down) with
    hsame | ⟨hthrough, hnone, -⟩
  · refine (h.directories down (hsame ▸ hfound)).imp_right ?_
    rintro ⟨other, ho, hbegins⟩
    exact ⟨other, List.mem_append_left _ ho, hbegins⟩
  · rcases AssetName.through_parent hcheck (hcompatible.files name (by simp)) hdirectory hparent
      hthrough with hway | ⟨rest, hrest, hbegins⟩
    · rw [h.reached _ hway] at hnone
      cases hnone
    · obtain rfl := List.append_cancel_left hrest
      exact .inr ⟨name, by simp, hbegins⟩

/-- Once an asset is written where its directory was made, it lies beside those before it. -/
theorem Laid.writeText (h : disk.Laid output names) (hcheck : AssetName.check name = .ok ())
    (hcompatible : AssetName.Compatible (names ++ [name])) (hdirectory : output.text.toList ≠ [])
    (hparent : (output.join ⟨name⟩).parent? = some parent) (hmade : MadeAlong parent disk made)
    (hwrite : made.writeText (output.join ⟨name⟩) source = .ok after) :
    after.Laid output (names ++ [name]) := by
  have hworking : after.workingDirectory = disk.workingDirectory :=
    (workingDirectory_writeText hwrite).trans hmade.workingDirectory
  have hfind : ∀ down, after.tree.find? (output.place disk.workingDirectory ++ down) =
      if down = AssetName.file name then some (.file source.toUTF8)
      else made.tree.find? (output.place disk.workingDirectory ++ down) := by
    intro down
    rw [find?_writeText hwrite, hmade.workingDirectory, AssetName.place_of_check hcheck]
    simp only [List.append_cancel_left_eq]
  refine ⟨isSound_writeText (hmade.sound h.sound) hwrite, ?_, ?_, ?_⟩
  · intro place hthrough
    rw [hworking] at hthrough
    exact directory_of_writeText hwrite place (hmade.directory (h.reached place hthrough))
  · intro down bytes hfound
    rw [hworking, hfind] at hfound
    split at hfound
    · next hsame => exact ⟨name, by simp, hsame.symm⟩
    · rw [hmade.file_iff] at hfound
      obtain ⟨other, ho, hother⟩ := h.files down bytes hfound
      exact ⟨other, List.mem_append_left _ ho, hother⟩
  · intro down hfound
    rw [hworking, hfind] at hfound
    split at hfound
    · cases hfound
    · exact h.makeParent hcheck hcompatible hdirectory hparent hmade down hfound

/-- One step: an asset that can stand beside those before it is written. -/
theorem Laid.write (h : disk.Laid output names) (hcheck : AssetName.check name = .ok ())
    (hcompatible : AssetName.Compatible (names ++ [name])) (hdirectory : output.text.toList ≠ [])
    (hfits : (output.join ⟨name⟩).Fits) (source : String) :
    ∃ parent after, (output.join ⟨name⟩).parent? = some parent ∧
      (disk.makeDirectories parent).2 = .ok () ∧
      (disk.makeDirectories parent).1.writeText (output.join ⟨name⟩) source = .ok after ∧
      after.Laid output (names ++ [name]) := by
  have hname := hcompatible.files name (by simp)
  have hasks : (output.join ⟨name⟩).asksDirectory = false := by
    rw [Path.asksDirectory_join output (AssetName.isAbsolute_of_check hcheck)]
    exact hname
  have hne : (output.join ⟨name⟩).text.toList ≠ [] :=
    Path.text_join_ne_nil hdirectory (AssetName.isAbsolute_of_check hcheck)
  obtain ⟨parent, hparent⟩ := Path.exists_parent_of_asksDirectory hasks
  obtain ⟨hok, hdirectories⟩ := makeDirectories_of_clear h.sound
    (hfits.of_isPrefix (Path.text_isPrefix_of_parent? hparent)) (Path.settled_of_parent? hparent)
    (h.clear hcheck hcompatible hdirectory hparent)
  have hmade := madeAlong_makeDirectories disk parent
  refine ⟨parent, ?_⟩
  generalize (disk.makeDirectories parent).1 = made at hdirectories hmade ⊢
  have hfree : made.tree.find? ((output.join ⟨name⟩).place made.workingDirectory) ≠
      some .directory := by
    rw [hmade.workingDirectory, AssetName.place_of_check hcheck]
    intro hfound
    rcases h.makeParent hcheck hcompatible hdirectory hparent hmade _ hfound with
      hnil | ⟨other, ho, hbegins, hother⟩
    · obtain ⟨above, last, -, -, hfile⟩ := AssetName.exists_last_of_check hcheck hname hdirectory
      simp [hfile] at hnil
    · exact hother (hcompatible.apart name (by simp) other ho hbegins)
  obtain ⟨after, hwrite⟩ := writeText_of_opens (hmade.sound h.sound) hfits
    (Path.settled_of_asksDirectory hasks) hne (hmade.opens hparent hne hdirectories) hasks hfree
    source
  exact ⟨after, hparent, hok, hwrite,
    h.writeText hcheck hcompatible hdirectory hparent hmade hwrite⟩

end Disk

namespace Site

variable {site : Site} {output : Path} {names : List String} {assets : List (String × String)}

theorem writeAsset_of_laid {name : String} (h : site.disk.Laid output names)
    (hcheck : AssetName.check name = .ok ())
    (hcompatible : AssetName.Compatible (names ++ [name])) (hdirectory : output.text.toList ≠ [])
    (hfits : (output.join ⟨name⟩).Fits) (source : String) :
    (writeAsset output name source site).result = .ok () ∧
      (writeAsset output name source site).state.disk.Laid output (names ++ [name]) := by
  obtain ⟨parent, after, hparent, hok, hwrite, hlaid⟩ :=
    h.write hcheck hcompatible hdirectory hfits source
  have habove : site.disk.makeAbove (output.join ⟨name⟩) =
      .ok (site.disk.makeDirectories parent).1 := by
    simp only [Disk.makeAbove, hparent, hok]
    rfl
  rw [writeAsset_of_save site (bind_eq_ok_iff.mpr ⟨_, habove, hwrite⟩)]
  exact ⟨rfl, hlaid⟩

/-- Assets that can stand beside each other are written, one after the other. -/
theorem writeAll_of_laid (h : site.disk.Laid output names)
    (hcheck : ∀ asset ∈ assets, AssetName.check asset.1 = .ok ())
    (hcompatible : AssetName.Compatible (names ++ Table.names assets))
    (hdirectory : output.text.toList ≠ [])
    (hfits : ∀ asset ∈ assets, (output.join ⟨asset.1⟩).Fits) :
    (writeAll output assets site).result = .ok () := by
  induction assets generalizing site names with
  | nil => rfl
  | cons asset rest ih =>
      obtain ⟨name, source⟩ := asset
      have hnames : names ++ Table.names ((name, source) :: rest) =
          names ++ [name] ++ Table.names rest := by simp [Table.names]
      rw [hnames] at hcompatible
      obtain ⟨hfirst, hrest⟩ := List.forall_mem_cons.mp hcheck
      obtain ⟨hfits, hfitsRest⟩ := List.forall_mem_cons.mp hfits
      obtain ⟨hok, hlaid⟩ := writeAsset_of_laid h hfirst
        (hcompatible.subset (List.subset_append_left _ _)) hdirectory hfits source
      rw [writeAll, (Action.bind_of_ok _ hok).2]
      exact ih hlaid hrest hcompatible hfitsRest

/-! ### Assets that were written -/

theorem sound_makeDirectories (path : Path) (hsound : site.disk.IsSound) :
    (makeDirectories path site).state.disk.IsSound :=
  (Disk.madeAlong_makeDirectories site.disk path).sound hsound

theorem sound_writeAsset (output : Path) (name source : String) (site : Site)
    (hsound : site.disk.IsSound) : (writeAsset output name source site).state.disk.IsSound := by
  let rel (before after : Site) : Prop := before.disk.IsSound → after.disk.IsSound
  have htrans : ∀ {a b c : Site}, rel a b → rel b c → rel a c := fun h h' => h' ∘ h
  suffices h : rel site (writeAsset output name source site).state from h hsound
  rw [writeAsset]
  refine Action.rel_bind rel htrans ?_ fun _ => Action.rel_bind rel htrans ?_ fun _ => ?_
  · unfold makeParent
    cases (output.join ⟨name⟩).parent? with
    | none => exact id
    | some parent => exact sound_makeDirectories parent
  · unfold writeFile
    cases hwrite : Disk.writeText _ (output.join ⟨name⟩) source with
    | error error => exact id
    | ok after => exact fun hsound => Disk.isSound_writeText hsound hwrite
  · exact id

theorem sound_writeAll (output : Path) (assets : List (String × String)) (site : Site)
    (hsound : site.disk.IsSound) : (writeAll output assets site).state.disk.IsSound := by
  rw [writeAll_eq_each]
  exact Action.rel_each (fun before after : Site => before.disk.IsSound → after.disk.IsSound)
    (fun _ => id) (fun h h' => h' ∘ h) (fun asset _ => sound_writeAsset output asset.1 asset.2)
    site hsound

/-- Assets that were written can stand beside each other. -/
theorem Wrote.compatible (h : site.Wrote output assets) (hsound : site.disk.IsSound)
    (hcheck : ∀ asset ∈ assets, AssetName.check asset.1 = .ok ()) :
    AssetName.Compatible (Table.names assets) := by
  refine ⟨?_, ?_⟩
  · intro name hname
    obtain ⟨asset, hasset, rfl⟩ := List.mem_map.mp hname
    obtain ⟨text, -, hheld⟩ := h.held asset hasset
    rw [← Path.asksDirectory_join output (AssetName.isAbsolute_of_check (hcheck asset hasset))]
    exact (FileTree.asDirectory_of_locate hheld.located).symm
  · intro name hname other ho hbegins
    obtain ⟨asset, hasset, rfl⟩ := List.mem_map.mp hname
    obtain ⟨asset', hasset', rfl⟩ := List.mem_map.mp ho
    obtain ⟨text, -, hheld⟩ := h.held asset hasset
    obtain ⟨text', -, hheld'⟩ := h.held asset' hasset'
    have hfile := hheld.stored
    have hfile' := hheld'.stored
    rw [AssetName.place_of_check (hcheck asset hasset)] at hfile
    rw [AssetName.place_of_check (hcheck asset' hasset')] at hfile'
    by_contra hne
    have hdirectory := hsound.tree.directory_of_isPrefix hfile'
      ((List.prefix_append_right_inj _).mpr hbegins) (by simpa using hne)
    rw [hfile] at hdirectory
    cases hdirectory

/-- An asset that is not written leaves every file as it is. -/
theorem grows_of_writeAsset_eq_error {name source : String} {error : BuildError}
    (h : (writeAsset output name source site).result = .error error) :
    (writeAsset output name source site).state.compilation = site.compilation ∧
      site.disk.Grows (writeAsset output name source site).state.disk := by
  obtain ⟨hkept, hgrows⟩ := makeParent_state (output.join ⟨name⟩) site
  rw [writeAsset] at h ⊢
  rcases Action.bind_eq_error_iff.mp h with hparent | ⟨_, hparent, hrest⟩
  · rw [(Action.bind_of_error _ hparent).1]
    exact ⟨hkept, hgrows⟩
  · rw [(Action.bind_of_ok _ hparent).1]
    rcases Action.bind_eq_error_iff.mp hrest with hfile | ⟨_, -, hlast⟩
    · obtain ⟨reason, hreason, -⟩ := writeFile_eq_error_iff.mp hfile
      rw [(Action.bind_of_error _ hfile).1, writeFile, hreason]
      exact ⟨hkept, hgrows⟩
    · simp [Action.bind_eq_error_iff, Action.log, record, Action.modify] at hlast

/-- Assets are written up to the first one that the disk refuses. -/
theorem writeAll_eq_error {error : BuildError}
    (h : (writeAll output assets site).result = .error error) :
    ∃ earlier name source later, assets = earlier ++ (name, source) :: later ∧
      (writeAll output earlier site).result = .ok () ∧
      (writeAll output earlier site).state.Refuses (output.join ⟨name⟩) source error ∧
      (writeAll output assets site).state =
        (writeAsset output name source (writeAll output earlier site).state).state := by
  have heach := h
  rw [writeAll_eq_each] at heach
  obtain ⟨earlier, ⟨name, source⟩, later, rfl, hearlier, hfails⟩ :=
    Action.each_eq_error_iff.mp heach
  have hstate := Action.each_state_of_error later hearlier hfails
  simp only [← writeAll_eq_each] at hearlier hfails hstate
  exact ⟨earlier, name, source, later, rfl, hearlier, writeAsset_eq_error_iff.mp hfails, hstate⟩

/-- Assets that are written below a directory that holds nothing else can stand beside each
other. -/
theorem wrote_writeAll (hfiles : site.compilation.files = []) (hlaid : site.disk.Laid output [])
    (hcheck : ∀ asset ∈ assets, AssetName.check asset.1 = .ok ())
    (hok : (writeAll output assets site).result = .ok ()) :
    (writeAll output assets site).state.Wrote output assets ∧
      AssetName.Compatible (Table.names assets) := by
  have hnone : site.Wrote output [] := ⟨hfiles, by simp⟩
  have hall : (writeAll output assets site).state.Wrote output assets := hnone.writeAll hcheck hok
  exact ⟨hall, hall.compatible (sound_writeAll output assets site hlaid.sound) hcheck⟩

/-- Where the disk refuses an asset, those before it have been written, and it cannot stand beside
them. -/
theorem wrote_of_writeAll_eq_error {error : BuildError} (hfiles : site.compilation.files = [])
    (hlaid : site.disk.Laid output []) (hdirectory : output.text.toList ≠ [])
    (hcheck : ∀ asset ∈ assets, AssetName.check asset.1 = .ok ())
    (hfits : ∀ asset ∈ assets, (output.join ⟨asset.1⟩).Fits)
    (herror : (writeAll output assets site).result = .error error) :
    ∃ earlier name source later, assets = earlier ++ (name, source) :: later ∧
      AssetName.Compatible (Table.names earlier) ∧
      ¬ AssetName.Compatible (Table.names (earlier ++ [(name, source)])) ∧
      (writeAll output assets site).state.Wrote output earlier ∧
      ∃ before : Site, before.Refuses (output.join ⟨name⟩) source error := by
  obtain ⟨earlier, name, source, later, hsplit, hearlier, hrefuses, hafter⟩ :=
    writeAll_eq_error herror
  have hsome : ∀ asset ∈ earlier ++ [(name, source)], asset ∈ assets := by
    intro asset ha
    rw [hsplit, List.append_cons]
    exact List.mem_append_left later ha
  obtain ⟨hwrote, hcompatible⟩ := wrote_writeAll hfiles hlaid
    (fun asset ha => hcheck asset (hsome asset (List.mem_append_left _ ha))) hearlier
  obtain ⟨hkept, hgrows⟩ := grows_of_writeAsset_eq_error (writeAsset_eq_error_iff.mpr hrefuses)
  refine ⟨earlier, name, source, later, hsplit, hcompatible, ?_, ?_, _, hrefuses⟩
  · intro hboth
    have hrun : (writeAll output (earlier ++ [(name, source)]) site).result = .ok () :=
      writeAll_of_laid hlaid (fun asset ha => hcheck asset (hsome asset ha)) hboth hdirectory
        fun asset ha => hfits asset (hsome asset ha)
    rw [writeAll_eq_each] at hearlier hrefuses hrun
    rw [Action.each_eq_error_iff.mpr ⟨earlier, (name, source), [], rfl, hearlier,
      writeAsset_eq_error_iff.mpr hrefuses⟩] at hrun
    cases hrun
  · rw [hafter]
    refine ⟨?_, fun asset ha => ?_⟩
    · rw [hkept]
      exact hwrote.files
    · obtain ⟨text, htext, hheld⟩ := hwrote.held asset ha
      exact ⟨text, htext, hheld.grows hgrows⟩

/-- Whether accepted names can be written as a whole is a matter of all of them. Below a directory
that is not there yet, the assets are written exactly if no name asks for a directory and no file is
in the way to another one, and their files are then strictly inside the directory. Otherwise the
disk refuses the first name that cannot stand beside those before it, when all of these have been
written. -/
theorem writeAssets_eq_ok_iff (hfiles : site.compilation.files = [])
    (hassets : site.compilation.assets.keys ≠ [])
    (hcheck : ∀ name ∈ site.compilation.assets.keys, AssetName.check name = .ok ())
    (hfits : ∀ name ∈ site.compilation.assets.keys,
      (site.compilation.options.outputPath.join ⟨name⟩).Fits)
    (hvacant : site.disk.Vacant site.compilation.options.outputPath) :
    let output := site.compilation.options.outputPath
    let assets := site.compilation.assets.entries
    let base := site.disk.workingDirectory
    let outcome := writeAssets site
    (outcome.result = .ok () ↔ AssetName.Compatible (Table.names assets)) ∧
    (outcome.result = .ok () → outcome.state.Wrote output assets ∧
      ∀ asset ∈ assets, ∃ down, down ≠ [] ∧
        (output.join ⟨asset.1⟩).place base = output.place base ++ down) ∧
    (∀ error, outcome.result = .error error → ∃ earlier name source later,
      assets = earlier ++ (name, source) :: later ∧
      AssetName.Compatible (Table.names earlier) ∧
      ¬ AssetName.Compatible (Table.names (earlier ++ [(name, source)])) ∧
      outcome.state.Wrote output earlier ∧
      ∃ before : Site, before.Refuses (output.join ⟨name⟩) source error) := by
  intro output assets base outcome
  have hdirectory : output.text.toList ≠ [] := hvacant.text_ne_nil
  have hchecked : checkNames site.compilation.assets.keys = .ok () :=
    checkNames_eq_ok_iff.mpr fun name hname => AssetName.check_eq_ok_iff.mp (hcheck name hname)
  have hcheck : ∀ asset ∈ assets, AssetName.check asset.1 = .ok () :=
    fun asset hasset => hcheck asset.1 (List.mem_map_of_mem hasset)
  have hfits : ∀ asset ∈ assets, (output.join ⟨asset.1⟩).Fits :=
    fun asset hasset => hfits asset.1 (List.mem_map_of_mem hasset)
  have houtput : output.Fits := by
    obtain ⟨name, hname⟩ := List.exists_mem_of_ne_nil _ hassets
    obtain ⟨asset, hasset, rfl⟩ := List.mem_map.mp hname
    exact (hfits asset hasset).of_join hdirectory
      (AssetName.isAbsolute_of_check (hcheck asset hasset))
  obtain ⟨hok, hlaid⟩ := hvacant.makeDirectories houtput
  let made : Site := { site with disk := (site.disk.makeDirectories output).1 }
  have hmake : (makeDirectories output site).result = .ok () := by
    rw [makeDirectories, hok]
    rfl
  obtain ⟨hstate, hresult⟩ := writeAssets_of_checked hchecked
  obtain ⟨hstate', hresult'⟩ := Action.bind_of_ok (fun _ => writeAll output assets) hmake
  have hlaid : made.disk.Laid output [] := hlaid
  have hfiles : made.compilation.files = [] := hfiles
  rw [show outcome.state = (writeAll output assets made).state from hstate.trans hstate',
    show outcome.result = (writeAll output assets made).result from hresult.trans hresult']
  refine ⟨⟨fun hrun => (wrote_writeAll hfiles hlaid hcheck hrun).2, fun hcompatible => ?_⟩,
    fun hrun => ?_, fun error => ?_⟩
  · exact writeAll_of_laid hlaid hcheck hcompatible hdirectory hfits
  · obtain ⟨hwrote, hcompatible⟩ := wrote_writeAll hfiles hlaid hcheck hrun
    refine ⟨hwrote, fun asset hasset => ?_⟩
    obtain ⟨above, last, -, -, hfile⟩ := AssetName.exists_last_of_check (hcheck asset hasset)
      (hcompatible.files asset.1 (List.mem_map_of_mem hasset)) hdirectory
    exact ⟨AssetName.file asset.1, by simp [hfile],
      AssetName.place_of_check (hcheck asset hasset) output base⟩
  · exact wrote_of_writeAll_eq_error hfiles hlaid hdirectory hcheck hfits

set_option maxRecDepth 100000 in
theorem writeAssets_eq_ok_iff_nested :
    let disk : Disk := ⟨⟨[(["r"], .directory)]⟩, []⟩
    let site (names : List String) : Site :=
      ⟨{ Compilation.ofOptions (.ofContext ⟨"/r"⟩) with
          assets := names.foldl (fun assets name => assets.insert name "built") .empty }, disk⟩
    (writeAssets (site ["notes.txt", "notes/./more.txt"])).result = .ok () ∧
      (writeAssets (site ["notes", "notes/more.txt"])).result ≠ .ok () ∧
      (writeAssets (site ["notes", "notes/more.txt"])).state.compilation.files = ["notes"] := by
  intro disk site
  have hsound : disk.IsSound := ⟨FileTree.isSound_of_entries (by decide), rfl⟩
  have hvacant : disk.Vacant ⟨"/r/dist"⟩ :=
    Disk.vacant_of_normal hsound (by decide) (by decide +kernel) (by rfl)
      (Disk.clear_of_inits (by decide +kernel))
  have hnames : ∀ names ∈ [["notes.txt", "notes/./more.txt"], ["notes", "notes/more.txt"]],
      (site names).compilation.assets.keys ≠ [] ∧
        (∀ name ∈ (site names).compilation.assets.keys, AssetName.problem? name = none) ∧
        ∀ name ∈ (site names).compilation.assets.keys, (Path.join ⟨"/r/dist"⟩ ⟨name⟩).Fits := by
    decide +kernel
  have hwritable : ∀ names ∈ [["notes.txt", "notes/./more.txt"], ["notes", "notes/more.txt"]],
      (writeAssets (site names)).result = .ok () ↔
        AssetName.Compatible (Table.names (site names).compilation.assets.entries) := by
    intro names hmem
    obtain ⟨hsome, hcheck, hfits⟩ := hnames names hmem
    exact (writeAssets_eq_ok_iff rfl hsome
      (fun name hname => AssetName.check_eq_ok_iff.mpr (hcheck name hname)) hfits hvacant).1
  refine ⟨(hwritable _ (by simp)).mpr (by decide +kernel), ?_, by decide +kernel⟩
  rw [ne_eq, hwritable _ (by simp)]
  decide +kernel

end Site

end Bundler
