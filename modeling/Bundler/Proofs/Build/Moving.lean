import Bundler.Proofs.Build.Confinement
import Bundler.Proofs.Build.Saving
import Bundler.Proofs.Disk.Below

/-! Writing below two roots where the same tree stands. What can be made or written below one root
can be made or written at the same place below the other, and then the trees are the same again. -/

namespace Bundler

open Bundler.Path (Component)

namespace Path

/-- Two paths that go the same way down from two roots. -/
structure Parallel (first second : Place) (parts : List Component) (path other : Path) : Prop where
  components : path.components = .root :: (first.map .name ++ parts)
  components' : other.components = .root :: (second.map .name ++ parts)
  downward : ∀ part ∈ parts, AssetName.problemOfComponent? part = none

namespace Parallel

variable {first second base place : Place} {parts front : List Component} {path other : Path}

theorem symm (h : Parallel first second parts path other) :
    Parallel second first parts other path :=
  ⟨h.components', h.components, h.downward⟩

theorem text_ne_nil (h : Parallel first second parts path other) : path.text.toList ≠ [] := by
  intro hnil
  have hcomponents := h.components
  rw [Path.components, hnil] at hcomponents
  cases hcomponents

theorem foldl_front (h : Parallel first second parts path other) (hfront : front <+: parts) :
    (.root :: (first.map Component.name ++ front)).foldl Place.step base =
      first ++ front.filterMap Component.name? := by
  rw [List.foldl_cons, List.foldl_append, Place.foldl_names]
  exact AssetName.foldl_step_of_allowed _ fun part hpart => h.downward part (hfront.subset hpart)

theorem place_eq (h : Parallel first second parts path other) (base : Place) :
    path.place base = first ++ parts.filterMap Component.name? := by
  rw [place, h.components, h.foldl_front List.prefix_rfl]

theorem through (h : Parallel first second parts path other) (hfront : front <+: parts)
    (base : Place) : path.Through base (first ++ front.filterMap Component.name?) := by
  refine ⟨.root :: (first.map .name ++ front), ?_, h.foldl_front hfront⟩
  rw [h.components, List.cons_prefix_cons, List.prefix_append_right_inj]
  exact ⟨rfl, hfront⟩

/-- Such a path leads from the start to the root, and down from there. -/
theorem through_cases (h : Parallel first second parts path other)
    (hthrough : path.Through base place) : place = base ∨ place <+: first ∨
      ∃ front, front <+: parts ∧ place = first ++ front.filterMap Component.name? := by
  obtain ⟨front, hfront, rfl⟩ := hthrough
  rw [h.components] at hfront
  cases front with
  | nil => exact .inl rfl
  | cons start front =>
      obtain ⟨rfl, hbelow⟩ := List.cons_prefix_cons.mp hfront
      right
      rcases List.prefix_or_prefix_of_prefix hbelow (List.prefix_append _ parts) with
        habove | ⟨more, rfl⟩
      · left
        obtain ⟨names, hnames, rfl⟩ := List.prefix_map_iff.mp habove
        rw [List.foldl_cons, Place.foldl_names]
        exact hnames
      · rw [List.prefix_append_right_inj] at hbelow
        exact .inr ⟨more, hbelow, h.foldl_front hbelow⟩

/-- The directories of files that are reached in parallel are reached in parallel. -/
theorem parent (h : Parallel first second parts path other) (hne : parts ≠ [])
    {above above' : Path} (habove : path.parent? = some above)
    (habove' : other.parent? = some above') :
    Parallel first second parts.dropLast above above' where
  components := by
    rw [components_parent? habove, h.components, List.dropLast_cons_of_ne_nil (by simp [hne]),
      List.dropLast_append_of_ne_nil hne]
  components' := by
    rw [components_parent? habove', h.components', List.dropLast_cons_of_ne_nil (by simp [hne]),
      List.dropLast_append_of_ne_nil hne]
  downward part hpart := h.downward part (List.mem_of_mem_dropLast hpart)

end Parallel

end Path

namespace Disk

/-- The same tree stands below two roots of two disks. -/
structure Matches (first second : Place) (disk other : Disk) : Prop where
  sound : disk.IsSound
  sound' : other.IsSound
  root : disk.tree.find? first = some .directory
  find? : ∀ down, disk.tree.find? (first ++ down) = other.tree.find? (second ++ down)

variable {first second : Place} {disk other made after : Disk} {parts : List Component}
  {path path' : Path}

theorem Matches.symm (h : Matches first second disk other) : Matches second first other disk where
  sound := h.sound'
  sound' := h.sound
  root := by
    have hroot := h.find? []
    rw [List.append_nil, List.append_nil, h.root] at hroot
    exact hroot.symm
  find? down := (h.find? down).symm

theorem HasBelow.matches {tree : FileTree} (h : disk.HasBelow first tree)
    (h' : other.HasBelow second tree) : Matches first second disk other where
  sound := h.sound
  sound' := h'.sound
  root := by
    have hroot := h.find? []
    rwa [List.append_nil] at hroot
  find? down := (h.find? down).trans (h'.find? down).symm

/-! ### Directories -/

/-- Where a path that goes down leads to a directory, all on the way is a directory. -/
theorem directory_of_parallel (hsound : disk.IsSound)
    (hpath : Path.Parallel first second parts path path')
    (hthere : disk.tree.find? (path.place disk.workingDirectory) = some .directory)
    {place : Place} (hthrough : path.Through disk.workingDirectory place) :
    disk.tree.find? place = some .directory := by
  rw [hpath.place_eq] at hthere
  have habove : ∀ {place : Place}, place <+: first ++ parts.filterMap Component.name? →
      disk.tree.find? place = some .directory :=
    fun hbegins => hsound.tree.directory_of_isPrefix_directory hthere hbegins
  rcases hpath.through_cases hthrough with rfl | hbegins | ⟨front, hfront, rfl⟩
  · exact hsound.workingDirectory
  · exact habove (hbegins.trans (List.prefix_append _ _))
  · exact habove ((List.prefix_append_right_inj first).mpr (hfront.filterMap _))

/-- What directories are made below the root leads from there to where the path goes. -/
theorem MadeAlong.find?_of_parallel (hmade : MadeAlong path disk made) (hsound : disk.IsSound)
    (hroot : disk.tree.find? first = some .directory)
    (hpath : Path.Parallel first second parts path path') {down : Place}
    (hdown : ∀ front, front <+: parts → down ≠ front.filterMap Component.name?) :
    made.tree.find? (first ++ down) = disk.tree.find? (first ++ down) := by
  rcases hmade.changed (first ++ down) with hsame | ⟨hthrough, hnone, -⟩
  · exact hsame
  · have hdirectory : disk.tree.find? (first ++ down) ≠ some .directory := by
      rw [hnone]
      simp
    rcases hpath.through_cases hthrough with hbase | hbegins | ⟨front, hfront, hplace⟩
    · rw [hbase] at hdirectory
      exact absurd hsound.workingDirectory hdirectory
    · exact absurd (hsound.tree.directory_of_isPrefix_directory hroot hbegins) hdirectory
    · exact absurd (List.append_cancel_left hplace) (hdown front hfront)

/-- A directory that can be made below one root can be made below the other. -/
theorem Matches.makeDirectories (h : Matches first second disk other)
    (hpath : Path.Parallel first second parts path path') (hfits : path'.Fits)
    (hsettled : path'.Settled) (hok : (disk.makeDirectories path).2 = .ok ()) :
    (other.makeDirectories path').2 = .ok () ∧
      (∀ place, path'.Through other.workingDirectory place →
        (other.makeDirectories path').1.tree.find? place = some .directory) ∧
      Matches first second (disk.makeDirectories path).1 (other.makeDirectories path').1 := by
  have halong := madeAlong_makeDirectories disk path
  have hmade := isMade_of_makeDirectories hok
  generalize (disk.makeDirectories path).1 = made at halong hmade ⊢
  have hsound := halong.sound h.sound
  have hthere : made.tree.find? (path.place made.workingDirectory) = some .directory := by
    rcases hmade with hempty | hdirectory
    · exact absurd (by simpa using hempty) hpath.text_ne_nil
    · obtain ⟨target, hlocate, hfound⟩ := isDirectory_iff.mp hdirectory
      rwa [FileTree.place_of_locate hlocate] at hfound
  -- below the first root the whole way is there now, so that no file was in the way, and then none
  -- is in the way below the second root
  have hways : ∀ front, front <+: parts →
      made.tree.find? (first ++ front.filterMap Component.name?) = some .directory :=
    fun front hfront => directory_of_parallel hsound hpath hthere (hpath.through hfront _)
  have hclear : other.Clear path' := by
    intro place hthrough bytes hfile
    rcases hpath.symm.through_cases hthrough with rfl | hbegins | ⟨front, hfront, rfl⟩
    · rw [h.sound'.workingDirectory] at hfile
      cases hfile
    · rw [h.sound'.tree.directory_of_isPrefix_directory h.symm.root hbegins] at hfile
      cases hfile
    · rw [← h.find?, ← halong.file_iff, hways front hfront] at hfile
      cases hfile
  obtain ⟨hok', hways'⟩ := makeDirectories_of_clear h.sound' hfits hsettled hclear
  have halong' := madeAlong_makeDirectories other path'
  refine ⟨hok', hways', hsound, halong'.sound h.sound', halong.directory h.root, fun down => ?_⟩
  -- a place on the way is a directory in both trees, and at any other nothing has changed
  by_cases hdown : ∃ front, front <+: parts ∧ down = front.filterMap Component.name?
  · obtain ⟨front, hfront, rfl⟩ := hdown
    rw [hways front hfront, hways' _ (hpath.symm.through hfront _)]
  · have hother : ∀ front, front <+: parts → down ≠ front.filterMap Component.name? :=
      fun front hfront hsame => hdown ⟨front, hfront, hsame⟩
    rw [halong.find?_of_parallel h.sound h.root hpath hother,
      halong'.find?_of_parallel h.sound' h.symm.root hpath.symm hother, h.find?]

/-! ### Files -/

/-- The directory of a file can be made below the other root as well, and then the path of the file
can be followed there. -/
theorem Matches.makeAbove (h : Matches first second disk other)
    (hpath : Path.Parallel first second parts path path') (hne : parts ≠ []) (hfits : path'.Fits)
    (hasks : path.asksDirectory = false) (hasks' : path'.asksDirectory = false)
    (hmake : disk.makeAbove path = .ok made) :
    ∃ made', other.makeAbove path' = .ok made' ∧ made'.Opens path' ∧
      Matches first second made made' := by
  obtain ⟨above, habove⟩ := Path.exists_parent_of_asksDirectory hasks
  obtain ⟨above', habove'⟩ := Path.exists_parent_of_asksDirectory hasks'
  unfold Disk.makeAbove at hmake ⊢
  rw [habove] at hmake
  rw [habove']
  cases hok : (disk.makeDirectories above).2 with
  | error error =>
      simp only [hok] at hmake
      cases hmake
  | ok =>
      simp only [hok] at hmake
      obtain rfl := Except.ok.inj hmake
      obtain ⟨hok', hways, hmatches⟩ := h.makeDirectories (hpath.parent hne habove habove')
        (hfits.of_isPrefix (Path.text_isPrefix_of_parent? habove'))
        (Path.settled_of_parent? habove') hok
      have hopens := (madeAlong_makeDirectories other above').opens habove'
        hpath.symm.text_ne_nil hways
      exact ⟨_, by simp only [hok']; rfl, hopens, hmatches⟩

/-- A text that can be saved below one root can be saved below the other. -/
theorem Matches.save (h : Matches first second disk other)
    (hpath : Path.Parallel first second parts path path') (hfits : path'.Fits)
    (hasks : path'.asksDirectory = path.asksDirectory) {text : String}
    (hsave : disk.save path text = .ok after) :
    ∃ after', other.save path' text = .ok after' ∧ Matches first second after after' := by
  obtain ⟨made, hmake, hwrite⟩ := bind_eq_ok_iff.mp hsave
  obtain ⟨halong, -⟩ := makeAbove_eq_ok hmake
  obtain ⟨hlocate, -, hfree, -⟩ := writeText_eq_ok hwrite
  have hname : path.asksDirectory = false := (FileTree.asDirectory_of_locate hlocate).symm
  rw [hname] at hasks
  -- the path does not lead to the root itself, which is a directory
  have hne : parts ≠ [] := by
    rintro rfl
    rw [hpath.place_eq, List.filterMap_nil, List.append_nil] at hfree
    exact hfree (halong.directory h.root)
  obtain ⟨made', hmake', hopens, hmatches⟩ := h.makeAbove hpath hne hfits hname hasks hmake
  have hfree' : made'.tree.find? (path'.place made'.workingDirectory) ≠ some .directory := by
    rw [hpath.symm.place_eq, ← hmatches.find?]
    rwa [hpath.place_eq] at hfree
  obtain ⟨after', hwrite'⟩ := writeText_of_opens hmatches.sound' hfits
    (Path.settled_of_asksDirectory hasks) hpath.symm.text_ne_nil hopens hasks hfree' text
  refine ⟨after', bind_eq_ok_iff.mpr ⟨made', hmake', hwrite'⟩,
    isSound_writeText hmatches.sound hwrite, isSound_writeText hmatches.sound' hwrite',
    directory_of_writeText hwrite _ hmatches.root, fun down => ?_⟩
  rw [find?_writeText hwrite, find?_writeText hwrite', hpath.place_eq, hpath.symm.place_eq,
    hmatches.find?]
  simp only [List.append_cancel_left_eq]

end Disk

/-! ### Assets -/

namespace AssetName

/-- Assets of one name are reached in parallel from parallel directories. -/
theorem parallel_join {first second : Place} {parts : List Component} {output output' : Path}
    {name : String} (h : check name = .ok ())
    (houtput : Path.Parallel first second parts output output') :
    ∃ parts, Path.Parallel first second parts (output.join ⟨name⟩) (output'.join ⟨name⟩) := by
  let rest := Path.componentsOfSegments (Path.segments name.toList)
  have hrest : ∀ part ∈ rest, problemOfComponent? part = none := by
    intro part hpart
    refine allowed_of_check h part ?_
    rw [Path.components_eq]
    exact List.mem_append_right _ hpart
  have hrelative := isAbsolute_of_check h
  refine ⟨parts ++ rest, ?_, ?_, List.forall_mem_append.mpr ⟨houtput.downward, hrest⟩⟩
  · rw [Path.components_join houtput.text_ne_nil hrelative, houtput.components,
      List.cons_append, List.append_assoc]
  · rw [Path.components_join houtput.symm.text_ne_nil hrelative, houtput.components',
      List.cons_append, List.append_assoc]

end AssetName

namespace Disk

variable {first second : Place} {disk other after : Disk} {parts : List Component}
  {output output' : Path}

/-- Texts that can be saved below one root can be saved below the other. -/
theorem Matches.saveAll {assets : List (String × String)} (h : Matches first second disk other)
    (houtput : Path.Parallel first second parts output output')
    (hcheck : ∀ asset ∈ assets, AssetName.check asset.1 = .ok ())
    (hfits : ∀ asset ∈ assets, (output'.join ⟨asset.1⟩).Fits)
    (hsave : disk.saveAll (Site.targets output assets) = .ok after) :
    ∃ after', other.saveAll (Site.targets output' assets) = .ok after' ∧
      Matches first second after after' := by
  induction assets generalizing disk other with
  | nil =>
      obtain rfl := Except.ok.inj hsave
      exact ⟨other, rfl, h⟩
  | cons asset rest ih =>
      obtain ⟨hname, hnames⟩ := List.forall_mem_cons.mp hcheck
      obtain ⟨hfit, hfits⟩ := List.forall_mem_cons.mp hfits
      obtain ⟨middle, hfirst, hrest⟩ := bind_eq_ok_iff.mp hsave
      obtain ⟨_, hpath⟩ := AssetName.parallel_join hname houtput
      have hrelative := AssetName.isAbsolute_of_check hname
      have hasks : (output'.join ⟨asset.1⟩).asksDirectory =
          (output.join ⟨asset.1⟩).asksDirectory := by
        rw [Path.asksDirectory_join _ hrelative, Path.asksDirectory_join _ hrelative]
      obtain ⟨middle', hfirst', hmiddle⟩ := h.save hpath hfit hasks hfirst
      obtain ⟨after', hrest', hafter⟩ := ih hmiddle hnames hfits hrest
      exact ⟨after', bind_eq_ok_iff.mpr ⟨middle', hfirst', hrest'⟩, hafter⟩

end Disk

namespace Site

variable {first second : Place} {site other : Site} {parts : List Component}

/-- No path that assets are written to is too long. -/
structure Fits (site : Site) : Prop where
  directory : site.compilation.options.outputPath.Fits
  assets : ∀ name ∈ site.compilation.assets.keys,
    (site.compilation.options.outputPath.join ⟨name⟩).Fits

/-- The same assets are to be written below two roots, to directories that are reached in
parallel. -/
structure Moved (first second : Place) (site other : Site) : Prop where
  disks : Disk.Matches first second site.disk other.disk
  assets : site.compilation.assets = other.compilation.assets
  files : site.compilation.files = other.compilation.files
  output : ∃ parts, Path.Parallel first second parts site.compilation.options.outputPath
    other.compilation.options.outputPath
  fits : site.Fits
  fits' : other.Fits
  settled : site.compilation.options.outputPath.Settled
  settled' : other.compilation.options.outputPath.Settled

theorem Moved.symm (h : Moved first second site other) : Moved second first other site where
  disks := h.disks.symm
  assets := h.assets.symm
  files := h.files.symm
  output := h.output.imp fun _ hparallel => hparallel.symm
  fits := h.fits'
  fits' := h.fits
  settled := h.settled'
  settled' := h.settled

theorem Moved.writeAssets (h : Moved first second site other)
    (hok : (writeAssets site).result = .ok ()) :
    (writeAssets other).result = .ok () ∧
      (writeAssets site).state.compilation.files = (writeAssets other).state.compilation.files ∧
      Disk.Matches first second (writeAssets site).state.disk (writeAssets other).state.disk := by
  obtain ⟨made, after, hnames, hmake, hsave⟩ := writeAssets_eq_ok hok
  obtain ⟨parts, houtput⟩ := h.output
  have hmade : (site.disk.makeDirectories site.compilation.options.outputPath).2 = .ok () :=
    congrArg Prod.snd hmake
  obtain ⟨hmade', -, hmatches⟩ :=
    h.disks.makeDirectories houtput h.fits'.directory h.settled' hmade
  rw [hmake] at hmatches
  have hnames' := hnames
  have hsave' := hsave
  rw [h.assets] at hnames' hsave'
  have hcheck := checkNames_eq_ok hnames'
  obtain ⟨after', hsave', hafter⟩ := hmatches.saveAll houtput
    (fun asset hasset => hcheck asset.1 (List.mem_map_of_mem hasset))
    (fun asset hasset => h.fits'.assets asset.1 (List.mem_map_of_mem hasset)) hsave'
  rw [writeAssets_of_saveAll site hnames hmake hsave,
    writeAssets_of_saveAll other hnames' (Prod.ext rfl hmade') hsave']
  exact ⟨rfl, by rw [h.files, h.assets], hafter⟩

/-- Assets can be written below both roots or below neither, and the same files come of them. -/
theorem Moved.writeAssets_alike (h : Moved first second site other) :
    Alike (fun _ _ =>
        (Site.writeAssets site).state.compilation.files =
          (Site.writeAssets other).state.compilation.files ∧
        Disk.Matches first second (Site.writeAssets site).state.disk
          (Site.writeAssets other).state.disk)
      (Site.writeAssets site).result (Site.writeAssets other).result := by
  cases hok : (Site.writeAssets site).result with
  | ok =>
      obtain ⟨hok', hafter⟩ := h.writeAssets hok
      rw [hok']
      exact .ok hafter
  | error error =>
      cases hok' : (Site.writeAssets other).result with
      | error error' => exact .error error error'
      | ok =>
          rw [(h.symm.writeAssets hok').1] at hok
          cases hok

end Site

end Bundler
