import Bundler.Proofs.Disk.Following
import Mathlib.Data.List.Infix

/-! Making a directory with all that is above it. It succeeds wherever no file is in the way, and
then every place that its path leads through is a directory. -/

namespace Bundler

namespace Disk

variable {disk after : Disk} {path : Path}

/-- A disk on which everything stands in a directory, the place that relative paths are read from
included. -/
structure IsSound (disk : Disk) : Prop where
  tree : disk.tree.IsSound
  workingDirectory : disk.tree.find? disk.workingDirectory = some .directory

/-- No file stands where a path leads to or through. -/
def Clear (disk : Disk) (path : Path) : Prop :=
  ∀ place, path.Through disk.workingDirectory place →
    ∀ bytes, disk.tree.find? place ≠ some (.file bytes)

theorem clear_of_inits
    (h : ∀ front ∈ path.components.inits,
      disk.tree.enter (front.foldl Place.step disk.workingDirectory) ≠ .error .notDirectory) :
    disk.Clear path := by
  rintro place ⟨front, hfront, rfl⟩ bytes hfile
  apply h front ((List.mem_inits _ _).mpr hfront)
  rw [FileTree.enter, hfile]

/-- Everything that a path leads through before its end is a directory. -/
def Opens (disk : Disk) (path : Path) : Prop :=
  ∀ place, path.Leaves disk.workingDirectory place → disk.tree.find? place = some .directory

/-- What a path leads to stands in a directory. -/
theorem Opens.above (h : disk.Opens path) (hsound : disk.IsSound) :
    disk.tree.find? (path.place disk.workingDirectory).dropLast = some .directory := by
  rcases List.eq_nil_or_concat path.components with hnil | ⟨front, part, hparts⟩
  · rw [Path.place, hnil]
    exact hsound.tree _ _ hsound.workingDirectory
  · rw [List.concat_eq_append] at hparts
    have hfront := h _ ⟨front, part, [], hparts, rfl⟩
    rw [Path.place, hparts, List.foldl_append]
    generalize front.foldl Place.step disk.workingDirectory = here at hfront ⊢
    cases part with
    | root => rfl
    | current => exact hsound.tree _ _ hfront
    | parent => exact hsound.tree _ _ (hsound.tree _ _ hfront)
    | name text =>
        change disk.tree.find? (here ++ [text]).dropLast = _
        rw [List.dropLast_concat]
        exact hfront

/-- A path without a parent leads through nothing but the place that it is read from. -/
theorem IsSound.opens_of_parent?_eq_none (hsound : disk.IsSound) (h : path.parent? = none) :
    disk.Opens path := by
  rintro place ⟨front, part, back, hparts, rfl⟩
  have hlead := path.lead_length_le
  rw [Path.components_eq, Path.components_of_parent?_eq_none h, List.append_nil] at hparts
  rw [hparts, List.length_append, List.length_cons] at hlead
  obtain rfl : front = [] := List.length_eq_zero_iff.mp (by omega)
  exact hsound.workingDirectory

theorem locate_of_opens (hsound : disk.IsSound) (hfits : path.Fits) (hsettled : path.Settled)
    (hne : path.text.toList ≠ []) (h : disk.Opens path) :
    disk.tree.locate disk.workingDirectory path =
      .ok ⟨path.place disk.workingDirectory, path.asksDirectory⟩ := by
  rw [FileTree.locate_eq_map _ _ hfits hne,
    (FileTree.follow_path_iff hfits hsettled hsound.workingDirectory).mpr h]
  rfl

/-- A directory is not found where something above it is missing. -/
theorem makeDirectory_of_not_opens (hsound : disk.IsSound) (hfits : path.Fits)
    (hsettled : path.Settled) (hne : path.text.toList ≠ []) (hclear : disk.Clear path)
    (h : ¬ disk.Opens path) : disk.makeDirectory path = .error .notFound := by
  have hfollow := (FileTree.follow_path_or hfits hclear).resolve_left fun hok =>
    h ((FileTree.follow_path_iff hfits hsettled hsound.workingDirectory).mp hok)
  rw [makeDirectory, FileTree.locate_eq_map _ _ hfits hne, hfollow]
  rfl

/-! ### What is made -/

/-- Directories have been made at places that a path leads to or through, where there was nothing,
and nothing else has changed. -/
structure MadeAlong (path : Path) (before after : Disk) : Prop where
  workingDirectory : after.workingDirectory = before.workingDirectory
  changed : ∀ place, after.tree.find? place = before.tree.find? place ∨
    path.Through before.workingDirectory place ∧ before.tree.find? place = none ∧
      after.tree.find? place = some .directory
  sound : before.IsSound → after.IsSound

theorem MadeAlong.refl (path : Path) (disk : Disk) : MadeAlong path disk disk :=
  ⟨rfl, fun _ => .inl rfl, id⟩

theorem MadeAlong.trans {first second third : Disk} (h : MadeAlong path first second)
    (h' : MadeAlong path second third) : MadeAlong path first third where
  workingDirectory := h'.workingDirectory.trans h.workingDirectory
  changed := by
    intro place
    have hlater := h'.changed place
    rw [h.workingDirectory] at hlater
    rcases h.changed place with hsame | ⟨hthrough, hnone, hmade⟩
    · rw [← hsame]
      exact hlater
    · rcases hlater with hsame' | ⟨-, hnone', -⟩
      · exact .inr ⟨hthrough, hnone, hsame'.trans hmade⟩
      · rw [hmade] at hnone'
        cases hnone'
  sound := h'.sound ∘ h.sound

/-- What was a file is the file it was, and there are no new ones. -/
theorem MadeAlong.file_iff (h : MadeAlong path disk after) (place : Place) (bytes : ByteArray) :
    after.tree.find? place = some (.file bytes) ↔ disk.tree.find? place = some (.file bytes) := by
  rcases h.changed place with hsame | ⟨-, hnone, hmade⟩
  · rw [hsame]
  · simp [hnone, hmade]

theorem MadeAlong.directory (h : MadeAlong path disk after) {place : Place}
    (hplace : disk.tree.find? place = some .directory) :
    after.tree.find? place = some .directory := by
  rcases h.changed place with hsame | ⟨-, -, hmade⟩
  · rw [hsame]
    exact hplace
  · exact hmade

/-- All that a path leads through before its end is there once its parent was made. -/
theorem MadeAlong.opens {along above : Path} (h : MadeAlong along disk after)
    (habove : path.parent? = some above) (hne : path.text.toList ≠ [])
    (hdirectories : ∀ place, above.Through disk.workingDirectory place →
      after.tree.find? place = some .directory) : after.Opens path := by
  intro place hleaves
  rw [h.workingDirectory] at hleaves
  exact hdirectories place
    ((Path.leaves_iff_of_parent? habove (Path.components_ne_nil hne)).mp hleaves)

/-- Directories that are made are in nobody's way. -/
theorem MadeAlong.clear {along : Path} (h : MadeAlong along disk after) (hclear : disk.Clear path) :
    after.Clear path := by
  intro place hthrough bytes
  rw [h.workingDirectory] at hthrough
  rw [ne_eq, h.file_iff]
  exact hclear place hthrough bytes

theorem madeAlong_makeDirectory {front : Path} (hfront : front.components <+: path.components)
    (h : disk.makeDirectory front = .ok after) : MadeAlong path disk after := by
  obtain ⟨hnone, habove, rfl⟩ := makeDirectory_eq_ok h
  have hne : front.place disk.workingDirectory ≠ [] :=
    FileTree.ne_nil_of_find? hnone (by simp)
  refine ⟨rfl, fun place => ?_, fun hsound => ⟨?_, ?_⟩⟩
  · rw [FileTree.find?_set _ hne]
    by_cases hthere : place = front.place disk.workingDirectory
    · rw [if_pos hthere, hthere]
      exact .inr ⟨⟨front.components, hfront, rfl⟩, hnone, rfl⟩
    · exact .inl (if_neg hthere)
  · exact hsound.tree.set hne habove fun _ => rfl
  · rw [FileTree.find?_set _ hne, hsound.workingDirectory]
    split
    · rfl
    · rfl

theorem madeAlong_makeDirectoriesFrom (disk : Disk) (path : Path) (fuel : Nat) :
    MadeAlong path disk (disk.makeDirectoriesFrom path fuel).1 :=
  rel_makeDirectoriesFrom (MadeAlong.refl path) MadeAlong.trans disk path fuel
    madeAlong_makeDirectory

theorem madeAlong_makeDirectories (disk : Disk) (path : Path) :
    MadeAlong path disk (disk.makeDirectories path).1 :=
  madeAlong_makeDirectoriesFrom disk path _

theorem directory_of_makeDirectory (h : disk.makeDirectory path = .ok after) :
    after.tree.find? (path.place disk.workingDirectory) = some .directory := by
  obtain ⟨hnone, -, rfl⟩ := makeDirectory_eq_ok h
  rw [FileTree.find?_set _ (FileTree.ne_nil_of_find? hnone (by simp)), if_pos rfl]

/-- Where all above it is there, a directory is made or is there already. -/
theorem makeDirectory_of_opens (hsound : disk.IsSound) (hfits : path.Fits)
    (hsettled : path.Settled) (hne : path.text.toList ≠ []) (hclear : disk.Clear path)
    (h : disk.Opens path) :
    ∃ made, (disk.makeDirectory path = .ok made ∨
        disk.makeDirectory path = .error .alreadyExists ∧ disk.isDirectory path = true ∧
          made = disk) ∧
      ∀ place, path.Through disk.workingDirectory place →
        made.tree.find? place = some .directory := by
  have hlocate := locate_of_opens hsound hfits hsettled hne h
  have henter : disk.tree.enter (path.place disk.workingDirectory).dropLast = .ok () :=
    FileTree.enter_eq_ok.mpr (h.above hsound)
  cases hfound : disk.tree.find? (path.place disk.workingDirectory) with
  | none =>
      have hmade : ∃ made, disk.makeDirectory path = .ok made := by
        simp only [makeDirectory, hlocate, bind, Except.bind, henter, hfound]
        exact ⟨_, rfl⟩
      obtain ⟨made, hmade⟩ := hmade
      refine ⟨made, .inl hmade, fun place hthrough => ?_⟩
      rcases hthrough.eq_or_leaves with rfl | hleaves
      · exact directory_of_makeDirectory hmade
      · exact (madeAlong_makeDirectory List.prefix_rfl hmade).directory (h place hleaves)
  | some entry =>
      cases entry with
      | file bytes => exact absurd hfound (hclear _ (Path.through_place _ path) bytes)
      | directory =>
          refine ⟨disk, .inr ⟨?_, ?_, rfl⟩, fun place hthrough => ?_⟩
          · simp [makeDirectory, hlocate, bind, Except.bind, henter, hfound]
          · simp [isDirectory, lookup, hlocate, bind, Except.bind, hfound]
          · rcases hthrough.eq_or_leaves with rfl | hleaves
            · exact hfound
            · exact h place hleaves

theorem length_lt_of_parent? {above : Path} (h : path.parent? = some above)
    (hne : path.text.toList ≠ []) : above.text.toList.length < path.text.toList.length := by
  have hbegins := Path.text_isPrefix_of_parent? h
  refine Nat.lt_of_le_of_ne hbegins.length_le fun hlength => ?_
  have hsame : above = path :=
    Path.text_inj.mp (String.toList_inj.mp (hbegins.eq_of_length hlength))
  have hshorter := congrArg List.length (Path.components_parent? (hsame ▸ h))
  have hsome := List.length_pos_iff.mpr (Path.components_ne_nil hne)
  rw [List.length_dropLast] at hshorter
  omega

/-- Making a directory with all above it succeeds where no file is in the way, and all that the
path leads through is a directory then. -/
theorem makeDirectoriesFrom_of_clear {fuel : Nat} (hsound : disk.IsSound) (hfits : path.Fits)
    (hsettled : path.Settled) (hclear : disk.Clear path)
    (hfuel : path.text.toList.length < fuel) :
    (disk.makeDirectoriesFrom path fuel).2 = .ok () ∧
      ∀ place, path.Through disk.workingDirectory place →
        (disk.makeDirectoriesFrom path fuel).1.tree.find? place = some .directory := by
  induction fuel generalizing path with
  | zero => exact absurd hfuel (Nat.not_lt_zero _)
  | succ fuel ih =>
      rw [makeDirectoriesFrom]
      by_cases hne : path.text.toList = []
      · have hempty : path.text.isEmpty = true := by simpa using hne
        rw [if_pos hempty]
        refine ⟨rfl, ?_⟩
        rintro place ⟨front, hfront, rfl⟩
        rw [Path.components, hne] at hfront
        rw [List.prefix_nil.mp hfront]
        exact hsound.workingDirectory
      have hempty : ¬ path.text.isEmpty = true := by simpa using hne
      rw [if_neg hempty]
      by_cases hopens : disk.Opens path
      · obtain ⟨made, hmade | ⟨hexists, hthere, rfl⟩, hplaces⟩ :=
          makeDirectory_of_opens hsound hfits hsettled hne hclear hopens
        · simp only [hmade]
          exact ⟨trivial, hplaces⟩
        · simp only [hexists, hthere, if_true]
          exact ⟨trivial, hplaces⟩
      · rw [makeDirectory_of_not_opens hsound hfits hsettled hne hclear hopens]
        cases habove : path.parent? with
        | none =>
            exact absurd (hsound.opens_of_parent?_eq_none habove) hopens
        | some above =>
            have hways : ∀ place, above.Through disk.workingDirectory place →
                path.Through disk.workingDirectory place :=
              fun place hplace => hplace.of_parent? habove
            obtain ⟨hok, hdirectories⟩ :=
              ih (hfits.of_isPrefix (Path.text_isPrefix_of_parent? habove))
                (Path.settled_of_parent? habove)
                (fun place hplace => hclear place (hways place hplace))
                (Nat.lt_of_lt_of_le (length_lt_of_parent? habove hne) (Nat.le_of_lt_succ hfuel))
            have hbetween := madeAlong_makeDirectoriesFrom disk above fuel
            rcases hmake : disk.makeDirectoriesFrom above fuel with ⟨between, result⟩
            rw [hmake] at hok hdirectories hbetween
            obtain rfl : result = .ok () := hok
            obtain ⟨made, hmade, hplaces⟩ := makeDirectory_of_opens (hbetween.sound hsound) hfits
              hsettled hne (hbetween.clear hclear) (hbetween.opens habove hne hdirectories)
            rw [hbetween.workingDirectory] at hplaces
            rcases hmade with hmade | ⟨hexists, hthere, rfl⟩
            · simp only [hmake, hmade]
              exact ⟨trivial, hplaces⟩
            · simp only [hmake, hexists, hthere, if_true]
              exact ⟨trivial, hplaces⟩

theorem makeDirectories_of_clear (hsound : disk.IsSound) (hfits : path.Fits)
    (hsettled : path.Settled) (hclear : disk.Clear path) :
    (disk.makeDirectories path).2 = .ok () ∧
      ∀ place, path.Through disk.workingDirectory place →
        (disk.makeDirectories path).1.tree.find? place = some .directory :=
  makeDirectoriesFrom_of_clear hsound hfits hsettled hclear
    (by rw [String.length_toList]; exact Nat.lt_succ_self _)

/-! ### What is written -/

variable {text : String}

theorem isSound_writeText (hsound : disk.IsSound) (h : disk.writeText path text = .ok after) :
    after.IsSound := by
  have hkeep := directory_of_writeText h
  obtain ⟨-, habove, hfile, rfl⟩ := writeText_eq_ok h
  refine ⟨hsound.tree.set (FileTree.ne_nil_of_find? rfl hfile) habove fun hdirectory => ?_, ?_⟩
  · exact absurd hdirectory hfile
  · exact hkeep _ hsound.workingDirectory

/-- A file is written wherever all above it is there, unless a directory is in its place. -/
theorem writeText_of_opens (hsound : disk.IsSound) (hfits : path.Fits) (hsettled : path.Settled)
    (hne : path.text.toList ≠ []) (hopens : disk.Opens path) (hname : path.asksDirectory = false)
    (hfree : disk.tree.find? (path.place disk.workingDirectory) ≠ some .directory)
    (text : String) : ∃ after, disk.writeText path text = .ok after := by
  have hlocate := locate_of_opens hsound hfits hsettled hne hopens
  have henter : disk.tree.enter (path.place disk.workingDirectory).dropLast = .ok () :=
    FileTree.enter_eq_ok.mpr (hopens.above hsound)
  rw [writeText, writeBytes, hlocate]
  simp only [bind, Except.bind, henter, hname, Bool.false_eq_true, if_false]
  exact ⟨_, rfl⟩

end Disk

end Bundler
