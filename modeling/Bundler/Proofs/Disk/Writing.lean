import Bundler.Proofs.Disk.Place
import Bundler.Proofs.Path.Parent

/-! Making directories only adds to a disk. Writing a file changes what is at its place and nothing
else, so that what was written before can still be read at every other place. -/

namespace Bundler

namespace FileTree

theorem lookup_setEntry (place other : Place) (entry : FileEntry)
    (entries : List (Place × FileEntry)) :
    (setEntry place entry entries).lookup other =
      if other = place then some entry else entries.lookup other := by
  induction entries with
  | nil =>
      by_cases h : other = place
      · simp [setEntry, h]
      · have hne : (other == place) = false := by simpa using h
        simp [setEntry, h, List.lookup_cons, hne]
  | cons first rest ih =>
      obtain ⟨here, old⟩ := first
      by_cases hhere : here = place
      · subst hhere
        by_cases h : other = here
        · simp [setEntry, h]
        · have hne : (other == here) = false := by simpa using h
          simp [setEntry, h, List.lookup_cons, hne]
      · rw [setEntry, if_neg hhere, List.lookup_cons, List.lookup_cons, ih]
        by_cases h : other = here
        · subst h
          simp [hhere]
        · have hne : (other == here) = false := by simpa using h
          simp [hne]

variable {tree : FileTree} {place other : Place}

theorem find?_set (entry : FileEntry) (h : place ≠ []) :
    (tree.set place entry).find? other =
      if other = place then some entry else tree.find? other := by
  cases other with
  | nil => simp [find?, Ne.symm h]
  | cons name rest => exact lookup_setEntry place (name :: rest) entry tree.entries

theorem ne_nil_of_find? {found : Option FileEntry} (h : tree.find? place = found)
    (hfound : found ≠ some .directory) : place ≠ [] := by
  rintro rfl
  exact hfound h.symm

end FileTree

namespace Disk

variable {disk after : Disk} {path : Path}

/-! ### Making directories -/

/-- Whatever is somewhere on a disk is still there. -/
structure Grows (before after : Disk) : Prop where
  workingDirectory : after.workingDirectory = before.workingDirectory
  entry : ∀ place entry, before.tree.find? place = some entry →
    after.tree.find? place = some entry

theorem Grows.refl (disk : Disk) : Grows disk disk :=
  ⟨rfl, fun _ _ h => h⟩

theorem Grows.trans {first second third : Disk} (h : Grows first second)
    (h' : Grows second third) : Grows first third :=
  ⟨h'.workingDirectory.trans h.workingDirectory,
    fun place entry hentry => h'.entry place entry (h.entry place entry hentry)⟩

/-- A directory is made where its path leads, in a directory and where there was nothing. -/
theorem makeDirectory_eq_ok (h : disk.makeDirectory path = .ok after) :
    let place := path.place disk.workingDirectory
    disk.tree.find? place = none ∧ disk.tree.find? place.dropLast = some .directory ∧
      after = { disk with tree := disk.tree.set place .directory } := by
  intro place
  obtain ⟨target, hlocate, h⟩ := bind_eq_ok_iff.mp h
  obtain ⟨_, henter, h⟩ := bind_eq_ok_iff.mp h
  have hplace : target.place = place := FileTree.place_of_locate hlocate
  rw [hplace] at henter h
  cases hfind : disk.tree.find? place with
  | some entry =>
      rw [hfind] at h
      cases h
  | none =>
      rw [hfind] at h
      exact ⟨rfl, FileTree.enter_eq_ok.mp henter, (Except.ok.inj h).symm⟩

theorem grows_makeDirectory (h : disk.makeDirectory path = .ok after) : Grows disk after := by
  obtain ⟨hnone, -, rfl⟩ := makeDirectory_eq_ok h
  refine ⟨rfl, fun place entry hentry => ?_⟩
  have hother : place ≠ path.place disk.workingDirectory := by
    rintro rfl
    rw [hnone] at hentry
    cases hentry
  rw [FileTree.find?_set _ (FileTree.ne_nil_of_find? hnone (by simp)), if_neg hother]
  exact hentry

/-- What every directory that is made at or above a path does to the disk, making all of them does,
also when that fails on the way. -/
theorem rel_makeDirectoriesFrom {rel : Disk → Disk → Prop} (refl : ∀ disk, rel disk disk)
    (trans : ∀ {a b c}, rel a b → rel b c → rel a c) (disk : Disk) (path : Path) (fuel : Nat)
    (hmake : ∀ {front : Path} {before after : Disk}, front.components <+: path.components →
      before.makeDirectory front = .ok after → rel before after) :
    rel disk (disk.makeDirectoriesFrom path fuel).1 := by
  fun_induction makeDirectoriesFrom disk path fuel with
  | case1 => exact refl disk
  | case2 => exact refl disk
  | case3 path fuel hempty made hmade => exact hmake List.prefix_rfl hmade
  | case4 => exact refl disk
  | case5 path fuel hempty hfail above habove rest error hrest ih =>
      have hparents := ih fun hfront =>
        hmake (hfront.trans (Path.components_isPrefix_of_parent? habove))
      rwa [hrest] at hparents
  | case6 path fuel hempty hfail above habove rest hrest made hmade ih =>
      have hparents := ih fun hfront =>
        hmake (hfront.trans (Path.components_isPrefix_of_parent? habove))
      rw [hrest] at hparents
      exact trans hparents (hmake List.prefix_rfl hmade)
  | case7 path fuel hempty settle hfail above habove rest hrest error herror ih =>
      have hparents := ih fun hfront =>
        hmake (hfront.trans (Path.components_isPrefix_of_parent? habove))
      rw [hrest] at hparents
      unfold settle
      split
      · exact hparents
      · exact hparents
  | case8 path fuel hempty settle error hfound herror =>
      unfold settle
      split
      · exact refl disk
      · exact refl disk

theorem grows_makeDirectories (disk : Disk) (path : Path) :
    Grows disk (disk.makeDirectories path).1 :=
  rel_makeDirectoriesFrom Grows.refl Grows.trans disk path _ fun _ => grows_makeDirectory

/-! ### Writing files -/

/-- There is a file at a path, and it holds a text. -/
structure Holds (disk : Disk) (path : Path) (text : String) : Prop where
  located : disk.tree.locate disk.workingDirectory path =
    .ok ⟨path.place disk.workingDirectory, false⟩
  stored : disk.tree.find? (path.place disk.workingDirectory) = some (.file text.toUTF8)

variable {other : Path} {text held : String}

/-- A path that was found still is where every directory still is one. -/
theorem Holds.of_directories (h : disk.Holds path held)
    (hsame : after.workingDirectory = disk.workingDirectory)
    (hkeep : ∀ place, disk.tree.find? place = some .directory →
      after.tree.find? place = some .directory)
    (hstored : after.tree.find? (path.place disk.workingDirectory) = some (.file text.toUTF8)) :
    after.Holds path text := by
  refine ⟨?_, ?_⟩
  · rw [hsame]
    exact FileTree.locate_mono hkeep h.located
  · rw [hsame]
    exact hstored

theorem Holds.grows (h : disk.Holds path held) (hgrows : Grows disk after) :
    after.Holds path held :=
  h.of_directories hgrows.workingDirectory (fun place => hgrows.entry place .directory)
    (hgrows.entry _ _ h.stored)

theorem Holds.readText (h : disk.Holds path held) : disk.readText path = .ok held := by
  have hlookup : disk.lookup path = .ok (.file held.toUTF8) := by
    simp [lookup, h.located, h.stored, bind, Except.bind]
  have hdecoded : String.fromUTF8? held.toByteArray = some held := by
    rw [String.fromUTF8?, dif_pos held.isValidUTF8]
    rfl
  simp [Disk.readText, hlookup, hdecoded, bind, Except.bind]

/-- A file is written where its path leads, in a directory, and never in place of one. -/
theorem writeText_eq_ok (h : disk.writeText path text = .ok after) :
    let place := path.place disk.workingDirectory
    disk.tree.locate disk.workingDirectory path = .ok ⟨place, false⟩ ∧
      disk.tree.find? place.dropLast = some .directory ∧
      disk.tree.find? place ≠ some .directory ∧
      after = { disk with tree := disk.tree.set place (.file text.toUTF8) } := by
  intro place
  obtain ⟨target, hlocate, h⟩ := bind_eq_ok_iff.mp h
  obtain ⟨_, henter, h⟩ := bind_eq_ok_iff.mp h
  have htarget : target.place = place := FileTree.place_of_locate hlocate
  rw [htarget] at henter h
  split at h
  · cases h
  · next hfile =>
    split at h
    · cases h
    · next hdirectory =>
      refine ⟨?_, FileTree.enter_eq_ok.mp henter, hfile, (Except.ok.inj h).symm⟩
      rw [hlocate, ← htarget, ← Bool.eq_false_iff.mpr hdirectory]

theorem workingDirectory_writeText (h : disk.writeText path text = .ok after) :
    after.workingDirectory = disk.workingDirectory := by
  obtain ⟨-, -, -, rfl⟩ := writeText_eq_ok h
  rfl

theorem find?_writeText (h : disk.writeText path text = .ok after) (place : Place) :
    after.tree.find? place =
      if place = path.place disk.workingDirectory then some (.file text.toUTF8)
      else disk.tree.find? place := by
  obtain ⟨-, -, hfile, rfl⟩ := writeText_eq_ok h
  exact FileTree.find?_set _ (FileTree.ne_nil_of_find? rfl hfile)

theorem directory_of_writeText (h : disk.writeText path text = .ok after) (place : Place)
    (hplace : disk.tree.find? place = some .directory) :
    after.tree.find? place = some .directory := by
  obtain ⟨-, -, hfile, -⟩ := writeText_eq_ok h
  have hother : place ≠ path.place disk.workingDirectory := by
    rintro rfl
    exact hfile hplace
  rw [find?_writeText h, if_neg hother]
  exact hplace

theorem holds_of_writeText (h : disk.writeText path text = .ok after) : after.Holds path text := by
  obtain ⟨hlocate, -⟩ := writeText_eq_ok h
  constructor
  · rw [workingDirectory_writeText h]
    exact FileTree.locate_mono (directory_of_writeText h) hlocate
  · rw [workingDirectory_writeText h, find?_writeText h, if_pos rfl]

/-- A file that held a text holds the one that was written, if its path denotes the same place, and
what it held before if not. -/
theorem Holds.writeText (h : disk.Holds other held)
    (hwrite : disk.writeText path text = .ok after) :
    after.Holds other
      (if other.place disk.workingDirectory = path.place disk.workingDirectory then text
        else held) := by
  refine h.of_directories (workingDirectory_writeText hwrite) (directory_of_writeText hwrite) ?_
  rw [find?_writeText hwrite]
  split
  · rfl
  · exact h.stored

end Disk

end Bundler
