import Bundler.Proofs.Disk.Making
import Bundler.Proofs.Disk.Reading
import Bundler.Proofs.Path.Ending
import Bundler.Resolver

/-! What a specifier denotes after a disk has changed. The candidates are straight paths, so that
whether one is a file does not depend on directories other than those above it. A specifier denotes
what it did before wherever the files that are looked at are those that were there. -/

namespace Bundler

namespace Path

variable {names : List String}

theorem asksDirectory_rooted (h : ∀ name ∈ names, IsName name) (hne : names ≠ []) :
    (rooted names).asksDirectory = false := by
  obtain ⟨front, last, rfl⟩ := (List.eq_nil_or_concat names).resolve_left hne
  rw [List.concat_eq_append] at h ⊢
  have hlast : IsName last := h last (by simp)
  rw [rooted_snoc, asksDirectory_join _ hlast.isAbsolute, hlast.asksDirectory]

theorem settled_rooted (h : ∀ name ∈ names, IsName name) : (rooted names).Settled := by
  by_cases hne : names = []
  · intro front back hsegments
    have hparts : segments (rooted names).text.toList = [[], []] := by
      rw [hne]
      rfl
    have hmem : ['.'] ∈ segments (rooted names).text.toList := by simp [hsegments]
    simp [hparts] at hmem
  · exact settled_of_asksDirectory (asksDirectory_rooted h hne)

end Path

namespace FileTree

variable {tree other : FileTree} {here place base : Place} {parts : List (List Char)} {path : Path}

theorem IsSound.directory_of_isPrefix_directory {other : Place} (h : tree.IsSound)
    (hplace : tree.find? place = some .directory) (hbegins : other <+: place) :
    tree.find? other = some .directory := by
  by_cases hsame : other = place
  · rw [hsame]
    exact hplace
  · exact h.directory_of_isPrefix hplace hbegins hsame

theorem fit_of_follow (h : tree.follow here parts = .ok place) : Fit parts := by
  induction parts generalizing here with
  | nil => simp [Fit]
  | cons segment rest ih =>
      obtain ⟨-, hsize, hrest⟩ := follow_cons_eq_ok.mp h
      exact List.forall_mem_cons.mpr ⟨hsize, ih hrest⟩

/-- A straight path leads through places above the one it is read from, and then through places
above the one it leads to. -/
theorem reach_of_straight (h : path.IsStraight) {front : List (List Char)}
    (hfront : front <+: Path.segments path.text.toList) (base : Place) :
    reach (path.start base) front <+: path.start base ∨
      reach (path.start base) front <+: path.place base := by
  obtain ⟨ups, names, hclimb⟩ := h
  have hplace : path.place base =
      (Path.climb ups names).foldl Place.step (path.start base) := by
    rw [Path.place_eq, hclimb]
    rfl
  have hparts : Path.componentsOfSegments front <+: Path.climb ups names := by
    rw [← hclimb]
    exact hfront.filterMap _
  rw [hplace, reach]
  have hup := List.prefix_append (List.replicate ups .parent) (names.map Path.Component.name)
  rcases List.prefix_or_prefix_of_prefix hparts hup with hup | ⟨down, hdown⟩
  · left
    rw [(List.prefix_replicate_iff.mp hup).2, Path.foldl_parents]
    exact List.take_prefix _ _
  · right
    rw [← hdown, Path.climb, List.prefix_append_right_inj] at hparts
    obtain ⟨more, hmore⟩ := hparts
    obtain ⟨through, rest, rfl, rfl, -⟩ := List.map_eq_append_iff.mp hmore.symm
    have honward : ∀ (parts : List Path.Component) (here : Place),
        (parts ++ rest.map Path.Component.name).foldl Place.step here =
          parts.foldl Place.step here ++ rest :=
      fun parts here => by rw [List.foldl_append, Place.foldl_names]
    rw [← hdown, Path.climb, List.map_append, ← List.append_assoc, honward]
    exact List.prefix_append _ _

end FileTree

namespace Disk

variable {disk after : Disk} {path : Path}

/-- No directory is lost. -/
structure Keeps (before after : Disk) : Prop where
  workingDirectory : after.workingDirectory = before.workingDirectory
  directory : ∀ place, before.tree.find? place = some .directory →
    after.tree.find? place = some .directory

/-- The same file is at the place of a path, or none. -/
def SameFileAt (before after : Disk) (path : Path) : Prop :=
  ∀ bytes, after.tree.find? (path.place before.workingDirectory) = some (.file bytes) ↔
    before.tree.find? (path.place before.workingDirectory) = some (.file bytes)

theorem lookup_eq_file_iff {bytes : ByteArray} :
    disk.lookup path = .ok (.file bytes) ↔
      disk.tree.locate disk.workingDirectory path =
        .ok ⟨path.place disk.workingDirectory, false⟩ ∧
      disk.tree.find? (path.place disk.workingDirectory) = some (.file bytes) := by
  constructor
  · intro h
    obtain ⟨⟨place, asDirectory⟩, hlocate, hfound⟩ := bind_eq_ok_iff.mp h
    obtain rfl : place = path.place disk.workingDirectory := FileTree.place_of_locate hlocate
    dsimp only at hfound
    split at hfound
    · cases hfound
    · cases hfound
    · next held hheld =>
      cases asDirectory with
      | true => cases hfound
      | false =>
          obtain rfl := FileEntry.file.inj (Except.ok.inj hfound)
          exact ⟨hlocate, hheld⟩
  · rintro ⟨hlocate, hfound⟩
    simp [lookup, hlocate, hfound, bind, Except.bind]

theorem isFile_iff : disk.isFile path = true ↔ ∃ bytes, disk.lookup path = .ok (.file bytes) := by
  unfold isFile
  split
  · next bytes hlookup => simp [hlookup]
  · next hother => simpa using hother

theorem IsSound.start (h : disk.IsSound) (path : Path) :
    disk.tree.find? (path.start disk.workingDirectory) = some .directory := by
  unfold Path.start
  split
  · rfl
  · exact h.workingDirectory

/-- A file that is found still is. -/
theorem Keeps.lookup (h : Keeps disk after) (hsame : SameFileAt disk after path)
    {bytes : ByteArray} (hfile : disk.lookup path = .ok (.file bytes)) :
    after.lookup path = .ok (.file bytes) := by
  obtain ⟨hlocate, hfound⟩ := lookup_eq_file_iff.mp hfile
  refine lookup_eq_file_iff.mpr ?_
  rw [h.workingDirectory]
  exact ⟨FileTree.locate_mono h.directory hlocate, (hsame bytes).mpr hfound⟩

/-- A file that is found on a straight path was found there before. -/
theorem Keeps.lookup_of_after (h : Keeps disk after) (hsame : SameFileAt disk after path)
    (hsound : disk.IsSound) (hstraight : path.IsStraight) {bytes : ByteArray}
    (hfile : after.lookup path = .ok (.file bytes)) : disk.lookup path = .ok (.file bytes) := by
  obtain ⟨hlocate, hfound⟩ := lookup_eq_file_iff.mp hfile
  rw [h.workingDirectory] at hlocate hfound
  have hbefore := (hsame bytes).mp hfound
  refine lookup_eq_file_iff.mpr ⟨?_, hbefore⟩
  obtain ⟨hlooked, hfollow, hasks⟩ := FileTree.locate_eq_ok_iff.mp hlocate
  have hfit := FileTree.fit_of_follow hfollow
  obtain ⟨hplace, hleft⟩ := (FileTree.follow_eq_ok_iff hfit).mp hfollow
  refine FileTree.locate_eq_ok_iff.mpr
    ⟨hlooked, (FileTree.follow_eq_ok_iff hfit).mpr ⟨hplace, ?_⟩, hasks⟩
  intro front segment back hsplit hne
  have hdirectory := hleft front segment back hsplit hne
  change after.tree.find? (FileTree.reach (path.start disk.workingDirectory) front) = _
    at hdirectory
  change disk.tree.find? (FileTree.reach (path.start disk.workingDirectory) front) = _
  rcases FileTree.reach_of_straight hstraight ⟨_, hsplit.symm⟩ disk.workingDirectory with
    habove | hdown
  · exact hsound.tree.directory_of_isPrefix_directory (hsound.start path) habove
  · -- the file itself is no directory, so that this is a place above it
    refine hsound.tree.directory_of_isPrefix hbefore hdown fun hhere => ?_
    rw [hhere, hfound] at hdirectory
    cases hdirectory

theorem Keeps.isFile_eq (h : Keeps disk after) (hsame : SameFileAt disk after path)
    (hsound : disk.IsSound) (hstraight : path.IsStraight) :
    after.isFile path = disk.isFile path := by
  rw [Bool.eq_iff_iff, isFile_iff, isFile_iff]
  constructor
  · rintro ⟨bytes, hfile⟩
    exact ⟨bytes, h.lookup_of_after hsame hsound hstraight hfile⟩
  · rintro ⟨bytes, hfile⟩
    exact ⟨bytes, h.lookup hsame hfile⟩

/-- A text that is read still is. -/
theorem Keeps.readText (h : Keeps disk after) (hsame : SameFileAt disk after path) {text : String}
    (htext : disk.readText path = .ok text) : after.readText path = .ok text := by
  obtain ⟨entry, hlookup, hread⟩ := bind_eq_ok_iff.mp htext
  cases entry with
  | directory => cases hread
  | file bytes => exact bind_eq_ok_iff.mpr ⟨_, h.lookup hsame hlookup, hread⟩

end Disk

namespace Resolver

variable {resolver : Resolver} {disk after : Disk} {base path : Path} {specifier : String}

/-- The candidates that are looked at to find out what a specifier denotes: those that are no file,
and the first one that is. -/
def probed (resolver : Resolver) (disk : Disk) (base : Path) (specifier : String) : List Path :=
  let candidates := resolver.candidates base specifier
  candidates.takeWhile (fun path => !disk.isFile path) ++ (candidates.find? disk.isFile).toList

theorem isStraight_of_mem_candidates
    (hextensions : ∀ extension ∈ resolver.extensions, '/' ∉ extension.toList)
    (h : path ∈ resolver.candidates base specifier) : path.IsStraight := by
  obtain ⟨extension, hextension, rfl⟩ := List.mem_map.mp h
  refine Path.isStraight_normalize _ ?_
  rcases List.mem_cons.mp hextension with rfl | hextension
  · exact List.not_mem_nil
  · exact hextensions extension hextension

theorem mem_candidates_of_mem_probed (h : path ∈ resolver.probed disk base specifier) :
    path ∈ resolver.candidates base specifier := by
  rcases List.mem_append.mp h with h | h
  · exact (List.takeWhile_sublist _).subset h
  · exact List.mem_of_find?_eq_some (Option.mem_toList.mp h)

/-- A specifier denotes the same file wherever those that are looked at are the same. -/
theorem resolve_congr
    (h : ∀ path ∈ resolver.probed disk base specifier, after.isFile path = disk.isFile path) :
    resolver.resolve after base specifier = resolver.resolve disk base specifier := by
  have hfirst : ∀ {candidates : List Path},
      (∀ path ∈ candidates.takeWhile (fun path => !disk.isFile path) ++
        (candidates.find? disk.isFile).toList, after.isFile path = disk.isFile path) →
      candidates.find? after.isFile = candidates.find? disk.isFile := by
    intro candidates
    induction candidates with
    | nil => exact fun _ => rfl
    | cons first rest ih =>
        intro hsame
        cases hfile : disk.isFile first with
        | true =>
            have hhere := hsame first (by simp [hfile])
            rw [hfile] at hhere
            rw [List.find?_cons_of_pos hhere, List.find?_cons_of_pos hfile]
        | false =>
            have hhere := hsame first (by simp [hfile])
            rw [hfile] at hhere
            rw [List.find?_cons_of_neg (by simp [hhere]), List.find?_cons_of_neg (by simp [hfile])]
            refine ih fun path hpath => hsame path ?_
            rw [List.takeWhile_cons_of_pos (by simp [hfile]),
              List.find?_cons_of_neg (by simp [hfile])]
            exact List.mem_cons_of_mem first hpath
  unfold resolve
  rw [hfirst h]

end Resolver

end Bundler
