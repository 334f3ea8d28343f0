import Bundler.Proofs.Disk.Place
import Mathlib.Data.String.Basic

/-! A path at which a file is read is short enough, and the file stands at the place that it
denotes. -/

namespace Bundler

/-- A character takes at least one byte. -/
theorem length_le_utf8ByteSize (text : String) : text.toList.length ≤ text.utf8ByteSize := by
  suffices h : ∀ chars : List Char, chars.length ≤ String.utf8Len chars by
    rw [← String.ofList_toList (s := text), String.utf8ByteSize_ofList, String.toList_ofList]
    exact h text.toList
  intro chars
  induction chars with
  | nil => exact Nat.le_refl 0
  | cons c rest ih =>
      have hsize := c.utf8Size_pos
      rw [List.length_cons, String.utf8Len_cons]
      omega

namespace FileTree

variable {tree : FileTree} {base place : Place} {path : Path} {target : Target}

theorem utf8ByteSize_le_of_locate (h : tree.locate base path = .ok target) :
    path.text.utf8ByteSize ≤ maxPath := by
  by_contra hlong
  rw [locate, if_pos (Nat.lt_of_not_le hlong)] at h
  split at h
  · cases h
  · split at h
    · cases h
    · cases h

theorem mem_entries_of_find? {bytes : ByteArray} (h : tree.find? place = some (.file bytes)) :
    (place, .file bytes) ∈ tree.entries := by
  unfold find? at h
  split at h
  · cases h
  · obtain ⟨before, after, hentries, -⟩ := List.lookup_eq_some_iff.mp h
    rw [hentries]
    simp

end FileTree

namespace Disk

variable {disk : Disk} {path : Path}

theorem exists_file_of_isFile (h : disk.isFile path = true) :
    path.text.utf8ByteSize ≤ FileTree.maxPath ∧
      ∃ bytes, disk.tree.find? (path.place disk.workingDirectory) = some (.file bytes) := by
  unfold isFile at h
  split at h
  · next bytes hlookup =>
    obtain ⟨target, hlocate, hfound⟩ := bind_eq_ok_iff.mp hlookup
    refine ⟨FileTree.utf8ByteSize_le_of_locate hlocate, ?_⟩
    rw [FileTree.place_of_locate hlocate] at hfound
    split at hfound
    · cases hfound
    · cases hfound
    · next held hheld => exact ⟨held, hheld⟩
  · cases h

theorem isFile_of_readText {text : String} (h : disk.readText path = .ok text) :
    disk.isFile path = true := by
  obtain ⟨entry, hlookup, hread⟩ := bind_eq_ok_iff.mp h
  cases entry with
  | directory => cases hread
  | file bytes => simp [isFile, hlookup]

end Disk

end Bundler
