import Bundler.Proofs.Disk.Probing
import Bundler.Proofs.Disk.Saving

/-! Texts that can be saved one after the other can be saved in every other order: nothing stands
in the way that is not there in the end anyway. -/

namespace Bundler

namespace FileTree

variable {tree : FileTree} {base : Place} {path : Path} {target : Target}

/-- What is found is not too long to be looked up. -/
theorem fits_of_locate (h : tree.locate base path = .ok target) :
    path.Fits ∧ path.text.toList ≠ [] := by
  obtain ⟨⟨hnul, hne, hsize⟩, hfollow, -⟩ := locate_eq_ok_iff.mp h
  exact ⟨⟨hnul, hsize, fit_of_follow hfollow⟩, hne⟩

end FileTree

namespace Disk

variable {disk final made after : Disk} {path : Path} {text held : String}

/-- A path that a file is found at leads through directories. -/
theorem Holds.opens (h : disk.Holds path held) (hsound : disk.IsSound) :
    path.Fits ∧ path.text.toList ≠ [] ∧ path.asksDirectory = false ∧ disk.Opens path := by
  obtain ⟨hfits, hne⟩ := FileTree.fits_of_locate h.located
  have hasks : path.asksDirectory = false := (FileTree.asDirectory_of_locate h.located).symm
  refine ⟨hfits, hne, hasks, ?_⟩
  have hfollow := h.located
  rw [FileTree.locate_eq_map _ _ hfits hne] at hfollow
  refine (FileTree.follow_path_iff hfits (Path.settled_of_asksDirectory hasks)
    hsound.workingDirectory).mp ?_
  cases hreached : disk.tree.follow (path.start disk.workingDirectory)
      (Path.segments path.text.toList) with
  | error error =>
      rw [hreached] at hfollow
      cases hfollow
  | ok place =>
      rw [hreached] at hfollow
      exact congrArg Except.ok (congrArg FileTree.Target.place (Except.ok.inj hfollow))

/-- Whatever stands on a disk stands on another one too, a file as a file. -/
structure Within (disk final : Disk) : Prop where
  workingDirectory : final.workingDirectory = disk.workingDirectory
  directory : ∀ place, disk.tree.find? place = some .directory →
    final.tree.find? place = some .directory
  file : ∀ place bytes, disk.tree.find? place = some (.file bytes) →
    ∃ other, final.tree.find? place = some (.file other)

theorem Within.refl (disk : Disk) : Within disk disk :=
  ⟨rfl, fun _ h => h, fun _ bytes h => ⟨bytes, h⟩⟩

theorem Within.trans {first second third : Disk} (h : Within first second)
    (h' : Within second third) : Within first third where
  workingDirectory := h'.workingDirectory.trans h.workingDirectory
  directory := fun place hplace => h'.directory place (h.directory place hplace)
  file := by
    intro place bytes hfile
    obtain ⟨other, hother⟩ := h.file place bytes hfile
    exact h'.file place other hother

theorem Grows.within (h : Grows disk after) : Within disk after :=
  ⟨h.workingDirectory, fun place => h.entry place _, fun place bytes hfile =>
    ⟨bytes, h.entry place _ hfile⟩⟩

theorem within_writeText (h : disk.writeText path text = .ok after) : Within disk after where
  workingDirectory := workingDirectory_writeText h
  directory := directory_of_writeText h
  file := by
    intro place bytes hfile
    rw [find?_writeText h]
    split
    · exact ⟨_, rfl⟩
    · exact ⟨bytes, hfile⟩

theorem within_save (h : disk.save path text = .ok after) : Within disk after := by
  obtain ⟨made, halong, -, hwrite⟩ := save_eq_ok h
  exact halong.grows.within.trans (within_writeText hwrite)

theorem within_saveAll {saved : List (Path × String)} (h : disk.saveAll saved = .ok after) :
    Within disk after := by
  induction saved generalizing disk with
  | nil =>
      obtain rfl := Except.ok.inj h
      exact .refl disk
  | cons first rest ih =>
      obtain ⟨middle, hfirst, hrest⟩ := bind_eq_ok_iff.mp h
      exact (within_save hfirst).trans (ih hrest)

/-- Directories may be made early where there are some in the end. -/
theorem Within.makeAlong (h : disk.Within final) (halong : MadeAlong path disk made)
    (hway : ∀ place, path.Through disk.workingDirectory place →
      final.tree.find? place = some .directory) : made.Within final where
  workingDirectory := h.workingDirectory.trans halong.workingDirectory.symm
  directory := by
    intro place hplace
    rcases halong.changed place with hsame | ⟨hthrough, -, -⟩
    · exact h.directory place (hsame ▸ hplace)
    · exact hway place hthrough
  file := fun place bytes hfile => h.file place bytes ((halong.file_iff place bytes).mp hfile)

/-- A file may be written early where there is one in the end. -/
theorem Within.writeText {bytes : ByteArray} (h : disk.Within final)
    (hplace : final.tree.find? (path.place disk.workingDirectory) = some (.file bytes))
    (hwrite : disk.writeText path text = .ok after) : after.Within final where
  workingDirectory := h.workingDirectory.trans (workingDirectory_writeText hwrite).symm
  directory := by
    intro place hdirectory
    rw [find?_writeText hwrite] at hdirectory
    split at hdirectory
    · cases hdirectory
    · exact h.directory place hdirectory
  file := by
    intro place other hfile
    rw [find?_writeText hwrite] at hfile
    split at hfile
    · next hthere => exact ⟨bytes, hthere ▸ hplace⟩
    · exact h.file place other hfile

/-- One step: where a file is in the end, a text can be saved at any time before. -/
theorem Within.save (h : disk.Within final) (hsound : disk.IsSound) (hfinal : final.IsSound)
    (hheld : final.Holds path held) (text : String) :
    ∃ after, disk.save path text = .ok after ∧ after.IsSound ∧ after.Within final := by
  obtain ⟨hfits, hne, hasks, hopens⟩ := hheld.opens hfinal
  obtain ⟨above, habove⟩ := Path.exists_parent_of_asksDirectory hasks
  have hway : ∀ place, above.Through disk.workingDirectory place →
      final.tree.find? place = some .directory := by
    intro place hthrough
    refine hopens place
      ((Path.leaves_iff_of_parent? habove (Path.components_ne_nil hne)).mpr ?_)
    rwa [h.workingDirectory]
  have hclear : disk.Clear above := by
    intro place hthrough bytes hfile
    obtain ⟨other, hother⟩ := h.file place bytes hfile
    rw [hway place hthrough] at hother
    cases hother
  obtain ⟨hok, hdirectories⟩ := makeDirectories_of_clear hsound
    (hfits.of_isPrefix (Path.text_isPrefix_of_parent? habove)) (Path.settled_of_parent? habove)
    hclear
  have halong := madeAlong_makeDirectories disk above
  have hmakes : disk.makeAbove path = .ok (disk.makeDirectories above).1 := by
    simp only [makeAbove, habove, hok]
    rfl
  generalize (disk.makeDirectories above).1 = made at hmakes hdirectories halong
  have hwithin := h.makeAlong halong hway
  have hplace : final.tree.find? (path.place made.workingDirectory) = some (.file held.toUTF8) := by
    rw [← hwithin.workingDirectory]
    exact hheld.stored
  have hfree : made.tree.find? (path.place made.workingDirectory) ≠ some .directory := by
    intro hdirectory
    rw [hwithin.directory _ hdirectory] at hplace
    cases hplace
  obtain ⟨after, hwrite⟩ := writeText_of_opens (halong.sound hsound) hfits
    (Path.settled_of_asksDirectory hasks) hne (halong.opens habove hne hdirectories) hasks hfree
    text
  exact ⟨after, bind_eq_ok_iff.mpr ⟨made, hmakes, hwrite⟩,
    isSound_writeText (halong.sound hsound) hwrite, hwithin.writeText hplace hwrite⟩

/-- A whole run. -/
theorem Within.saveAll {writes : List (Path × String)} (h : disk.Within final)
    (hsound : disk.IsSound) (hfinal : final.IsSound)
    (hheld : ∀ write ∈ writes, ∃ held, final.Holds write.1 held) :
    ∃ after, disk.saveAll writes = .ok after := by
  induction writes generalizing disk with
  | nil => exact ⟨disk, rfl⟩
  | cons first rest ih =>
      obtain ⟨path, text⟩ := first
      obtain ⟨⟨held, hfirst⟩, hrest⟩ := List.forall_mem_cons.mp hheld
      obtain ⟨middle, hsave, hmiddle, hwithin⟩ := h.save hsound hfinal hfirst text
      obtain ⟨after, hafter⟩ := ih hwithin hmiddle hrest
      exact ⟨after, bind_eq_ok_iff.mpr ⟨middle, hsave, hafter⟩⟩

/-- Where texts can be saved, others can be saved at the same paths, in any order. -/
theorem saveAll_at_same {saved writes : List (Path × String)} (hsound : disk.IsSound)
    (h : disk.saveAll saved = .ok after)
    (hpaths : ∀ write ∈ writes, write.1 ∈ saved.map Prod.fst) :
    ∃ after, disk.saveAll writes = .ok after := by
  have hsaved : after.Saved saved := hsound.saved_nil.saveAll h
  refine (within_saveAll h).saveAll hsound hsaved.sound fun write hwrite => ?_
  obtain ⟨earlier, hearlier, hpath⟩ := List.mem_map.mp (hpaths write hwrite)
  obtain ⟨text, hheld, -⟩ := hsaved.held earlier hearlier
  exact ⟨text, hpath ▸ hheld⟩

end Disk

end Bundler
