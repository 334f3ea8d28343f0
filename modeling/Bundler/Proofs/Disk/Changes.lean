import Bundler.Proofs.Disk.Writing

/-! What making directories and writing files may change on a disk. Directories are made only where
there was nothing, at the path that is asked for and above it. A file is written at its
own place. -/

namespace Bundler.Disk

/-- Whatever has changed lies in a directory, or is a directory above it where there was nothing
before. -/
structure ConfinedTo (directory : Path) (before after : Disk) : Prop where
  workingDirectory : after.workingDirectory = before.workingDirectory
  changed : ∀ place, after.tree.find? place = before.tree.find? place ∨
    directory.place before.workingDirectory <+: place ∨
    ((∃ above : Path, above.components <+: directory.components ∧
        place = above.place before.workingDirectory) ∧
      before.tree.find? place = none ∧ after.tree.find? place = some .directory)

variable {directory path : Path} {disk after : Disk} {text : String}

theorem ConfinedTo.refl (directory : Path) (disk : Disk) : ConfinedTo directory disk disk :=
  ⟨rfl, fun _ => .inl rfl⟩

theorem ConfinedTo.trans {first second third : Disk} (h : ConfinedTo directory first second)
    (h' : ConfinedTo directory second third) : ConfinedTo directory first third where
  workingDirectory := h'.workingDirectory.trans h.workingDirectory
  changed := by
    intro place
    have hlater := h'.changed place
    rw [h.workingDirectory] at hlater
    rcases h.changed place with hsame | hin | ⟨habove, hnone, hmade⟩
    · rw [← hsame]
      exact hlater
    · exact .inr (.inl hin)
    · rcases hlater with hsame' | hin | ⟨-, hnone', -⟩
      · exact .inr (.inr ⟨habove, hnone, hsame'.trans hmade⟩)
      · exact .inr (.inl hin)
      · rw [hmade] at hnone'
        cases hnone'

theorem confinedTo_makeDirectory (h : disk.makeDirectory path = .ok after)
    (hplace : ∀ base : Place, directory.place base <+: path.place base ∨
      path.components <+: directory.components) : ConfinedTo directory disk after := by
  obtain ⟨hnone, -, rfl⟩ := makeDirectory_eq_ok h
  refine ⟨rfl, fun place => ?_⟩
  rw [FileTree.find?_set _ (FileTree.ne_nil_of_find? hnone (by simp))]
  by_cases hthere : place = path.place disk.workingDirectory
  · rw [if_pos hthere, hthere]
    refine .inr ((hplace disk.workingDirectory).imp_right fun habove => ?_)
    exact ⟨⟨path, habove, rfl⟩, hnone, rfl⟩
  · exact .inl (if_neg hthere)

theorem confinedTo_makeDirectories (disk : Disk) (path : Path)
    (hplace : ∀ front : Path, front.components <+: path.components → ∀ base : Place,
      directory.place base <+: front.place base ∨ front.components <+: directory.components) :
    ConfinedTo directory disk (disk.makeDirectories path).1 :=
  rel_makeDirectoriesFrom (ConfinedTo.refl directory) ConfinedTo.trans disk path _
    fun hfront hmade => confinedTo_makeDirectory hmade (hplace _ hfront)

theorem confinedTo_writeText (h : disk.writeText path text = .ok after)
    (hplace : directory.place disk.workingDirectory <+: path.place disk.workingDirectory) :
    ConfinedTo directory disk after := by
  refine ⟨workingDirectory_writeText h, fun place => ?_⟩
  rw [find?_writeText h]
  by_cases hthere : place = path.place disk.workingDirectory
  · exact .inr (.inl (hthere ▸ hplace))
  · exact .inl (if_neg hthere)

end Bundler.Disk
