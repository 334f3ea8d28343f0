import Bundler.Proofs.Disk.Probing

/-! Saving texts as files, each after its directory was made. Whatever was saved can be saved once
more, and that changes nothing, not even the order in which the entries of the tree are listed:
each place already holds the last text that is written to it. -/

namespace Bundler

namespace FileTree

variable {tree : FileTree} {place other : Place} {entry old : FileEntry}
  {entries : List (Place × FileEntry)}

/-! ### Putting entries where there are some -/

theorem setEntry_of_lookup (h : entries.lookup place = some entry) :
    setEntry place entry entries = entries := by
  induction entries with
  | nil => cases h
  | cons first rest ih =>
      obtain ⟨here, held⟩ := first
      by_cases hhere : here = place
      · subst hhere
        rw [List.lookup_cons_self] at h
        rw [setEntry, if_pos rfl, Option.some.inj h]
      · have hne : (place == here) = false := by simpa using Ne.symm hhere
        rw [List.lookup_cons, hne] at h
        rw [setEntry, if_neg hhere, ih h]

theorem setEntry_setEntry (place : Place) (old entry : FileEntry)
    (entries : List (Place × FileEntry)) :
    setEntry place entry (setEntry place old entries) = setEntry place entry entries := by
  induction entries with
  | nil => simp [setEntry]
  | cons first rest ih =>
      obtain ⟨here, held⟩ := first
      by_cases hhere : here = place
      · simp [setEntry, hhere]
      · simp [setEntry, hhere, ih]

/-- Entries are put at different places in any order, as long as one of the places is there. -/
theorem setEntry_comm (hne : place ≠ other) {found : FileEntry}
    (h : entries.lookup place = some found) :
    setEntry other old (setEntry place entry entries) =
      setEntry place entry (setEntry other old entries) := by
  induction entries with
  | nil => cases h
  | cons first rest ih =>
      obtain ⟨here, held⟩ := first
      by_cases hhere : here = place
      · subst hhere
        simp [setEntry, hne]
      · have hrest : rest.lookup place = some found := by
          have hbeq : (place == here) = false := by simpa using Ne.symm hhere
          rwa [List.lookup_cons, hbeq] at h
        by_cases hother : here = other
        · subst hother
          simp [setEntry, Ne.symm hne]
        · simp [setEntry, hhere, hother, ih hrest]

/-- Puts entries at places, one after the other. -/
def setAll (tree : FileTree) (writes : List (Place × FileEntry)) : FileTree :=
  writes.foldl (fun tree write => tree.set write.1 write.2) tree

variable {writes : List (Place × FileEntry)}

/-- What is put at a place makes no difference if something else is put there later. -/
theorem setAll_set_of_mem {found : FileEntry} (h : tree.entries.lookup place = some found)
    (hlater : place ∈ writes.map Prod.fst) :
    (tree.set place entry).setAll writes = tree.setAll writes := by
  induction writes generalizing tree found with
  | nil => cases hlater
  | cons write rest ih =>
      obtain ⟨here, value⟩ := write
      change setAll ((tree.set place entry).set here value) rest =
        setAll (tree.set here value) rest
      by_cases hhere : here = place
      · subst hhere
        exact congrArg (setAll · rest) (congrArg mk (setEntry_setEntry here entry value _))
      · have hswap : (tree.set place entry).set here value =
            (tree.set here value).set place entry :=
          congrArg mk (setEntry_comm (Ne.symm hhere) h)
        have hrest : place ∈ rest.map Prod.fst :=
          (List.mem_cons.mp hlater).resolve_left (Ne.symm hhere)
        have hfound : (tree.set here value).entries.lookup place = some found := by
          refine (lookup_setEntry here place value tree.entries).trans ?_
          rw [if_neg (Ne.symm hhere)]
          exact h
        rw [hswap, ih hfound hrest]

/-- Nothing changes where each place already holds what is put there last. -/
theorem setAll_eq_self
    (h : ∀ write ∈ writes, tree.entries.lookup write.1 = writes.reverse.lookup write.1) :
    tree.setAll writes = tree := by
  induction writes with
  | nil => rfl
  | cons write rest ih =>
      obtain ⟨here, value⟩ := write
      have hlast : ∀ {place : Place}, place ∈ rest.map Prod.fst →
          ((here, value) :: rest).reverse.lookup place = rest.reverse.lookup place ∧
            ∃ found, rest.reverse.lookup place = some found := by
        intro place hplace
        have hsome : ∃ found, rest.reverse.lookup place = some found := by
          obtain ⟨later, hlater, rfl⟩ := List.mem_map.mp hplace
          refine Option.ne_none_iff_exists'.mp fun hnone => ?_
          have hfar := List.lookup_eq_none_iff.mp hnone later (List.mem_reverse.mpr hlater)
          simp at hfar
        obtain ⟨found, hfound⟩ := hsome
        refine ⟨?_, found, hfound⟩
        rw [List.reverse_cons, List.lookup_append, hfound, Option.some_or]
      have hrest : tree.setAll rest = tree := by
        refine ih fun later hlater => ?_
        rw [h later (List.mem_cons_of_mem _ hlater), (hlast (List.mem_map_of_mem hlater)).1]
      have hfirst := h (here, value) List.mem_cons_self
      change (tree.set here value).setAll rest = tree
      by_cases hlater : here ∈ rest.map Prod.fst
      · obtain ⟨hsame, found, hfound⟩ := hlast hlater
        rw [setAll_set_of_mem (hfirst.trans (hsame.trans hfound)) hlater, hrest]
      · have hnone : rest.reverse.lookup here = none := by
          refine List.lookup_eq_none_iff.mpr fun later hmem => ?_
          simpa using fun hsame => hlater
            (List.mem_map.mpr ⟨later, List.mem_reverse.mp hmem, Eq.symm hsame⟩)
        have hheld : tree.entries.lookup here = some value := by
          rw [hfirst, List.reverse_cons, List.lookup_append, hnone, Option.none_or]
          simp
        rw [show tree.set here value = tree from congrArg mk (setEntry_of_lookup hheld), hrest]

end FileTree

namespace Disk

variable {disk made after : Disk} {path : Path} {text : String}

theorem Keeps.trans {first second third : Disk} (h : Keeps first second) (h' : Keeps second third) :
    Keeps first third :=
  ⟨h'.workingDirectory.trans h.workingDirectory,
    fun place hplace => h'.directory place (h.directory place hplace)⟩

theorem Grows.keeps (h : Grows disk after) : Keeps disk after :=
  ⟨h.workingDirectory, fun place => h.entry place .directory⟩

theorem keeps_writeText (h : disk.writeText path text = .ok after) : Keeps disk after where
  workingDirectory := workingDirectory_writeText h
  directory := directory_of_writeText h

/-! ### Directories that are there -/

theorem isDirectory_iff : disk.isDirectory path = true ↔ ∃ target,
    disk.tree.locate disk.workingDirectory path = .ok target ∧
      disk.tree.find? target.place = some .directory := by
  unfold isDirectory lookup
  cases hlocate : disk.tree.locate disk.workingDirectory path with
  | error error => simp [bind, Except.bind]
  | ok target =>
      simp only [bind, Except.bind, Except.ok.injEq, exists_eq_left']
      cases hfound : disk.tree.find? target.place with
      | none => simp
      | some entry =>
          cases entry with
          | directory => simp
          | file bytes => cases target.asDirectory <;> simp

theorem Keeps.isDirectory (h : Keeps disk after) (hthere : disk.isDirectory path = true) :
    after.isDirectory path = true := by
  obtain ⟨target, hlocate, hfound⟩ := isDirectory_iff.mp hthere
  refine isDirectory_iff.mpr ⟨target, ?_, h.directory _ hfound⟩
  rw [h.workingDirectory]
  exact FileTree.locate_mono h.directory hlocate

theorem isDirectory_of_makeDirectory (h : disk.makeDirectory path = .ok made) :
    made.isDirectory path = true := by
  have hkeeps := (grows_makeDirectory h).keeps
  have hthere := directory_of_makeDirectory h
  obtain ⟨target, hlocate, -⟩ := bind_eq_ok_iff.mp h
  refine isDirectory_iff.mpr ⟨target, ?_, ?_⟩
  · rw [hkeeps.workingDirectory]
    exact FileTree.locate_mono hkeeps.directory hlocate
  · rwa [FileTree.place_of_locate hlocate]

/-- There is a directory at a path, or the path is empty, so that there is nothing to make. -/
def IsMade (disk : Disk) (path : Path) : Prop :=
  path.text.isEmpty = true ∨ disk.isDirectory path = true

theorem Keeps.isMade (h : Keeps disk after) (hmade : disk.IsMade path) : after.IsMade path :=
  hmade.imp_right h.isDirectory

theorem isMade_of_makeDirectories (h : (disk.makeDirectories path).2 = .ok ()) :
    (disk.makeDirectories path).1.IsMade path := by
  have hsettle : ∀ {here : Disk} {error : FileError},
      (if here.isDirectory path then (here, Except.ok ()) else (here, .error error)).2 = .ok () →
        (if here.isDirectory path then (here, Except.ok ()) else (here, .error error)).1.IsMade
          path := by
    intro here error hok
    by_cases hthere : here.isDirectory path = true
    · rw [if_pos hthere]
      exact .inr hthere
    · rw [if_neg hthere] at hok
      cases hok
  rw [makeDirectories, makeDirectoriesFrom] at h ⊢
  by_cases hempty : path.text.isEmpty = true
  · rw [if_pos hempty]
    exact .inl hempty
  rw [if_neg hempty] at h ⊢
  cases hmake : disk.makeDirectory path with
  | ok made => exact .inr (isDirectory_of_makeDirectory hmake)
  | error error =>
      by_cases herror : error = .notFound
      · subst herror
        cases habove : path.parent? with
        | none =>
            rw [hmake, habove] at h
            cases h
        | some above =>
            rcases hrest : disk.makeDirectoriesFrom above path.text.length with ⟨between, result⟩
            cases result with
            | error error =>
                simp only [hmake, habove, hrest] at h
                cases h
            | ok =>
                cases hagain : between.makeDirectory path with
                | ok made =>
                    simp only [hrest, hagain]
                    exact .inr (isDirectory_of_makeDirectory hagain)
                | error error =>
                    simp only [hmake, habove, hrest, hagain] at h ⊢
                    exact hsettle h
      · simp only [hmake] at h ⊢
        exact hsettle h

/-- A directory that is there is not made again. -/
theorem makeDirectories_of_isMade (hsound : disk.IsSound) (h : disk.IsMade path) :
    disk.makeDirectories path = (disk, .ok ()) := by
  rw [makeDirectories, makeDirectoriesFrom]
  by_cases hempty : path.text.isEmpty = true
  · rw [if_pos hempty]
  have hthere := h.resolve_left hempty
  obtain ⟨target, hlocate, hfound⟩ := isDirectory_iff.mp hthere
  have habove : disk.tree.enter target.place.dropLast = .ok () :=
    FileTree.enter_eq_ok.mpr (hsound.tree _ _ hfound)
  have hexists : disk.makeDirectory path = .error .alreadyExists := by
    simp [makeDirectory, hlocate, habove, hfound, bind, Except.bind]
  rw [if_neg hempty]
  simp only [hexists, hthere, if_true]

/-! ### Texts that are saved -/

/-- Makes the directory that a file is put into. -/
def makeAbove (disk : Disk) (path : Path) : Except FileError Disk :=
  match path.parent? with
  | none => .ok disk
  | some above => (disk.makeDirectories above).2.map fun _ => (disk.makeDirectories above).1

/-- Writes a text as a whole file, after the directory of the file was made. -/
def save (disk : Disk) (path : Path) (text : String) : Except FileError Disk := do
  let made ← disk.makeAbove path
  made.writeText path text

/-- Saves texts one after the other, up to the first that cannot be saved. -/
def saveAll : List (Path × String) → Disk → Except FileError Disk
  | [], disk => .ok disk
  | (path, text) :: rest, disk => do
      let after ← disk.save path text
      saveAll rest after

variable {saved rest : List (Path × String)}

theorem makeAbove_eq_ok (h : disk.makeAbove path = .ok made) :
    MadeAlong (path.parent?.getD path) disk made ∧
      ∀ above, path.parent? = some above → made.IsMade above := by
  unfold makeAbove at h
  cases hparent : path.parent? with
  | none =>
      rw [hparent] at h
      obtain rfl := Except.ok.inj h
      exact ⟨.refl _ disk, by simp⟩
  | some above =>
      rw [hparent] at h
      cases hok : (disk.makeDirectories above).2 with
      | error error =>
          simp only [hok] at h
          cases h
      | ok =>
          simp only [hok] at h
          obtain rfl := Except.ok.inj h
          refine ⟨madeAlong_makeDirectories disk above, ?_⟩
          rintro other hother
          obtain rfl := Option.some.inj hother
          exact isMade_of_makeDirectories hok

theorem MadeAlong.grows (h : MadeAlong path disk after) : Grows disk after where
  workingDirectory := h.workingDirectory
  entry := by
    intro place entry hentry
    rcases h.changed place with hsame | ⟨-, hnone, -⟩
    · rw [hsame]
      exact hentry
    · rw [hentry] at hnone
      cases hnone

/-- A text that is saved is written after the directory of its file was made. -/
theorem save_eq_ok (h : disk.save path text = .ok after) :
    ∃ made, MadeAlong (path.parent?.getD path) disk made ∧
      (∀ above, path.parent? = some above → made.IsMade above) ∧
      made.writeText path text = .ok after := by
  obtain ⟨made, hmade, hwrite⟩ := bind_eq_ok_iff.mp h
  obtain ⟨halong, habove⟩ := makeAbove_eq_ok hmade
  exact ⟨made, halong, habove, hwrite⟩

theorem keeps_save (h : disk.save path text = .ok after) : Keeps disk after := by
  obtain ⟨made, halong, -, hwrite⟩ := save_eq_ok h
  exact halong.grows.keeps.trans (keeps_writeText hwrite)

theorem keeps_saveAll (h : disk.saveAll saved = .ok after) : Keeps disk after := by
  induction saved generalizing disk with
  | nil =>
      obtain rfl := Except.ok.inj h
      exact ⟨rfl, fun _ hplace => hplace⟩
  | cons first rest ih =>
      obtain ⟨path, text⟩ := first
      obtain ⟨middle, hfirst, hrest⟩ := bind_eq_ok_iff.mp h
      exact (keeps_save hfirst).trans (ih hrest)

/-- What is put at which place when texts are saved. -/
def writesOf (base : Place) (saved : List (Path × String)) : List (Place × FileEntry) :=
  saved.map fun write => (write.1.place base, .file write.2.toUTF8)

/-- The directory of each file that was saved is there, and the file holds the last text that was
saved at its place. -/
structure Saved (disk : Disk) (saved : List (Path × String)) : Prop where
  sound : disk.IsSound
  made : ∀ write ∈ saved, ∀ above, write.1.parent? = some above → disk.IsMade above
  held : ∀ write ∈ saved, ∃ text, disk.Holds write.1 text ∧
    (writesOf disk.workingDirectory saved).reverse.lookup
      (write.1.place disk.workingDirectory) = some (.file text.toUTF8)

theorem IsSound.saved_nil (h : disk.IsSound) : disk.Saved [] :=
  ⟨h, by simp, by simp⟩

/-- One step. -/
theorem Saved.save (h : disk.Saved saved) (hok : disk.save path text = .ok after) :
    after.Saved (saved ++ [(path, text)]) := by
  have hkeeps := keeps_save hok
  obtain ⟨made, halong, habove, hwrite⟩ := save_eq_ok hok
  have hplace := keeps_writeText hwrite
  refine ⟨isSound_writeText (halong.sound h.sound) hwrite, ?_, ?_⟩
  · intro write hmem above hparent
    rcases List.mem_append.mp hmem with hbefore | hnew
    · exact hkeeps.isMade (h.made write hbefore above hparent)
    · obtain rfl := List.mem_singleton.mp hnew
      exact hplace.isMade (habove above hparent)
  · intro write hmem
    rw [hkeeps.workingDirectory]
    have hlast : (writesOf disk.workingDirectory (saved ++ [(path, text)])).reverse =
        (path.place disk.workingDirectory, .file text.toUTF8) ::
          (writesOf disk.workingDirectory saved).reverse := by
      simp [writesOf]
    rw [hlast, List.lookup_cons]
    rcases List.mem_append.mp hmem with hbefore | hnew
    · obtain ⟨held, hheld, hlookup⟩ := h.held write hbefore
      have hafter := (hheld.grows halong.grows).writeText hwrite
      rw [halong.workingDirectory] at hafter
      refine ⟨_, hafter, ?_⟩
      by_cases hsame : write.1.place disk.workingDirectory = path.place disk.workingDirectory
      · simp [hsame]
      · simp [hsame, beq_false_of_ne hsame, hlookup]
    · obtain rfl := List.mem_singleton.mp hnew
      exact ⟨text, holds_of_writeText hwrite, by simp⟩

/-- A whole run. -/
theorem Saved.saveAll (h : disk.Saved saved) (hok : disk.saveAll rest = .ok after) :
    after.Saved (saved ++ rest) := by
  induction rest generalizing disk saved with
  | nil =>
      obtain rfl := Except.ok.inj hok
      rwa [List.append_nil]
  | cons first rest ih =>
      obtain ⟨path, text⟩ := first
      obtain ⟨middle, hfirst, hrest⟩ := bind_eq_ok_iff.mp hok
      rw [List.append_cons]
      exact ih (h.save hfirst) hrest

/-- A text is saved over a file that is there without any directory being made. -/
theorem save_of_holds {held : String} (hsound : disk.IsSound)
    (hmade : ∀ above, path.parent? = some above → disk.IsMade above)
    (hheld : disk.Holds path held) (text : String) :
    disk.save path text = disk.writeText path text ∧ disk.writeText path text = .ok
      { disk with
        tree := disk.tree.set (path.place disk.workingDirectory) (.file text.toUTF8) } := by
  have habove : disk.makeAbove path = .ok disk := by
    unfold makeAbove
    cases hparent : path.parent? with
    | none => rfl
    | some above =>
        simp only [makeDirectories_of_isMade hsound (hmade above hparent)]
        rfl
  have henter : disk.tree.enter (path.place disk.workingDirectory).dropLast = .ok () :=
    FileTree.enter_eq_ok.mpr (hsound.tree _ _ hheld.stored)
  refine ⟨by rw [Disk.save, habove]; rfl, ?_⟩
  simp [Disk.writeText, writeBytes, hheld.located, henter, hheld.stored, bind, Except.bind]

/-- Texts are saved over files that are there by putting them at their places. -/
theorem saveAll_of_holds (hsound : disk.IsSound)
    (hmade : ∀ write ∈ saved, ∀ above, write.1.parent? = some above → disk.IsMade above)
    (hheld : ∀ write ∈ saved, ∃ held, disk.Holds write.1 held) :
    disk.saveAll saved = .ok
      { disk with tree := disk.tree.setAll (writesOf disk.workingDirectory saved) } := by
  induction saved generalizing disk with
  | nil => rfl
  | cons first rest ih =>
      obtain ⟨path, text⟩ := first
      obtain ⟨hmadeFirst, hmadeRest⟩ := List.forall_mem_cons.mp hmade
      obtain ⟨⟨held, hfirst⟩, hrest⟩ := List.forall_mem_cons.mp hheld
      obtain ⟨hsave, hwrite⟩ := save_of_holds hsound hmadeFirst hfirst text
      rw [Disk.saveAll, hsave, hwrite]
      refine ih (isSound_writeText hsound hwrite) ?_ ?_
      · intro write hmem above hparent
        exact (keeps_writeText hwrite).isMade (hmadeRest write hmem above hparent)
      · intro write hmem
        obtain ⟨held, hbefore⟩ := hrest write hmem
        exact ⟨_, hbefore.writeText hwrite⟩

/-- What was saved can be saved once more, and nothing changes. -/
theorem Saved.again (h : disk.Saved saved) : disk.saveAll saved = .ok disk := by
  have hheld : ∀ write ∈ saved, ∃ held, disk.Holds write.1 held := fun write hmem =>
    (h.held write hmem).imp fun _ hheld => hheld.1
  have hsame : disk.tree.setAll (writesOf disk.workingDirectory saved) = disk.tree := by
    refine FileTree.setAll_eq_self fun write hmem => ?_
    obtain ⟨first, hfirst, rfl⟩ := List.mem_map.mp hmem
    obtain ⟨text, hholds, hlast⟩ := h.held first hfirst
    rw [hlast, ← hholds.stored, FileTree.find?, if_neg]
    simpa using FileTree.ne_nil_of_find? hholds.stored (by simp)
  rw [saveAll_of_holds h.sound h.made hheld, hsame]

end Disk

end Bundler
