import Bundler.Proofs.Alike
import Bundler.Proofs.Disk.Probing
import Bundler.Proofs.Path.Below
import Mathlib.Data.List.Find

/-! A tree that stands below some place of a disk. A file of the tree is found and read by its path
from the root exactly if it is in the tree, so that specifiers that stay below the place denote the
same files of the tree wherever it stands. -/

namespace Bundler

namespace FileTree

variable {tree : FileTree} {root place : Place}

/-- The tree put at a place, together with the directories that lead there. -/
def mount (tree : FileTree) (root : Place) : FileTree :=
  ⟨root.inits.map (fun above => (above, .directory)) ++
    tree.entries.map fun entry => (root ++ entry.1, entry.2)⟩

theorem find?_mount_of_isPrefix (tree : FileTree) (h : place <+: root) :
    (tree.mount root).find? place = some .directory := by
  rw [find?]
  split
  · rfl
  · rw [mount, List.lookup_append,
      List.lookup_graph (fun _ => FileEntry.directory) ((List.mem_inits _ _).mpr h), Option.some_or]

theorem lookup_mount_of_not_isPrefix (tree : FileTree) (h : ¬ place <+: root) :
    (tree.mount root).entries.lookup place =
      (tree.entries.map fun entry => (root ++ entry.1, entry.2)).lookup place := by
  have hnone : (root.inits.map fun above => (above, FileEntry.directory)).lookup place = none := by
    rw [List.lookup_eq_none_iff]
    rintro entry hentry
    obtain ⟨above, habove, rfl⟩ := List.mem_map.mp hentry
    have hne : place ≠ above := by
      rintro rfl
      exact h ((List.mem_inits _ _).mp habove)
    simpa using hne
  rw [mount, List.lookup_append, hnone, Option.none_or]

theorem find?_mount (tree : FileTree) (root place : Place) :
    (tree.mount root).find? (root ++ place) = tree.find? place := by
  by_cases hroot : place = []
  · rw [hroot, List.append_nil]
    exact tree.find?_mount_of_isPrefix List.prefix_rfl
  · have hmoved : ∀ entries : List (Place × FileEntry),
        (entries.map fun entry => (root ++ entry.1, entry.2)).lookup (root ++ place) =
          entries.lookup place := by
      intro entries
      induction entries with
      | nil => rfl
      | cons entry rest ih =>
          have hsame : (root ++ place == root ++ entry.1) = (place == entry.1) := by
            rw [Bool.eq_iff_iff, beq_iff_eq, beq_iff_eq, List.append_cancel_left_eq]
          rw [List.map_cons, List.lookup_cons, List.lookup_cons, ih, hsame]
    have hbelow : ¬ root ++ place <+: root := by
      intro hbelow
      have hlength := hbelow.length_le
      rw [List.length_append] at hlength
      exact hroot (List.length_eq_zero_iff.mp (by omega))
    rw [find?, if_neg (by simp [hroot]), lookup_mount_of_not_isPrefix tree hbelow, hmoved, find?,
      if_neg (by simpa using hroot)]

theorem IsSound.mount (h : tree.IsSound) (root : Place) : (tree.mount root).IsSound := by
  intro place entry hentry
  by_cases habove : place <+: root
  · have hbegins : place.dropLast <+: place := List.dropLast_prefix place
    exact tree.find?_mount_of_isPrefix (hbegins.trans habove)
  · have hne : place ≠ [] := by
      rintro rfl
      exact habove List.nil_prefix
    have hlookup := hentry
    rw [find?, if_neg (by simpa using hne), lookup_mount_of_not_isPrefix tree habove] at hlookup
    obtain ⟨before, after, hentries, -⟩ := List.lookup_eq_some_iff.mp hlookup
    obtain ⟨⟨below, _⟩, -, hplace⟩ := List.mem_map.mp
      (show (place, entry) ∈ tree.entries.map (fun entry => (root ++ entry.1, entry.2)) by
        simp [hentries])
    obtain rfl : root ++ below = place := congrArg Prod.fst hplace
    have hbelow : below ≠ [] := by
      rintro rfl
      exact habove (by simp)
    rw [find?_mount] at hentry
    rw [List.dropLast_append_of_ne_nil hbelow, find?_mount]
    exact h below entry hentry

end FileTree

namespace Disk

/-- A tree stands below a place of a disk, and no path to a file in it is too long to be opened. -/
structure HasBelow (disk : Disk) (root : Place) (tree : FileTree) : Prop where
  sound : disk.IsSound
  find? : ∀ place, disk.tree.find? (root ++ place) = tree.find? place
  fits : ∀ place bytes, tree.find? place = some (.file bytes) →
    (Path.rooted (root ++ place)).Fits

variable {disk other : Disk} {root first second : Place} {tree : FileTree} {names : List String}
  {path path' : Path}

/-- Any tree can be put at any place, as far as the paths do not get too long. -/
theorem hasBelow_mount (root : Place) (h : tree.IsSound)
    (hfits : ∀ entry ∈ tree.entries, (Path.rooted (root ++ entry.1)).Fits) :
    HasBelow ⟨tree.mount root, []⟩ root tree where
  sound := ⟨h.mount root, rfl⟩
  find? := tree.find?_mount root
  fits := by
    intro place bytes hfile
    rw [FileTree.find?] at hfile
    split at hfile
    · cases hfile
    · obtain ⟨before, after, hentries, -⟩ := List.lookup_eq_some_iff.mp hfile
      exact hfits (place, .file bytes) (by simp [hentries])

/-- A file of the tree is found by its path. -/
theorem HasBelow.lookup_iff (h : disk.HasBelow root tree)
    (hnames : ∀ name ∈ root ++ names, Path.IsName name) {bytes : ByteArray} :
    disk.lookup (Path.rooted (root ++ names)) = .ok (.file bytes) ↔
      tree.find? names = some (.file bytes) := by
  have hplace := Path.place_rooted hnames disk.workingDirectory
  have hfind := h.find? names
  rw [lookup_eq_file_iff, hplace, hfind]
  refine ⟨And.right, fun hfile => ⟨?_, hfile⟩⟩
  have hne : root ++ names ≠ [] := FileTree.ne_nil_of_find? (hfind.trans hfile) (by simp)
  have hasks := Path.asksDirectory_rooted hnames hne
  have htext : (Path.rooted (root ++ names)).text.toList ≠ [] := by
    intro hempty
    have habsolute := Path.isAbsolute_rooted hnames
    simp [Path.isAbsolute, hempty] at habsolute
  have hopens : disk.Opens (Path.rooted (root ++ names)) := by
    rintro place ⟨before, part, behind, hparts, rfl⟩
    rw [Path.components_rooted hnames] at hparts
    rcases before with _ | ⟨start, before⟩
    · exact h.sound.workingDirectory
    · obtain ⟨rfl, hrest⟩ := List.cons.inj hparts
      obtain ⟨through, rest, hthrough, rfl, hbehind⟩ := List.map_eq_append_iff.mp hrest
      rw [List.foldl_cons, Place.foldl_names]
      refine h.sound.tree.directory_of_isPrefix (hfind.trans hfile) ?_ ?_
      · exact ⟨rest, hthrough.symm⟩
      · intro hsame
        have hnone : rest = [] := by
          rw [hthrough] at hsame
          simpa [Place.step] using hsame
        rw [hnone] at hbehind
        cases hbehind
  have hlocate := locate_of_opens h.sound (h.fits names bytes hfile)
    (Path.settled_of_asksDirectory hasks) htext hopens
  rwa [hplace, hasks] at hlocate

theorem HasBelow.isFile_iff (h : disk.HasBelow root tree)
    (hnames : ∀ name ∈ root ++ names, Path.IsName name) :
    disk.isFile (Path.rooted (root ++ names)) = true ↔
      ∃ bytes, tree.find? names = some (.file bytes) := by
  rw [Disk.isFile_iff]
  exact exists_congr fun bytes => h.lookup_iff hnames

/-- The same text is read at the same place below two roots, or none at both. -/
theorem HasBelow.readText_alike (h : disk.HasBelow first tree) (h' : other.HasBelow second tree)
    (htwins : Path.Twins first second names path path') :
    Alike Eq (disk.readText path) (other.readText path') := by
  obtain rfl := htwins.path_eq
  obtain rfl := htwins.other_eq
  have hboth : ∀ bytes, disk.lookup (Path.rooted (first ++ names)) = .ok (.file bytes) ↔
      other.lookup (Path.rooted (second ++ names)) = .ok (.file bytes) := fun bytes =>
    (h.lookup_iff htwins.proper).trans (h'.lookup_iff htwins.proper').symm
  have hnone : ∀ {disk : Disk} {path : Path}, (∀ bytes, disk.lookup path ≠ .ok (.file bytes)) →
      ∃ error, disk.readText path = .error error := by
    intro disk path hfile
    unfold readText
    cases hlookup : disk.lookup path with
    | error error => exact ⟨error, rfl⟩
    | ok entry =>
        cases entry with
        | file bytes => exact absurd hlookup (hfile bytes)
        | directory => exact ⟨.isDirectory, rfl⟩
  by_cases hfile : ∃ bytes, disk.lookup (Path.rooted (first ++ names)) = .ok (.file bytes)
  · obtain ⟨bytes, hbytes⟩ := hfile
    have hsame : disk.readText (Path.rooted (first ++ names)) =
        other.readText (Path.rooted (second ++ names)) := by
      rw [readText, readText, hbytes, (hboth bytes).mp hbytes]
    rw [hsame]
    exact .refl _
  · rw [not_exists] at hfile
    obtain ⟨error, herror⟩ := hnone hfile
    obtain ⟨error', herror'⟩ := hnone fun bytes => mt (hboth bytes).mpr (hfile bytes)
    rw [herror, herror']
    exact .error error error'

end Disk

namespace Resolver

variable {disk other : Disk} {first second here : Place} {tree : FileTree} {base base' : Path}
  {specifier : String} {resolver resolver' : Resolver}

/-- Two resolvers for the same extensions, of which none has a slash, at two roots. -/
structure Moved (first second : Place) (resolver resolver' : Resolver) : Prop where
  root : resolver.root = Path.rooted first
  root' : resolver'.root = Path.rooted second
  extensions : resolver'.extensions = resolver.extensions
  slashless : ∀ extension ∈ resolver.extensions, '/' ∉ extension.toList

theorem Moved.moduleId_eq {names : List String} {path path' : Path}
    (h : Moved first second resolver resolver')
    (htwins : Path.Twins first second names path path') :
    resolver.moduleId path = resolver'.moduleId path' := by
  rw [moduleId, moduleId, h.root, h.root', htwins.moduleId_eq]

/-- The candidates for what a specifier denotes are at the same places below two roots. -/
theorem candidates_of_stays (hslashless : ∀ extension ∈ resolver.extensions,
      '/' ∉ extension.toList) (hbase : base.isAbsolute = true) {root : Place}
    (hhere : base.place [] = root ++ here) {front : List String} {last : String}
    (hwalk : Place.walk here (Path.mk specifier).components = some (front ++ [last])) :
    resolver.candidates base specifier = ("" :: resolver.extensions).map (fun extension =>
        Path.rooted (root ++ (front ++ [last ++ extension]))) ∧
      ∀ extension ∈ "" :: resolver.extensions,
        ∀ name ∈ root ++ (front ++ [last ++ extension]), Path.IsName name := by
  obtain ⟨hnormal, hnames⟩ := Path.normalize_join_of_walk hbase hhere hwalk
  have hlast : Path.IsName last := hnames last (by simp)
  have hslash : ∀ extension ∈ "" :: resolver.extensions, '/' ∉ extension.toList :=
    List.forall_mem_cons.mpr ⟨List.not_mem_nil, hslashless⟩
  refine ⟨?_, ?_⟩
  · refine List.map_congr_left fun extension hextension => ?_
    rw [hnormal, ← List.append_assoc, Path.rooted_append _ hlast (hslash extension hextension),
      List.append_assoc]
  · intro extension hextension name hname
    rw [← List.append_assoc] at hname hnames
    rcases List.mem_append.mp hname with hfront | hend
    · exact hnames name (List.mem_append_left _ hfront)
    · rw [List.mem_singleton.mp hend]
      exact hlast.append (hslash extension hextension)

/-- A specifier that stays below the root denotes the same file below two roots, or none at both. -/
theorem resolve_alike (h : disk.HasBelow first tree) (h' : other.HasBelow second tree)
    (hmoved : Moved first second resolver resolver') (hbase : base.isAbsolute = true)
    (hbase' : base'.isAbsolute = true) (hhere : base.place [] = first ++ here)
    (hhere' : base'.place [] = second ++ here) (hstays : (Path.mk specifier).Stays here) :
    Alike (fun path path' => ∃ names, Path.Twins first second names path path')
      (resolver.resolve disk base specifier).result
      (resolver'.resolve other base' specifier).result := by
  obtain ⟨there, hwalk, hne⟩ := hstays
  obtain ⟨front, last, rfl⟩ := (List.eq_nil_or_concat there).resolve_left hne
  rw [List.concat_eq_append] at hwalk
  obtain ⟨hcandidates, hnames⟩ := candidates_of_stays hmoved.slashless hbase hhere hwalk
  obtain ⟨hcandidates', hnames'⟩ := candidates_of_stays (hmoved.extensions ▸ hmoved.slashless)
    hbase' hhere' hwalk
  rw [hmoved.extensions] at hcandidates' hnames'
  have hfirst : ("" :: resolver.extensions).find? (fun extension =>
        disk.isFile (Path.rooted (first ++ (front ++ [last ++ extension])))) =
      ("" :: resolver.extensions).find? (fun extension =>
        other.isFile (Path.rooted (second ++ (front ++ [last ++ extension])))) := by
    refine List.find?_congr fun extension hextension => ?_
    rw [Bool.eq_iff_iff, h.isFile_iff (hnames extension hextension),
      h'.isFile_iff (hnames' extension hextension)]
  unfold resolve
  rw [hcandidates, hcandidates', List.find?_map, List.find?_map]
  simp only [Function.comp_def]
  rw [hfirst]
  cases hfound : ("" :: resolver.extensions).find? (fun extension =>
      other.isFile (Path.rooted (second ++ (front ++ [last ++ extension])))) with
  | none => exact .error _ _
  | some extension =>
      have hmem := List.mem_of_find?_eq_some hfound
      exact .ok ⟨front ++ [last ++ extension], by simp, hnames extension hmem,
        hnames' extension hmem, rfl, rfl⟩

end Resolver

end Bundler
