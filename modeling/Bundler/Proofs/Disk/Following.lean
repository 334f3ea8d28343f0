import Bundler.Proofs.Disk.Writing
import Mathlib.Data.List.Induction

/-! The places that a path leads to and through. Where everything stands in a directory and no file
is in the way, a path is followed to its end or something above its end is missing. -/

namespace Bundler

namespace FileTree

/-- Whatever stands somewhere stands in a directory. -/
def IsSound (tree : FileTree) : Prop :=
  ∀ place entry, tree.find? place = some entry → tree.find? place.dropLast = some .directory

variable {tree : FileTree} {here place : Place} {parts : List (List Char)}

@[simp] theorem find?_nil : tree.find? [] = some .directory := rfl

theorem isSound_of_entries
    (h : ∀ entry ∈ tree.entries, (tree.enter entry.1.dropLast).isOk = true) : tree.IsSound := by
  intro place entry hentry
  by_cases hroot : place = []
  · rw [hroot]
    rfl
  · have hmem : (place, entry) ∈ tree.entries := by
      rw [find?, if_neg (by simpa using hroot)] at hentry
      obtain ⟨before, after, hentries, -⟩ := List.lookup_eq_some_iff.mp hentry
      simp [hentries]
    obtain ⟨_, henter⟩ := exists_eq_ok (h (place, entry) hmem)
    exact enter_eq_ok.mp henter

theorem IsSound.set {entry : FileEntry} (h : tree.IsSound) (hne : place ≠ [])
    (habove : tree.find? place.dropLast = some .directory)
    (hkeep : tree.find? place = some .directory → entry = .directory) :
    (tree.set place entry).IsSound := by
  have hdirectory : ∀ other, tree.find? other = some .directory →
      (tree.set place entry).find? other = some .directory := by
    intro other hother
    rw [find?_set _ hne]
    split
    · next hsame => rw [hkeep (hsame ▸ hother)]
    · exact hother
  intro other found hfound
  rw [find?_set _ hne] at hfound
  split at hfound
  · next hsame => exact hdirectory _ (hsame ▸ habove)
  · exact hdirectory _ (h other found hfound)

/-- All that is above an entry is a directory. -/
theorem IsSound.directory_of_isPrefix {other : Place} {entry : FileEntry} (h : tree.IsSound)
    (hentry : tree.find? place = some entry) (hbegins : other <+: place) (hne : other ≠ place) :
    tree.find? other = some .directory := by
  induction place using List.reverseRecOn generalizing entry with
  | nil => exact absurd (List.prefix_nil.mp hbegins) hne
  | append_singleton front last ih =>
      have hfront := h _ _ hentry
      rw [List.dropLast_concat] at hfront
      rcases List.prefix_concat_iff.mp hbegins with hsame | hbegins
      · exact absurd hsame hne
      · by_cases hother : other = front
        · rw [hother]
          exact hfront
        · exact ih hfront hbegins hother

/-! ### Following a path -/

/-- Every segment can be a name. -/
def Fit (parts : List (List Char)) : Prop :=
  ∀ segment ∈ parts, (String.ofList segment).utf8ByteSize ≤ maxName

instance (parts : List (List Char)) : Decidable (Fit parts) :=
  inferInstanceAs (Decidable (∀ segment ∈ parts, _))

/-- The place that some segments lead to. -/
def reach (here : Place) (parts : List (List Char)) : Place :=
  (Path.componentsOfSegments parts).foldl Place.step here

theorem reach_cons (here : Place) (segment : List Char) (rest : List (List Char)) :
    reach here (segment :: rest) =
      reach ((Path.componentOfSegment segment).elim here here.step) rest := by
  rw [reach, Path.componentsOfSegments, List.filterMap_cons]
  cases Path.componentOfSegment segment <;> rfl

/-- Segments are followed exactly if every place that one of them leaves is a directory. -/
theorem follow_eq_ok_iff (hfit : Fit parts) :
    tree.follow here parts = .ok place ↔ reach here parts = place ∧
      ∀ front segment back, parts = front ++ segment :: back → segment ≠ [] →
        tree.find? (reach here front) = some .directory := by
  induction parts generalizing here with
  | nil => simp [follow, reach]
  | cons segment rest ih =>
      obtain ⟨hsize, hrest⟩ := List.forall_mem_cons.mp hfit
      rw [follow_cons_eq_ok, ih hrest, reach_cons]
      constructor
      · rintro ⟨hleave, -, hplace, hdirectories⟩
        refine ⟨hplace, ?_⟩
        rintro front other back hsplit hne
        rcases front with _ | ⟨first, front⟩
        · obtain ⟨rfl, -⟩ := List.cons.inj hsplit
          exact hleave.resolve_left hne
        · obtain ⟨rfl, hrest⟩ := List.cons.inj hsplit
          rw [reach_cons]
          exact hdirectories front other back hrest hne
      · rintro ⟨hplace, hdirectories⟩
        refine ⟨?_, hsize, hplace, ?_⟩
        · by_cases hne : segment = []
          · exact .inl hne
          · exact .inr (hdirectories [] segment rest rfl hne)
        · intro front other back hsplit hne
          have hdirectory := hdirectories (segment :: front) other back (by simp [hsplit]) hne
          rwa [reach_cons] at hdirectory

/-- Where no file is in the way, segments that cannot be followed are not found. -/
theorem follow_eq_ok_or_notFound (hfit : Fit parts)
    (hclear : ∀ front, front <+: parts →
      ∀ bytes, tree.find? (reach here front) ≠ some (.file bytes)) :
    (∃ place, tree.follow here parts = .ok place) ∨ tree.follow here parts = .error .notFound := by
  induction parts generalizing here with
  | nil => exact .inl ⟨here, rfl⟩
  | cons segment rest ih =>
      obtain ⟨hsize, hrest⟩ := List.forall_mem_cons.mp hfit
      have hclear' : ∀ front, front <+: rest → ∀ bytes,
          tree.find? (reach ((Path.componentOfSegment segment).elim here here.step) front) ≠
            some (.file bytes) := by
        intro front hfront
        have hcons := hclear (segment :: front) ((List.prefix_cons_inj segment).mpr hfront)
        rwa [reach_cons] at hcons
      have hnext := ih hrest hclear'
      have henter : tree.enter here = .ok () ∨ tree.enter here = .error .notFound := by
        have hhere := hclear [] List.nil_prefix
        change ∀ bytes, tree.find? here ≠ _ at hhere
        unfold enter
        split
        · exact .inl rfl
        · next bytes hfile => exact absurd hfile (hhere bytes)
        · exact .inr rfl
      by_cases hempty : segment = []
      · subst hempty
        simpa [follow, Path.componentOfSegment] using hnext
      by_cases hdot : segment = ['.']
      · subst hdot
        rcases henter with henter | henter
        · simpa [follow, henter, Path.componentOfSegment, bind, Except.bind] using hnext
        · simp [follow, henter, bind, Except.bind]
      by_cases hparent : segment = ['.', '.']
      · subst hparent
        rcases henter with henter | henter
        · simpa [follow, henter, Path.componentOfSegment, Place.step, bind, Except.bind] using hnext
        · simp [follow, henter, bind, Except.bind]
      rw [Path.componentOfSegment.eq_4 _ hempty hdot hparent] at hnext
      rw [follow.eq_5 _ _ _ _ hempty hdot hparent]
      rcases henter with henter | henter
      · simpa [henter, Nat.not_lt.mpr hsize, Place.step, bind, Except.bind] using hnext
      · simp [henter, bind, Except.bind]

end FileTree

namespace Path

/-- A path of which every part is short enough to be looked up. -/
structure Fits (path : Path) : Prop where
  nul : '\x00' ∉ path.text.toList
  size : path.text.utf8ByteSize ≤ FileTree.maxPath
  segments : FileTree.Fit (segments path.text.toList)

instance (path : Path) : Decidable path.Fits :=
  decidable_of_iff ('\x00' ∉ path.text.toList ∧ path.text.utf8ByteSize ≤ FileTree.maxPath ∧
      FileTree.Fit (Path.segments path.text.toList))
    ⟨fun h => ⟨h.1, h.2.1, h.2.2⟩, fun h => ⟨h.nul, h.size, h.segments⟩⟩

/-- A place that a path leads to or through. -/
def Through (base : Place) (path : Path) (place : Place) : Prop :=
  ∃ front, front <+: path.components ∧ front.foldl Place.step base = place

variable {path above : Path} {base place : Place}

theorem through_place (base : Place) (path : Path) : path.Through base (path.place base) :=
  ⟨path.components, List.prefix_rfl, rfl⟩

theorem Through.of_parent? (h : path.parent? = some above) (hplace : above.Through base place) :
    path.Through base place := by
  obtain ⟨front, hfront, hplace⟩ := hplace
  exact ⟨front, hfront.trans (components_isPrefix_of_parent? h), hplace⟩

/-- A place that a path leads through before its last component. -/
def Leaves (base : Place) (path : Path) (place : Place) : Prop :=
  ∃ front part back, path.components = front ++ part :: back ∧ front.foldl Place.step base = place

theorem Through.eq_or_leaves (h : path.Through base place) :
    place = path.place base ∨ path.Leaves base place := by
  obtain ⟨front, ⟨back, hparts⟩, hplace⟩ := h
  cases back with
  | nil =>
      rw [List.append_nil] at hparts
      exact .inl (hplace.symm.trans (hparts ▸ rfl))
  | cons part back => exact .inr ⟨front, part, back, hparts.symm, hplace⟩

/-- A path leaves the places that its parent leads through. -/
theorem leaves_iff_of_parent? (h : path.parent? = some above) (hne : path.components ≠ []) :
    path.Leaves base place ↔ above.Through base place := by
  have habove := components_parent? h
  constructor
  · rintro ⟨front, part, back, hparts, hplace⟩
    refine ⟨front, ⟨(part :: back).dropLast, ?_⟩, hplace⟩
    rw [habove, hparts, List.dropLast_append_of_ne_nil (by simp)]
  · rintro ⟨front, ⟨back, hback⟩, hplace⟩
    have hparts : path.components = front ++ (back ++ [path.components.getLast hne]) := by
      rw [← List.append_assoc, hback, habove, List.dropLast_concat_getLast]
    obtain ⟨part, more, hmore⟩ :=
      List.exists_cons_of_ne_nil (l := back ++ [path.components.getLast hne]) (by simp)
    exact ⟨front, part, more, hmore ▸ hparts, hplace⟩

theorem ofList_utf8ByteSize_le_of_isPrefix {front whole : List Char} (h : front <+: whole) :
    (String.ofList front).utf8ByteSize ≤ (String.ofList whole).utf8ByteSize := by
  obtain ⟨rest, rfl⟩ := h
  rw [String.ofList_append, String.utf8ByteSize_append]
  exact Nat.le_add_right _ _

/-- Whatever a path starts with fits if the path does. -/
theorem Fits.of_isPrefix (h : path.Fits) (hbegins : above.text.toList <+: path.text.toList) :
    above.Fits where
  nul := fun hnul => h.nul (hbegins.subset hnul)
  size := by
    have hsize := ofList_utf8ByteSize_le_of_isPrefix hbegins
    rw [String.ofList_toList, String.ofList_toList] at hsize
    exact Nat.le_trans hsize h.size
  segments := by
    intro segment hsegment
    obtain ⟨whole, hwhole, hstart⟩ := exists_segment_of_isPrefix hbegins hsegment
    exact Nat.le_trans (ofList_utf8ByteSize_le_of_isPrefix hstart) (h.segments whole hwhole)

/-- Whether the end of a path asks for a directory. -/
def asksDirectory (path : Path) : Bool :=
  let last := (Path.segments path.text.toList).getLastD []
  isBlankSegment last || last == ['.', '.']

/-- The place that the segments of a path are read from. -/
def start (base : Place) (path : Path) : Place :=
  if path.isAbsolute then [] else base

theorem lead_length_le (path : Path) : path.lead.length ≤ 1 := by
  unfold lead
  split
  · exact Nat.le_refl 1
  · split
    · exact Nat.le_refl 1
    · exact Nat.zero_le 1

theorem eq_nil_or_eq_lead {front : List Component} (h : front <+: path.lead) :
    front = [] ∨ front = path.lead := by
  cases front with
  | nil => exact .inl rfl
  | cons part front =>
      refine .inr (h.eq_of_length_le ?_)
      have hone := path.lead_length_le
      rw [List.length_cons]
      omega

theorem foldl_lead (base : Place) (path : Path) :
    path.lead.foldl Place.step base = path.start base := by
  unfold lead start
  split
  · rfl
  · split
    · rfl
    · rfl

theorem components_ne_nil (h : path.text.toList ≠ []) : path.components ≠ [] := by
  intro hnil
  rw [components_eq, List.append_eq_nil_iff] at hnil
  obtain ⟨hlead, hparts⟩ := hnil
  have hrelative : path.isAbsolute = false := by
    by_contra habsolute
    rw [lead, if_pos (by simpa using habsolute)] at hlead
    cases hlead
  obtain ⟨first, rest, hsegments⟩ := List.exists_cons_of_ne_nil (segments_ne_nil path.text.toList)
  have hfirst : first ≠ [] := by
    rintro rfl
    rw [isAbsolute_iff_head h |>.mpr (by rw [hsegments]; rfl)] at hrelative
    cases hrelative
  rw [lead, hrelative, hsegments] at hlead
  rw [hsegments, componentsOfSegments, List.filterMap_cons] at hparts
  by_cases hdot : first = ['.']
  · simp [hdot] at hlead
  · cases hpart : componentOfSegment first with
    | none =>
        rw [← isBlankSegment_iff, isBlankSegment] at hpart
        simp [hfirst, hdot] at hpart
    | some part => simp [hpart] at hparts

end Path

namespace FileTree

variable {tree : FileTree} {base place : Place} {path : Path}

/-- A path is located by following its segments. -/
theorem locate_eq_map (tree : FileTree) (base : Place) (hfits : path.Fits)
    (hne : path.text.toList ≠ []) :
    tree.locate base path = (tree.follow (path.start base) (Path.segments path.text.toList)).map
      fun place => ⟨place, path.asksDirectory⟩ := by
  have hnul : ¬ path.text.toList.contains '\x00' = true := by
    rw [List.contains_iff_mem]
    exact hfits.nul
  rw [locate, if_neg hnul, if_neg (by simpa using hne), if_neg (Nat.not_lt.mpr hfits.size)]
  change (tree.follow _ _ >>= _) = _
  rw [Path.start]
  cases tree.follow (if path.isAbsolute then [] else base) (Path.segments path.text.toList) <;> rfl

theorem asDirectory_of_locate {target : Target} (h : tree.locate base path = .ok target) :
    target.asDirectory = path.asksDirectory :=
  (locate_eq_ok_iff.mp h).2.2

end FileTree

namespace Path

variable {tree : FileTree} {base place : Place} {path : Path}

/-- The places that the components of a path leave are those that its segments leave, and the place
that it is read from. -/
theorem Leaves.segments (h : path.Leaves base place) : place = base ∨ place = path.start base ∨
    ∃ front segment back, Path.segments path.text.toList = front ++ segment :: back ∧
      segment ≠ [] ∧ FileTree.reach (path.start base) front = place := by
  obtain ⟨front, part, back, hparts, rfl⟩ := h
  rw [components_eq] at hparts
  rcases List.append_eq_append_iff.mp hparts with ⟨rest, rfl, hrest⟩ | ⟨more, hlead, -⟩
  · refine .inr (.inr ?_)
    obtain ⟨behind, before, hsegments, hbehind, hbefore⟩ := List.filterMap_eq_append_iff.mp hrest
    obtain ⟨blank, segment, others, rfl, hblank, hsegment, -⟩ :=
      List.filterMap_eq_cons_iff.mp hbefore
    refine ⟨behind ++ blank, segment, others, by simp [hsegments], ?_, ?_⟩
    · rintro rfl
      cases hsegment
    · have hnone : componentsOfSegments blank = [] := List.filterMap_eq_nil_iff.mpr hblank
      rw [FileTree.reach, componentsOfSegments_append, hnone, List.append_nil, List.foldl_append,
        foldl_lead]
      exact congrArg _ hbehind
  · rcases eq_nil_or_eq_lead ⟨more, hlead.symm⟩ with rfl | rfl
    · exact .inl rfl
    · exact .inr (.inl (foldl_lead base path))

/-- In a path without `.` at its end every segment that leaves a place has a component behind it, or
it is the first one. -/
theorem leaves_of_segments (base : Place) (h : path.Settled) {front back : List (List Char)}
    {segment : List Char}
    (hsegments : Path.segments path.text.toList = front ++ segment :: back) (hne : segment ≠ []) :
    FileTree.reach (path.start base) front = base ∨
      path.Leaves base (FileTree.reach (path.start base) front) := by
  have hleaves : ∀ {rest}, componentsOfSegments (segment :: back) = rest → rest ≠ [] →
      path.Leaves base (FileTree.reach (path.start base) front) := by
    intro rest hrest hsome
    obtain ⟨part, more, rfl⟩ := List.exists_cons_of_ne_nil hsome
    refine ⟨path.lead ++ componentsOfSegments front, part, more, ?_, ?_⟩
    · rw [components_eq, hsegments, componentsOfSegments_append, hrest, List.append_assoc]
    · rw [List.foldl_append, foldl_lead, FileTree.reach]
  by_cases hnone : componentsOfSegments (segment :: back) = []
  · have hblank : componentOfSegment segment = none :=
      List.filterMap_eq_nil_iff.mp hnone segment List.mem_cons_self
    have hdot : segment = ['.'] := by
      rw [← isBlankSegment_iff, isBlankSegment] at hblank
      simpa [hne] using hblank
    subst hdot
    obtain rfl := (h front back hsegments).resolve_right (absurd hnone)
    left
    have hrelative : path.isAbsolute = false := by
      by_contra habsolute
      have htext : path.text.toList ≠ [] := by
        intro hempty
        rw [hempty] at hsegments
        simp at hsegments
      have hhead := (isAbsolute_iff_head htext).mp (by simpa using habsolute)
      rw [hsegments] at hhead
      cases hhead
    rw [FileTree.reach, start, hrelative]
    rfl
  · exact .inr (hleaves rfl hnone)

end Path

namespace FileTree

variable {tree : FileTree} {base place : Place} {path : Path}

/-- A path can be followed exactly if all that it leaves is a directory. -/
theorem follow_path_iff (hfits : path.Fits) (hsettled : path.Settled)
    (hbase : tree.find? base = some .directory) :
    tree.follow (path.start base) (Path.segments path.text.toList) = .ok (path.place base) ↔
      ∀ place, path.Leaves base place → tree.find? place = some .directory := by
  have hstart : tree.find? (path.start base) = some .directory := by
    unfold Path.start
    split
    · rfl
    · exact hbase
  have hplace : reach (path.start base) (Path.segments path.text.toList) = path.place base :=
    (Path.place_eq base path).symm
  rw [follow_eq_ok_iff hfits.segments, and_iff_right hplace]
  constructor
  · intro hdirectories place hleaves
    rcases hleaves.segments with rfl | rfl | ⟨front, segment, back, hparts, hne, rfl⟩
    · exact hbase
    · exact hstart
    · exact hdirectories front segment back hparts hne
  · intro hdirectories front segment back hparts hne
    rcases Path.leaves_of_segments base hsettled hparts hne with hhere | hleaves
    · rw [hhere]
      exact hbase
    · exact hdirectories _ hleaves

/-- Where no file is in the way of a path, it is followed to its end or not found. -/
theorem follow_path_or (hfits : path.Fits)
    (hclear : ∀ place, path.Through base place → ∀ bytes, tree.find? place ≠ some (.file bytes)) :
    tree.follow (path.start base) (Path.segments path.text.toList) = .ok (path.place base) ∨
      tree.follow (path.start base) (Path.segments path.text.toList) = .error .notFound := by
  refine (follow_eq_ok_or_notFound hfits.segments ?_).imp_left ?_
  · rintro front ⟨back, hback⟩
    refine hclear _ ⟨path.lead ++ Path.componentsOfSegments front, ?_, ?_⟩
    · refine ⟨Path.componentsOfSegments back, ?_⟩
      rw [Path.components_eq, ← hback, Path.componentsOfSegments_append, List.append_assoc]
    · rw [List.foldl_append, Path.foldl_lead, reach]
  · rintro ⟨place, hplace⟩
    rw [hplace, (follow_eq_ok_iff hfits.segments).mp hplace |>.1.symm]
    exact congrArg _ (Path.place_eq base path).symm

end FileTree

namespace Path

variable {path base next : Path}

/-! ### Paths that may lead to a file -/

theorem asksDirectory_join (base : Path) (hnext : next.isAbsolute = false) :
    (base.join next).asksDirectory = next.asksDirectory := by
  by_cases hbase : base.text.toList = []
  · rw [join_of_empty hbase]
  · obtain ⟨front, htext, -⟩ := exists_front_of_join hbase hnext
    obtain ⟨parts, last, hparts⟩ := List.eq_nil_or_concat (segments next.text.toList)
      |>.resolve_left (segments_ne_nil _)
    rw [List.concat_eq_append] at hparts
    have hlast : (segments (base.join next).text.toList).getLastD [] = last := by
      rw [htext, segments_append, hparts, ← List.append_assoc]
      simp
    rw [asksDirectory, asksDirectory, hlast, hparts]
    simp

theorem Fits.of_join (h : (base.join next).Fits) (hbase : base.text.toList ≠ [])
    (hnext : next.isAbsolute = false) : base.Fits := by
  obtain ⟨front, htext, hfront⟩ := exists_front_of_join hbase hnext
  refine h.of_isPrefix ?_
  rw [htext]
  rcases hfront with hfront | hfront
  · rw [hfront]
    exact List.prefix_append front _
  · rw [hfront]
    exact ⟨next.text.toList, by simp⟩

theorem exists_last_of_asksDirectory (h : path.asksDirectory = false) :
    ∃ parts last, segments path.text.toList = parts ++ [last] ∧ isBlankSegment last = false := by
  obtain ⟨parts, last, hparts⟩ := List.eq_nil_or_concat (segments path.text.toList)
    |>.resolve_left (segments_ne_nil _)
  rw [List.concat_eq_append] at hparts
  refine ⟨parts, last, hparts, ?_⟩
  rw [asksDirectory, hparts] at h
  simp only [List.getLastD_concat, Bool.or_eq_false_iff] at h
  exact h.1

theorem IsName.asksDirectory {name : String} (h : IsName name) :
    Path.asksDirectory ⟨name⟩ = false := by
  have hblank : isBlankSegment name.toList = false := by
    by_contra hblank
    have hnone := isBlankSegment_iff.mp (by simpa using hblank)
    rw [h.component] at hnone
    cases hnone
  have hparent : name.toList ≠ ['.', '.'] := by
    intro hparent
    have hcomponent := h.component
    rw [hparent] at hcomponent
    cases hcomponent
  simp [Path.asksDirectory, segments_of_not_mem h.slashless, hblank, hparent]

theorem settled_of_asksDirectory (h : path.asksDirectory = false) : path.Settled := by
  obtain ⟨parts, last, hparts, hlast⟩ := exists_last_of_asksDirectory h
  exact settled_of_last hparts hlast

theorem exists_parent_of_asksDirectory (h : path.asksDirectory = false) :
    ∃ above, path.parent? = some above := by
  rw [← Option.ne_none_iff_exists']
  intro hnone
  obtain ⟨parts, segment, hparts, hblank⟩ := exists_last_of_asksDirectory h
  have hall := components_of_parent?_eq_none hnone
  rw [hparts] at hall
  have hsegment := List.filterMap_eq_nil_iff.mp hall segment (by simp)
  rw [← isBlankSegment_iff, hblank] at hsegment
  cases hsegment

end Path

end Bundler
