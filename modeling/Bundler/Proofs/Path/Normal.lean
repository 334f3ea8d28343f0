import Bundler.Path.Normal
import Bundler.Proofs.Disk.Place

/-! The normal form of a path. It is the root or some `..`, and then names; it denotes the place
that the path denotes, and its text is read as the components it was made of. -/

namespace Bundler

/-- The place that some steps upwards from a place and then names lead to. There is nothing above
the root. -/
def Place.climb (base : Place) (ups : Nat) (names : List String) : Place :=
  base.take (base.length - ups) ++ names

namespace Path

/-- Some `..`, and then names. -/
def climb (ups : Nat) (names : List String) : List Component :=
  List.replicate ups .parent ++ names.map .name

theorem reverse_climb_nil (ups : Nat) :
    (climb ups []).reverse = List.replicate ups .parent := by
  simp [climb]

/-- A step upwards takes the last name of a place away. -/
theorem foldl_parents (base : Place) (ups : Nat) :
    (List.replicate ups .parent).foldl Place.step base = base.take (base.length - ups) := by
  induction ups with
  | zero => exact (List.take_length).symm
  | succ ups ih =>
      rw [List.replicate_succ', List.foldl_append, ih, List.foldl_cons, List.foldl_nil, Place.step,
        List.dropLast_eq_take, List.take_take, List.length_take]
      congr 1
      omega

theorem foldl_climb (base : Place) (ups : Nat) (names : List String) :
    (climb ups names).foldl Place.step base = base.climb ups names := by
  rw [climb, List.foldl_append, foldl_parents, Place.foldl_names, Place.climb]

/-! ### Reading onto a stack -/

/-- Only an absolute path starts from a stack that is not empty. -/
theorem normalComponents_components (path : Path) :
    normalComponents path.components =
      ((componentsOfSegments (segments path.text.toList)).foldl stepNormal
        (if path.isAbsolute then [.root] else [])).reverse := by
  rw [normalComponents, components_eq, lead]
  split
  · rfl
  · split
    · rfl
    · rfl

/-- One step from a stack of names above `..`. -/
theorem stepNormal_climb (ups : Nat) {names : List String} {part : Component}
    (hnames : ∀ name ∈ names, IsName name) (hpart : part.IsPlain) :
    ∃ ups' names', stepNormal (climb ups names).reverse part = (climb ups' names').reverse ∧
      (∀ base : Place, (base.climb ups names).step part = base.climb ups' names') ∧
      (∀ name ∈ names', IsName name) ∧ ups' ≤ ups + 1 := by
  cases part with
  | root => cases hpart
  | current => cases hpart
  | name text =>
      refine ⟨ups, names ++ [text], by simp [climb, stepNormal], ?_, ?_, Nat.le_succ ups⟩
      · intro base
        exact List.append_assoc _ names [text]
      · intro name hname
        rcases List.mem_append.mp hname with hname | hname
        · exact hnames name hname
        · exact List.mem_singleton.mp hname ▸ hpart
  | parent =>
      rcases List.eq_nil_or_concat names with rfl | ⟨names, text, rfl⟩
      · refine ⟨ups + 1, [], ?_, ?_, by simp, Nat.le_refl _⟩
        · rw [reverse_climb_nil, reverse_climb_nil]
          cases ups with
          | zero => rfl
          | succ ups => rfl
        · intro base
          simp only [Place.climb, Place.step, List.append_nil]
          rw [List.dropLast_eq_take, List.take_take, List.length_take]
          congr 1
          omega
      · refine ⟨ups, names, by simp [climb, stepNormal], ?_, ?_, Nat.le_succ ups⟩
        · intro base
          simp [Place.climb, Place.step, ← List.append_assoc]
        · exact fun name hname => hnames name (by simp [hname])

/-- Reading the parts of a relative path. -/
theorem foldl_stepNormal_climb {parts : List Component} (hparts : ∀ part ∈ parts, part.IsPlain)
    (ups : Nat) {names : List String} (hnames : ∀ name ∈ names, IsName name) :
    ∃ ups' names', parts.foldl stepNormal (climb ups names).reverse = (climb ups' names').reverse ∧
      (∀ base : Place, parts.foldl Place.step (base.climb ups names) = base.climb ups' names') ∧
      (∀ name ∈ names', IsName name) ∧ ups' ≤ ups + parts.length := by
  induction parts generalizing ups names with
  | nil => exact ⟨ups, names, rfl, fun _ => rfl, hnames, Nat.le_refl _⟩
  | cons part rest ih =>
      obtain ⟨ups₁, names₁, hstack, hplace, hnames₁, hups₁⟩ :=
        stepNormal_climb ups hnames (hparts part List.mem_cons_self)
      obtain ⟨ups₂, names₂, hstack', hplace', hnames₂, hups₂⟩ :=
        ih (fun other ho => hparts other (List.mem_cons_of_mem part ho)) ups₁ hnames₁
      refine ⟨ups₂, names₂, ?_, ?_, hnames₂, ?_⟩
      · rw [List.foldl_cons, hstack, hstack']
      · intro base
        rw [List.foldl_cons, hplace, hplace']
      · rw [List.length_cons]
        omega

/-- One step from a stack of names above the root. -/
theorem stepNormal_root {names : List String} {part : Component}
    (hnames : ∀ name ∈ names, IsName name) (hpart : part.IsPlain) :
    ∃ names', stepNormal (.root :: names.map .name).reverse part =
        (.root :: names'.map .name).reverse ∧
      Place.step names part = names' ∧ ∀ name ∈ names', IsName name := by
  cases part with
  | root => cases hpart
  | current => cases hpart
  | name text =>
      refine ⟨names ++ [text], by simp [stepNormal], rfl, ?_⟩
      intro name hname
      rcases List.mem_append.mp hname with hname | hname
      · exact hnames name hname
      · exact List.mem_singleton.mp hname ▸ hpart
  | parent =>
      refine ⟨names.dropLast, ?_, rfl, fun name hname => hnames name (List.dropLast_subset _ hname)⟩
      rcases List.eq_nil_or_concat names with rfl | ⟨names, text, rfl⟩
      · rfl
      · simp [stepNormal]

/-- Reading the parts of an absolute path. -/
theorem foldl_stepNormal_root {parts : List Component} (hparts : ∀ part ∈ parts, part.IsPlain)
    {names : List String} (hnames : ∀ name ∈ names, IsName name) :
    ∃ names', parts.foldl stepNormal (.root :: names.map .name).reverse =
        (.root :: names'.map .name).reverse ∧
      parts.foldl Place.step names = names' ∧ ∀ name ∈ names', IsName name := by
  induction parts generalizing names with
  | nil => exact ⟨names, rfl, rfl, hnames⟩
  | cons part rest ih =>
      obtain ⟨names₁, hstack, hplace, hnames₁⟩ :=
        stepNormal_root hnames (hparts part List.mem_cons_self)
      obtain ⟨names₂, hstack', hplace', hnames₂⟩ :=
        ih (fun other ho => hparts other (List.mem_cons_of_mem part ho)) hnames₁
      refine ⟨names₂, ?_, ?_, hnames₂⟩
      · rw [List.foldl_cons, hstack, hstack']
      · rw [List.foldl_cons, hplace, hplace']

/-! ### Shapes of normal forms -/

/-- A path text has at least one character for each of its parts. -/
theorem length_componentsOfSegments_le (text : List Char) :
    (componentsOfSegments (segments text)).length ≤ text.length := by
  have hone : ∀ part : List Char, (componentsOfSegments [part]).length ≤ part.length := by
    intro part
    cases part with
    | nil => simp
    | cons c rest =>
        have hle : (componentsOfSegments [c :: rest]).length ≤ 1 := List.length_filterMap_le _ _
        rw [List.length_cons]
        omega
  suffices h : ∀ seen, (componentsOfSegments (segmentsFrom seen text)).length ≤
      seen.length + text.length by
    have hall := h []
    rwa [List.length_nil, Nat.zero_add] at hall
  induction text with
  | nil =>
      intro seen
      have hseen := hone seen.reverse
      rwa [List.length_reverse] at hseen
  | cons c rest ih =>
      intro seen
      rw [segmentsFrom, List.length_cons]
      split
      · have hseen := hone seen.reverse
        have hrest := ih []
        rw [List.length_reverse] at hseen
        rw [List.length_nil] at hrest
        rw [← List.singleton_append, componentsOfSegments_append, List.length_append]
        omega
      · have hrest := ih (c :: seen)
        rw [List.length_cons] at hrest
        omega

theorem noName : ∀ name ∈ ([] : List String), IsName name := by simp

/-- An absolute path leads from the root to the names of its normal form. -/
theorem exists_names_of_absolute {path : Path} (h : path.isAbsolute = true) :
    ∃ names, (∀ name ∈ names, IsName name) ∧
      normalComponents path.components = .root :: names.map .name ∧
      ∀ base, path.place base = names := by
  have hparts : ∀ part ∈ componentsOfSegments (segments path.text.toList), part.IsPlain :=
    fun _ => isPlain_of_mem
  obtain ⟨names, hstack, hplace, hnames⟩ := foldl_stepNormal_root hparts noName
  refine ⟨names, hnames, ?_, ?_⟩
  · rw [normalComponents_components, h, if_pos rfl, List.reverse_eq_iff, ← hstack]
    rfl
  · intro base
    rw [place_eq, h, if_pos rfl, hplace]

/-- A relative path leads some steps upwards, and then to the names of its normal form. -/
theorem exists_climb_of_relative {path : Path} (h : path.isAbsolute = false) :
    ∃ ups names, (∀ name ∈ names, IsName name) ∧
      normalComponents path.components = climb ups names ∧
      (∀ base : Place, path.place base = base.climb ups names) ∧
      ups ≤ path.text.toList.length := by
  have hparts : ∀ part ∈ componentsOfSegments (segments path.text.toList), part.IsPlain :=
    fun _ => isPlain_of_mem
  obtain ⟨ups, names, hstack, hplace, hnames, hups⟩ := foldl_stepNormal_climb hparts 0 noName
  refine ⟨ups, names, hnames, ?_, ?_, ?_⟩
  · rw [normalComponents_components, h, if_neg Bool.false_ne_true, List.reverse_eq_iff, ← hstack]
    rfl
  · intro base
    rw [place_eq, h, if_neg Bool.false_ne_true, ← hplace, Place.climb, List.append_nil,
      Nat.sub_zero, List.take_length]
  · have hlength := length_componentsOfSegments_le path.text.toList
    omega

/-! ### Normal forms as paths -/

theorem isPlain_of_mem_names {names : List String} (hnames : ∀ name ∈ names, IsName name) :
    ∀ part ∈ names.map Component.name, part.IsPlain := by
  intro part hpart
  obtain ⟨name, hname, rfl⟩ := List.mem_map.mp hpart
  exact hnames name hname

theorem isPlain_of_mem_climb {ups : Nat} {names : List String}
    (hnames : ∀ name ∈ names, IsName name) : ∀ part ∈ climb ups names, part.IsPlain := by
  intro part hpart
  rcases List.mem_append.mp hpart with hpart | hpart
  · obtain rfl := List.eq_of_mem_replicate hpart
    trivial
  · exact isPlain_of_mem_names hnames part hpart

/-- The normal form of an absolute path is read as the components it is made of. -/
theorem components_normalize_of_absolute {path : Path} (h : path.isAbsolute = true) :
    path.normalize.components = normalComponents path.components := by
  obtain ⟨names, hnames, hnormal, -⟩ := exists_names_of_absolute h
  rw [normalize, ofComponents, hnormal]
  exact components_joinComponents_root (isPlain_of_mem_names hnames)

theorem isAbsolute_normalize {path : Path} (h : path.isAbsolute = true) :
    path.normalize.isAbsolute = true := by
  obtain ⟨names, -, hnormal, -⟩ := exists_names_of_absolute h
  rw [isAbsolute_iff_mem, components_normalize_of_absolute h, hnormal]
  exact List.mem_cons_self

/-- Absolute paths have the same normal form exactly if they denote the same place. -/
theorem normalize_eq_iff_place {path other : Path} (h : path.isAbsolute = true)
    (ho : other.isAbsolute = true) (base : Place) :
    path.normalize = other.normalize ↔ path.place base = other.place base := by
  obtain ⟨names, -, hnormal, hplace⟩ := exists_names_of_absolute h
  obtain ⟨names', -, hnormal', hplace'⟩ := exists_names_of_absolute ho
  rw [hplace, hplace']
  constructor
  · intro hsame
    have hcomponents := congrArg components hsame
    rw [components_normalize_of_absolute h, components_normalize_of_absolute ho, hnormal,
      hnormal'] at hcomponents
    exact List.map_injective_iff.mpr (fun _ _ => Component.name.inj) (List.cons.inj hcomponents).2
  · rintro rfl
    rw [normalize, normalize, hnormal, hnormal']

end Path

end Bundler
