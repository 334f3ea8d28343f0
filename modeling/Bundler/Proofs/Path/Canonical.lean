import Bundler.Proofs.Path.Trail
import Bundler.Proofs.Path.Written

/-! Normal forms of paths. A normal form is what is left of the path, written down, and is read as
that again. So it can be joined in place of the path that it comes from, and a loop that keeps
nothing but the text it has written finds it. -/

namespace Bundler.Path

namespace Trail

/-- How a trail is written, as `.` if nothing is left. -/
def text : Trail → String
  | fromRoot names => "/" ++ "/".intercalate names
  | fromHere ups names =>
      let parts := List.replicate ups ".." ++ names
      if parts.isEmpty then "." else "/".intercalate parts

variable {trail : Trail}

theorem map_text_climb (ups : Nat) (names : List String) :
    (climb ups names).map Component.text = List.replicate ups ".." ++ names := by
  simp [climb, Component.text, Function.comp_def]

/-- The path of the components that are left is what the trail is written as. -/
theorem IsProper.ofComponents_eq (h : trail.IsProper) :
    ofComponents trail.components = ⟨trail.text⟩ := by
  rw [← text_inj]
  cases trail with
  | fromRoot names =>
      have hplain : ∀ part ∈ names.map Component.name, part.IsPlain := isPlain_of_mem_names h
      change (joinComponents ⟨""⟩ (.root :: names.map .name)).text = "/" ++ "/".intercalate names
      rw [← String.toList_inj, toList_joinComponents_root hplain, String.toList_append,
        ← unsegment_map_toList, List.map_map]
      rfl
  | fromHere ups names =>
      have hplain : ∀ part ∈ climb ups names, part.IsPlain := isPlain_of_mem_climb h
      rw [ofComponents, components, text, ← map_text_climb, List.isEmpty_map]
      dsimp only
      split
      · rfl
      · rw [← String.toList_inj, toList_joinComponents_empty hplain, ← unsegment_map_toList,
          List.map_map]
        rfl

theorem IsProper.components_joinComponents (h : trail.IsProper) :
    (joinComponents ⟨""⟩ trail.components).components = trail.components := by
  cases trail with
  | fromRoot names => exact components_joinComponents_root (isPlain_of_mem_names h)
  | fromHere ups names => exact components_joinComponents_empty (isPlain_of_mem_climb h)

/-- What a trail is written as is read as the trail. -/
theorem IsProper.trail_text (h : trail.IsProper) : Path.trail ⟨trail.text⟩ = trail := by
  rw [← h.ofComponents_eq, ofComponents]
  split
  · next hempty =>
    -- nothing is left, and `.` is read as nothing
    rw [← foldl_read_components trail, List.isEmpty_iff.mp hempty]
    rfl
  · rw [Path.trail, h.components_joinComponents, foldl_read_components]

end Trail

variable {path other : Path}

/-! ### Normal forms -/

theorem normalize_eq (path : Path) : path.normalize = ⟨path.trail.text⟩ := by
  rw [normalize, ← components_trail, (isProper_trail path).ofComponents_eq]

theorem trail_normalize (path : Path) : path.normalize.trail = path.trail := by
  rw [normalize_eq, (isProper_trail path).trail_text]

theorem normalize_eq_iff_trail : path.normalize = other.normalize ↔ path.trail = other.trail := by
  constructor
  · intro h
    rw [← trail_normalize path, h, trail_normalize]
  · intro h
    rw [normalize_eq, normalize_eq, h]

/-- A normal form is read as the components that are left, unless nothing is. -/
theorem components_normalize (h : path.trail.components ≠ []) :
    path.normalize.components = path.trail.components := by
  rw [normalize, ← components_trail, ofComponents, if_neg (by simpa using h),
    (isProper_trail path).components_joinComponents]

/-- Paths may be brought into normal form before they are joined. -/
theorem normalize_join_normalize (base next : Path) :
    (base.normalize.join next.normalize).normalize = (base.join next).normalize := by
  rw [normalize_eq_iff_trail, trail_join, trail_join, trail_normalize, trail_normalize]

theorem normalize_normalize (path : Path) : path.normalize.normalize = path.normalize := by
  rw [normalize_eq_iff_trail, trail_normalize]

/-! ### Writing while reading -/

/-- One turn of a loop that keeps nothing but the text it has written. What a step upwards does
depends on the last component of that text. -/
def grow (out : Path) : Component → Path
  | .current => out
  | .parent =>
      match out.components.getLast? with
      | some (.name _) => out.parent?.getD out
      | some .root => out
      | _ => out.join ⟨".."⟩
  | part => out.join ⟨part.text⟩

theorem grow_parent_fromRoot {names : List String} (h : (Trail.fromRoot names).IsProper) :
    grow (joinComponents ⟨""⟩ (Trail.fromRoot names).components) .parent =
      joinComponents ⟨""⟩ ((Trail.fromRoot names).read .parent).components := by
  rw [grow, h.components_joinComponents]
  rcases List.eq_nil_or_concat names with rfl | ⟨front, last, rfl⟩
  · rfl
  · have hsplit : (Trail.fromRoot (front.concat last)).components =
        .root :: (front.map .name ++ [.name last]) := by
      simp [Trail.components]
    have hread : (Trail.fromRoot (front.concat last)).read .parent = .fromRoot front := by
      simp [Trail.read]
    have hplain := isPlain_of_mem_names h
    rw [Trail.names, List.concat_eq_append, List.map_append] at hplain
    rw [hsplit, hread, parent?_joinComponents_root hplain, ← List.cons_append,
      List.getLast?_concat]
    rfl

theorem grow_parent_fromHere {ups : Nat} {names : List String}
    (h : (Trail.fromHere ups names).IsProper) :
    grow (joinComponents ⟨""⟩ (Trail.fromHere ups names).components) .parent =
      joinComponents ⟨""⟩ ((Trail.fromHere ups names).read .parent).components := by
  rw [grow, h.components_joinComponents]
  rcases List.eq_nil_or_concat names with rfl | ⟨front, last, rfl⟩
  · have hread : ((Trail.fromHere ups []).read .parent).components =
        climb ups [] ++ [.parent] := by
      simp [Trail.read, Trail.components, climb, List.replicate_succ']
    rw [hread, joinComponents_concat]
    cases ups with
    | zero => rfl
    | succ ups =>
        have hlast : (climb (ups + 1) []).getLast? = some .parent := by
          simp [climb, List.replicate_succ']
        rw [Trail.components, hlast]
        rfl
  · have hsplit : climb ups (front.concat last) = climb ups front ++ [.name last] := by
      simp [climb]
    have hread : (Trail.fromHere ups (front.concat last)).read .parent = .fromHere ups front := by
      simp [Trail.read]
    have hplain : ∀ part ∈ climb ups (front.concat last), part.IsPlain := isPlain_of_mem_climb h
    rw [hsplit] at hplain
    rw [Trail.components, hsplit, hread, parent?_joinComponents_empty hplain,
      List.getLast?_concat]
    rfl

/-- What the loop has written is the trail of what it has read. -/
theorem grow_joinComponents {trail : Trail} {part : Component} (h : trail.IsProper)
    (hpart : part.IsPlain) :
    grow (joinComponents ⟨""⟩ trail.components) part =
      joinComponents ⟨""⟩ (trail.read part).components := by
  cases part with
  | root => cases hpart
  | current => cases hpart
  | name text =>
      have hread : (trail.read (.name text)).components = trail.components ++ [.name text] := by
        cases trail <;> simp [Trail.read, Trail.components, climb]
      rw [hread, joinComponents_concat]
      rfl
  | parent =>
      cases trail with
      | fromRoot names => exact grow_parent_fromRoot h
      | fromHere ups names => exact grow_parent_fromHere h

/-- What the loop has written after all components. -/
theorem foldl_grow (path : Path) :
    path.components.foldl grow ⟨""⟩ = joinComponents ⟨""⟩ path.trail.components := by
  have hlead : path.lead.foldl grow ⟨""⟩ = joinComponents ⟨""⟩
      (if path.isAbsolute then Trail.fromRoot [] else .fromHere 0 []).components := by
    unfold lead
    split
    · rfl
    · split
      · rfl
      · rfl
  rw [components_eq, List.foldl_append, hlead, trail_eq]
  refine (List.foldl_rel (r := fun (out : Path) (trail : Trail) =>
    trail.IsProper ∧ out = joinComponents ⟨""⟩ trail.components) ⟨?_, rfl⟩ ?_).2
  · split
    · exact noName
    · exact noName
  · rintro part hpart _ trail ⟨hproper, rfl⟩
    have hplain := isPlain_of_mem hpart
    exact ⟨hproper.read hplain, grow_joinComponents hproper hplain⟩

/-- The loop writes the normal form, but for the `.` that stands for nothing. -/
theorem normalize_eq_grown (path : Path) :
    path.normalize =
      let out := path.components.foldl grow ⟨""⟩
      if out.text.isEmpty then ⟨"."⟩ else out := by
  have hempty : (joinComponents ⟨""⟩ path.trail.components).text.isEmpty =
      path.trail.components.isEmpty := by
    rw [Bool.eq_iff_iff, String.isEmpty_iff, List.isEmpty_iff]
    constructor
    · intro htext
      rw [← (isProper_trail path).components_joinComponents, components, htext]
      rfl
    · intro hnil
      rw [hnil]
      rfl
  rw [foldl_grow, normalize, ← components_trail, ofComponents]
  simp only [hempty]

/-! ### What normal forms are -/

/-- The normal form of an absolute path is a slash and names, that of a relative one `.` or some
steps upwards and names. It is settled by what is left of the path, is its own normal form, can be
joined in place of the path, and is what a loop writes that sees no more than its own text. -/
theorem normalize_canonical :
    (∀ base next : Path, (base.join next).normalize = (base.normalize.join next).normalize) ∧
    (∀ path : Path, path.normalize.normalize = path.normalize) ∧
    (∀ path : Path, path.isAbsolute = true → ∃ names, (∀ name ∈ names, IsName name) ∧
      path.normalize.text = "/" ++ "/".intercalate names ∧
      path.normalize.components = .root :: names.map .name) ∧
    (∀ path : Path, path.isAbsolute = false → path.normalize.text = "." ∨
      ∃ ups names, (∀ name ∈ names, IsName name) ∧
        path.normalize.text = "/".intercalate (List.replicate ups ".." ++ names) ∧
        path.normalize.components = List.replicate ups .parent ++ names.map .name) ∧
    (∀ path other : Path, path.normalize = other.normalize ↔ path.trail = other.trail) ∧
    ∀ path : Path, path.normalize =
      let out := path.components.foldl grow ⟨""⟩
      if out.text.isEmpty then ⟨"."⟩ else out := by
  refine ⟨fun base next => ?_, normalize_normalize, fun path h => ?_, fun path h => ?_,
    fun path other => normalize_eq_iff_trail, normalize_eq_grown⟩
  · rw [← normalize_join_normalize base next, ← normalize_join_normalize base.normalize next,
      normalize_normalize]
  · obtain ⟨names, hnames, htrail⟩ := trail_of_absolute h
    refine ⟨names, hnames, ?_, ?_⟩
    · rw [normalize_eq, htrail]
      rfl
    · rw [components_normalize (by simp [htrail, Trail.components]), htrail]
      rfl
  · obtain ⟨ups, names, hnames, htrail⟩ := trail_of_relative h
    by_cases hnil : climb ups names = []
    · left
      rw [normalize, ← components_trail, htrail, Trail.components, hnil]
      rfl
    · refine .inr ⟨ups, names, hnames, ?_, ?_⟩
      · rw [normalize_eq, htrail, Trail.text, if_neg]
        rw [← Trail.map_text_climb, List.isEmpty_map, List.isEmpty_iff]
        exact hnil
      · rw [components_normalize (by rwa [htrail]), htrail]
        rfl

theorem normalize_canonical_dots :
    isAbsolute ⟨"/app/src/./lib/../../../../a.js"⟩ = true ∧
      isAbsolute ⟨"x/../../b//./c/"⟩ = false ∧
      (∃ names, (∀ name ∈ names, IsName name) ∧
        (normalize ⟨"/app/src/./lib/../../../../a.js"⟩).text = "/" ++ "/".intercalate names) ∧
      (∃ (ups : Nat) (names : List String), (∀ name ∈ names, IsName name) ∧
        (normalize ⟨"x/../../b//./c/"⟩).components =
          List.replicate ups .parent ++ names.map .name) ∧
      normalize ⟨"x/../../b//./c/"⟩ = normalize ⟨"../b/c"⟩ := by
  obtain ⟨-, -, habsolute, hrelative, htrail, -⟩ := normalize_canonical
  have hroot : isAbsolute ⟨"/app/src/./lib/../../../../a.js"⟩ = true := by decide
  have hhere : isAbsolute ⟨"x/../../b//./c/"⟩ = false := by decide
  refine ⟨hroot, hhere, ?_, ?_, (htrail _ _).mpr (by decide)⟩
  · obtain ⟨names, hnames, htext, -⟩ := habsolute _ hroot
    exact ⟨names, hnames, htext⟩
  · rcases hrelative _ hhere with hdot | ⟨ups, names, hnames, -, hcomponents⟩
    · exact absurd hdot (by decide)
    · exact ⟨ups, names, hnames, hcomponents⟩

end Bundler.Path
