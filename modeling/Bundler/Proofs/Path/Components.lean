import Bundler.Path
import Mathlib.Data.List.Basic

/-! The components of a path text, and what joining paths makes of them. -/

namespace Bundler.Path

theorem text_inj {path other : Path} : path.text = other.text ↔ path = other := by
  cases path
  cases other
  simp

/-! ### Segments -/

theorem segmentsFrom_append (seen front back : List Char) :
    segmentsFrom seen (front ++ '/' :: back) = segmentsFrom seen front ++ segments back := by
  induction front generalizing seen with
  | nil => simp [segmentsFrom, segments]
  | cons c rest ih =>
      by_cases hc : c = '/'
      · simp [segmentsFrom, hc, ih]
      · simp [segmentsFrom, hc, ih]

theorem segments_append (front back : List Char) :
    segments (front ++ '/' :: back) = segments front ++ segments back :=
  segmentsFrom_append [] front back

@[simp] theorem segments_nil : segments [] = [[]] := rfl

theorem segmentsFrom_of_not_mem {text : List Char} (h : '/' ∉ text) (seen : List Char) :
    segmentsFrom seen text = [seen.reverse ++ text] := by
  induction text generalizing seen with
  | nil => simp [segmentsFrom]
  | cons c rest ih =>
      simp only [List.mem_cons, not_or] at h
      rw [segmentsFrom, if_neg (Ne.symm h.1), ih h.2]
      simp

/-- A text without a slash is its only segment. -/
theorem segments_of_not_mem {text : List Char} (h : '/' ∉ text) : segments text = [text] :=
  segmentsFrom_of_not_mem h []

theorem segments_ne_nil (text : List Char) : segments text ≠ [] := by
  suffices h : ∀ seen, segmentsFrom seen text ≠ [] from h []
  induction text with
  | nil => simp [segmentsFrom]
  | cons c rest ih =>
      intro seen
      rw [segmentsFrom]
      split
      · simp
      · exact ih _

theorem not_mem_of_mem_segmentsFrom {seen text part : List Char} (hseen : '/' ∉ seen)
    (h : part ∈ segmentsFrom seen text) : '/' ∉ part := by
  induction text generalizing seen with
  | nil =>
      obtain rfl := List.mem_singleton.mp h
      simpa using hseen
  | cons c rest ih =>
      rw [segmentsFrom] at h
      split at h
      · rcases List.mem_cons.mp h with rfl | h
        · simpa using hseen
        · exact ih List.not_mem_nil h
      · next hc => exact ih (by simp [hseen, Ne.symm hc]) h

theorem not_mem_of_mem_segments {text part : List Char} (h : part ∈ segments text) :
    '/' ∉ part :=
  not_mem_of_mem_segmentsFrom List.not_mem_nil h

/-- Segments are cut where they were put together. -/
theorem segments_unsegment {parts : List (List Char)} (hne : parts ≠ [])
    (h : ∀ part ∈ parts, '/' ∉ part) : segments (unsegment parts) = parts := by
  induction parts with
  | nil => exact absurd rfl hne
  | cons part rest ih =>
      have hpart := segments_of_not_mem (h part List.mem_cons_self)
      cases rest with
      | nil => exact hpart
      | cons next rest =>
          rw [unsegment, segments_append, hpart,
            ih (by simp) fun other ho => h other (List.mem_cons_of_mem part ho)]
          · rfl
          · simp

/-! ### Components -/

@[simp] theorem componentsOfSegments_nil : componentsOfSegments [] = [] := rfl

@[simp] theorem componentsOfSegments_nil_cons (parts : List (List Char)) :
    componentsOfSegments ([] :: parts) = componentsOfSegments parts := rfl

@[simp] theorem componentsOfSegments_dot_cons (parts : List (List Char)) :
    componentsOfSegments (['.'] :: parts) = componentsOfSegments parts := rfl

@[simp] theorem componentsOfSegments_append (front back : List (List Char)) :
    componentsOfSegments (front ++ back) =
      componentsOfSegments front ++ componentsOfSegments back :=
  List.filterMap_append

theorem isAbsolute_eq_false_iff {path : Path} :
    path.isAbsolute = false ↔ ∀ body, path.text.toList ≠ '/' :: body := by
  unfold isAbsolute
  cases path.text.toList with
  | nil => simp
  | cons c rest => simp

/-- The component that only the start of a text can have. -/
def lead (path : Path) : List Component :=
  if path.isAbsolute then [.root]
  else if (segments path.text.toList).head? = some ['.'] then [.current]
  else []

theorem components_eq (path : Path) :
    path.components = path.lead ++ componentsOfSegments (segments path.text.toList) := by
  unfold components componentsOf lead
  split
  · next body htext =>
    have hsegments : segments ('/' :: body) = [] :: segments body := segments_append [] body
    have habsolute : path.isAbsolute = true := by simp [isAbsolute, htext]
    rw [htext, hsegments, habsolute, componentsOfSegments_nil_cons]
    rfl
  · next hslash =>
    rw [isAbsolute_eq_false_iff.mpr hslash, if_neg Bool.false_ne_true]
    split
    · next rest hdot =>
      rw [hdot, componentsOfSegments_dot_cons]
      rfl
    · next hdot =>
      rw [if_neg]
      · rfl
      · intro hhead
        obtain ⟨rest, hrest⟩ := List.head?_eq_some_iff.mp hhead
        exact hdot rest hrest

/-- A text that is a component by itself: it is not empty, has no slash and is neither `.` nor
`..`. -/
structure IsName (text : String) : Prop where
  component : componentOfSegment text.toList = some (.name text)
  slashless : '/' ∉ text.toList

/-- Whether a component can stand behind the lead of a path. -/
def Component.IsPlain : Component → Prop
  | .root => False
  | .current => False
  | .parent => True
  | .name text => IsName text

theorem componentOfSegment_eq_some {segment : List Char} {part : Component}
    (h : componentOfSegment segment = some part) :
    part.text.toList = segment ∧ (part = .parent ∨ part = .name (String.ofList segment)) := by
  unfold componentOfSegment at h
  split at h
  · cases h
  · cases h
  · obtain rfl := Option.some.inj h
    exact ⟨rfl, .inl rfl⟩
  · obtain rfl := Option.some.inj h
    exact ⟨String.toList_ofList, .inr rfl⟩

theorem isPlain_of_mem {text : List Char} {part : Component}
    (h : part ∈ componentsOfSegments (segments text)) : part.IsPlain := by
  obtain ⟨segment, hsegment, hpart⟩ := List.mem_filterMap.mp h
  obtain ⟨htext, rfl | rfl⟩ := componentOfSegment_eq_some hpart
  · trivial
  · change (String.ofList segment).toList = segment at htext
    refine ⟨?_, ?_⟩
    · rw [htext, hpart]
    · rw [htext]
      exact not_mem_of_mem_segments hsegment

theorem isAbsolute_iff_mem {path : Path} : path.isAbsolute = true ↔ .root ∈ path.components := by
  have hplain : .root ∉ componentsOfSegments (segments path.text.toList) := fun hroot =>
    isPlain_of_mem hroot
  rw [components_eq, List.mem_append, or_iff_left hplain, lead]
  split
  · simp_all
  · split
    · simp_all
    · simp_all

namespace Component.IsPlain

variable {part : Component}

theorem segments_text (h : part.IsPlain) :
    '/' ∉ part.text.toList ∧ componentOfSegment part.text.toList = some part := by
  cases part with
  | root => cases h
  | current => cases h
  | parent => exact ⟨by decide, by rfl⟩
  | name text => exact ⟨h.slashless, h.component⟩

theorem text_ne_nil (h : part.IsPlain) : part.text.toList ≠ [] := by
  intro hnil
  have hpart := h.segments_text.2
  rw [hnil] at hpart
  cases hpart

theorem isAbsolute_text (h : part.IsPlain) : isAbsolute ⟨part.text⟩ = false := by
  rw [isAbsolute_eq_false_iff]
  intro body hbody
  apply h.segments_text.1
  rw [hbody]
  exact List.mem_cons_self

theorem componentsOfSegments_text (h : part.IsPlain) :
    componentsOfSegments (segments part.text.toList) = [part] := by
  obtain ⟨hslash, hpart⟩ := h.segments_text
  rw [segments_of_not_mem hslash, componentsOfSegments, List.filterMap_cons, hpart]
  rfl

theorem components_text (h : part.IsPlain) : components ⟨part.text⟩ = [part] := by
  have hlead : lead ⟨part.text⟩ = [] := by
    rw [lead, h.isAbsolute_text, if_neg Bool.false_ne_true, if_neg]
    rw [segments_of_not_mem h.segments_text.1]
    intro hdot
    have hpart := h.segments_text.2
    rw [Option.some.inj hdot] at hpart
    cases hpart
  rw [components_eq, hlead, h.componentsOfSegments_text]
  rfl

end Component.IsPlain

/-! ### Joined paths -/

variable {base next : Path}

theorem join_of_empty (h : base.text.toList = []) (next : Path) : base.join next = next := by
  unfold join
  split
  · rfl
  · rw [h]
    rfl

theorem text_join_ne_nil (hbase : base.text.toList ≠ []) (hnext : next.isAbsolute = false) :
    (base.join next).text.toList ≠ [] := by
  unfold join
  split
  · next body htext => exact absurd htext (isAbsolute_eq_false_iff.mp hnext body)
  · split
    · next hlast => exact absurd (List.getLast?_eq_none_iff.mp hlast) hbase
    · simp [hbase]
    · simp

/-- A slash at the end of a path makes no difference to its join with a relative path. -/
theorem exists_front_of_join (hbase : base.text.toList ≠ []) (hnext : next.isAbsolute = false) :
    ∃ front, (base.join next).text.toList = front ++ '/' :: next.text.toList ∧
      (base.text.toList = front ∨ base.text.toList = front ++ ['/']) := by
  unfold join
  split
  · next body htext => exact absurd htext (isAbsolute_eq_false_iff.mp hnext body)
  · split
    · next hlast => exact absurd (List.getLast?_eq_none_iff.mp hlast) hbase
    · next hlast =>
      obtain ⟨front, htext⟩ := List.getLast?_eq_some_iff.mp hlast
      exact ⟨front, by simp [htext], .inr htext⟩
    · exact ⟨base.text.toList, by simp, .inl rfl⟩

/-- What is after the root of a joined path: the same of both paths, one after the other. -/
theorem componentsOfSegments_join (base : Path) (hnext : next.isAbsolute = false) :
    componentsOfSegments (segments (base.join next).text.toList) =
      componentsOfSegments (segments base.text.toList) ++
        componentsOfSegments (segments next.text.toList) := by
  by_cases hbase : base.text.toList = []
  · rw [join_of_empty hbase, hbase]
    rfl
  obtain ⟨front, htext, hfront⟩ := exists_front_of_join hbase hnext
  have hparts : componentsOfSegments (segments base.text.toList) =
      componentsOfSegments (segments front) := by
    rcases hfront with hfront | hfront
    · rw [hfront]
    · rw [hfront, segments_append]
      simp
  rw [htext, segments_append, componentsOfSegments_append, hparts]

/-- The components of a relative path come behind those of the path that it is joined to, but for a
leading `.`. -/
theorem components_join (hbase : base.text.toList ≠ []) (hnext : next.isAbsolute = false) :
    (base.join next).components =
      base.components ++ componentsOfSegments (segments next.text.toList) := by
  obtain ⟨front, htext, hfront⟩ := exists_front_of_join hbase hnext
  have hlead : (base.join next).lead = base.lead := by
    have hhead : ∀ rest, (segments front ++ rest).head? = (segments front).head? :=
      fun rest => List.head?_append_of_ne_nil _ (segments_ne_nil front)
    have habsolute : (base.join next).isAbsolute = base.isAbsolute := by
      rcases hfront with hfront | hfront
      · cases front with
        | nil => exact absurd hfront hbase
        | cons c rest => simp [isAbsolute, htext, hfront]
      · cases front with
        | nil => simp [isAbsolute, htext, hfront]
        | cons c rest => simp [isAbsolute, htext, hfront]
    rw [lead, lead, habsolute, htext, segments_append, hhead]
    rcases hfront with hfront | hfront
    · rw [hfront]
    · rw [hfront, segments_append, hhead]
  rw [components_eq (base.join next), components_eq base, hlead,
    componentsOfSegments_join base hnext, List.append_assoc]

/-- An absolute path replaces the one that it is joined to. -/
theorem join_of_isAbsolute (base : Path) (hnext : next.isAbsolute = true) :
    base.join next = next := by
  obtain ⟨body, htext⟩ : ∃ body, next.text.toList = '/' :: body := by
    by_contra hrelative
    rw [isAbsolute_eq_false_iff.mpr fun body htext => hrelative ⟨body, htext⟩] at hnext
    cases hnext
  simp only [join, htext]

theorem isAbsolute_join (next : Path) (hbase : base.isAbsolute = true) :
    (base.join next).isAbsolute = true := by
  cases hnext : next.isAbsolute with
  | true =>
      rw [join_of_isAbsolute base hnext]
      exact hnext
  | false =>
      have htext : base.text.toList ≠ [] := by
        intro hempty
        simp [isAbsolute, hempty] at hbase
      rw [isAbsolute_iff_mem, components_join htext hnext]
      exact List.mem_append_left _ (isAbsolute_iff_mem.mp hbase)

theorem componentsOfSegments_joinComponents (base : Path) {parts : List Component}
    (hparts : ∀ part ∈ parts, part.IsPlain) :
    componentsOfSegments (segments (joinComponents base parts).text.toList) =
      componentsOfSegments (segments base.text.toList) ++ parts := by
  induction parts generalizing base with
  | nil => rw [List.append_nil]; rfl
  | cons part rest ih =>
      obtain ⟨hpart, hrest⟩ := List.forall_mem_cons.mp hparts
      have hstep : joinComponents base (part :: rest) =
          joinComponents (base.join ⟨part.text⟩) rest := rfl
      rw [hstep, ih _ hrest, componentsOfSegments_join base hpart.isAbsolute_text,
        hpart.componentsOfSegments_text, List.append_assoc]
      rfl

theorem components_joinComponents {parts : List Component} (hbase : base.text.toList ≠ [])
    (hparts : ∀ part ∈ parts, part.IsPlain) :
    (joinComponents base parts).components = base.components ++ parts := by
  induction parts generalizing base with
  | nil => simp [joinComponents]
  | cons part rest ih =>
      have hpart := hparts part List.mem_cons_self
      have hrest : (joinComponents (base.join ⟨part.text⟩) rest).components =
          (base.join ⟨part.text⟩).components ++ rest :=
        ih (text_join_ne_nil hbase hpart.isAbsolute_text)
          fun other ho => hparts other (List.mem_cons_of_mem part ho)
      rw [joinComponents, List.foldl_cons]
      rw [joinComponents] at hrest
      rw [hrest, components_join hbase hpart.isAbsolute_text, hpart.componentsOfSegments_text,
        List.append_assoc]
      rfl

theorem components_joinComponents_empty {parts : List Component}
    (hparts : ∀ part ∈ parts, part.IsPlain) :
    (joinComponents ⟨""⟩ parts).components = parts := by
  cases parts with
  | nil => rfl
  | cons part rest =>
      have hpart := hparts part List.mem_cons_self
      have hfirst : joinComponents ⟨""⟩ (part :: rest) = joinComponents ⟨part.text⟩ rest := by
        rw [joinComponents, List.foldl_cons, join_of_empty rfl, joinComponents]
      have hrest : (joinComponents ⟨part.text⟩ rest).components =
          components ⟨part.text⟩ ++ rest :=
        components_joinComponents hpart.text_ne_nil
          fun other ho => hparts other (List.mem_cons_of_mem part ho)
      rw [hfirst, hrest, hpart.components_text]
      rfl

theorem components_joinComponents_root {parts : List Component}
    (hparts : ∀ part ∈ parts, part.IsPlain) :
    (joinComponents ⟨""⟩ (.root :: parts)).components = .root :: parts := by
  have hroot : (joinComponents ⟨"/"⟩ parts).components = components ⟨"/"⟩ ++ parts :=
    components_joinComponents (by decide) hparts
  exact hroot

end Bundler.Path
