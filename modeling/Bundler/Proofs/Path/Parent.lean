import Bundler.Proofs.Path.Components

/-! The parent of a path has all of its components but the last. Blank segments at the end of a
path are no components, and a leading `.` is one. -/

namespace Bundler.Path

theorem head?_segmentsFrom (seen text : List Char) :
    (segmentsFrom seen text).head? = some (seen.reverse ++ text.takeWhile (· ≠ '/')) := by
  induction text generalizing seen with
  | nil => simp [segmentsFrom]
  | cons c rest ih =>
      by_cases hc : c = '/'
      · simp [segmentsFrom, hc]
      · simp [segmentsFrom, hc, ih]

theorem head?_segments (text : List Char) :
    (segments text).head? = some (text.takeWhile (· ≠ '/')) :=
  head?_segmentsFrom [] text

/-- The first segment shows whether a path that is not empty is absolute. -/
theorem isAbsolute_iff_head {path : Path} (h : path.text.toList ≠ []) :
    path.isAbsolute = true ↔ (segments path.text.toList).head? = some [] := by
  rw [head?_segments, isAbsolute]
  cases htext : path.text.toList with
  | nil => exact absurd htext h
  | cons c rest => by_cases hc : c = '/' <;> simp [hc]

theorem isBlankSegment_iff {segment : List Char} :
    isBlankSegment segment = true ↔ componentOfSegment segment = none := by
  unfold componentOfSegment
  split
  · simp [isBlankSegment]
  · simp [isBlankSegment]
  · simp [isBlankSegment]
  · next hempty hdot _ => simpa [isBlankSegment] using ⟨hempty, hdot⟩

/-- Only blank segments are dropped, and what is left ends in another one or is too short. -/
theorem dropBlank_spec (kept : Nat) (parts : List (List Char)) :
    (∃ blank, parts = blank ++ dropBlank kept parts ∧
      ∀ part ∈ blank, isBlankSegment part = true) ∧
    ∀ part rest, dropBlank kept parts = part :: rest →
      isBlankSegment part = false ∨ rest.length < kept := by
  induction parts with
  | nil => exact ⟨⟨[], rfl, by simp⟩, by simp [dropBlank]⟩
  | cons first rest ih =>
      rw [dropBlank]
      split
      · next hdrop =>
        simp only [Bool.and_eq_true, decide_eq_true_eq] at hdrop
        obtain ⟨⟨blank, hblank, hall⟩, hlast⟩ := ih
        refine ⟨⟨first :: blank, by rw [List.cons_append, ← hblank], ?_⟩, hlast⟩
        intro part hp
        rcases List.mem_cons.mp hp with rfl | hp
        · exact hdrop.1
        · exact hall part hp
      · next hkeep =>
        refine ⟨⟨[], rfl, by simp⟩, ?_⟩
        rintro part rest' hcons
        obtain ⟨rfl, rfl⟩ := List.cons.inj hcons
        simp only [Bool.and_eq_true, decide_eq_true_eq, not_and_or, Nat.not_le] at hkeep
        exact hkeep.imp_left Bool.eq_false_iff.mpr

theorem componentsOfSegments_dropBlank (kept : Nat) (parts : List (List Char)) :
    componentsOfSegments (dropBlank kept parts).reverse = componentsOfSegments parts.reverse := by
  obtain ⟨⟨blank, hblank, hall⟩, -⟩ := dropBlank_spec kept parts
  have hnone : componentsOfSegments blank.reverse = [] := by
    rw [componentsOfSegments, List.filterMap_eq_nil_iff]
    intro part hp
    exact isBlankSegment_iff.mp (hall part (List.mem_reverse.mp hp))
  conv_rhs => rw [hblank, List.reverse_append, componentsOfSegments_append, hnone, List.append_nil]

theorem componentsOfSegments_unsegment {parts : List (List Char)}
    (h : ∀ part ∈ parts, '/' ∉ part) :
    componentsOfSegments (segments (unsegment parts)) = componentsOfSegments parts := by
  by_cases hne : parts = []
  · subst hne
    rfl
  · rw [segments_unsegment hne h]

/-- What is above the last segment that is not blank has all components but the last. -/
theorem componentsOfSegments_above {kept : Nat} {parts rest : List (List Char)} {last : List Char}
    (h : dropBlank kept parts.reverse = last :: rest) (hlast : isBlankSegment last = false) :
    ∃ part, componentsOfSegments parts =
      componentsOfSegments (dropBlank kept rest).reverse ++ [part] := by
  obtain ⟨part, hpart⟩ : ∃ part, componentOfSegment last = some part := by
    rw [← Option.ne_none_iff_exists', ne_eq, ← isBlankSegment_iff, hlast]
    exact Bool.false_ne_true
  refine ⟨part, ?_⟩
  have hall := componentsOfSegments_dropBlank kept parts.reverse
  rw [h, List.reverse_reverse, List.reverse_cons, componentsOfSegments_append] at hall
  rw [← hall, componentsOfSegments_dropBlank]
  simp [componentsOfSegments, hpart]

/-- The parts above the last one come first among all parts. -/
theorem above_isPrefix {kept : Nat} {parts rest : List (List Char)} {last : List Char}
    (h : dropBlank kept parts.reverse = last :: rest) :
    (dropBlank kept rest).reverse <+: parts := by
  obtain ⟨⟨blank, hblank, -⟩, -⟩ := dropBlank_spec kept parts.reverse
  obtain ⟨⟨blank', hblank', -⟩, -⟩ := dropBlank_spec kept rest
  rw [h, hblank'] at hblank
  rw [← List.reverse_suffix, List.reverse_reverse]
  exact ⟨blank ++ last :: blank', by simp [hblank]⟩

theorem lead_unsegment {path : Path} {parts : List (List Char)} (hne : parts ≠ [])
    (hrelative : path.isAbsolute = false) (htext : path.text.toList ≠ [])
    (h : parts <+: segments path.text.toList) :
    lead ⟨String.ofList (unsegment parts)⟩ = path.lead := by
  have hsegments : segments (unsegment parts) = parts :=
    segments_unsegment hne fun part hp => not_mem_of_mem_segments (h.subset hp)
  have hhead : parts.head? = (segments path.text.toList).head? := by
    obtain ⟨more, hmore⟩ := h
    rw [← hmore, List.head?_append_of_ne_nil _ hne]
  have hfirst : parts.head? ≠ some [] := by
    rw [hhead, ne_eq, ← isAbsolute_iff_head htext, hrelative]
    exact Bool.false_ne_true
  have habove : isAbsolute ⟨String.ofList (unsegment parts)⟩ = false := by
    rw [isAbsolute_eq_false_iff, String.toList_ofList]
    intro body hbody
    apply hfirst
    rw [← hsegments, hbody, head?_segments]
    rfl
  rw [lead, lead, habove, hrelative, String.toList_ofList, hsegments, hhead]

theorem dropBlank_ne_nil {kept : Nat} {parts : List (List Char)} (h : parts ≠ []) :
    dropBlank (kept + 1) parts ≠ [] := by
  induction parts with
  | nil => exact absurd rfl h
  | cons part rest ih =>
      rw [dropBlank]
      split
      · next hdrop =>
        refine ih ?_
        rintro rfl
        simp at hdrop
      · simp

/-- What a leading `.` was kept for is the `.` itself if nothing else is left. -/
theorem eq_dot_of_dropBlank {parts : List (List Char)} {last : List Char}
    (hhead : parts.head? = some ['.'])
    (h : dropBlank 1 parts.reverse = [last]) : last = ['.'] := by
  obtain ⟨⟨blank, hblank, -⟩, -⟩ := dropBlank_spec 1 parts.reverse
  rw [h] at hblank
  rw [← List.reverse_reverse parts, hblank] at hhead
  simpa using hhead

/-- The parent of a relative path. A leading `.` stays unless it is the only component. -/
theorem components_of_above {path : Path} {kept : Nat} {rest : List (List Char)}
    {last : List Char} (hrelative : path.isAbsolute = false)
    (hkept : kept = if (segments path.text.toList).head? = some ['.'] then 1 else 0)
    (h : dropBlank kept (segments path.text.toList).reverse = last :: rest) :
    components ⟨String.ofList (unsegment (dropBlank kept rest).reverse)⟩ =
      path.components.dropLast := by
  have htext : path.text.toList ≠ [] := by
    intro hempty
    rw [hempty, segments_nil] at h hkept
    subst hkept
    cases h
  have habove := above_isPrefix h
  have hslash : ∀ part ∈ (dropBlank kept rest).reverse, '/' ∉ part :=
    fun part hp => not_mem_of_mem_segments (habove.subset hp)
  have hlone : kept = 1 → rest = [] → last = ['.'] := by
    rintro rfl rfl
    refine eq_dot_of_dropBlank ?_ h
    by_contra hother
    rw [if_neg hother] at hkept
    omega
  have hlead : path.lead = if kept = 1 then [.current] else [] := by
    rw [lead, hrelative, hkept]
    split <;> simp_all
  rw [components_eq, components_eq path, String.toList_ofList,
    componentsOfSegments_unsegment hslash]
  rcases (dropBlank_spec kept _).2 last rest h with hlast | hshort
  · obtain ⟨part, hparts⟩ := componentsOfSegments_above h hlast
    rw [hparts, ← List.append_assoc, List.dropLast_concat]
    by_cases hnil : (dropBlank kept rest).reverse = []
    · -- a leading `.` would have been kept, so that there is none
      have hzero : kept ≠ 1 := by
        intro hone
        have hrest : rest = [] := by
          by_contra hne
          subst hone
          exact dropBlank_ne_nil hne (List.reverse_eq_nil_iff.mp hnil)
        rw [hlone hone hrest] at hlast
        cases hlast
      rw [hlead, if_neg hzero, hnil]
      rfl
    · rw [lead_unsegment hnil hrelative htext habove]
  · have hkept' : kept = 1 := by
      split at hkept
      · exact hkept
      · omega
    have hrest : rest = [] := List.length_eq_zero_iff.mp (by omega)
    have hparts := componentsOfSegments_dropBlank kept (segments path.text.toList).reverse
    rw [h, hlone hkept' hrest, hrest, List.reverse_reverse] at hparts
    rw [← hparts, hlead, if_pos hkept', hrest]
    rfl

/-- The parent of a path has all of its components but the last. -/
theorem components_parent? {path above : Path} (h : path.parent? = some above) :
    above.components = path.components.dropLast := by
  unfold parent? at h
  split at h
  · next body htext =>
    have hpath : path.components = .root :: componentsOfSegments (segments body) := by
      rw [components, htext, componentsOf]
    split at h
    · cases h
    · next last rest hdrop =>
      obtain rfl := Option.some.inj h
      have hlast := ((dropBlank_spec 0 (segments body).reverse).2 last rest hdrop).resolve_right
        (Nat.not_lt_zero _)
      obtain ⟨part, hparts⟩ := componentsOfSegments_above hdrop hlast
      have hslash : ∀ part ∈ (dropBlank 0 rest).reverse, '/' ∉ part :=
        fun part hp => not_mem_of_mem_segments ((above_isPrefix hdrop).subset hp)
      rw [hpath, hparts, components, String.toList_ofList, componentsOf,
        componentsOfSegments_unsegment hslash, ← List.cons_append, List.dropLast_concat]
  · next hslash =>
    simp only at h
    split at h
    · cases h
    · next last rest hdrop =>
      obtain rfl := Option.some.inj h
      exact components_of_above (isAbsolute_eq_false_iff.mpr hslash) (by simp) hdrop

theorem components_isPrefix_of_parent? {path above : Path} (h : path.parent? = some above) :
    above.components <+: path.components := by
  rw [components_parent? h]
  exact List.dropLast_prefix path.components

/-! ### The text of a parent -/

theorem unsegment_segments (text : List Char) : unsegment (segments text) = text := by
  suffices h : ∀ seen, unsegment (segmentsFrom seen text) = seen.reverse ++ text from h []
  induction text with
  | nil => intro seen; simp [segmentsFrom, unsegment]
  | cons c rest ih =>
      intro seen
      rw [segmentsFrom]
      split
      · next hc =>
        obtain ⟨first, others, hrest⟩ := List.exists_cons_of_ne_nil (segments_ne_nil rest)
        have htext := ih []
        rw [show segmentsFrom [] rest = first :: others from hrest] at htext ⊢
        rw [unsegment.eq_3 _ _ (by simp), htext, hc]
        rfl
      · rw [ih]
        simp

theorem unsegment_isPrefix {parts all : List (List Char)} (h : parts <+: all) :
    unsegment parts <+: unsegment all := by
  induction parts generalizing all with
  | nil => exact List.nil_prefix
  | cons part rest ih =>
      obtain ⟨more, rfl⟩ := h
      cases rest with
      | nil =>
          cases more with
          | nil => exact List.prefix_rfl
          | cons next more => exact List.prefix_append part _
      | cons next rest =>
          have hrest := ih (List.prefix_append (next :: rest) more)
          rw [List.cons_append, unsegment.eq_3 part (next :: rest) (by simp),
            unsegment.eq_3 part (next :: rest ++ more) (by simp)]
          exact (List.prefix_append_right_inj part).mpr ((List.prefix_cons_inj '/').mpr hrest)

theorem text_isPrefix_of_parent? {path above : Path} (h : path.parent? = some above) :
    above.text.toList <+: path.text.toList := by
  unfold parent? at h
  split at h
  · next body htext =>
    split at h
    · cases h
    · next last rest hdrop =>
      obtain rfl := Option.some.inj h
      have hfront := unsegment_isPrefix (above_isPrefix hdrop)
      rw [unsegment_segments] at hfront
      rw [String.toList_ofList, htext]
      exact (List.prefix_cons_inj '/').mpr hfront
  · simp only at h
    split at h
    · cases h
    · next last rest hdrop =>
      obtain rfl := Option.some.inj h
      have hfront := unsegment_isPrefix (above_isPrefix hdrop)
      rwa [unsegment_segments, ← String.toList_ofList (l := unsegment _)] at hfront

/-- The segments at the start of a text are among those of the whole text, but for the last one,
which may go on. -/
theorem exists_segment_of_isPrefix {front text part : List Char} (h : front <+: text)
    (hpart : part ∈ segments front) : ∃ whole ∈ segments text, part <+: whole := by
  suffices hall : ∀ seen, part ∈ segmentsFrom seen front →
      ∃ whole ∈ segmentsFrom seen text, part <+: whole from hall [] hpart
  clear hpart
  induction front generalizing text with
  | nil =>
      intro seen hpart
      obtain rfl := List.mem_singleton.mp hpart
      exact ⟨_, List.mem_of_mem_head? (head?_segmentsFrom seen text), List.prefix_append _ _⟩
  | cons c front ih =>
      intro seen hpart
      obtain ⟨more, rfl⟩ := h
      rw [List.cons_append, segmentsFrom]
      rw [segmentsFrom] at hpart
      split at hpart
      · next hc =>
        rw [if_pos hc]
        rcases List.mem_cons.mp hpart with rfl | hpart
        · exact ⟨_, List.mem_cons_self, List.prefix_rfl⟩
        · obtain ⟨whole, hwhole, hbegins⟩ := ih (List.prefix_append front more) [] hpart
          exact ⟨whole, List.mem_cons_of_mem _ hwhole, hbegins⟩
      · next hc =>
        rw [if_neg hc]
        exact ih (List.prefix_append front more) (c :: seen) hpart

/-- Every segment `.` is the first one or has a component behind it. -/
def Settled (path : Path) : Prop :=
  ∀ front back, segments path.text.toList = front ++ ['.'] :: back →
    front = [] ∨ componentsOfSegments back ≠ []

theorem componentsOfSegments_ne_nil_of_last {front back rest : List (List Char)} {last : List Char}
    (h : rest ++ [last] = front ++ ['.'] :: back) (hlast : isBlankSegment last = false) :
    componentsOfSegments back ≠ [] := by
  rcases List.eq_nil_or_concat back with rfl | ⟨others, other, rfl⟩
  · obtain ⟨-, hdot⟩ := List.append_inj' h rfl
    rw [List.singleton_inj.mp hdot] at hlast
    cases hlast
  · rw [List.concat_eq_append, ← List.cons_append, ← List.append_assoc] at h
    obtain ⟨-, hsame⟩ := List.append_inj' h rfl
    obtain rfl := List.singleton_inj.mp hsame
    obtain ⟨part, hpart⟩ : ∃ part, componentOfSegment last = some part := by
      rw [← Option.ne_none_iff_exists', ne_eq, ← isBlankSegment_iff, hlast]
      exact Bool.false_ne_true
    rw [List.concat_eq_append, componentsOfSegments_append]
    simp [componentsOfSegments, hpart]

theorem settled_of_last {path : Path} {rest : List (List Char)} {last : List Char}
    (h : segments path.text.toList = rest ++ [last]) (hlast : isBlankSegment last = false) :
    path.Settled :=
  fun _ _ hsplit => .inr (componentsOfSegments_ne_nil_of_last (h.symm.trans hsplit) hlast)

/-- A `.` that is left has a component behind it, unless too little is left. -/
theorem ne_nil_of_dropBlank {kept : Nat} {rest front back : List (List Char)}
    (h : (dropBlank kept rest).reverse = front ++ ['.'] :: back) :
    componentsOfSegments back ≠ [] ∨ front.length + back.length < kept := by
  cases hrest : dropBlank kept rest with
  | nil => simp [hrest] at h
  | cons last others =>
      rw [hrest, List.reverse_cons] at h
      refine ((dropBlank_spec kept rest).2 last others hrest).imp
        (componentsOfSegments_ne_nil_of_last h) fun hshort => ?_
      have hlength := congrArg List.length h
      simp only [List.length_append, List.length_reverse, List.length_cons, List.length_nil]
        at hlength
      omega

theorem segments_unsegment_eq {parts : List (List Char)} (h : ∀ part ∈ parts, '/' ∉ part) :
    segments (unsegment parts) = if parts = [] then [[]] else parts := by
  split
  · next hempty => rw [hempty, unsegment, segments_nil]
  · next hne => exact segments_unsegment hne h

/-- A parent has no blank segment at its end. -/
theorem settled_of_parent? {path above : Path} (h : path.parent? = some above) :
    above.Settled := by
  unfold parent? at h
  split at h
  · next body htext =>
    split at h
    · cases h
    · next last rest hdrop =>
      obtain rfl := Option.some.inj h
      have hslash : ∀ part ∈ (dropBlank 0 rest).reverse, '/' ∉ part :=
        fun part hp => not_mem_of_mem_segments ((above_isPrefix hdrop).subset hp)
      have hparts : segments ('/' :: unsegment (dropBlank 0 rest).reverse) =
          [] :: segments (unsegment (dropBlank 0 rest).reverse) := segments_append [] _
      intro front back hsplit
      rw [String.toList_ofList, hparts, segments_unsegment_eq hslash] at hsplit
      split at hsplit
      · rcases front with _ | ⟨_, _ | ⟨_, _⟩⟩ <;> simp_all
      · rcases front with _ | ⟨_, front⟩
        · simp at hsplit
        · exact .inr ((ne_nil_of_dropBlank (List.cons.inj hsplit).2).resolve_right
            (Nat.not_lt_zero _))
  · simp only at h
    generalize hkept : (if (segments path.text.toList).head? == some ['.'] then 1 else 0) = kept
      at h
    have hone : kept ≤ 1 := by
      rw [← hkept]
      split
      · exact Nat.le_refl 1
      · exact Nat.zero_le 1
    split at h
    · cases h
    · next last rest hdrop =>
      obtain rfl := Option.some.inj h
      have hslash : ∀ part ∈ (dropBlank kept rest).reverse, '/' ∉ part :=
        fun part hp => not_mem_of_mem_segments ((above_isPrefix hdrop).subset hp)
      intro front back hsplit
      rw [String.toList_ofList, segments_unsegment_eq hslash] at hsplit
      split at hsplit
      · rcases front with _ | ⟨_, _ | ⟨_, _⟩⟩ <;> simp_all
      · rcases ne_nil_of_dropBlank hsplit with hback | hshort
        · exact .inr hback
        · exact .inl (List.length_eq_zero_iff.mp (by omega))

theorem components_of_parent?_eq_none {path : Path} (h : path.parent? = none) :
    componentsOfSegments (segments path.text.toList) = [] := by
  unfold parent? at h
  split at h
  · next body htext =>
    split at h
    · next hdrop =>
      have hparts := componentsOfSegments_dropBlank 0 (segments body).reverse
      rw [hdrop, List.reverse_reverse] at hparts
      have hsegments : segments ('/' :: body) = [] :: segments body := segments_append [] body
      rw [htext, hsegments, componentsOfSegments_nil_cons, ← hparts]
      rfl
    · cases h
  · simp only at h
    generalize (if (segments path.text.toList).head? == some ['.'] then 1 else 0) = kept at h
    split at h
    · next hdrop =>
      have hparts := componentsOfSegments_dropBlank kept (segments path.text.toList).reverse
      rw [hdrop, List.reverse_reverse] at hparts
      rw [← hparts]
      rfl
    · cases h

theorem isAbsolute_of_parent? {path above : Path} (h : path.parent? = some above)
    (habsolute : path.isAbsolute = true) : above.isAbsolute = true := by
  unfold parent? at h
  split at h
  · split at h
    · cases h
    · obtain rfl := Option.some.inj h
      simp [isAbsolute]
  · next hslash =>
    rw [isAbsolute_eq_false_iff.mpr hslash] at habsolute
    cases habsolute

theorem isAbsolute_parent?_getD {root path : Path} (hroot : root.isAbsolute = true)
    (hpath : path.isAbsolute = true) : (path.parent?.getD root).isAbsolute = true := by
  cases hparent : path.parent? with
  | none => exact hroot
  | some above => exact isAbsolute_of_parent? hparent hpath

end Bundler.Path
