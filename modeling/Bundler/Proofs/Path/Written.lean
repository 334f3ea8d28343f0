import Bundler.Proofs.Path.Parent

/-! The text of joined components. They are written with slashes between them, without blank
segments, so that the parent of such a path is written as all components but the last. -/

namespace Bundler.Path

variable {path base next : Path} {parts : List Component} {part : Component}

/-! ### Texts -/

/-- Whether the text of a path does not end in a slash, so that one is put behind it. -/
def EndsOpen (text : List Char) : Prop :=
  text ≠ [] ∧ text.getLast? ≠ some '/'

theorem toList_join (hbase : EndsOpen base.text.toList) (hnext : next.isAbsolute = false) :
    (base.join next).text.toList = base.text.toList ++ '/' :: next.text.toList := by
  unfold join
  split
  · next body htext => exact absurd htext (isAbsolute_eq_false_iff.mp hnext body)
  · split
    · next hlast => exact absurd (List.getLast?_eq_none_iff.mp hlast) hbase.1
    · next hlast => exact absurd hlast hbase.2
    · simp

theorem endsOpen_append (front : List Char) (hpart : part.IsPlain) :
    EndsOpen (front ++ part.text.toList) := by
  refine ⟨by simp [hpart.text_ne_nil], fun hlast => hpart.segments_text.1 ?_⟩
  rw [List.getLast?_append_of_ne_nil _ hpart.text_ne_nil] at hlast
  exact List.mem_of_getLast? hlast

/-- Components are written behind a path with a slash in front of each. -/
theorem toList_joinComponents (hparts : ∀ part ∈ parts, part.IsPlain)
    (hbase : EndsOpen base.text.toList) :
    (joinComponents base parts).text.toList =
      unsegment (base.text.toList :: parts.map fun part => part.text.toList) := by
  induction parts generalizing base with
  | nil => rfl
  | cons part rest ih =>
      obtain ⟨hpart, hrest⟩ := List.forall_mem_cons.mp hparts
      have htext := toList_join hbase hpart.isAbsolute_text
      have hopen : EndsOpen (base.join ⟨part.text⟩).text.toList := by
        rw [htext, List.append_cons]
        exact endsOpen_append _ hpart
      have hstep : joinComponents base (part :: rest) =
          joinComponents (base.join ⟨part.text⟩) rest := rfl
      rw [hstep, ih hrest hopen, htext]
      cases rest <;> simp [unsegment]

theorem unsegment_map_toList (parts : List String) :
    unsegment (parts.map String.toList) = ("/".intercalate parts).toList := by
  induction parts with
  | nil => rfl
  | cons first rest ih =>
      cases rest with
      | nil => simp [unsegment]
      | cons next rest =>
          rw [String.intercalate_cons_cons, String.toList_append, ← ih]
          simp [unsegment]

/-- Components are written with slashes between them. -/
theorem toList_joinComponents_empty (hparts : ∀ part ∈ parts, part.IsPlain) :
    (joinComponents ⟨""⟩ parts).text.toList =
      unsegment (parts.map fun part => part.text.toList) := by
  cases parts with
  | nil => rfl
  | cons part rest =>
      obtain ⟨hpart, hrest⟩ := List.forall_mem_cons.mp hparts
      have hstep : joinComponents ⟨""⟩ (part :: rest) = joinComponents ⟨part.text⟩ rest := by
        rw [joinComponents, List.foldl_cons, join_of_empty rfl, joinComponents]
      rw [hstep]
      exact toList_joinComponents hrest (endsOpen_append [] hpart)

theorem toList_joinComponents_root (hparts : ∀ part ∈ parts, part.IsPlain) :
    (joinComponents ⟨""⟩ (.root :: parts)).text.toList =
      '/' :: unsegment (parts.map fun part => part.text.toList) := by
  cases parts with
  | nil => rfl
  | cons part rest =>
      obtain ⟨hpart, hrest⟩ := List.forall_mem_cons.mp hparts
      have hfirst : join ⟨"/"⟩ ⟨part.text⟩ = ⟨"/" ++ part.text⟩ := by
        unfold join
        split
        · next body htext =>
          exact absurd htext (isAbsolute_eq_false_iff.mp hpart.isAbsolute_text body)
        · rfl
      have hstep : joinComponents ⟨""⟩ (.root :: part :: rest) =
          joinComponents ⟨"/" ++ part.text⟩ rest := by
        rw [← hfirst]
        rfl
      have hopen : EndsOpen ("/" ++ part.text).toList := by
        rw [String.toList_append]
        exact endsOpen_append _ hpart
      rw [hstep, toList_joinComponents hrest hopen]
      cases rest <;> simp [unsegment]

/-! ### Parents -/

theorem dropBlank_of_forall {segments : List (List Char)} (kept : Nat)
    (h : ∀ segment ∈ segments, isBlankSegment segment = false) :
    dropBlank kept segments = segments := by
  cases segments with
  | nil => rfl
  | cons segment rest =>
      rw [dropBlank, h segment List.mem_cons_self, Bool.false_and, if_neg Bool.false_ne_true]

section Parent

variable {front : List (List Char)} {last : List Char}

/-- Segments none of which is blank, so that each of them stands for a component. -/
def IsTight (parts : List (List Char)) : Prop :=
  ∀ part ∈ parts, '/' ∉ part ∧ isBlankSegment part = false

theorem IsTight.segments_eq (h : IsTight (front ++ [last])) :
    segments (unsegment (front ++ [last])) = front ++ [last] :=
  segments_unsegment (by simp) fun part hpart => (h part hpart).1

theorem IsTight.dropBlank_eq (h : IsTight (front ++ [last])) (kept : Nat) :
    dropBlank kept (front ++ [last]).reverse = last :: front.reverse ∧
      dropBlank kept front.reverse = front.reverse := by
  constructor
  · rw [dropBlank_of_forall kept fun part hpart => (h part (List.mem_reverse.mp hpart)).2,
      List.reverse_concat]
  · refine dropBlank_of_forall kept fun part hpart => (h part ?_).2
    exact List.mem_append_left _ (List.mem_reverse.mp hpart)

/-- The parent of a path that is written without blank segments is written without the last one. -/
theorem parent?_of_root (h : IsTight (front ++ [last]))
    (htext : path.text.toList = '/' :: unsegment (front ++ [last])) :
    path.parent? = some ⟨String.ofList ('/' :: unsegment front)⟩ := by
  obtain ⟨hlast, hfront⟩ := h.dropBlank_eq 0
  rw [parent?, htext]
  simp only [h.segments_eq, hlast, hfront, List.reverse_reverse]

theorem parent?_of_relative (h : IsTight (front ++ [last]))
    (htext : path.text.toList = unsegment (front ++ [last])) :
    path.parent? = some ⟨String.ofList (unsegment front)⟩ := by
  unfold parent?
  split
  · next body hbody =>
    -- the first segment is not blank, so that no slash stands in front of it
    have hsplit : segments ('/' :: body) = [] :: segments body := segments_append [] body
    rw [← hbody, htext, h.segments_eq] at hsplit
    have hempty := (h [] (by rw [hsplit]; exact List.mem_cons_self)).2
    cases hempty
  · rw [htext]
    simp only [h.segments_eq, (h.dropBlank_eq _).1, (h.dropBlank_eq _).2, List.reverse_reverse]

theorem isTight_of_isPlain (h : ∀ part ∈ parts, part.IsPlain) :
    IsTight (parts.map fun part => part.text.toList) := by
  intro segment hsegment
  obtain ⟨part, hpart, rfl⟩ := List.mem_map.mp hsegment
  obtain ⟨hslash, hcomponent⟩ := (h part hpart).segments_text
  refine ⟨hslash, ?_⟩
  rw [← Bool.not_eq_true, isBlankSegment_iff, hcomponent]
  exact Option.some_ne_none part

end Parent

theorem joinComponents_concat (base : Path) (parts : List Component) (part : Component) :
    joinComponents base (parts ++ [part]) = (joinComponents base parts).join ⟨part.text⟩ := by
  simp [joinComponents]

/-- The parent of written components is written as all of them but the last. -/
theorem parent?_joinComponents_root
    (h : ∀ other ∈ parts ++ [part], other.IsPlain) :
    (joinComponents ⟨""⟩ (.root :: (parts ++ [part]))).parent? =
      some (joinComponents ⟨""⟩ (.root :: parts)) := by
  have htight := isTight_of_isPlain h
  have htext := toList_joinComponents_root h
  rw [List.map_append, List.map_singleton] at htight htext
  rw [parent?_of_root htight htext, ← toList_joinComponents_root (List.forall_mem_append.mp h).1,
    String.ofList_toList]

theorem parent?_joinComponents_empty
    (h : ∀ other ∈ parts ++ [part], other.IsPlain) :
    (joinComponents ⟨""⟩ (parts ++ [part])).parent? = some (joinComponents ⟨""⟩ parts) := by
  have htight := isTight_of_isPlain h
  have htext := toList_joinComponents_empty h
  rw [List.map_append, List.map_singleton] at htight htext
  rw [parent?_of_relative htight htext,
    ← toList_joinComponents_empty (List.forall_mem_append.mp h).1, String.ofList_toList]

end Bundler.Path
