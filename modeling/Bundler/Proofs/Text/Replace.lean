import Bundler.Text.Replace
import Mathlib.Data.List.Basic
import Mathlib.Logic.Function.Basic

/-! A text in which a pattern is replaced consists of the same pieces, whatever stands between them
now. So what was put there can be told from the result, unless the pattern does not occur. -/

namespace Bundler.Text

variable {pattern text new other : List Char}

/-- The pieces between the occurrences of a pattern, with as many characters left out first as the
last occurrence still covers. -/
def pieces (pattern : List Char) : Nat → List Char → List (List Char)
  | _, [] => [[]]
  | skip + 1, _ :: rest => pieces pattern skip rest
  | 0, c :: rest =>
      if pattern.isPrefixOf (c :: rest) then [] :: pieces pattern (pattern.length - 1) rest
      else (pieces pattern 0 rest).modifyHead (c :: ·)

theorem pieces_ne_nil (pattern : List Char) (skip : Nat) (text : List Char) :
    pieces pattern skip text ≠ [] := by
  fun_induction pieces pattern skip text with
  | case1 => exact List.cons_ne_nil _ _
  | case2 skip c rest ih => exact ih
  | case3 => exact List.cons_ne_nil _ _
  | case4 c rest hno ih => simpa using ih

theorem intercalate_modifyHead_cons (new : List Char) (c : Char) {parts : List (List Char)}
    (h : parts ≠ []) :
    new.intercalate (parts.modifyHead (c :: ·)) = c :: new.intercalate parts := by
  obtain ⟨first, rest, rfl⟩ := List.exists_cons_of_ne_nil h
  cases rest with
  | nil => simp
  | cons second rest => simp [List.intercalate_cons_cons]

/-- The replacement stands between the pieces. -/
theorem replaceFrom_eq_intercalate (pattern new : List Char) (skip : Nat) (text : List Char) :
    replaceFrom pattern new skip text = new.intercalate (pieces pattern skip text) := by
  fun_induction pieces pattern skip text with
  | case1 => rfl
  | case2 skip c rest ih => rw [replaceFrom, ih]
  | case3 c rest hhere ih =>
      rw [replaceFrom, if_pos hhere, ih,
        List.intercalate_cons_of_ne_nil (pieces_ne_nil pattern _ rest), List.nil_append]
  | case4 c rest hno ih =>
      rw [replaceFrom, if_neg hno, ih,
        intercalate_modifyHead_cons new c (pieces_ne_nil pattern 0 rest)]

/-- There is more than one piece exactly if the pattern occurs. -/
theorem two_le_length_pieces_iff (hpattern : pattern ≠ []) :
    2 ≤ (pieces pattern 0 text).length ↔ pattern <:+: text := by
  induction text with
  | nil => simp [pieces, hpattern]
  | cons c rest ih =>
      rw [pieces, List.infix_cons_iff, ← List.isPrefixOf_iff_prefix]
      by_cases hhere : pattern.isPrefixOf (c :: rest) = true
      · have hmore := List.length_pos_of_ne_nil (pieces_ne_nil pattern (pattern.length - 1) rest)
        simp only [hhere, if_true, List.length_cons, true_or, iff_true]
        omega
      · simp [hhere, ih]

theorem pieces_of_not_infix (h : ¬ pattern <:+: text) : pieces pattern 0 text = [text] := by
  induction text with
  | nil => rfl
  | cons c rest ih =>
      rw [List.infix_cons_iff, not_or, ← List.isPrefixOf_iff_prefix] at h
      rw [pieces, if_neg h.1, ih h.2]
      rfl

/-! ### Telling what stands between pieces -/

theorem length_intercalate_cons (new first : List Char) (rest : List (List Char)) :
    (new.intercalate (first :: rest)).length =
      first.length + rest.length * new.length + rest.flatten.length := by
  induction rest generalizing first with
  | nil => simp
  | cons second rest ih =>
      rw [List.intercalate_cons_cons, List.length_append, List.length_append, ih]
      simp [Nat.add_mul]
      omega

/-- The length of the whole gives that of what stands between, and then the first gap shows it. -/
theorem intercalate_injective {parts : List (List Char)} (hparts : 2 ≤ parts.length)
    (h : new.intercalate parts = other.intercalate parts) : new = other := by
  match parts, hparts with
  | first :: second :: rest, _ =>
    have hwhole := congrArg List.length h
    rw [length_intercalate_cons, length_intercalate_cons] at hwhole
    have hgaps : (second :: rest).length * new.length = (second :: rest).length * other.length := by
      omega
    have hlength := Nat.eq_of_mul_eq_mul_left (Nat.succ_pos rest.length) hgaps
    rw [List.intercalate_cons_cons, List.intercalate_cons_cons, List.append_assoc,
      List.append_assoc] at h
    exact (List.append_inj (List.append_cancel_left h) hlength).1

section

variable {pattern text : String}

theorem replaceAll_of_ne_empty (h : pattern ≠ "") (new : String) :
    replaceAll text pattern new =
      String.ofList (new.toList.intercalate (pieces pattern.toList 0 text.toList)) := by
  rw [replaceAll, if_neg (by simpa using h), replaceFrom_eq_intercalate]

/-- Different replacements of a pattern that occurs give different texts. -/
theorem replaceAll_injective (h : pattern ≠ "") (hoccurs : pattern.toList <:+: text.toList) :
    Function.Injective (replaceAll text pattern) := by
  intro new other hsame
  rw [replaceAll_of_ne_empty h, replaceAll_of_ne_empty h, String.ofList_inj] at hsame
  have hpattern : pattern.toList ≠ [] := by simpa using h
  exact String.toList_inj.mp
    (intercalate_injective ((two_le_length_pieces_iff hpattern).mpr hoccurs) hsame)

theorem replaceAll_of_not_infix (h : pattern ≠ "") (habsent : ¬ pattern.toList <:+: text.toList)
    (new : String) : replaceAll text pattern new = text := by
  rw [replaceAll_of_ne_empty h, pieces_of_not_infix habsent, List.intercalate_singleton,
    String.ofList_toList]

end

end Bundler.Text
