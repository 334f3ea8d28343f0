import Bundler.Script.Lexer

/-! Scanning goes forward. What is scanned ends where it begins or behind that, and a sign ends
behind where it begins. -/

namespace Bundler.Script

theorem Cursor.le_past (cursor : Cursor) (consumed rest : List Char) :
    cursor.offset ≤ (cursor.past consumed rest).offset :=
  Nat.le_add_right _ _

/-! ### Names and numbers -/

theorem offset_le_scanNameFrom (text : List Char) (skip offset : Nat) (seen : List Char)
    (escaped : Bool) : offset ≤ (scanNameFrom text skip offset seen escaped).after.offset := by
  fun_induction scanNameFrom text skip offset seen escaped <;> grind

theorem offset_le_scanName (cursor : Cursor) : cursor.offset ≤ (scanName cursor).after.offset :=
  offset_le_scanNameFrom _ _ _ _ _

theorem offset_le_scanDigitsFrom (isDigit : Char → Bool) (text : List Char) (offset : Nat)
    (seen : List Char) : offset ≤ (scanDigitsFrom isDigit text offset seen).after.offset := by
  fun_induction scanDigitsFrom isDigit text offset seen <;> grind

theorem offset_le_scanDigits (isDigit : Char → Bool) (needed : Bool) (cursor : Cursor) :
    cursor.offset ≤ (scanDigits isDigit needed cursor).after.offset := by
  unfold scanDigits
  split
  · split
    · exact Nat.le_of_succ_le (offset_le_scanDigitsFrom _ _ _ _)
    · exact Nat.le_refl _
  · exact Nat.le_refl _

theorem le_endNumber {found : Scanned Quantity} {place : Nat} (h : place ≤ found.after.offset) :
    place ≤ (endNumber found).after.offset := by
  unfold endNumber
  split
  · split
    · exact Nat.le_trans h (Cursor.le_past _ _ _)
    · exact h
  · exact h

theorem offset_le_scanFraction (whole : List Char) (point needed : Bool) (cursor : Cursor) :
    cursor.offset ≤ (scanFraction whole point needed cursor).after.offset := by
  fun_cases scanFraction whole point needed cursor <;>
    grind [offset_le_scanDigits, Cursor.le_past]

theorem offset_le_scanRadix (radix : Nat) (cursor : Cursor) :
    cursor.offset ≤ (scanRadix radix cursor).after.offset := by
  unfold scanRadix
  dsimp only
  split
  · split <;> apply le_endNumber
    · exact Nat.le_trans (offset_le_scanDigits _ _ _) (Cursor.le_past _ _ _)
    · exact offset_le_scanDigits _ _ _
  · exact offset_le_scanDigits _ _ _

theorem offset_le_scanAfterZero (cursor : Cursor) :
    cursor.offset ≤ (scanAfterZero cursor).after.offset := by
  fun_cases scanAfterZero cursor <;> apply le_endNumber <;>
    grind [offset_le_scanFraction, Cursor.le_past]

theorem offset_le_scanNumber (cursor : Cursor) :
    cursor.offset ≤ (scanNumber cursor).after.offset := by
  have hfraction (consumed rest whole : List Char) (point needed : Bool) : cursor.offset ≤
      (scanFraction whole point needed (cursor.past consumed rest)).after.offset :=
    Nat.le_trans (Cursor.le_past _ _ _) (offset_le_scanFraction _ _ _ _)
  fun_cases scanNumber cursor
  case case7 => exact le_endNumber (Cursor.le_past _ _ _)
  case case8 => exact le_endNumber (hfraction _ _ _ _ _)
  case case9 hdigit _ _ _ _ _ _ _ _ =>
    rw [if_pos hdigit]
    exact Nat.le_trans (Cursor.le_past _ _ _) (offset_le_scanAfterZero _)
  case case10 hdigit _ _ _ _ _ _ _ _ =>
    rw [if_neg hdigit]
    exact le_endNumber (hfraction _ _ _ _ _)
  case case11 => exact le_endNumber (hfraction _ _ _ _ _)
  case case12 whole found ended _ _ =>
    refine le_endNumber (Nat.le_trans (offset_le_scanDigits Char.isDigit true cursor) ?_)
    grind [offset_le_scanFraction, Cursor.le_past]
  all_goals exact Nat.le_trans (Cursor.le_past _ _ _) (offset_le_scanRadix _ _)

/-! ### Quoted text -/

theorem offset_le_scanStringFrom (quote : Char) (text : List Char) (skip offset : Nat)
    (parts : StringParts) :
    offset ≤ (scanStringFrom quote text skip offset parts).after.offset := by
  fun_induction scanStringFrom quote text skip offset parts <;> grind

theorem offset_le_scanString (quote : Char) (cursor : Cursor) :
    cursor.offset ≤ (scanString quote cursor).after.offset :=
  offset_le_scanStringFrom _ _ _ _ _

theorem offset_le_scanTemplateFrom (text : List Char) (offset : Nat) (escaped : Bool)
    (seen : List Char) (ok : Bool) :
    offset ≤ (scanTemplateFrom text offset escaped seen ok).after.offset := by
  fun_induction scanTemplateFrom text offset escaped seen ok <;> grind

theorem offset_le_scanTemplate (cursor : Cursor) :
    cursor.offset ≤ (scanTemplate cursor).after.offset :=
  offset_le_scanTemplateFrom _ _ _ _ _

theorem offset_le_scanPattern (text : List Char) (offset : Nat) (escaped inClass : Bool)
    (seen : List Char) : offset ≤ (scanPattern text offset escaped inClass seen).after.offset := by
  fun_induction scanPattern text offset escaped inClass seen <;> grind

theorem offset_le_scanRegex (cursor : Cursor) :
    cursor.offset ≤ (scanRegex cursor).after.offset := by
  unfold scanRegex
  have hpattern := offset_le_scanPattern (cursor.rest.drop 1) (cursor.offset + 1) false false []
  dsimp only
  split
  · exact Nat.le_trans (Nat.le_of_succ_le hpattern) (Cursor.le_past _ _ _)
  · exact Nat.le_of_succ_le hpattern

theorem offset_le_scanMarkupText (text : List Char) (offset : Nat) (seen : List Char)
    (faults : List Nat) : offset ≤ (scanMarkupText text offset seen faults).after.offset := by
  fun_induction scanMarkupText text offset seen faults <;> grind

/-! ### Tokens -/

theorem offset_le_scanGapFrom (place : GapPlace) (text : List Char) (skip offset : Nat)
    (state : GapState) : offset ≤ (scanGapFrom place text skip offset state).after.offset := by
  fun_induction scanGapFrom place text skip offset state <;> grind

theorem offset_le_scanGap (place : GapPlace) (cursor : Cursor) :
    cursor.offset ≤ (scanGap place cursor).after.offset :=
  offset_le_scanGapFrom _ _ _ _ _

theorem pos_of_scanSign {text : List Char} {sign : Sign} {length : Nat}
    (h : scanSign text = some (sign, length)) : 0 < length := by
  unfold scanSign at h
  grind

theorem offset_le_scanToken (cursor : Cursor) :
    cursor.offset ≤ (scanToken cursor).after.offset := by
  fun_cases scanToken cursor <;>
    grind [offset_le_scanName, offset_le_scanNumber, offset_le_scanString, offset_le_scanTemplate,
      Cursor.le_past]

theorem offset_lt_scanToken {cursor : Cursor} {sign : Sign}
    (h : (scanToken cursor).value.1 = .sign sign) :
    cursor.offset < (scanToken cursor).after.offset := by
  revert h
  fun_cases scanToken cursor <;> grind [→ pos_of_scanSign, templateKind]

end Bundler.Script
