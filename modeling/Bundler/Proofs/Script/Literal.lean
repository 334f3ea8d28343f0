import Bundler.Json.Printer
import Bundler.Script.Lexer
import Bundler.Script.Printer
import Mathlib.Tactic.IntervalCases

/-! Reading string literals back. What a printer puts between quotes is read character for
character, in a script as in a document. -/

namespace Bundler.Script

/-- Reading the first part of a string literal adds units and stops in front of the rest. -/
def Adds (part rest : List Char) (units : List Unit16) : Prop :=
  ∀ offset parts, ∃ offset' raw, scanStringFrom '"' (part ++ rest) 0 offset parts =
    scanStringFrom '"' rest 0 offset'
      { parts with units := units.reverse ++ parts.units, raw := raw }

/-- A literal is read as a string without marks, up to its end and without faults. -/
def StandsFor (literal : List Char) (value : String) : Prop :=
  ∃ raw stop, scanToken ⟨literal, 0⟩ = ⟨(.string value raw false, false), ⟨[], stop⟩, []⟩

theorem adds_nil (rest : List Char) : Adds [] rest [] :=
  fun offset parts => ⟨offset, parts.raw, rfl⟩

theorem Adds.append {part other rest : List Char} {units more : List Unit16}
    (h : Adds part (other ++ rest) units) (h' : Adds other rest more) :
    Adds (part ++ other) rest (units ++ more) := by
  intro offset parts
  obtain ⟨offset', raw, hfirst⟩ := h offset parts
  obtain ⟨offset'', raw', hsecond⟩ :=
    h' offset' { parts with units := units.reverse ++ parts.units, raw := raw }
  refine ⟨offset'', raw', ?_⟩
  rw [List.append_assoc, hfirst, hsecond, List.reverse_append, List.append_assoc]

theorem Adds.cons (part : List Char) {other rest : List Char} {unit : Unit16} {more : List Unit16}
    (h : Adds part (other ++ rest) [unit]) (h' : Adds other rest more) :
    Adds (part ++ other) rest (unit :: more) :=
  h.append h'

theorem adds_char {c : Char} (rest : List Char)
    (h : c ≠ '\\' ∧ c ≠ '"' ∧ c ≠ '\n' ∧ c ≠ '\r') : Adds [c] rest [.char c] := by
  obtain ⟨hback, hquote, hline, hreturn⟩ := h
  intro offset parts
  refine ⟨offset + c.utf8Size, c :: parts.raw, ?_⟩
  rw [List.singleton_append, scanStringFrom]
  simp [hback, hquote, hline, hreturn, StringParts.addChar]

theorem scanStringFrom_skip (part rest : List Char) (offset : Nat) (parts : StringParts) :
    ∃ offset' raw, scanStringFrom '"' (part ++ rest) part.length offset parts =
      scanStringFrom '"' rest 0 offset' { parts with raw := raw } := by
  induction part generalizing offset parts with
  | nil => exact ⟨offset, parts.raw, rfl⟩
  | cons c part ih =>
      obtain ⟨offset', raw, h⟩ := ih (offset + c.utf8Size) (parts.addRaw c)
      exact ⟨offset', raw, h⟩

theorem adds_escape (part : List Char) {rest : List Char} {units : List Unit16}
    (h : Escape.scan false (part ++ rest) = ⟨some units, part.length⟩) :
    Adds ('\\' :: part) rest units := by
  intro offset parts
  obtain ⟨offset', raw, hskip⟩ :=
    scanStringFrom_skip part rest (offset + 1) (parts.addEscape ⟨some units, part.length⟩ offset)
  refine ⟨offset', raw, ?_⟩
  rw [List.cons_append, scanStringFrom, if_pos rfl, h, hskip]
  rfl

/-- What a double quote begins is a string, if another one closes it. -/
theorem scanToken_quote (input : List Char) (offset : Nat) :
    scanToken ⟨'"' :: input, offset⟩ =
      let found := scanStringFrom '"' input 0 (offset + byteCount ['"']) ⟨[], [], []⟩
      let value := Unit16.text found.value.1
      if found.value.2.2 then
        ⟨(.string (String.ofList value.1) (String.ofList found.value.2.1) value.2, false),
          found.after, found.faults⟩
      else ⟨(.malformed, false), found.after, found.faults ++ [offset]⟩ := by
  have hbegins : beginsName '"' = false := by decide
  rw [scanToken]
  simp [hbegins, Cursor.past, scanString]
  rfl

/-- A literal is read up to its closing quote, whatever comes behind it. -/
theorem scanToken_of_adds {part rest : List Char} {value : String}
    (h : Adds part ('"' :: rest) (value.toList.map Unit16.char)) (offset : Nat) :
    ∃ raw stop, scanToken ⟨'"' :: part ++ '"' :: rest, offset⟩ =
      ⟨(.string value raw false, false), ⟨rest, stop⟩, []⟩ := by
  obtain ⟨offset', raw, hscan⟩ := h (offset + byteCount ['"']) ⟨[], [], []⟩
  have hunits : Unit16.text (value.toList.map Unit16.char) = (value.toList, false) := by
    simp [Unit16.text, Unit16.isHalf, Unit16.plain, List.flatMap_map]
  refine ⟨String.ofList raw.reverse, offset' + 1, ?_⟩
  rw [List.cons_append, scanToken_quote]
  simp [hscan, scanStringFrom, hunits]

theorem standsFor_of_adds {part : List Char} {value : String}
    (h : Adds part ['"'] (value.toList.map Unit16.char)) :
    StandsFor ('"' :: part ++ ['"']) value :=
  scanToken_of_adds h 0

/-! ### Strings of a script -/

theorem char_eq_of_toNat {c : Char} {n : Nat} (h : c.toNat = n) : c = Char.ofNat n := by
  rw [← h, Char.ofNat_toNat]

theorem eq_slash_of_toLower {c : Char} (h : c.toLower = '/') : c = '/' := by
  unfold Char.toLower at h
  split at h
  · rename_i hletter
    have hval := congrArg Char.val h
    simp only [Char.reduceVal, ge_iff_le] at hval hletter
    have hnat := congrArg UInt32.toNat hval
    have hstep : ((97 : UInt32) - 65).toNat = 32 := rfl
    simp only [UInt32.le_iff_toNat_le, UInt32.toNat_add, UInt32.reduceToNat, hstep] at hnat hletter
    omega
  · exact h

/-- What follows a broken tag begins with the slash that the backslash before it leaves as it is. -/
theorem exists_slash_of_endsScript {rest : List Char} (h : Quote.endsScript rest = true) :
    ∃ more, rest = '/' :: more := by
  cases rest with
  | nil => simp [Quote.endsScript] at h
  | cons c more =>
      simp only [Quote.endsScript, List.take_succ_cons, List.map_cons, beq_iff_eq] at h
      exact ⟨more, by rw [eq_slash_of_toLower (List.cons.inj h).1]⟩

/-- How one character is written: as itself, or as an escape that is read as the character. -/
theorem char_cases (c : Char) (rest : List Char) :
    (Quote.char c rest = [c] ∧ c ≠ '\\' ∧ c ≠ '"' ∧ c ≠ '\n' ∧ c ≠ '\r') ∨
    (Quote.char c rest = ['<', '\\'] ∧ c = '<' ∧ Quote.endsScript rest = true) ∨
    (Quote.char c rest = ['\\', '0'] ∧ c = '\x00' ∧
      (rest.head?.map Char.isDigit).getD false = false) ∨
    ∃ part, Quote.char c rest = '\\' :: part ∧
      ∀ more, Escape.scan false (part ++ more) = ⟨some [.char c], part.length⟩ := by
  have hcode : ∀ {n : Nat} {part : List Char}, c.toNat = n →
      (∀ more, Escape.scan false (part ++ more) = ⟨some [.char (Char.ofNat n)], part.length⟩) →
      Quote.char (Char.ofNat n) rest = '\\' :: part →
      ∃ part, Quote.char c rest = '\\' :: part ∧
        ∀ more, Escape.scan false (part ++ more) = ⟨some [.char c], part.length⟩ := by
    intro n part hn hscan hpart
    obtain rfl := char_eq_of_toNat hn
    exact ⟨part, hpart, hscan⟩
  by_cases hnamed : c.toNat ∈
      [0x22, 0x5c, 0x0a, 0x0d, 0x07, 0x08, 0x0b, 0x0c, 0x1b, 0x2028, 0x2029, 0xa0]
  · refine .inr (.inr (.inr ?_))
    simp only [List.mem_cons, List.not_mem_nil, or_false] at hnamed
    rcases hnamed with h | h | h | h | h | h | h | h | h | h | h | h <;>
      exact hcode h (fun _ => rfl) rfl
  by_cases hzero : c.toNat = 0
  · obtain rfl : c = '\x00' := char_eq_of_toNat hzero
    by_cases hdigit : (rest.head?.map Char.isDigit).getD false = true
    · refine .inr (.inr (.inr ⟨['x', '0', '0'], ?_, fun _ => rfl⟩))
      simp [Quote.char, hdigit]
    · refine .inr (.inr (.inl ⟨?_, rfl, by simpa using hdigit⟩))
      simp [Quote.char, hdigit]
  · have hother : c ≠ '\\' ∧ c ≠ '"' ∧ c ≠ '\n' ∧ c ≠ '\r' := by
      refine ⟨?_, ?_, ?_, ?_⟩ <;> (rintro rfl; exact hnamed (by decide))
    simp only [List.mem_cons, List.not_mem_nil, or_false, not_or] at hnamed
    by_cases htag : (c = '<' && Quote.endsScript rest) = true
    · obtain ⟨hless, hends⟩ := Bool.and_eq_true_iff.mp htag
      obtain rfl := of_decide_eq_true hless
      exact .inr (.inl ⟨by simp [Quote.char, hends], rfl, hends⟩)
    · refine .inl ⟨?_, hother⟩
      obtain ⟨hback, hquote, hline, hreturn⟩ := hother
      simp only [Quote.char, hnamed, hzero, htag, if_false, Bool.false_eq_true]

theorem head_char (c : Char) (rest : List Char) :
    ∃ more, Quote.char c rest = c :: more ∨ Quote.char c rest = '\\' :: more := by
  rcases char_cases c rest with ⟨h, -⟩ | ⟨h, rfl, -⟩ | ⟨h, -⟩ | ⟨part, h, -⟩
  · exact ⟨[], .inl h⟩
  · exact ⟨['\\'], .inl h⟩
  · exact ⟨['0'], .inr h⟩
  · exact ⟨part, .inr h⟩

/-- Where no digit comes next, none is written next. -/
theorem no_digit_next {rest : List Char} (tail : List Char)
    (h : (rest.head?.map Char.isDigit).getD false = false) :
    ((Quote.plain rest ++ '"' :: tail).head?.map Char.isDigit).getD false = false := by
  cases rest with
  | nil => rfl
  | cons c rest =>
      obtain ⟨more, hhead | hhead⟩ := head_char c rest
      · simpa [Quote.plain, hhead] using h
      · simp [Quote.plain, hhead]

/-- A string without marks is read as it was written. -/
theorem adds_plain (text tail : List Char) :
    Adds (Quote.plain text) ('"' :: tail) (text.map Unit16.char) ∧
      ∀ more, text = '/' :: more →
        Adds ('\\' :: Quote.plain text) ('"' :: tail) (text.map Unit16.char) := by
  induction text with
  | nil => exact ⟨adds_nil _, by simp⟩
  | cons c rest ih =>
      constructor
      · rw [Quote.plain, List.map_cons]
        rcases char_cases c rest with
          ⟨h, hc⟩ | ⟨h, rfl, hends⟩ | ⟨h, rfl, hdigit⟩ | ⟨part, h, hscan⟩
        · rw [h]
          exact Adds.cons [c] (adds_char _ hc) ih.1
        · obtain ⟨more, hslash⟩ := exists_slash_of_endsScript hends
          rw [h]
          exact Adds.cons ['<'] (adds_char _ (by decide)) (ih.2 more hslash)
        · rw [h]
          refine Adds.cons ['\\', '0'] (adds_escape ['0'] ?_) ih.1
          have hnext := no_digit_next tail hdigit
          simp only [Escape.scan, List.singleton_append, hnext]
          rfl
        · rw [h]
          exact Adds.cons ('\\' :: part) (adds_escape part (hscan _)) ih.1
      · rintro more hslash
        obtain ⟨rfl, rfl⟩ := List.cons.inj hslash
        rw [List.map_cons]
        exact Adds.cons ['\\', '/'] (adds_escape ['/'] rfl) ih.1

theorem standsFor_text (value : String) : StandsFor (Quote.text value false) value :=
  standsFor_of_adds (adds_plain value.toList []).1

/-- A node that is a string is printed as nothing but the string, whatever surrounds it. -/
theorem reversed_write_string {node : Node} {value raw : String} {lone : Bool}
    (h : node.kind = .string value raw lone) (around : Surroundings) (output : Output) :
    (((node.annotate Layout.ofParts).write around).run output).2.reversed =
      (Quote.text value lone).reverse ++ output.reversed := by
  obtain ⟨kind, start, stop, mark, children⟩ := node
  obtain rfl : kind = .string value raw lone := h
  exact List.foldl_flip_cons_eq_append'

/-! ### Strings of a document -/

theorem scan_control (n : Nat) (hn : n < 32) (rest : List Char) :
    Escape.scan false (('u' :: Text.hexPadded 4 n) ++ rest) =
      ⟨some [.char (Char.ofNat n)], ('u' :: Text.hexPadded 4 n).length⟩ := by
  interval_cases n <;> rfl

theorem adds_escapeChar (c : Char) (rest : List Char) :
    Adds (Json.escapeChar c) rest [.char c] := by
  unfold Json.escapeChar
  split
  · exact adds_escape ['"'] rfl
  · exact adds_escape ['\\'] rfl
  · exact adds_escape ['b'] rfl
  · exact adds_escape ['f'] rfl
  · exact adds_escape ['n'] rfl
  · exact adds_escape ['r'] rfl
  · exact adds_escape ['t'] rfl
  · rename_i hquote hback _ _ hline hreturn _
    split
    · rename_i hcontrol
      have hscan := scan_control c.toNat hcontrol rest
      rw [Char.ofNat_toNat] at hscan
      exact adds_escape _ hscan
    · exact adds_char rest ⟨hback, hquote, hline, hreturn⟩

theorem adds_quoteChars (text rest : List Char) :
    Adds (text.flatMap Json.escapeChar) rest (text.map Unit16.char) := by
  induction text with
  | nil => exact adds_nil rest
  | cons c text ih => exact (adds_escapeChar c _).append ih

/-- A string of a document is read in a script as what it is in the document. -/
theorem standsFor_jsonQuote (value : String) : StandsFor (Json.quote value).toList value := by
  rw [Json.quote, String.toList_ofList]
  exact standsFor_of_adds (adds_quoteChars value.toList ['"'])

theorem StandsFor.unique {literal : List Char} {value other : String}
    (h : StandsFor literal value) (h' : StandsFor literal other) : value = other := by
  obtain ⟨raw, stop, hscan⟩ := h
  obtain ⟨raw', stop', hscan'⟩ := h'
  rw [hscan] at hscan'
  simp only [Scanned.mk.injEq, Prod.mk.injEq, TokenKind.string.injEq] at hscan'
  exact hscan'.1.1.1

/-! ### Strings with marks -/

/-- Some replacement character is taken for a mark, as four characters follow it. -/
def HasMark (text : List Char) : Prop :=
  ∃ front back, text = front ++ Char.ofNat 0xfffd :: back ∧ 4 ≤ back.length

theorem HasMark.cons {text : List Char} (c : Char) (h : HasMark text) : HasMark (c :: text) := by
  obtain ⟨front, back, rfl, hback⟩ := h
  exact ⟨c :: front, back, rfl, hback⟩

/-- A mark is at the front of a text or behind its first character. -/
theorem HasMark.head_or_tail {c : Char} {rest : List Char} (h : HasMark (c :: rest)) :
    (c = Char.ofNat 0xfffd ∧ 4 ≤ rest.length) ∨ HasMark rest := by
  obtain ⟨front, back, heq, hback⟩ := h
  cases front with
  | nil =>
      obtain ⟨rfl, rfl⟩ := List.cons.inj heq
      exact .inl ⟨rfl, hback⟩
  | cons first front =>
      obtain ⟨-, rfl⟩ := List.cons.inj heq
      exact .inr ⟨front, back, rfl, hback⟩

theorem marked_cons_of_not_mark {c : Char} {rest : List Char}
    (h : ¬ (c = Char.ofNat 0xfffd ∧ 4 ≤ rest.length)) :
    Quote.marked (c :: rest) = Quote.char c rest ++ Quote.marked rest := by
  rcases rest with _ | ⟨a, _ | ⟨b, _ | ⟨d, _ | ⟨e, rest⟩⟩⟩⟩
  · rfl
  · rfl
  · rfl
  · rfl
  · have hc : c.toNat ≠ 0xfffd := fun hc => h ⟨char_eq_of_toNat hc, by simp⟩
    rw [Quote.marked, if_neg hc]

theorem marked_cons_of_mark {a b d e : Char} {rest : List Char} :
    Quote.marked (Char.ofNat 0xfffd :: a :: b :: d :: e :: rest) =
      if [a, b, d, e] = ['f', 'f', 'f', 'd'] then Char.ofNat 0xfffd :: Quote.marked rest
      else '\\' :: 'u' :: a :: b :: d :: e :: Quote.marked rest := by
  rw [Quote.marked]
  simp only [show (Char.ofNat 0xfffd).toNat = 0xfffd from rfl, if_true]

theorem marked_of_not_hasMark {text : List Char} (h : ¬ HasMark text) :
    Quote.marked text = Quote.plain text := by
  induction text with
  | nil => rfl
  | cons c rest ih =>
      have hrest : ¬ HasMark rest := fun hm => h (hm.cons c)
      have hfront : ¬ (c = Char.ofNat 0xfffd ∧ 4 ≤ rest.length) := by
        rintro ⟨rfl, hlength⟩
        exact h ⟨[], rest, rfl, hlength⟩
      rw [marked_cons_of_not_mark hfront, ih hrest, Quote.plain]

/-- Something in front of a block that comes back behind it holds no other characters. -/
theorem exists_shift {α : Type} (front : List α) {block before after : List α}
    (h : front ++ block ++ before = block ++ after) :
    ∃ shifted, shifted.length = front.length ∧ (∀ c ∈ shifted, c ∈ front) ∧
      shifted ++ before = after := by
  induction block generalizing front with
  | nil => exact ⟨front, rfl, fun _ hc => hc, by simpa using h⟩
  | cons first block ih =>
      cases front with
      | nil => exact ⟨[], rfl, by simp, by simpa using h⟩
      | cons c front =>
          simp only [List.cons_append, List.cons.injEq] at h
          obtain ⟨rfl, h⟩ := h
          obtain ⟨shifted, hlength, hmem, heq⟩ := ih (front ++ [c]) (by simpa using h)
          refine ⟨shifted, by simpa using hlength, ?_, heq⟩
          intro other ho
          simpa [or_comm] using hmem other ho

theorem exists_of_four_le_length {text : List Char} (h : 4 ≤ text.length) :
    ∃ a b d e rest, text = a :: b :: d :: e :: rest := by
  rcases text with _ | ⟨a, _ | ⟨b, _ | ⟨d, _ | ⟨e, rest⟩⟩⟩⟩
  · simp at h
  · simp at h
  · simp at h
  · simp at h
  · exact ⟨a, b, d, e, rest, rfl⟩

/-- Where a mark comes first, only a replacement character that is written as a mark can be taken
for one that is not. -/
theorem plain_eq_marked_of_mark {front rest : List Char} {a b d e : Char}
    (hfront : ∀ c ∈ front, c ≠ '\\' ∧ c ≠ Char.ofNat 0xfffd)
    (h : front ++ Quote.plain (Char.ofNat 0xfffd :: a :: b :: d :: e :: rest) =
      Quote.marked (Char.ofNat 0xfffd :: a :: b :: d :: e :: rest)) :
    ['f', 'f', 'f', 'd'] ++ Quote.plain rest = Quote.marked rest := by
  have hplain : Quote.plain (Char.ofNat 0xfffd :: a :: b :: d :: e :: rest) =
      Char.ofNat 0xfffd :: Quote.plain (a :: b :: d :: e :: rest) := rfl
  rw [marked_cons_of_mark, hplain] at h
  by_cases hself : [a, b, d, e] = ['f', 'f', 'f', 'd']
  · rw [if_pos hself] at h
    simp only [List.cons.injEq, and_true] at hself
    obtain ⟨rfl, rfl, rfl, rfl⟩ := hself
    cases front with
    | cons first front => exact absurd (List.cons.inj h).1 (hfront first List.mem_cons_self).2
    | nil => exact (List.cons.inj h).2
  · rw [if_neg hself] at h
    cases front with
    | cons first front => exact absurd (List.cons.inj h).1 (hfront first List.mem_cons_self).1
    | nil => exact absurd (List.cons.inj h).1 (by decide)

/-- A text with a mark is not written like one without, not even behind characters that no mark is
written with. -/
theorem marked_ne_plain {text : List Char} (h : HasMark text) (front : List Char)
    (hfront : ∀ c ∈ front, c ≠ '\\' ∧ c ≠ Char.ofNat 0xfffd) :
    front ++ Quote.plain text ≠ Quote.marked text := by
  intro heq
  induction hsize : text.length using Nat.strong_induction_on generalizing text front with
  | _ size ih =>
      cases text with
      | nil =>
          obtain ⟨first, back, hnil, -⟩ := h
          simp at hnil
      | cons c rest =>
          by_cases hc : c = Char.ofNat 0xfffd ∧ 4 ≤ rest.length
          · obtain ⟨rfl, hlength⟩ := hc
            obtain ⟨a, b, d, e, rest, rfl⟩ := exists_of_four_le_length hlength
            have hrest := plain_eq_marked_of_mark hfront heq
            -- behind a mark the text may have no other one, but then its lengths differ
            by_cases hmark : HasMark rest
            · exact ih rest.length (by simp [← hsize]; omega) hmark _ (by simp) hrest rfl
            · rw [marked_of_not_hasMark hmark] at hrest
              have hlonger := congrArg List.length hrest
              rw [List.length_append] at hlonger
              simp at hlonger
          · have hmark := h.head_or_tail.resolve_left hc
            rw [marked_cons_of_not_mark hc, Quote.plain, ← List.append_assoc] at heq
            obtain ⟨shifted, -, hmem, hrest⟩ := exists_shift front heq
            exact ih rest.length (by simp [← hsize]) hmark shifted
              (fun other ho => hfront other (hmem other ho)) hrest rfl

theorem text_true_eq_iff (value : String) :
    Quote.text value true = Quote.text value false ↔ ¬ HasMark value.toList := by
  constructor
  · intro h hmark
    exact marked_ne_plain hmark [] (by simp) (by simpa [Quote.text] using h.symm)
  · intro h
    simp [Quote.text, marked_of_not_hasMark h]

example : Quote.text "./\ufffdd800.js" true = "\"./\\ud800.js\"".toList := by
  decide +kernel

end Bundler.Script
