import Bundler.Chunk
import Bundler.Proofs.Script.Dependencies
import Bundler.Proofs.Script.Literal

/-! The two ways in which an id is written: as a key of the registry and as the argument of a
redirected call. A key is always read as the id. So is an argument, unless the string before it had
marks and some replacement character of the id is now taken for one. -/

namespace Bundler.Script

/-! ### Reading backwards -/

/-- What was read before stands in front of what is read. -/
theorem scanStringFrom_parts (input : List Char) (skip offset : Nat) (parts : StringParts) :
    scanStringFrom '"' input skip offset parts =
      let found := scanStringFrom '"' input skip offset ⟨[], [], []⟩
      ⟨(parts.units.reverse ++ found.value.1, parts.raw.reverse ++ found.value.2.1,
        found.value.2.2), found.after, parts.faults.reverse ++ found.faults⟩ := by
  induction input generalizing skip offset parts with
  | nil => simp [scanStringFrom]
  | cons c rest ih =>
      cases skip with
      | succ skip =>
          rw [scanStringFrom, ih, scanStringFrom, ih skip _ (StringParts.addRaw _ c)]
          simp [StringParts.addRaw]
      | zero =>
          rw [scanStringFrom, scanStringFrom]
          by_cases hback : c = '\\'
          · simp only [if_pos hback]
            rw [ih, ih _ _ (StringParts.addEscape ⟨[], [], []⟩ _ _)]
            cases h : (Escape.scan false rest).units <;>
              simp [StringParts.addEscape, StringParts.addRaw, h]
          · by_cases hquote : c = '"'
            · simp [hquote]
            · by_cases hbreak : (c = '\n' || c = '\r') = true
              · simp [hback, hquote, hbreak]
              · simp only [if_neg hback, if_neg hquote, if_neg hbreak]
                rw [ih, ih _ _ (StringParts.addChar ⟨[], [], []⟩ c)]
                simp [StringParts.addChar]

/-- A string literal is read to its end and without faults, from behind some characters of an
escape on. -/
def Reads (input : List Char) (skip : Nat) (units : List Unit16) : Prop :=
  ∃ offset raw stop, scanStringFrom '"' input skip offset ⟨[], [], []⟩ =
    ⟨(units, raw, true), ⟨[], stop⟩, []⟩

section Reads

variable {c : Char} {input rest : List Char} {skip : Nat} {units : List Unit16}

theorem Reads.of_parts {offset stop : Nat} {parts : StringParts} {raw : List Char}
    (h : scanStringFrom '"' input skip offset parts = ⟨(units, raw, true), ⟨[], stop⟩, []⟩) :
    parts.faults = [] ∧ ∃ more, units = parts.units.reverse ++ more ∧ Reads input skip more := by
  rw [scanStringFrom_parts] at h
  generalize hfound : scanStringFrom '"' input skip offset ⟨[], [], []⟩ = found at h
  obtain ⟨⟨more, raw', closed⟩, after, faults⟩ := found
  simp only [Scanned.mk.injEq, Prod.mk.injEq, List.append_eq_nil_iff] at h
  obtain ⟨⟨rfl, -, rfl⟩, rfl, hfaults, rfl⟩ := h
  exact ⟨List.reverse_eq_nil_iff.mp hfaults, more, rfl, offset, raw', stop, hfound⟩

theorem Reads.skip_cons (h : Reads (c :: rest) (skip + 1) units) : Reads rest skip units := by
  obtain ⟨offset, raw, stop, h⟩ := h
  rw [scanStringFrom] at h
  obtain ⟨-, more, rfl, hmore⟩ := Reads.of_parts h
  exact hmore

theorem Reads.skip_append (part : List Char)
    (h : Reads (part ++ rest) (part.length + skip) units) : Reads rest skip units := by
  induction part with
  | nil => simpa using h
  | cons c part ih =>
      refine ih (Reads.skip_cons (c := c) ?_)
      rwa [List.cons_append, List.length_cons, Nat.add_right_comm] at h

theorem Reads.char_cons (hc : c ≠ '\\' ∧ c ≠ '"' ∧ c ≠ '\n' ∧ c ≠ '\r')
    (h : Reads (c :: rest) 0 units) : ∃ more, units = .char c :: more ∧ Reads rest 0 more := by
  obtain ⟨hback, hquote, hline, hreturn⟩ := hc
  obtain ⟨offset, raw, stop, h⟩ := h
  rw [scanStringFrom] at h
  simp only [hback, hquote, hline, hreturn, if_false, Bool.or_self, Bool.false_eq_true,
    decide_false] at h
  obtain ⟨-, more, hunits, hmore⟩ := Reads.of_parts h
  exact ⟨more, hunits, hmore⟩

theorem Reads.escape_cons (h : Reads ('\\' :: rest) 0 units) :
    ∃ found more, (Escape.scan false rest).units = some found ∧ units = found ++ more ∧
      Reads rest (Escape.scan false rest).length more := by
  obtain ⟨offset, raw, stop, h⟩ := h
  rw [scanStringFrom, if_pos rfl] at h
  obtain ⟨hfaults, more, hunits, hmore⟩ := Reads.of_parts h
  cases hfound : (Escape.scan false rest).units with
  | none => simp [StringParts.addEscape, hfound] at hfaults
  | some found =>
      refine ⟨found, more, rfl, ?_, hmore⟩
      simpa [StringParts.addEscape, StringParts.addRaw, hfound] using hunits

/-- An escape that stands for one character. -/
theorem Reads.escape_char (part : List Char) (h : Reads ('\\' :: (part ++ rest)) 0 units)
    (hscan : Escape.scan false (part ++ rest) = ⟨some [.char c], part.length⟩) :
    ∃ more, units = .char c :: more ∧ Reads rest 0 more := by
  obtain ⟨found, more, hfound, hunits, hmore⟩ := h.escape_cons
  rw [hscan] at hfound hmore
  obtain rfl := Option.some.inj hfound
  exact ⟨more, hunits, hmore.skip_append part⟩

theorem Reads.quote (h : Reads ['"'] 0 units) : units = [] := by
  obtain ⟨offset, raw, stop, h⟩ := h
  simp [scanStringFrom] at h
  exact h.1.1

end Reads

/-! ### Marks that are read -/

/-- A character that an escape for a mark may be written with, or that a mark begins with. -/
def OfMark (c : Char) : Prop :=
  (Text.hexValue? c).isSome ∨ c = '\x7b' ∨ c = '\x7d' ∨ c = Char.ofNat 0xfffd

instance (c : Char) : Decidable (OfMark c) :=
  inferInstanceAs (Decidable (_ ∨ _))

theorem bounds_of_hexValue? {c : Char} {digit : Nat} (h : Text.hexValue? c = some digit) :
    digit < 16 ∧ 48 ≤ c.toNat ∧ c.toNat ≤ 102 := by
  have hle (a b : Char) : a ≤ b ↔ a.toNat ≤ b.toNat := by
    rw [Char.le_def, UInt32.le_iff_toNat_le]
    rfl
  unfold Text.hexValue? at h
  simp only [hle, Char.reduceToNat] at h
  split_ifs at h <;> (obtain rfl := Option.some.inj h; omega)

theorem OfMark.bounds {c : Char} (h : OfMark c) : 48 ≤ c.toNat ∧ c.toNat ≤ 0xfffd := by
  rcases h with h | rfl | rfl | rfl
  · obtain ⟨digit, hdigit⟩ := Option.isSome_iff_exists.mp h
    have := bounds_of_hexValue? hdigit
    omega
  · decide
  · decide
  · decide

theorem isSome_of_hexNumber? {digits : List Char} {value : Nat}
    (h : hexNumber? digits = some value) : ∀ c ∈ digits, (Text.hexValue? c).isSome = true := by
  -- a step gives a number only for a digit behind a number
  have hfold : ∀ {step : Option Nat → Char → Option Nat}, (∀ {start c value},
      step start c = some value → start.isSome = true ∧ (Text.hexValue? c).isSome = true) →
      ∀ {digits : List Char} {start : Option Nat}, digits.foldl step start = some value →
        start.isSome = true ∧ ∀ c ∈ digits, (Text.hexValue? c).isSome = true := by
    intro step hstep digits
    induction digits with
    | nil =>
        rintro start rfl
        exact ⟨rfl, fun c hc => absurd hc List.not_mem_nil⟩
    | cons c rest ih =>
        intro start h
        obtain ⟨hnext, hrest⟩ := ih h
        obtain ⟨next, hnext⟩ := Option.isSome_iff_exists.mp hnext
        obtain ⟨hstart, hc⟩ := hstep hnext
        exact ⟨hstart, List.forall_mem_cons.mpr ⟨hc, hrest⟩⟩
  refine (hfold ?_ h).2
  intro start c value hstep
  split at hstep
  · next n d hdigit => exact ⟨rfl, by rw [hdigit]; rfl⟩
  · cases hstep

/-- A code point in braces: digits and the closing brace. -/
theorem scanCodePoint_braces {text : List Char} {code length : Nat}
    (h : scanCodePoint ('\x7b' :: text) = some (code, length)) :
    ∃ digits more, text = digits ++ '\x7d' :: more ∧ length = digits.length + 2 ∧ digits ≠ [] ∧
      hexNumber? digits = some code := by
  rw [scanCodePoint] at h
  have hparts : (text.takeWhile fun c => (Text.hexValue? c).isSome) ++
      (text.dropWhile fun c => (Text.hexValue? c).isSome) = text := List.takeWhile_append_dropWhile
  generalize (text.takeWhile fun c => (Text.hexValue? c).isSome) = digits at h hparts
  generalize (text.dropWhile fun c => (Text.hexValue? c).isSome) = others at h hparts
  split at h
  · next value more hvalue =>
    split_ifs at h with hbad
    simp only [Bool.or_eq_true, List.isEmpty_iff, not_or] at hbad
    obtain ⟨rfl, rfl⟩ := Prod.mk.inj (Option.some.inj h)
    exact ⟨digits, more, hparts.symm, rfl, hbad.1, hvalue⟩
  · cases h

theorem scanCodePoint_four {a b d e : Char} {tail : List Char} {code length : Nat}
    (ha : a ≠ '\x7b') (h : scanCodePoint (a :: b :: d :: e :: tail) = some (code, length)) :
    length = 4 ∧ hexNumber? [a, b, d, e] = some code := by
  unfold scanCodePoint at h
  split at h
  · next heq => exact absurd (List.cons.inj heq).1 ha
  · next heq =>
    simp only [List.cons.injEq] at heq
    obtain ⟨rfl, rfl, rfl, rfl, -⟩ := heq
    obtain ⟨value, hvalue, heq⟩ := Option.map_eq_some_iff.mp h
    obtain ⟨rfl, rfl⟩ := Prod.mk.inj heq
    exact ⟨rfl, hvalue⟩
  · cases h

/-- A code point behind which four characters or more are left: one digit in braces, or characters
that escapes for marks are written with, some of which may come after the first four. -/
theorem scanCodePoint_cases {a b d e : Char} {tail : List Char} {code length : Nat}
    (h : scanCodePoint (a :: b :: d :: e :: tail) = some (code, length)) :
    code < 16 ∨ ∃ run more, tail = run ++ more ∧ length = 4 + run.length ∧
      (∀ c ∈ [a, b, d, e], OfMark c) ∧ ∀ c ∈ run, OfMark c ∧ c ≠ Char.ofNat 0xfffd := by
  by_cases hbrace : a = '\x7b'
  · subst hbrace
    obtain ⟨digits, more, htext, rfl, hne, hvalue⟩ := scanCodePoint_braces h
    have hdigits := isSome_of_hexNumber? hvalue
    rcases digits with _ | ⟨first, _ | ⟨second, _ | ⟨third, run⟩⟩⟩
    · exact absurd rfl hne
    · obtain ⟨digit, hdigit⟩ := Option.isSome_iff_exists.mp (hdigits first (by simp))
      have hlt := (bounds_of_hexValue? hdigit).1
      simp only [hexNumber?, List.foldl_cons, List.foldl_nil, hdigit, Option.some.injEq] at hvalue
      omega
    · simp only [List.cons_append, List.nil_append, List.cons.injEq] at htext
      obtain ⟨rfl, rfl, rfl, rfl⟩ := htext
      refine .inr ⟨[], tail, rfl, rfl, ?_, by simp⟩
      simp_all [OfMark]
    · simp only [List.cons_append, List.cons.injEq] at htext
      obtain ⟨rfl, rfl, rfl, rfl⟩ := htext
      refine .inr ⟨run ++ ['\x7d'], more, by simp, by simp; omega, ?_, ?_⟩
      · simp_all [OfMark]
      · intro c hc
        rcases List.mem_append.mp hc with hc | hc
        · have hdigit := hdigits c (by simp [hc])
          refine ⟨.inl hdigit, ?_⟩
          rintro rfl
          cases hdigit
        · obtain rfl := List.mem_singleton.mp hc
          exact ⟨.inr (.inr (.inl rfl)), by decide⟩
  · obtain ⟨rfl, hvalue⟩ := scanCodePoint_four hbrace h
    exact .inr ⟨[], tail, rfl, rfl, fun c hc => .inl (isSome_of_hexNumber? hvalue c hc), by simp⟩

theorem toNat_of_ofCode {code : Nat} {c : Char} (h : Unit16.ofCode code = .char c) :
    c.toNat = code := by
  unfold Unit16.ofCode at h
  split at h
  · next found hfound =>
    obtain rfl := Unit16.char.inj h
    by_cases hvalid : code.isValidChar
    · rw [charOf?, dif_pos hvalid] at hfound
      obtain rfl := Option.some.inj hfound
      rfl
    · rw [charOf?, dif_neg hvalid] at hfound
      cases hfound
  · cases h

/-- An escape stands for the code point in it, or together with another one for a character beyond
those that a single one of four digits can stand for. -/
theorem scanUnicode_cases (text : List Char) {found : List Unit16}
    (h : (Escape.scanUnicode text).units = some found) : ∃ code length,
      scanCodePoint text = some (code, length) ∧
      ((found = [.ofCode code] ∧ (Escape.scanUnicode text).length = length + 1) ∨
        ∃ pair, 0x10000 ≤ pair ∧ found = [.ofCode pair]) := by
  unfold Escape.scanUnicode at h ⊢
  split at h
  · cases h
  · next code length hcode =>
    refine ⟨code, length, hcode, ?_⟩
    dsimp only at h ⊢
    split at h
    · next low more hhigh hlow =>
      refine .inr ⟨_, ?_, (Option.some.inj h).symm⟩
      omega
    · exact .inl ⟨(Option.some.inj h).symm, rfl⟩

/-! ### Reading behind -/

/-- What a text is written with begins with its first character or with a backslash. -/
theorem head_marked (c : Char) (rest : List Char) :
    ∃ more, Quote.marked (c :: rest) = c :: more ∨ Quote.marked (c :: rest) = '\\' :: more := by
  by_cases hmark : c = Char.ofNat 0xfffd ∧ 4 ≤ rest.length
  · obtain ⟨rfl, hlength⟩ := hmark
    obtain ⟨a, b, d, e, rest, rfl⟩ := exists_of_four_le_length hlength
    rw [marked_cons_of_mark]
    split
    · exact ⟨_, .inl rfl⟩
    · exact ⟨_, .inr rfl⟩
  · rw [marked_cons_of_not_mark hmark]
    obtain ⟨more, h | h⟩ := head_char c rest
    · exact ⟨more ++ Quote.marked rest, .inl (by rw [h, List.cons_append])⟩
    · exact ⟨more ++ Quote.marked rest, .inr (by rw [h, List.cons_append])⟩

/-- Characters that escapes are written with stand for themselves where they are no part of one. -/
theorem exists_of_marked_eq_append {text run more : List Char}
    (hrun : ∀ c ∈ run, OfMark c ∧ c ≠ Char.ofNat 0xfffd)
    (h : Quote.marked text ++ ['"'] = run ++ more) :
    ∃ rest, text = run ++ rest ∧ more = Quote.marked rest ++ ['"'] := by
  induction run generalizing text with
  | nil => exact ⟨text, rfl, h.symm⟩
  | cons c run ih =>
      obtain ⟨⟨hpart, hplain⟩, hrest⟩ := List.forall_mem_cons.mp hrun
      have hback : c ≠ '\\' := by
        rintro rfl
        exact absurd hpart (by decide)
      cases text with
      | nil =>
          obtain ⟨rfl, -⟩ := List.cons.inj h
          exact absurd hpart (by decide)
      | cons first text =>
          have hfirst : first = c := by
            obtain ⟨tail, hhead | hhead⟩ := head_marked first text
            · rw [hhead] at h
              exact (List.cons.inj h).1
            · rw [hhead] at h
              exact absurd (List.cons.inj h).1.symm hback
          subst hfirst
          rw [marked_cons_of_not_mark fun hmark => hplain hmark.1] at h
          rcases char_cases first text with
            ⟨hself, -⟩ | ⟨hself, rfl, -⟩ | ⟨hself, -⟩ | ⟨part, hself, -⟩
          · rw [hself] at h
            obtain ⟨rest, rfl, hmore⟩ := ih hrest (List.cons.inj h).2
            exact ⟨rest, rfl, hmore⟩
          · exact absurd hpart (by decide)
          · rw [hself] at h
            exact absurd (List.cons.inj h).1.symm hback
          · rw [hself] at h
            exact absurd (List.cons.inj h).1.symm hback

/-- The reader is behind: before the characters of a text it still has to read some that a mark is
written with, or it will have to once it has come to a mark of the text. -/
structure Behind (front text : List Char) : Prop where
  ofMark : ∀ c ∈ front, OfMark c
  behind : front ≠ [] ∨ HasMark text

section Behind

variable {front rest : List Char} {more : List Unit16}

/-- A character that is read where another is due takes its place among those that are. -/
theorem Behind.read_char {c : Char} (h : Behind front (c :: rest))
    (hmark : ¬ (c = Char.ofNat 0xfffd ∧ 4 ≤ rest.length))
    (hread : (front ++ c :: rest).map Unit16.char = .char c :: more) :
    ∃ front', Behind front' rest ∧ more = (front' ++ rest).map Unit16.char := by
  cases front with
  | nil =>
      obtain ⟨-, rfl⟩ := List.cons.inj hread
      have hrest := (h.behind.resolve_left fun hne => hne rfl).head_or_tail.resolve_left hmark
      exact ⟨[], ⟨by simp, .inr hrest⟩, rfl⟩
  | cons first front =>
      obtain ⟨hfirst, rfl⟩ := List.cons.inj hread
      obtain rfl := Unit16.char.inj hfirst
      refine ⟨front ++ [first], ⟨?_, .inl (by simp)⟩, by simp⟩
      intro other ho
      exact h.ofMark other (by simpa [or_comm] using ho)

/-- One unit that is read for several characters of a mark leaves the others to be read. -/
theorem Behind.read_block (block rest : List Char) {unit : Unit16}
    (hfront : ∀ c ∈ front, OfMark c) (hblock : ∀ c ∈ block, OfMark c) (hlong : 2 ≤ block.length)
    (hread : (front ++ (block ++ rest)).map Unit16.char = unit :: more) :
    ∃ front', Behind front' rest ∧ more = (front' ++ rest).map Unit16.char := by
  have hall : ∀ c ∈ front ++ block, OfMark c := by
    intro c hc
    exact (List.mem_append.mp hc).elim (hfront c) (hblock c)
  have hlength : 2 ≤ (front ++ block).length := by
    rw [List.length_append]
    omega
  rw [← List.append_assoc] at hread
  rcases hparts : front ++ block with _ | ⟨first, _ | ⟨second, others⟩⟩
  · simp [hparts] at hlength
  · simp [hparts] at hlength
  · rw [hparts] at hread hall
    obtain ⟨-, rfl⟩ := List.cons.inj hread
    exact ⟨second :: others, ⟨(List.forall_mem_cons.mp hall).2, .inl (by simp)⟩, rfl⟩

/-- Where a mark comes next, a character that marks are written with is due. -/
theorem Behind.exists_due {unit : Unit16} (hfront : ∀ c ∈ front, OfMark c)
    (hread : (front ++ Char.ofNat 0xfffd :: rest).map Unit16.char = unit :: more) :
    ∃ c, OfMark c ∧ unit = .char c := by
  cases front with
  | nil => exact ⟨_, by decide, (List.cons.inj hread).1.symm⟩
  | cons first front =>
      exact ⟨first, hfront first List.mem_cons_self, (List.cons.inj hread).1.symm⟩

/-- At a mark that is written with an escape the reader falls or stays behind. -/
theorem Behind.read_escape {a b d e : Char} (hfront : ∀ c ∈ front, OfMark c)
    (h : Reads ('\\' :: 'u' :: a :: b :: d :: e :: (Quote.marked rest ++ ['"'])) 0
      ((front ++ Char.ofNat 0xfffd :: a :: b :: d :: e :: rest).map Unit16.char)) :
    ∃ front' rest', rest'.length ≤ rest.length ∧ Behind front' rest' ∧
      Reads (Quote.marked rest' ++ ['"']) 0 ((front' ++ rest').map Unit16.char) := by
  obtain ⟨found, more, hfound, hunits, hmore⟩ := h.escape_cons
  obtain ⟨code, length, hcode, ⟨rfl, hlength⟩ | ⟨pair, hpair, rfl⟩⟩ :=
    scanUnicode_cases (a :: b :: d :: e :: (Quote.marked rest ++ ['"'])) hfound
  · obtain ⟨c, hc, hcharacter⟩ := Behind.exists_due hfront hunits
    rcases scanCodePoint_cases hcode with hsmall | ⟨run, others, htail, rfl, hfour, hrun⟩
    · have := toNat_of_ofCode hcharacter
      have := hc.bounds
      omega
    · obtain ⟨rest', rfl, rfl⟩ := exists_of_marked_eq_append hrun htail
      have hblock : ∀ c ∈ Char.ofNat 0xfffd :: ([a, b, d, e] ++ run), OfMark c := by
        intro c hc
        rcases List.mem_cons.mp hc with rfl | hc
        · decide
        · exact (List.mem_append.mp hc).elim (hfour c) fun hc => (hrun c hc).1
      obtain ⟨front', hbehind, rfl⟩ := Behind.read_block _ rest' hfront hblock (by simp)
        (by simpa using hunits)
      refine ⟨front', rest', by simp, hbehind, Reads.skip_append (['u', a, b, d, e] ++ run) ?_⟩
      have hskip : (Escape.scan false
          ('u' :: a :: b :: d :: e :: (Quote.marked (run ++ rest') ++ ['"']))).length =
          (['u', a, b, d, e] ++ run).length + 0 := by
        refine Eq.trans hlength ?_
        rw [List.length_append, List.length_cons]
        simp only [List.length_cons, List.length_nil]
        omega
      rw [hskip, htail] at hmore
      simpa using hmore
  · obtain ⟨c, hc, hcharacter⟩ := Behind.exists_due hfront hunits
    have := toNat_of_ofCode hcharacter
    have := hc.bounds
    omega

end Behind

/-- Where no digit comes next, none is written next. -/
theorem no_digit_next_marked {rest : List Char} (tail : List Char)
    (h : (rest.head?.map Char.isDigit).getD false = false) :
    ((Quote.marked rest ++ '"' :: tail).head?.map Char.isDigit).getD false = false := by
  cases rest with
  | nil => rfl
  | cons c rest =>
      obtain ⟨more, hhead | hhead⟩ := head_marked c rest
      · simpa [hhead] using h
      · simp [hhead]

/-- What a character is written as is read as the character, and what is read after it belongs to
the rest, except that a slash after a broken tag may be read with it. -/
theorem Reads.of_char {c : Char} {rest : List Char} {units : List Unit16}
    (h : Reads (Quote.char c rest ++ (Quote.marked rest ++ ['"'])) 0 units) :
    (∃ more, units = .char c :: more ∧ Reads (Quote.marked rest ++ ['"']) 0 more) ∨
      ∃ others more, c = '<' ∧ rest = '/' :: others ∧ units = .char '<' :: .char '/' :: more ∧
        Reads (Quote.marked others ++ ['"']) 0 more := by
  rcases char_cases c rest with
    ⟨hc, hplain⟩ | ⟨hc, rfl, hends⟩ | ⟨hc, rfl, hdigit⟩ | ⟨part, hc, hscan⟩
  · rw [hc] at h
    exact .inl (Reads.char_cons hplain h)
  · obtain ⟨others, rfl⟩ := exists_slash_of_endsScript hends
    have hslash : Quote.marked ('/' :: others) = '/' :: Quote.marked others := by
      rw [marked_cons_of_not_mark fun hmark => absurd hmark.1 (by decide)]
      rfl
    rw [hc, hslash] at h
    obtain ⟨_, rfl, hbroken⟩ := Reads.char_cons (by decide) h
    obtain ⟨more, rfl, hmore⟩ := Reads.escape_char ['/'] hbroken rfl
    exact .inr ⟨others, more, rfl, rfl, rfl, hmore⟩
  · rw [hc] at h
    refine .inl (Reads.escape_char ['0'] h ?_)
    have hnext := no_digit_next_marked [] hdigit
    simp only [Escape.scan, List.singleton_append, hnext]
    rfl
  · rw [hc] at h
    exact .inl (Reads.escape_char part h (hscan _))

/-- A reader that is behind comes to the end of a text before it has read all of it. -/
theorem not_reads_marked {text front : List Char} (hbehind : Behind front text) :
    ¬ Reads (Quote.marked text ++ ['"']) 0 ((front ++ text).map Unit16.char) := by
  intro h
  induction hsize : text.length using Nat.strong_induction_on generalizing text front with
  | _ size ih =>
      cases text with
      | nil =>
          have hend := Reads.quote h
          rcases hbehind.behind with hne | ⟨_, _, hnil, -⟩
          · simp [hne] at hend
          · simp at hnil
      | cons c rest =>
          by_cases hmark : c = Char.ofNat 0xfffd ∧ 4 ≤ rest.length
          · obtain ⟨rfl, hlength⟩ := hmark
            obtain ⟨a, b, d, e, rest, rfl⟩ := exists_of_four_le_length hlength
            rw [marked_cons_of_mark] at h
            by_cases hself : [a, b, d, e] = ['f', 'f', 'f', 'd']
            · rw [if_pos hself] at h
              simp only [List.cons.injEq, and_true] at hself
              obtain ⟨rfl, rfl, rfl, rfl⟩ := hself
              obtain ⟨more, hunits, h⟩ := Reads.char_cons (by decide) h
              have hblock : ∀ c ∈ Char.ofNat 0xfffd :: ['f', 'f', 'f', 'd'], OfMark c := by
                intro c hc
                simp only [List.mem_cons, List.not_mem_nil, or_false] at hc
                rcases hc with rfl | rfl | rfl | rfl | rfl <;> decide
              obtain ⟨front', hbehind', rfl⟩ := Behind.read_block
                (Char.ofNat 0xfffd :: ['f', 'f', 'f', 'd']) rest hbehind.ofMark hblock
                (Nat.le_add_left 2 3) hunits
              exact ih rest.length (by simp only [← hsize, List.length_cons]; omega) hbehind' h rfl
            · rw [if_neg hself] at h
              obtain ⟨front', rest', hle, hbehind', h⟩ := Behind.read_escape hbehind.ofMark h
              exact ih rest'.length (by simp only [← hsize, List.length_cons]; omega) hbehind' h rfl
          · rw [marked_cons_of_not_mark hmark, List.append_assoc] at h
            rcases Reads.of_char h with ⟨more, hunits, h⟩ | ⟨others, more, rfl, rfl, hunits, h⟩
            · obtain ⟨front', hbehind', rfl⟩ := hbehind.read_char hmark hunits
              exact ih rest.length (by simp only [← hsize, List.length_cons]; omega) hbehind' h rfl
            · obtain ⟨front', hbehind', hunits⟩ := hbehind.read_char hmark hunits
              obtain ⟨front', hbehind', rfl⟩ := hbehind'.read_char
                (fun hmark => absurd hmark.1 (by decide)) hunits.symm
              exact ih others.length (by simp only [← hsize, List.length_cons]; omega) hbehind' h
                rfl

/-! ### Literals -/

/-- Wherever a literal stands it is read as a string without marks, up to its end and without
faults, whatever comes behind it. No line ends in it. -/
structure Denotes (literal : List Char) (value : String) : Prop where
  read : ∀ offset rest, ∃ raw stop, scanToken ⟨literal ++ rest, offset⟩ =
    ⟨(.string value raw false, false), ⟨rest, stop⟩, []⟩
  inLine : '\n' ∉ literal ∧ '\r' ∉ literal

theorem denotes_of_adds {body : List Char} {value : String}
    (h : ∀ rest, Adds body ('"' :: rest) (value.toList.map Unit16.char))
    (hline : '\n' ∉ body ∧ '\r' ∉ body) : Denotes ('"' :: body ++ ['"']) value := by
  refine ⟨fun offset rest => ?_, by simpa using hline⟩
  rw [List.append_assoc]
  exact scanToken_of_adds (h rest) offset

theorem not_mem_char {c : Char} {rest : List Char} :
    '\n' ∉ Quote.char c rest ∧ '\r' ∉ Quote.char c rest := by
  unfold Quote.char
  split
  · decide
  · decide
  · decide
  · decide
  · next hline hreturn =>
    dsimp only
    split_ifs <;> simp [Ne.symm hline, Ne.symm hreturn]

theorem not_mem_plain (text : List Char) :
    '\n' ∉ Quote.plain text ∧ '\r' ∉ Quote.plain text := by
  induction text with
  | nil => simp [Quote.plain]
  | cons c rest ih => simp [Quote.plain, not_mem_char, ih]

theorem not_mem_escapeChar (c : Char) :
    '\n' ∉ Json.escapeChar c ∧ '\r' ∉ Json.escapeChar c := by
  have hcode : ∀ n < 32, '\n' ∉ Text.hexPadded 4 n ∧ '\r' ∉ Text.hexPadded 4 n := by decide
  unfold Json.escapeChar
  split
  · decide
  · decide
  · decide
  · decide
  · decide
  · decide
  · decide
  · next hline hreturn _ =>
    split_ifs with hcontrol
    · simpa using hcode c.toNat hcontrol
    · simp [Ne.symm hline, Ne.symm hreturn]

/-- The key of a registry, whatever the id. -/
theorem denotes_jsonQuote (value : String) : Denotes (Json.quote value).toList value := by
  rw [Json.quote, String.toList_ofList]
  refine denotes_of_adds (fun rest => adds_quoteChars value.toList ('"' :: rest)) ?_
  simp [not_mem_escapeChar]

/-- Units that make a text without marks are its characters. -/
theorem units_eq_of_text {units : List Unit16} {text : List Char}
    (h : Unit16.text units = (text, false)) : units = text.map Unit16.char := by
  unfold Unit16.text at h
  split at h
  · cases h
  · next hhalf =>
    obtain ⟨rfl, -⟩ := Prod.mk.inj h
    rw [Bool.not_eq_true, List.any_eq_false] at hhalf
    clear h
    induction units with
    | nil => rfl
    | cons unit units ih =>
        obtain ⟨hunit, hrest⟩ := List.forall_mem_cons.mp hhalf
        cases unit with
        | half code => exact absurd rfl hunit
        | char c =>
            rw [List.flatMap_cons, List.map_append, ← ih hrest]
            rfl

theorem reads_of_denotes {body : List Char} {value : String}
    (h : Denotes ('"' :: body ++ ['"']) value) :
    Reads (body ++ ['"']) 0 (value.toList.map Unit16.char) := by
  obtain ⟨raw, stop, h⟩ := h.read 0 []
  rw [List.append_nil, List.cons_append, scanToken_quote] at h
  generalize hfound : scanStringFrom '"' (body ++ ['"']) 0 (0 + byteCount ['"']) ⟨[], [], []⟩ =
    found at h
  obtain ⟨⟨units, raw', closed⟩, after, faults⟩ := found
  dsimp only at h
  split_ifs at h with hclosed
  · simp only [Scanned.mk.injEq, Prod.mk.injEq, TokenKind.string.injEq] at h
    obtain ⟨⟨⟨hvalue, -, hlone⟩, -⟩, rfl, rfl⟩ := h
    have hunits : Unit16.text units = (value.toList, false) :=
      Prod.ext (by rw [← hvalue, String.toList_ofList]) hlone
    subst hclosed
    rw [← units_eq_of_text hunits]
    exact ⟨_, _, _, hfound⟩
  · cases h

/-- The argument of a call is read as the id exactly if no mark in the id counts as one. -/
theorem denotes_text_iff {value : String} {lone : Bool} :
    Denotes (Quote.text value lone) value ↔ (lone = true → ¬ HasMark value.toList) := by
  have hplain : Denotes (Quote.text value false) value :=
    denotes_of_adds (fun rest => (adds_plain value.toList rest).1) (not_mem_plain value.toList)
  cases lone with
  | false => simpa using hplain
  | true =>
      constructor
      · intro h _ hmark
        have hbehind : Behind [] value.toList := ⟨by simp, .inr hmark⟩
        exact not_reads_marked hbehind (reads_of_denotes h)
      · intro h
        rwa [(text_true_eq_iff value).mpr (h rfl)]

end Bundler.Script

namespace Bundler

open Script

namespace Bundle

/-- A bundle holds each of its modules behind the key of the module. -/
theorem exists_render_eq_of_mem {chunk : Chunk} {module : Module} (h : module ∈ chunk.modules) :
    ∃ before after, render chunk =
      before ++ key module ++ ": function (" ++ parameters ++ ") \x7b\n" ++ after := by
  obtain ⟨front, back, hparts⟩ := List.append_of_mem h
  have hjoin : String.join (chunk.modules.map registryEntry) =
      String.join (front.map registryEntry) ++
        (registryEntry module ++ String.join (back.map registryEntry)) := by
    rw [hparts, List.map_append, List.map_cons, String.join_append, String.join_cons]
  unfold render
  rw [hjoin, registryEntry]
  generalize requireFunction = function
  refine ⟨"(function () \x7b\n" ++ "  var " ++ modulesName ++ " = \x7b\n" ++
    String.join (front.map registryEntry) ++ "    ", terminated module.code ++ "    \x7d,\n" ++
    String.join (back.map registryEntry) ++ "  \x7d;\n" ++ function ++
    "  return " ++ requireName ++ "(" ++ key chunk.entryModule ++ ");\n" ++ "\x7d)();\n", ?_⟩
  simp only [String.append_assoc]

/-- A bundle ends with a call for the key of the module of its entry. -/
theorem exists_render_eq (chunk : Chunk) : ∃ before, render chunk =
    before ++ "  return " ++ requireName ++ "(" ++ key chunk.entryModule ++ ");\n" ++
      "\x7d)();\n" :=
  ⟨_, rfl⟩

end Bundle

/-- The key of a module, in the registry and in the call that a bundle ends with, is read as the id
of the module. The argument of a redirected call is printed as a literal of the id of a dependency.
It is read as that id too, unless it is written with marks, as the specifier was, and some
replacement character of the id is taken for one. -/
theorem ids_read_alike (chunk : Chunk) {disk : Disk} {resolver : Resolver} {source : String}
    {path : Path} {id : String} {rewritten : Rewritten}
    (h : (Script.rewrite disk resolver source path id).result = .ok rewritten) :
    ((∀ module ∈ chunk.modules,
        Denotes (Bundle.key module).toList module.id ∧ ∃ before after, Bundle.render chunk =
          before ++ Bundle.key module ++ ": function (" ++ Bundle.parameters ++ ") \x7b\n" ++
            after) ∧
      Denotes (Bundle.key chunk.entryModule).toList chunk.entryModule.id ∧
      ∃ before, Bundle.render chunk = before ++ "  return " ++ Bundle.requireName ++ "(" ++
        Bundle.key chunk.entryModule ++ ");\n" ++ "\x7d)();\n") ∧
    ∃ program tree, Program.read (.ofPath path) source.toList = .ok program ∧
      rewritten.code = Program.render ⟨tree, program.comments⟩ (Dialect.ofPath path).markup ∧
      ∀ (place : List Nat) (call : Node), program.tree.at? place = some call →
        call.requires = true → ∃ (call' argument : Node) (target : String) (lone : Bool),
          tree.at? place = some call' ∧
          Redirected call call' target lone ∧ target ∈ rewritten.dependencies.keys ∧
          call'.argument? = some argument ∧
          (∀ around output,
            (((argument.annotate Layout.ofParts).write around).run output).2.reversed =
              (Quote.text target lone).reverse ++ output.reversed) ∧
          (Denotes (Quote.text target lone) target ↔
            (lone = true → ¬ HasMark target.toList)) := by
  constructor
  · refine ⟨fun module hm => ⟨denotes_jsonQuote module.id, Bundle.exists_render_eq_of_mem hm⟩,
      denotes_jsonQuote chunk.entryModule.id, Bundle.exists_render_eq chunk⟩
  · obtain ⟨program, tree, hread, htree, hcode, htable⟩ := Script.rewrite_eq_ok h
    refine ⟨program, tree, hread, hcode, ?_⟩
    intro place call hat hcall
    obtain ⟨call', target, lone, hat', hredirected, htarget⟩ :=
      Requirer.exists_redirected htree hat hcall
    obtain ⟨raw, hargument⟩ := hredirected.argument
    obtain ⟨argument, hsome, hkind⟩ := Option.map_eq_some_iff.mp hargument
    exact ⟨call', argument, target, lone, hat', hredirected, by rwa [htable], hsome,
      reversed_write_string hkind, denotes_text_iff⟩

/-- Whether a node is a literal that is written with marks. -/
def Script.Node.isLone (node : Node) : Bool :=
  match node.kind with
  | .string _ _ lone => lone
  | _ => false

set_option maxRecDepth 100000 in
/-- A literal that is not read as the id, as the key is: the specifier has half of a surrogate pair,
for which its text has a mark, and so has the name of the file. -/
theorem ids_read_alike_lone :
    let disk : Disk := ⟨⟨[(["r"], .directory), (["r", "\ufffdd800.js"], .file "".toUTF8)]⟩, []⟩
    let module : Module := ⟨"./\ufffdd800.js", ⟨"/r/\ufffdd800.js"⟩, ["main"], [], "", ""⟩
    ∃ rewritten, (Script.rewrite disk (.ofRoot ⟨"/r"⟩ [".js"]) "require('./\\ud800')" ⟨"/r/i.js"⟩
        "./i.js").result = .ok rewritten ∧
      rewritten.code = "__tinypack_require__(\"./\\ud800.js\");\n" ∧
      rewritten.dependencies.keys = [module.id] ∧
      Denotes (Bundle.key module).toList module.id ∧
      ¬ Denotes (Quote.text module.id true) module.id := by
  intro disk module
  let source : String := "require('./\\ud800')"
  let outcome := Script.rewrite disk (.ofRoot ⟨"/r"⟩ [".js"]) source ⟨"/r/i.js"⟩ "./i.js"
  have hok : outcome.result.isOk = true := by decide +kernel
  have hparts : outcome.result.toOption.map (fun rewritten =>
      (rewritten.code, rewritten.dependencies.keys)) =
        some ("__tinypack_require__(\"./\\ud800.js\");\n", [module.id]) := by
    decide +kernel
  have hcalls : ((Program.read (.ofPath ⟨"/r/i.js"⟩) source.toList).toOption.bind fun program =>
      (program.tree.at? [0, 0]).map fun call : Node =>
        (call.requires, call.argument?.map Node.isLone)) = some (true, some true) := by
    decide +kernel
  obtain ⟨rewritten, h⟩ := exists_eq_ok hok
  rw [h] at hparts
  obtain ⟨hcode, hkeys⟩ := Prod.mk.inj (Option.some.inj hparts)
  obtain ⟨⟨hregistry, -⟩, program, tree, hread, -, hrewritten⟩ :=
    ids_read_alike ⟨"main", module, [module]⟩ h
  rw [hread] at hcalls
  obtain ⟨call, hat, hcall⟩ := Option.map_eq_some_iff.mp hcalls
  obtain ⟨hrequires, hargument⟩ := Prod.mk.inj hcall
  obtain ⟨call', argument, target, lone, -, hredirected, htarget, -, -, hiff⟩ :=
    hrewritten [0, 0] call hat hrequires
  obtain ⟨text, raw, hspecifier⟩ := hredirected.specifier
  obtain ⟨specifier, hsome, hkind⟩ := Option.map_eq_some_iff.mp hspecifier
  have hlone : lone = true := by
    rw [hsome] at hargument
    simpa [Node.isLone, hkind] using hargument
  rw [hkeys] at htarget
  obtain rfl := List.mem_singleton.mp htarget
  subst hlone
  have hmark : HasMark module.id.toList :=
    ⟨['.', '/'], "d800.js".toList, by decide, by decide⟩
  exact ⟨rewritten, h, hcode, hkeys, (hregistry module List.mem_cons_self).1,
    fun hdenotes => hiff.mp hdenotes rfl hmark⟩

end Bundler
