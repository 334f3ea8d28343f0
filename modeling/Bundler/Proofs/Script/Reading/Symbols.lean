import Bundler.Proofs.Script.Literal

/-! What a text consists of, seen from its front: tokens that are read the same way wherever the
text stands. A lexer for plain words and signs computes them for the fixed parts of a text. -/

namespace Bundler.Script

/-- What a reader sees of a token: its kind, and whether a line break stands before it. -/
structure Sight where
  kind : TokenKind
  afterBreak : Bool
deriving DecidableEq

namespace Sight

def token (sight : Sight) (start stop : Nat) : Token :=
  ⟨sight.kind, start, stop, sight.afterBreak, false, false, false⟩

abbrev sign (sign : Sign) : Sight := ⟨.sign sign, false⟩

abbrev name (text : String) : Sight := ⟨.name text none, false⟩

abbrev word (text : String) (word : Word) : Sight := ⟨.name text (some word), false⟩

/-- The token after a line break. -/
abbrev broken (sight : Sight) : Sight := { sight with afterBreak := true }

end Sight

/-- A text begins with a token, wherever it stands, and goes on with another text. -/
def Scans (text : List Char) (sight : Sight) (rest : List Char) : Prop :=
  ∀ place offset, ∃ start, (scanLexeme place ⟨text, offset⟩).faults = [] ∧
    (scanLexeme place ⟨text, offset⟩).after.rest = rest ∧
    (scanLexeme place ⟨text, offset⟩).token =
      sight.token start (scanLexeme place ⟨text, offset⟩).after.offset

/-- The token as it is scanned when nothing but blanks stands before it. -/
def Sight.lexeme (sight : Sight) (start : Nat) (after : Cursor) : Lexeme :=
  ⟨sight.token start after.offset, ⟨[], sight.afterBreak, false, false, none, []⟩, after, []⟩

/-- At a place a token is scanned with nothing but blanks before it. -/
def Meets (cursor : Cursor) (sight : Sight) (start : Nat) (after : Cursor) : Prop :=
  ∀ place, scanLexeme place cursor = sight.lexeme start after

/-- A text begins with a token behind nothing but blanks, wherever it stands, and goes on with
another text. -/
def Leads (text : List Char) (sight : Sight) (rest : List Char) : Prop :=
  ∀ offset, ∃ start stop, Meets ⟨text, offset⟩ sight start ⟨rest, stop⟩

theorem Leads.scans {text rest : List Char} {sight : Sight} (h : Leads text sight rest) :
    Scans text sight rest := by
  intro place offset
  obtain ⟨start, stop, hmeets⟩ := h offset
  rw [hmeets place]
  exact ⟨start, rfl, rfl, rfl⟩

/-- A text begins with characters that make up one token, and goes on with another text. -/
def Spells (text : List Char) (kind : TokenKind) (rest : List Char) : Prop :=
  ∀ offset, ∃ stop, scanToken ⟨text, offset⟩ = ⟨(kind, false), ⟨rest, stop⟩, []⟩

/-! ### Gaps -/

def isGap (c : Char) : Bool := isLineBreak c || isBlank c

/-- A character that a token begins with and no comment. -/
def opensToken (c : Char) : Bool := !isGap c && c != '/' && c != '<' && c != '-'

section Gaps

theorem scanGapFrom_gap {front : List Char} (rest : List Char)
    (hfront : front.all isGap = true) (offset : Nat) : ∃ stop, ∀ (place : GapPlace)
      (state : GapState), state.pending = [] → ∃ ended,
        scanGapFrom place (front ++ rest) 0 offset state = scanGapFrom place rest 0 stop
          { state with
            lineEnded := ended
            hasBreak := state.hasBreak || front.any isLineBreak } := by
  induction front generalizing offset with
  | nil => exact ⟨offset, fun _ state _ => ⟨state.lineEnded, by simp⟩⟩
  | cons c front ih =>
      rw [List.all_cons, Bool.and_eq_true] at hfront
      obtain ⟨stop, ih⟩ := ih hfront.2 (offset + c.utf8Size)
      refine ⟨stop, fun place state hpending => ?_⟩
      rw [List.cons_append, scanGapFrom, List.any_cons]
      by_cases hbreak : isLineBreak c = true
      · rw [if_pos hbreak, hbreak]
        obtain ⟨ended, h⟩ := ih place state.endLine (by simp [GapState.endLine, hpending])
        refine ⟨ended, h.trans ?_⟩
        simp [GapState.endLine, hpending]
      · have hblank : isBlank c = true := by simpa [isGap, hbreak] using hfront.1
        rw [if_neg hbreak, if_pos hblank]
        obtain ⟨ended, h⟩ := ih place state hpending
        exact ⟨ended, by simp [h, hbreak]⟩

theorem scanGapFrom_token {place : GapPlace} {rest : List Char} {c : Char}
    (hc : opensToken c = true) (offset : Nat) (state : GapState) :
    scanGapFrom place (c :: rest) 0 offset state = ⟨state, ⟨c :: rest, offset⟩, []⟩ := by
  simp only [opensToken, isGap, Bool.and_eq_true, Bool.not_eq_true', Bool.or_eq_false_iff,
    bne_iff_ne] at hc
  obtain ⟨⟨⟨⟨hbreak, hblank⟩, hslash⟩, hless⟩, hminus⟩ := hc
  rw [scanGapFrom, if_neg (by simp [hbreak]), if_neg (by simp [hblank])]
  simp [frontComment?, hslash, hless, hminus]

/-- What is read behind blanks and line breaks. -/
theorem exists_scanLexeme_gap {front text : List Char} {c : Char} (hc : opensToken c = true)
    (hfront : front.all isGap = true) (offset : Nat) : ∃ start, ∀ place,
      scanLexeme place ⟨front ++ c :: text, offset⟩ =
        ⟨⟨(scanToken ⟨c :: text, start⟩).value.1, start,
            (scanToken ⟨c :: text, start⟩).after.offset, front.any isLineBreak,
            (scanToken ⟨c :: text, start⟩).value.2, false, false⟩,
          ⟨[], front.any isLineBreak, false, false, none, []⟩,
          (scanToken ⟨c :: text, start⟩).after, (scanToken ⟨c :: text, start⟩).faults⟩ := by
  obtain ⟨start, hgap⟩ := scanGapFrom_gap (c :: text) hfront offset
  refine ⟨start, fun place => ?_⟩
  obtain ⟨ended, hgap⟩ := hgap place ⟨[], place.isFirst, false, false, false, none, []⟩ rfl
  simp [scanLexeme, scanGap, hgap, scanGapFrom_token hc]

/-- The end of a text behind blanks and line breaks. -/
theorem leads_end {front : List Char} (hfront : front.all isGap = true) :
    Leads front ⟨.endOfText, front.any isLineBreak⟩ [] := by
  intro offset
  obtain ⟨stop, hgap⟩ := scanGapFrom_gap [] hfront offset
  refine ⟨stop, stop, fun place => ?_⟩
  obtain ⟨ended, hgap⟩ := hgap place ⟨[], place.isFirst, false, false, false, none, []⟩ rfl
  rw [List.append_nil, scanGapFrom] at hgap
  simp [scanLexeme, scanGap, hgap, scanToken, Sight.lexeme, Sight.token]

end Gaps

/-- A token behind blanks and line breaks. -/
theorem Spells.leads {front text rest : List Char} {c : Char} {kind : TokenKind}
    (h : Spells (c :: text) kind rest) (hc : opensToken c = true)
    (hfront : front.all isGap = true) :
    Leads (front ++ c :: text) ⟨kind, front.any isLineBreak⟩ rest := by
  intro offset
  obtain ⟨start, hscan⟩ := @exists_scanLexeme_gap front text c hc hfront offset
  obtain ⟨stop, htoken⟩ := h start
  refine ⟨start, stop, fun place => ?_⟩
  rw [hscan place, htoken]
  rfl

/-! ### Words, signs and strings -/

/-- A character that stays in a plain name. -/
def staysInName (c : Char) : Bool := continuesName c && c != '\\'

theorem scanNameFrom_plain {name rest : List Char} (hname : name.all staysInName = true)
    (hrest : ∀ c ∈ rest.head?, continuesName c = false ∧ c ≠ '\\') (offset : Nat)
    {seen : List Char} (hseen : seen ≠ []) : ∃ stop,
      scanNameFrom (name ++ rest) 0 offset seen false =
        ⟨(seen.reverse ++ name, false), ⟨rest, stop⟩, []⟩ := by
  induction name generalizing offset seen with
  | nil =>
      cases rest with
      | nil => exact ⟨offset, by simp [scanNameFrom]⟩
      | cons c rest =>
          obtain ⟨hc, hback⟩ := hrest c rfl
          exact ⟨offset, by simp [scanNameFrom, mayStand, hseen, hc, hback]⟩
  | cons c name ih =>
      rw [List.all_cons, Bool.and_eq_true, staysInName, Bool.and_eq_true, bne_iff_ne] at hname
      obtain ⟨⟨hc, hback⟩, hname⟩ := hname
      obtain ⟨stop, h⟩ := ih hname (offset + c.utf8Size) (List.cons_ne_nil c seen)
      exact ⟨stop, by simp [scanNameFrom, mayStand, hseen, hc, hback, h]⟩

theorem spells_name {c : Char} {name rest : List Char} (hc : beginsName c = true)
    (hback : c ≠ '\\') (hname : name.all staysInName = true)
    (hrest : ∀ d ∈ rest.head?, continuesName d = false ∧ d ≠ '\\') :
    Spells (c :: (name ++ rest))
      (.name (String.ofList (c :: name)) (Word.ofName? (String.ofList (c :: name)))) rest := by
  intro offset
  obtain ⟨stop, h⟩ := scanNameFrom_plain hname hrest (offset + c.utf8Size) (List.cons_ne_nil c [])
  refine ⟨stop, ?_⟩
  simp [scanToken, scanName, scanNameFrom, mayStand, hc, hback, h]

/-- Signs that are read as they stand, whatever follows. -/
def soleSigns : List Char := ['\x7b', '\x7d', '(', ')', '[', ']', ';', ',', ':']

/-- Signs that are read as they stand, unless what follows belongs to them. -/
def looseSigns : List Char := ['.', '=', '!', '+']

/-- A character that does not go on with a loose sign. -/
def endsSign (c : Char) : Bool := !c.isDigit && !(['.', '=', '>', '+'].contains c)

theorem spells_sole {c : Char} (hc : c ∈ soleSigns) (rest : List Char) :
    ∃ sign, scanSign [c] = some (sign, 1) ∧ Spells (c :: rest) (.sign sign) rest := by
  simp only [soleSigns, List.mem_cons, List.not_mem_nil, or_false] at hc
  rcases hc with rfl | rfl | rfl | rfl | rfl | rfl | rfl | rfl | rfl <;>
    exact ⟨_, rfl, fun offset => ⟨offset + 1, rfl⟩⟩

theorem spells_loose {c d : Char} (hc : c ∈ looseSigns) (hd : endsSign d = true)
    (rest : List Char) : ∃ sign, scanSign [c] = some (sign, 1) ∧
      Spells (c :: d :: rest) (.sign sign) (d :: rest) := by
  simp only [endsSign, Bool.and_eq_true, Bool.not_eq_true', List.contains_eq_mem,
    List.mem_cons, List.not_mem_nil, or_false, decide_eq_false_iff_not, not_or] at hd
  obtain ⟨hdigit, hdot, hequal, hgreater, hplus⟩ := hd
  simp only [looseSigns, List.mem_cons, List.not_mem_nil, or_false] at hc
  have hname : c ∈ ['.', '=', '!', '+'] → beginsName c = false := by
    simp only [List.mem_cons, List.not_mem_nil, or_false]
    rintro (rfl | rfl | rfl | rfl) <;> decide
  rcases hc with rfl | rfl | rfl | rfl <;>
    refine ⟨_, rfl, fun offset => ⟨offset + 1, ?_⟩⟩ <;>
    simp [scanToken, scanSign, hname, hdot, hequal, hgreater, hplus, hdigit]

/-- A literal that is closed leaves its characters as they were written. -/
theorem scanStringFrom_raw {quote : Char} {input : List Char} {skip offset : Nat}
    {parts : StringParts} {units : List Unit16} {raw : List Char} {after : Cursor}
    {faults : List Nat}
    (h : scanStringFrom quote input skip offset parts = ⟨(units, raw, true), after, faults⟩) :
    raw ++ quote :: after.rest = parts.raw.reverse ++ input := by
  induction input generalizing skip offset parts with
  | nil => simp [scanStringFrom] at h
  | cons c rest ih =>
      cases skip with
      | succ skip => simpa [StringParts.addRaw] using ih h
      | zero =>
          rw [scanStringFrom] at h
          split at h
          · rename_i hback
            have hraw := ih h
            subst hback
            cases hunits : (Escape.scan false rest).units <;>
              simpa [StringParts.addEscape, StringParts.addRaw, hunits] using hraw
          · split at h
            · rename_i hquote
              simp only [Scanned.mk.injEq, Prod.mk.injEq, and_true] at h
              obtain ⟨⟨-, rfl⟩, rfl, -⟩ := h
              rw [hquote]
            · split at h
              · simp at h
              · simpa [StringParts.addChar] using ih h

theorem spells_jsonQuote (value : String) (rest : List Char) :
    Spells ((Json.quote value).toList ++ rest)
      (.string value (String.ofList (value.toList.flatMap Json.escapeChar)) false) rest := by
  have htext : (Json.quote value).toList ++ rest =
      '"' :: (value.toList.flatMap Json.escapeChar ++ '"' :: rest) := by
    simp [Json.quote, Json.quoteChars]
  rw [htext]
  intro offset
  obtain ⟨stop, raw, hadds⟩ :=
    adds_quoteChars value.toList ('"' :: rest) (offset + byteCount ['"']) ⟨[], [], []⟩
  have hscan : scanStringFrom '"' (value.toList.flatMap Json.escapeChar ++ '"' :: rest) 0
      (offset + byteCount ['"']) ⟨[], [], []⟩ =
      ⟨(value.toList.map Unit16.char, raw.reverse, true), ⟨rest, stop + 1⟩, []⟩ := by
    rw [hadds]
    simp [scanStringFrom]
  have hraw : raw.reverse = value.toList.flatMap Json.escapeChar := by
    simpa using scanStringFrom_raw hscan
  have hunits : Unit16.text (value.toList.map Unit16.char) = (value.toList, false) := by
    simp [Unit16.text, Unit16.isHalf, Unit16.plain, List.flatMap_map]
  refine ⟨stop + 1, ?_⟩
  rw [scanToken_quote]
  simp [hscan, hunits, hraw]

/-- A character that stands for itself in a literal. -/
def staysInLiteral (c : Char) : Bool := Json.escapeChar c == [c]

theorem spells_plainLiteral {value : List Char} (h : value.all staysInLiteral = true)
    (rest : List Char) : Spells ('"' :: value ++ '"' :: rest)
      (.string (String.ofList value) (String.ofList value) false) rest := by
  have hsame : value.flatMap Json.escapeChar = value := by
    induction value with
    | nil => rfl
    | cons c value ih =>
        rw [List.all_cons, Bool.and_eq_true] at h
        rw [List.flatMap_cons, eq_of_beq h.1, ih h.2, List.singleton_append]
  have hspells := spells_jsonQuote (String.ofList value) rest
  simpa [Json.quote, Json.quoteChars, hsame] using hspells

/-! ### A lexer for plain text -/

/-- What a character and the text behind it begin with, if that is a plain word, sign or literal,
and the rest. -/
def plainKind (c : Char) (text : List Char) : Option (TokenKind × List Char) :=
  if soleSigns.contains c || looseSigns.contains c && text.head?.any endsSign then
    (scanSign [c]).map fun found => (.sign found.1, text)
  else if beginsName c && c != '\\' then
    let name := String.ofList (c :: text.takeWhile staysInName)
    match text.dropWhile staysInName with
    | [] => none
    | d :: rest => if d = '\\' then none else some (.name name (Word.ofName? name), d :: rest)
  else if c = '"' then
    let value := String.ofList (text.takeWhile staysInLiteral)
    match text.dropWhile staysInLiteral with
    | [] => none
    | d :: rest => if d = '"' then some (.string value value false, rest) else none
  else none

/-- The first token of a text, if it is a plain word, sign or literal, and the rest. -/
def plainToken (text : List Char) : Option (Sight × List Char) :=
  match text.dropWhile isGap with
  | [] => none
  | c :: rest =>
    if opensToken c then
      (plainKind c rest).map fun found =>
        (⟨found.1, (text.takeWhile isGap).any isLineBreak⟩, found.2)
    else none

/-- Plain tokens, at most as many as a number says, and the rest of the text. -/
def plainTokens : Nat → List Char → List Sight × List Char
  | 0, text => ([], text)
  | count + 1, text =>
    match plainToken text with
    | some (sight, rest) => ((sight :: (plainTokens count rest).1), (plainTokens count rest).2)
    | none => ([], text)

/-- A word up to a character that is no part of it. -/
theorem spells_takeWhile_name {c d : Char} {text tail : List Char} (hbegins : beginsName c = true)
    (hback : c ≠ '\\') (hdrop : text.dropWhile staysInName = d :: tail) (hd : d ≠ '\\')
    (more : List Char) :
    Spells (c :: (text ++ more))
      (.name (String.ofList (c :: text.takeWhile staysInName))
        (Word.ofName? (String.ofList (c :: text.takeWhile staysInName))))
      (d :: tail ++ more) := by
  have hstop : staysInName d = false := by
    have := List.head?_dropWhile_not staysInName text
    simpa [hdrop] using this
  have hends : continuesName d = false := by simpa [staysInName, hd] using hstop
  have htext : text ++ more = text.takeWhile staysInName ++ (d :: tail ++ more) := by
    rw [← hdrop, ← List.append_assoc, List.takeWhile_append_dropWhile]
  rw [htext]
  refine spells_name hbegins hback (by simp) fun e he => ?_
  obtain rfl : d = e := by simpa using he
  exact ⟨hends, hd⟩

/-- A literal up to its closing quote. -/
theorem spells_takeWhile_literal {text tail : List Char}
    (hdrop : text.dropWhile staysInLiteral = '"' :: tail) (more : List Char) :
    Spells ('"' :: (text ++ more))
      (.string (String.ofList (text.takeWhile staysInLiteral))
        (String.ofList (text.takeWhile staysInLiteral)) false)
      (tail ++ more) := by
  have htext : text ++ more = text.takeWhile staysInLiteral ++ '"' :: (tail ++ more) := by
    rw [← List.cons_append, ← hdrop, ← List.append_assoc, List.takeWhile_append_dropWhile]
  rw [htext]
  exact spells_plainLiteral (by simp) _

theorem spells_of_plainKind {c : Char} {text rest : List Char} {kind : TokenKind}
    (h : plainKind c text = some (kind, rest)) (more : List Char) :
    Spells (c :: (text ++ more)) kind (rest ++ more) := by
  unfold plainKind at h
  extract_lets name at h
  split at h
  · rename_i hc
    rw [Bool.or_eq_true, Bool.and_eq_true, List.contains_iff_mem, List.contains_iff_mem] at hc
    obtain ⟨sign, hsign, hspells⟩ : ∃ sign, scanSign [c] = some (sign, 1) ∧
        Spells (c :: (text ++ more)) (.sign sign) (text ++ more) := by
      rcases hc with hc | ⟨hc, hends⟩
      · exact spells_sole hc _
      · cases text with
        | nil => simp at hends
        | cons d text => exact spells_loose hc (by simpa using hends) _
    rw [hsign] at h
    simp only [Option.map_some, Option.some.injEq, Prod.mk.injEq] at h
    obtain ⟨rfl, rfl⟩ := h
    exact hspells
  · split at h
    · rename_i hc
      rw [Bool.and_eq_true, bne_iff_ne] at hc
      split at h
      · cases h
      · rename_i d tail hdrop
        split at h
        · cases h
        · rename_i hback
          obtain ⟨rfl, rfl⟩ := Prod.mk.inj (Option.some.inj h)
          exact spells_takeWhile_name hc.1 hc.2 hdrop hback more
    · split at h
      · rename_i hquote
        split at h
        · cases h
        · rename_i d tail hdrop
          split at h
          · rename_i hclose
            obtain ⟨rfl, rfl⟩ := Prod.mk.inj (Option.some.inj h)
            subst hquote hclose
            exact spells_takeWhile_literal hdrop more
          · cases h
      · cases h

theorem leads_of_plainToken {text rest : List Char} {sight : Sight}
    (h : plainToken text = some (sight, rest)) (more : List Char) :
    Leads (text ++ more) sight (rest ++ more) := by
  have hparts : text.takeWhile isGap ++ text.dropWhile isGap = text :=
    List.takeWhile_append_dropWhile
  unfold plainToken at h
  split at h
  · simp at h
  · rename_i c tail hdrop
    split at h
    · rename_i hc
      obtain ⟨⟨kind, rest'⟩, hkind, hsome⟩ := Option.map_eq_some_iff.mp h
      simp only [Prod.mk.injEq] at hsome
      obtain ⟨rfl, rfl⟩ := hsome
      have htext : text ++ more = text.takeWhile isGap ++ c :: (tail ++ more) := by
        rw [← List.cons_append, ← hdrop, ← List.append_assoc, hparts]
      rw [htext]
      exact (spells_of_plainKind hkind more).leads hc (by simp)
    · simp at h

/-! ### Symbols -/

/-- A piece of a text: a token, the body of a function from behind its opening brace up to its
closing one, or something that is no token. -/
inductive Symbol where
  | token (sight : Sight)
  | block (code : List Char)
  | wrong

namespace Symbol

abbrev sign (sign : Sign) : Symbol := .token (.sign sign)

abbrev name (text : String) : Symbol := .token (.name text)

end Symbol

/-- The lines that a bundle puts a body between: what follows its opening brace. -/
def enclosed (code : List Char) : List Char := '\n' :: code ++ "    \x7d".toList

/-- A text begins with some symbols. -/
def Spans : List Symbol → List Char → Prop
  | [], _ => True
  | .token sight :: more, text => ∃ rest, Scans text sight rest ∧ Spans more rest
  | .block code :: more, text => ∃ rest, text = enclosed code ++ rest ∧ Spans more rest
  | .wrong :: _, text => ∀ place offset,
    (scanLexeme place ⟨text, offset⟩).token.kind = .malformed

/-- The plain tokens at the front of a text, with what stands behind them. -/
theorem spans_of_plainTokens {count : Nat} {text rest more : List Char} {sights : List Sight}
    {symbols : List Symbol} (h : plainTokens count text = (sights, rest))
    (hrest : Spans symbols (rest ++ more)) :
    Spans (sights.map .token ++ symbols) (text ++ more) := by
  induction count generalizing text sights with
  | zero =>
      obtain ⟨rfl, rfl⟩ := Prod.mk.inj h
      exact hrest
  | succ count ih =>
      rw [plainTokens] at h
      split at h
      · rename_i sight middle hfirst
        obtain ⟨rfl, hmiddle⟩ := Prod.mk.inj h
        exact ⟨middle ++ more, (leads_of_plainToken hfirst more).scans, ih (Prod.ext rfl hmiddle)⟩
      · obtain ⟨rfl, rfl⟩ := Prod.mk.inj h
        exact hrest

/-- A text of plain tokens alone. -/
theorem spans_plain {count : Nat} {text more : List Char} {sights : List Sight}
    {symbols : List Symbol} (h : plainTokens count text = (sights, []))
    (hmore : Spans symbols more) : Spans (sights.map .token ++ symbols) (text ++ more) :=
  spans_of_plainTokens h hmore

end Bundler.Script
