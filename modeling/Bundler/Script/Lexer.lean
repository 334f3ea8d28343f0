import Bundler.Script.Comment
import Bundler.Script.Number
import Bundler.Script.Quoted
import Bundler.Script.Token

/-!
# Reading tokens

The next token of a text. What a slash begins, how a brace goes on with a template, and what
stands between markup depends on what the reader expects, so each has a function of its own.
-/

namespace Bundler.Script

/-- The sign at the front of a text, the longest one that fits, and its length. Signs that begin
with `>` are read one character at a time, because types close with it. -/
def scanSign : List Char → Option (Sign × Nat)
  | '\x7b' :: _ => some (.braceOpen, 1)
  | '\x7d' :: _ => some (.braceClose, 1)
  | '(' :: _ => some (.parenOpen, 1)
  | ')' :: _ => some (.parenClose, 1)
  | '[' :: _ => some (.bracketOpen, 1)
  | ']' :: _ => some (.bracketClose, 1)
  | ';' :: _ => some (.semicolon, 1)
  | ',' :: _ => some (.comma, 1)
  | ':' :: _ => some (.colon, 1)
  | '@' :: _ => some (.at, 1)
  | '~' :: _ => some (.tilde, 1)
  | '.' :: '.' :: '.' :: _ => some (.ellipsis, 3)
  | '.' :: _ => some (.dot, 1)
  | '?' :: '?' :: '=' :: _ => some (.questionQuestionEqual, 3)
  | '?' :: '?' :: _ => some (.questionQuestion, 2)
  | '?' :: '.' :: c :: _ => if c.isDigit then some (.question, 1) else some (.questionDot, 2)
  | '?' :: '.' :: [] => some (.questionDot, 2)
  | '?' :: _ => some (.question, 1)
  | '=' :: '=' :: '=' :: _ => some (.equalEqualEqual, 3)
  | '=' :: '=' :: _ => some (.equalEqual, 2)
  | '=' :: '>' :: _ => some (.arrow, 2)
  | '=' :: _ => some (.equal, 1)
  | '!' :: '=' :: '=' :: _ => some (.bangEqualEqual, 3)
  | '!' :: '=' :: _ => some (.bangEqual, 2)
  | '!' :: _ => some (.bang, 1)
  | '+' :: '+' :: _ => some (.plusPlus, 2)
  | '+' :: '=' :: _ => some (.plusEqual, 2)
  | '+' :: _ => some (.plus, 1)
  | '-' :: '-' :: _ => some (.minusMinus, 2)
  | '-' :: '=' :: _ => some (.minusEqual, 2)
  | '-' :: _ => some (.minus, 1)
  | '*' :: '*' :: '=' :: _ => some (.starStarEqual, 3)
  | '*' :: '*' :: _ => some (.starStar, 2)
  | '*' :: '=' :: _ => some (.starEqual, 2)
  | '*' :: _ => some (.star, 1)
  | '/' :: '=' :: _ => some (.slashEqual, 2)
  | '/' :: _ => some (.slash, 1)
  | '%' :: '=' :: _ => some (.percentEqual, 2)
  | '%' :: _ => some (.percent, 1)
  | '&' :: '&' :: '=' :: _ => some (.ampAmpEqual, 3)
  | '&' :: '&' :: _ => some (.ampAmp, 2)
  | '&' :: '=' :: _ => some (.ampEqual, 2)
  | '&' :: _ => some (.amp, 1)
  | '|' :: '|' :: '=' :: _ => some (.barBarEqual, 3)
  | '|' :: '|' :: _ => some (.barBar, 2)
  | '|' :: '=' :: _ => some (.barEqual, 2)
  | '|' :: _ => some (.bar, 1)
  | '^' :: '=' :: _ => some (.caretEqual, 2)
  | '^' :: _ => some (.caret, 1)
  | '<' :: '<' :: '=' :: _ => some (.shiftLeftEqual, 3)
  | '<' :: '<' :: _ => some (.shiftLeft, 2)
  | '<' :: '=' :: _ => some (.lessEqual, 2)
  | '<' :: _ => some (.less, 1)
  | '>' :: _ => some (.greater, 1)
  | _ => none

/-- The sign that begins with a `>` whose rest is given, and the length of the rest. -/
def scanGreater : List Char → Sign × Nat
  | '>' :: '>' :: '=' :: _ => (.shiftRightZeroEqual, 3)
  | '>' :: '>' :: _ => (.shiftRightZero, 2)
  | '>' :: '=' :: _ => (.shiftRightEqual, 2)
  | '>' :: _ => (.shiftRight, 1)
  | '=' :: _ => (.greaterEqual, 1)
  | _ => (.greater, 0)

/-- A token with what stands before it, and the place after it. -/
structure Lexeme where
  token : Token
  gap : Gap
  after : Cursor
  faults : List Nat

def templateKind (found : Scanned (List Char × Bool × TemplateEnd)) : TokenKind :=
  match found.value with
  | (text, ok, .backquote) => .template (String.ofList text) ok true
  | (text, ok, .expression) => .template (String.ofList text) ok false
  | (_, _, .missing) => .malformed

def templateFaults (start : Nat) (found : Scanned (List Char × Bool × TemplateEnd)) : List Nat :=
  match found.value with
  | (_, _, .missing) => [start]
  | _ => []

def scanToken (cursor : Cursor) : Scanned (TokenKind × Bool) :=
  match cursor.rest with
  | [] => ⟨(.endOfText, false), cursor, []⟩
  | c :: rest =>
    let after := cursor.past [c] rest
    if beginsName c || c == '\\' then
      let name := scanName cursor
      let text := String.ofList name.value.1
      if name.faults.isEmpty then
        ⟨(.name text (Word.ofName? text), name.value.2), name.after, []⟩
      else ⟨(.malformed, false), name.after, name.faults⟩
    else if c.isDigit || (c == '.' && (rest.head?.map Char.isDigit).getD false) then
      let number := scanNumber cursor
      let kind : TokenKind := match number.value with
        | some (.number value) => .number value
        | some (.bigInt value) => .bigInt value
        | none => .malformed
      ⟨(kind, false), number.after, number.faults⟩
    else if c == '"' || c == '\'' then
      let found := scanString c after
      let (units, raw, closed) := found.value
      let value := Unit16.text units
      if closed then
        ⟨(.string (String.ofList value.1) (String.ofList raw) value.2, false), found.after,
          found.faults⟩
      else ⟨(.malformed, false), found.after, found.faults ++ [cursor.offset]⟩
    else if c == '\x60' then
      let found := scanTemplate after
      ⟨(templateKind found, false), found.after, templateFaults cursor.offset found⟩
    else if c == '#' then
      let name := scanName after
      if name.value.1.isEmpty && name.faults.isEmpty then
        ⟨(.malformed, false), after, [after.offset]⟩
      else if name.faults.isEmpty then
        ⟨(.privateName (String.ofList name.value.1), false), name.after, []⟩
      else ⟨(.malformed, false), name.after, name.faults⟩
    else
      match scanSign cursor.rest with
      | some (sign, length) =>
        ⟨(.sign sign, false), ⟨cursor.rest.drop length, cursor.offset + length⟩, []⟩
      | none => ⟨(.malformed, false), after, [cursor.offset]⟩

def scanLexeme (place : GapPlace) (cursor : Cursor) : Lexeme :=
  let found := scanGap place cursor
  let gap := found.value
  let start := found.after.offset
  if found.faults.isEmpty then
    let inner := scanToken found.after
    let token : Token := ⟨inner.value.1, start, inner.after.offset, gap.hasBreak, inner.value.2,
      gap.effectFreeCall, gap.effectFreeFunction⟩
    ⟨token, gap, inner.after, inner.faults⟩
  else
    let stop := start + byteCount found.after.rest
    let token : Token := ⟨.malformed, start, stop, gap.hasBreak, false, false, false⟩
    ⟨token, gap, ⟨[], stop⟩, found.faults⟩

/-- Reads the rest of a regular expression after its slash: the pattern, whether it is closed,
and the place after it. -/
def scanPattern : List Char → Nat → Bool → Bool → List Char → Scanned (List Char × Bool)
  | [], offset, _, _, seen => ⟨(seen.reverse, false), ⟨[], offset⟩, []⟩
  | c :: rest, offset, escaped, inClass, seen =>
    let next := offset + c.utf8Size
    if isLineBreak c then ⟨(seen.reverse, false), ⟨c :: rest, offset⟩, []⟩
    else if escaped then scanPattern rest next false inClass (c :: seen)
    else if c = '/' && !inClass then ⟨(seen.reverse, true), ⟨rest, next⟩, []⟩
    else
      scanPattern rest next (c == '\\') (if c = '[' then true else if c = ']' then false
        else inClass) (c :: seen)

/-- Flags of regular expressions, in the order in which they are written. -/
def regexFlags : List Char := ['d', 'g', 'i', 'm', 's', 'u', 'v', 'y']

def flagFaults : List Char → Nat → List Char → List Nat
  | [], _, _ => []
  | c :: rest, offset, seen =>
    if regexFlags.contains c && !seen.contains c then flagFaults rest (offset + 1) (c :: seen)
    else (offset + 1) :: flagFaults rest (offset + 1) seen

def scanRegex (cursor : Cursor) : Scanned TokenKind :=
  let found := scanPattern (cursor.rest.drop 1) (cursor.offset + 1) false false []
  if found.value.2 then
    let isFlag (c : Char) : Bool := c.isAlphanum || c == '$' || c == '_'
    let flags := found.after.rest.takeWhile isFlag
    let after := found.after.past flags (found.after.rest.dropWhile isFlag)
    ⟨.regex (String.ofList found.value.1)
      (String.ofList (regexFlags.filter fun flag => flags.contains flag)), after,
      flagFaults flags found.after.offset []⟩
  else ⟨.regex (String.ofList found.value.1) "", found.after, [cursor.offset]⟩

/-- Reads text between markup, up to a brace or a tag. Closing signs have no place in it. -/
def scanMarkupText : List Char → Nat → List Char → List Nat → Scanned (List Char)
  | [], offset, seen, faults => ⟨seen.reverse, ⟨[], offset⟩, faults.reverse⟩
  | c :: rest, offset, seen, faults =>
    if c = '<' || c = '\x7b' then ⟨seen.reverse, ⟨c :: rest, offset⟩, faults.reverse⟩
    else
      scanMarkupText rest (offset + c.utf8Size) (c :: seen)
        (if c = '>' || c = '\x7d' then offset :: faults else faults)

end Bundler.Script
