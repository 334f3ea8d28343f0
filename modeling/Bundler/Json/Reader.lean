import Bundler.Json.Basic
import Bundler.Text.Hex

/-!
# Reading JSON

A document is read from left to right. The first thing that is wrong is reported with its line
and its column, the column counting bytes.
-/

namespace Bundler

/-- What is wrong with a JSON document. -/
inductive JsonProblem where
  | endInList
  | endInObject
  | endInString
  | endInValue
  | expectedColon
  | expectedListEnd
  | expectedObjectEnd
  | expectedIdent
  | expectedValue
  | invalidEscape
  | invalidNumber
  | numberOutOfRange
  | controlCharacter
  | keyNotString
  | loneSurrogate
  | trailingComma
  | trailingCharacters
  | endInEscape
  | tooDeep
deriving DecidableEq, Repr, Inhabited

namespace JsonProblem

def message : JsonProblem → String
  | endInList => "EOF while parsing a list"
  | endInObject => "EOF while parsing an object"
  | endInString => "EOF while parsing a string"
  | endInValue => "EOF while parsing a value"
  | expectedColon => "expected `:`"
  | expectedListEnd => "expected `,` or `]`"
  | expectedObjectEnd => "expected `,` or `\x7d`"
  | expectedIdent => "expected ident"
  | expectedValue => "expected value"
  | invalidEscape => "invalid escape"
  | invalidNumber => "invalid number"
  | numberOutOfRange => "number out of range"
  | controlCharacter => "control character (\\u0000-\\u001F) found while parsing a string"
  | keyNotString => "key must be a string"
  | loneSurrogate => "lone leading surrogate in hex escape"
  | trailingComma => "trailing comma"
  | trailingCharacters => "trailing characters"
  | endInEscape => "unexpected end of hex escape"
  | tooDeep => "recursion limit exceeded"

end JsonProblem

namespace Json.Reader

/-- A place in a document: the characters to come and the bytes before them. -/
structure Cursor where
  rest : List Char
  index : Nat
deriving Inhabited

/-- A problem and the bytes before its place. -/
structure Fault where
  problem : JsonProblem
  index : Nat
deriving Inhabited

namespace Cursor

def next (here : Cursor) : Cursor :=
  match here.rest with
  | [] => here
  | c :: rest => ⟨rest, here.index + c.utf8Size⟩

def fault {α : Type} (here : Cursor) (problem : JsonProblem) : Except Fault α :=
  .error ⟨problem, here.index⟩

def faultNext {α : Type} (here : Cursor) (problem : JsonProblem) : Except Fault α :=
  .error ⟨problem, if here.rest.isEmpty then here.index else here.index + 1⟩

end Cursor

def skipBlanks : List Char → Nat → Cursor
  | ' ' :: rest, index => skipBlanks rest (index + 1)
  | '\n' :: rest, index => skipBlanks rest (index + 1)
  | '\t' :: rest, index => skipBlanks rest (index + 1)
  | '\r' :: rest, index => skipBlanks rest (index + 1)
  | rest, index => ⟨rest, index⟩

def Cursor.skip (here : Cursor) : Cursor :=
  skipBlanks here.rest here.index

def ident : List Char → Cursor → Except Fault Cursor
  | [], here => .ok here
  | expected :: more, here =>
    match here.rest with
    | [] => here.fault .endInValue
    | c :: _ =>
      if c = expected then ident more here.next
      else .error ⟨.expectedIdent, here.index + 1⟩

def byteCount (text : List Char) : Nat :=
  text.foldl (fun size c => size + c.utf8Size) 0

def hexEscape (here : Cursor) : Except Fault (Nat × Cursor) :=
  let invalid : Except Fault (Nat × Cursor) :=
    if byteCount here.rest < 4 then .error ⟨.endInString, here.index + byteCount here.rest⟩
    else .error ⟨.invalidEscape, here.index + 4⟩
  match here.rest with
  | a :: b :: c :: d :: rest =>
    match Text.hexValue? a, Text.hexValue? b, Text.hexValue? c, Text.hexValue? d with
    | some a, some b, some c, some d =>
      .ok (((a * 16 + b) * 16 + c) * 16 + d, ⟨rest, here.index + 4⟩)
    | _, _, _, _ => invalid
  | _ => invalid

def pairChar (expected : Char) (here : Cursor) : Except Fault Cursor :=
  match here.rest with
  | [] => here.fault .endInString
  | c :: _ =>
    if c = expected then .ok here.next else .error ⟨.endInEscape, here.index + 1⟩

/-- Reads a character given by its code, or by a pair of surrogate codes. -/
def unicodeEscape (here : Cursor) : Except Fault (Char × Cursor) := do
  let (first, here) ← hexEscape here
  if 0xDC00 ≤ first ∧ first ≤ 0xDFFF then here.fault .loneSurrogate
  else if first < 0xD800 ∨ 0xDBFF < first then .ok (Char.ofNat first, here)
  else
    let here ← pairChar '\\' here
    let here ← pairChar 'u' here
    let (second, here) ← hexEscape here
    if second < 0xDC00 ∨ 0xDFFF < second then here.fault .loneSurrogate
    else
      .ok (Char.ofNat ((first - 0xD800) * 0x400 + (second - 0xDC00) + 0x10000), here)

def escape (here : Cursor) : Except Fault (Char × Cursor) :=
  match here.rest with
  | [] => here.fault .endInString
  | c :: _ =>
    let here := here.next
    match c with
    | '"' => .ok ('"', here)
    | '\\' => .ok ('\\', here)
    | '/' => .ok ('/', here)
    | 'b' => .ok ('\x08', here)
    | 'f' => .ok ('\x0c', here)
    | 'n' => .ok ('\n', here)
    | 'r' => .ok ('\r', here)
    | 't' => .ok ('\t', here)
    | 'u' => unicodeEscape here
    | _ =>
      -- One byte of the character has been looked at.
      .error ⟨.invalidEscape, here.index - c.utf8Size + 1⟩

/-- Reads a string up to its closing quote; `fuel` bounds its characters. -/
def stringFrom : Nat → List Char → Cursor → Except Fault (String × Cursor)
  | 0, _, here => here.fault .endInString
  | fuel + 1, seen, here =>
    match here.rest with
    | [] => here.fault .endInString
    | '"' :: _ => .ok (String.ofList seen.reverse, here.next)
    | '\\' :: _ => do
      let (c, here) ← escape here.next
      stringFrom fuel (c :: seen) here
    | c :: _ =>
      if c.toNat < 32 then .error ⟨.controlCharacter, here.index + 1⟩
      else stringFrom fuel (c :: seen) here.next

def string (here : Cursor) : Except Fault (String × Cursor) :=
  stringFrom (here.rest.length + 1) [] here

/-- The greatest significand of a number; digits behind it do not count. -/
def maxSignificand : Nat := Nat.pow 2 64 - 1

/-- Adds digits to a significand up to the first with which it becomes too great, and counts
them. -/
def digits : Nat → Nat → List Char → Nat → Nat × Nat × Cursor
  | value, count, c :: rest, index =>
      let next := value * 10 + (c.toNat - '0'.toNat)
      if c.isDigit && decide (next ≤ maxSignificand) then digits next (count + 1) rest (index + 1)
      else (value, count, ⟨c :: rest, index⟩)
  | value, count, [], index => (value, count, ⟨[], index⟩)

def skipDigits : Nat → List Char → Nat → Nat × Cursor
  | count, c :: rest, index =>
      if c.isDigit then skipDigits (count + 1) rest (index + 1) else (count, ⟨c :: rest, index⟩)
  | count, [], index => (count, ⟨[], index⟩)

/-- The value of a number with a fraction or an exponent. The significand is rounded before it is
scaled. -/
def realNumber (isNegative : Bool) (significand : Nat) (exponent : Int) (here : Cursor) :
    Except Fault (JsonNumber × Cursor) :=
  match Decimal.Binary64.scaled 4 (.ofRatio significand 1) exponent with
  | none => here.fault .numberOutOfRange
  | some value => .ok (.real isNegative value, here)

def maxExponent : Nat := 2147483647

/-- Splits the digits of an exponent off, up to the one with which it becomes too great, if there
is such a digit. -/
def exponentDigits : Nat → List Char → Nat → Nat × Bool × Cursor
  | value, c :: rest, index =>
      let next := value * 10 + (c.toNat - '0'.toNat)
      if !c.isDigit then (value, false, ⟨c :: rest, index⟩)
      else if maxExponent < next then (value, true, ⟨rest, index + 1⟩)
      else exponentDigits next rest (index + 1)
  | value, [], index => (value, false, ⟨[], index⟩)

def exponent (isNegative : Bool) (significand : Nat) (scale : Int) (here : Cursor) :
    Except Fault (JsonNumber × Cursor) :=
  let here := here.next
  let (down, here) :=
    match here.rest with
    | '+' :: _ => (false, here.next)
    | '-' :: _ => (true, here.next)
    | _ => (false, here)
  match here.rest with
  | [] => here.fault .endInValue
  | c :: _ =>
    if c.isDigit then
      let (value, isTooGreat, after) := exponentDigits 0 here.rest here.index
      if isTooGreat then
        if significand ≠ 0 ∧ !down then after.fault .numberOutOfRange
        else
          let (_, after) := skipDigits 0 after.rest after.index
          .ok (.real isNegative .zero, after)
      else realNumber isNegative significand (if down then scale - value else scale + value) after
    else .error ⟨.invalidNumber, here.index + 1⟩

/-- Reads what follows the whole part of a number, of which `dropped` digits did not count. -/
def fraction (isNegative : Bool) (whole dropped : Nat) (here : Cursor) :
    Except Fault (JsonNumber × Cursor) :=
  match here.rest with
  | '.' :: _ =>
    let here := here.next
    let (value, count, after) := digits whole 0 here.rest here.index
    let (more, after) := skipDigits 0 after.rest after.index
    let scale : Int := dropped - count
    if count + more = 0 then
      if here.rest.isEmpty then here.fault .endInValue else here.faultNext .invalidNumber
    else
      match after.rest with
      | 'e' :: _ => exponent isNegative value scale after
      | 'E' :: _ => exponent isNegative value scale after
      | _ => realNumber isNegative value scale after
  | 'e' :: _ => exponent isNegative whole dropped here
  | 'E' :: _ => exponent isNegative whole dropped here
  | _ =>
    if 0 < dropped then realNumber isNegative whole dropped here
    else if isNegative then
      if whole = 0 ∨ Nat.pow 2 63 < whole then realNumber true whole 0 here
      else .ok (.negative whole, here)
    else .ok (.natural whole, here)

def number (isNegative : Bool) (here : Cursor) : Except Fault (JsonNumber × Cursor) :=
  match here.rest with
  | [] => here.fault .endInValue
  | '0' :: _ =>
    let here := here.next
    match here.rest with
    | c :: _ => if c.isDigit then here.faultNext .invalidNumber else fraction isNegative 0 0 here
    | [] => fraction isNegative 0 0 here
  | c :: _ =>
    if c.isDigit then
      let (value, _, after) := digits 0 0 here.rest here.index
      let (dropped, after) := skipDigits 0 after.rest after.index
      fraction isNegative value dropped after
    else .error ⟨.invalidNumber, here.index + 1⟩

/-- Reads the items of an array up to its bracket; `fuel` bounds their number. -/
def items (item : Cursor → Except Fault (Json × Cursor)) :
    Nat → Bool → Cursor → Except Fault (List Json × Cursor)
  | 0, _, here => here.fault .endInList
  | fuel + 1, isFirst, here =>
    let here := here.skip
    let continueWith (here : Cursor) : Except Fault (List Json × Cursor) := do
      let (value, here) ← item here
      let (more, here) ← items item fuel false here
      return (value :: more, here)
    match here.rest with
    | [] => here.faultNext .endInList
    | ']' :: _ => .ok ([], here.next)
    | c :: _ =>
      if isFirst then continueWith here
      else if c = ',' then
        let here := here.next.skip
        match here.rest with
        | [] => here.faultNext .endInValue
        | ']' :: _ => here.faultNext .trailingComma
        | _ => continueWith here
      else here.faultNext .expectedListEnd

/-- Reads the fields of an object up to its brace; `fuel` bounds their number. -/
def fields (item : Cursor → Except Fault (Json × Cursor)) :
    Nat → Bool → Cursor → Except Fault (List (String × Json) × Cursor)
  | 0, _, here => here.fault .endInObject
  | fuel + 1, isFirst, here =>
    let here := here.skip
    let continueWith (here : Cursor) : Except Fault (List (String × Json) × Cursor) := do
      let (key, here) ← string here.next
      let here := here.skip
      match here.rest with
      | [] => here.faultNext .endInObject
      | ':' :: _ =>
        let (value, here) ← item here.next
        let (more, here) ← fields item fuel false here
        return ((key, value) :: more, here)
      | _ => here.faultNext .expectedColon
    match here.rest with
    | [] => here.faultNext .endInObject
    | '\x7d' :: _ => .ok ([], here.next)
    | c :: _ =>
      if isFirst then
        if c = '"' then continueWith here else here.faultNext .keyNotString
      else if c = ',' then
        let here := here.next.skip
        match here.rest with
        | [] => here.faultNext .endInValue
        | '"' :: _ => continueWith here
        | '\x7d' :: _ => here.faultNext .trailingComma
        | _ => here.faultNext .keyNotString
      else here.faultNext .expectedObjectEnd

/-- Reads a value; `depth` bounds the brackets around any part of it. -/
def value : Nat → Cursor → Except Fault (Json × Cursor)
  | 0, here => here.faultNext .tooDeep
  | depth + 1, here =>
    let here := here.skip
    match here.rest with
    | [] => here.faultNext .endInValue
    | 'n' :: _ => do
      let here ← ident ['u', 'l', 'l'] here.next
      return (.null, here)
    | 't' :: _ => do
      let here ← ident ['r', 'u', 'e'] here.next
      return (.bool true, here)
    | 'f' :: _ => do
      let here ← ident ['a', 'l', 's', 'e'] here.next
      return (.bool false, here)
    | '"' :: _ => do
      let (text, here) ← string here.next
      return (.string text, here)
    | '-' :: _ => do
      let (found, here) ← number true here.next
      return (.number found, here)
    | '[' :: _ =>
      if depth = 0 then here.faultNext .tooDeep
      else do
        let (found, here) ← items (value depth) (here.rest.length + 1) true here.next
        return (.array found, here)
    | '\x7b' :: _ =>
      if depth = 0 then here.faultNext .tooDeep
      else do
        let (found, here) ← fields (value depth) (here.rest.length + 1) true here.next
        return (Json.ofFields found, here)
    | c :: _ =>
      if c.isDigit then do
        let (found, here) ← number false here
        return (.number found, here)
      else here.faultNext .expectedValue

def maxDepth : Nat := 128

def document (text : List Char) : Except Fault Json := do
  let (found, here) ← value maxDepth ⟨text, 0⟩
  let here := here.skip
  if here.rest.isEmpty then return found
  else here.faultNext .trailingCharacters

/-- The line and the column, in bytes, after `index` bytes of a text. -/
def position : (line column index : Nat) → List Char → Nat × Nat
  | line, column, _, [] => (line, column)
  | line, column, index, c :: rest =>
      if index < c.utf8Size then (line, column + index)
      else if c = '\n' then position (line + 1) 0 (index - 1) rest
      else position line (column + c.utf8Size) (index - c.utf8Size) rest

def Fault.message (fault : Fault) (text : List Char) : String :=
  let (line, column) := position 1 0 fault.index text
  s!"{fault.problem.message} at line {line} column {column}"

end Json.Reader

namespace Json

/-- The value of a document, or the message of what is wrong with it. -/
def parse (text : String) : Except String Json :=
  match Reader.document text.toList with
  | .ok found => .ok found
  | .error fault => .error (fault.message text.toList)

end Json

end Bundler
