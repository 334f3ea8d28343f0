import Bundler.Script.Cursor

/-!
# Quoted text

The characters that a string literal or a template denotes. A literal may hold halves of
surrogate pairs; a text that does marks each of them with a replacement character and four
digits, and so marks the replacement character itself too.
-/

namespace Bundler.Script

/-- A character, or half of a surrogate pair by its code. -/
inductive Unit16 where
  | char (c : Char)
  | half (code : Nat)
deriving DecidableEq, Repr, Inhabited

namespace Unit16

def ofCode (code : Nat) : Unit16 :=
  match charOf? code with
  | some c => char c
  | none => half code

/-- Whether a unit is no character of its own. -/
def isHalf : Unit16 → Bool
  | half _ => true
  | char _ => false

/-- Marks a code: the replacement character, then the code in four digits. -/
def marked (code : Nat) : List Char :=
  Char.ofNat 0xfffd :: Text.hexPadded 4 code

def encode : Unit16 → List Char
  | char c => if c.toNat = 0xfffd then marked 0xfffd else [c]
  | half code => marked code

/-- The characters of a unit in a text without marks. -/
def plain : Unit16 → List Char
  | char c => [c]
  | half code => marked code

def text (units : List Unit16) : List Char × Bool :=
  if units.any isHalf then (units.flatMap encode, true) else (units.flatMap plain, false)

end Unit16

/-- What an escape stands for, if it is well formed, and how many characters it takes after its
backslash. -/
structure Escape where
  units : Option (List Unit16)
  length : Nat

namespace Escape

def single (c : Char) : Escape := ⟨some [.char c], 1⟩

def malformed : Escape := ⟨none, 1⟩

/-- The second half of a pair that an escape of four digits begins, and how many characters it
takes. -/
def lowHalf? (text : List Char) : Option (Nat × Nat) :=
  match text with
  | '\\' :: 'u' :: rest =>
    if rest.head? = some '\x7b' then none
    else
      match scanCodePoint rest with
      | some (code, length) =>
        if 0xdc00 ≤ code ∧ code < 0xe000 then some (code, length + 2) else none
      | none => none
  | _ => none

/-- Reads the part of a code point escape after its `u`. Two escapes of four digits may form a
pair. -/
def scanUnicode (text : List Char) : Escape :=
  match scanCodePoint text with
  | none => malformed
  | some (code, length) =>
    let isHigh := decide (0xd800 ≤ code ∧ code < 0xdc00) && text.head? != some '\x7b'
    match isHigh, lowHalf? (text.drop length) with
    | true, some (low, more) =>
      ⟨some [.ofCode (0x10000 + (code - 0xd800) * 0x400 + (low - 0xdc00))], length + more + 1⟩
    | _, _ => ⟨some [.ofCode code], length + 1⟩

def isOctal (c : Char) : Bool := decide ('0' ≤ c ∧ c ≤ '7')

/-- Reads an octal escape: up to three digits for a value below 256. -/
def scanOctal (first : Char) (rest : List Char) : Escape :=
  let limit := if first ≤ '3' then 2 else 1
  let more := (rest.take limit).takeWhile isOctal
  let value := (first :: more).foldl (fun n c => 8 * n + (c.toNat - '0'.toNat)) 0
  ⟨some [.ofCode value], more.length + 1⟩

/-- Reads the part of an escape of two digits after its `x`. -/
def scanHex (text : List Char) : Escape :=
  match text with
  | a :: b :: _ =>
    match hexNumber? [a, b] with
    | some code => ⟨some [.ofCode code], 3⟩
    | none => malformed
  | _ => malformed

/-- Reads the part of an escape after its backslash. Templates have no octal escapes. The end of the
text is no fault of the escape. -/
def scan (inTemplate : Bool) (text : List Char) : Escape :=
  match text with
  | [] => ⟨some [], 0⟩
  | c :: rest =>
    let digitNext := (rest.head?.map Char.isDigit).getD false
    match c with
    | '\r' => ⟨some [], if rest.head? = some '\n' then 2 else 1⟩
    | 'b' => single '\x08'
    | 'f' => single '\x0c'
    | 'n' => single '\n'
    | 'r' => single '\r'
    | 't' => single '\t'
    | 'v' => single '\x0b'
    | 'x' => scanHex rest
    | 'u' => scanUnicode rest
    | _ =>
      if isLineBreak c then ⟨some [], 1⟩
      else if c = '0' && !digitNext then single '\x00'
      else if inTemplate && c.isDigit then malformed
      else if isOctal c then scanOctal c rest
      else single c

end Escape

/-- What has been read of a string literal, all in reverse. -/
structure StringParts where
  units : List Unit16
  raw : List Char
  faults : List Nat

namespace StringParts

def addChar (parts : StringParts) (c : Char) : StringParts :=
  { parts with units := .char c :: parts.units, raw := c :: parts.raw }

def addRaw (parts : StringParts) (c : Char) : StringParts :=
  { parts with raw := c :: parts.raw }

def addEscape (parts : StringParts) (escape : Escape) (place : Nat) : StringParts :=
  match escape.units with
  | some units => { parts.addRaw '\\' with units := units.reverse ++ parts.units }
  | none => { parts.addRaw '\\' with faults := place :: parts.faults }

end StringParts

/-- Reads a string literal after its opening quote: the units, the raw text, and whether there is a
closing quote. `skip` characters belong to an escape that was read before. -/
def scanStringFrom (quote : Char) :
    List Char → Nat → Nat → StringParts → Scanned (List Unit16 × List Char × Bool)
  | [], _, offset, parts =>
    ⟨(parts.units.reverse, parts.raw.reverse, false), ⟨[], offset⟩, parts.faults.reverse⟩
  | c :: rest, skip + 1, offset, parts =>
    scanStringFrom quote rest skip (offset + c.utf8Size) (parts.addRaw c)
  | c :: rest, 0, offset, parts =>
    if c = '\\' then
      let escape := Escape.scan false rest
      scanStringFrom quote rest escape.length (offset + 1) (parts.addEscape escape offset)
    else if c = quote then
      ⟨(parts.units.reverse, parts.raw.reverse, true), ⟨rest, offset + 1⟩, parts.faults.reverse⟩
    else if c = '\n' || c = '\r' then
      ⟨(parts.units.reverse, parts.raw.reverse, false), ⟨c :: rest, offset⟩, parts.faults.reverse⟩
    else scanStringFrom quote rest 0 (offset + c.utf8Size) (parts.addChar c)

def scanString (quote : Char) (cursor : Cursor) : Scanned (List Unit16 × List Char × Bool) :=
  scanStringFrom quote cursor.rest 0 cursor.offset ⟨[], [], []⟩

/-- How a piece of a template ends. -/
inductive TemplateEnd where
  | backquote | expression | missing
deriving DecidableEq, Repr

/-- Reads a piece of a template: its text with line breaks made uniform, in reverse so far, and
whether its escapes are well formed. `escaped` says that the next character follows a backslash. -/
def scanTemplateFrom :
    List Char → Nat → Bool → List Char → Bool → Scanned (List Char × Bool × TemplateEnd)
  | [], offset, _, seen, ok => ⟨(seen.reverse, ok, .missing), ⟨[], offset⟩, []⟩
  | c :: rest, offset, escaped, seen, ok =>
    let next := offset + c.utf8Size
    if c = '\r' then
      if rest.head? = some '\n' then scanTemplateFrom rest next false seen ok
      else scanTemplateFrom rest next false ('\n' :: seen) ok
    else if escaped then
      scanTemplateFrom rest next false (c :: seen)
        (ok && (Escape.scan true (c :: rest)).units.isSome)
    else if c = '\x60' then ⟨(seen.reverse, ok, .backquote), ⟨rest, next⟩, []⟩
    else if c = '$' && rest.head? = some '\x7b' then
      ⟨(seen.reverse, ok, .expression), ⟨rest.drop 1, next + 1⟩, []⟩
    else scanTemplateFrom rest next (c = '\\') (c :: seen) ok

/-- Reads a piece of a template, up to its end or to an expression. -/
def scanTemplate (cursor : Cursor) : Scanned (List Char × Bool × TemplateEnd) :=
  scanTemplateFrom cursor.rest cursor.offset false [] true

end Bundler.Script
