import Bundler.Text.Hex
import Bundler.Text.Unicode.Property

/-!
# Places in a script

A cursor stands between two characters of a text. Names and digits are read from it.
-/

namespace Bundler.Script

/-- The text from a place on, and the place in bytes. -/
structure Cursor where
  rest : List Char
  offset : Nat
deriving Repr, Inhabited

def byteCount (cs : List Char) : Nat :=
  cs.foldl (fun size c => size + c.utf8Size) 0

def Cursor.past (cursor : Cursor) (consumed rest : List Char) : Cursor :=
  ⟨rest, cursor.offset + byteCount consumed⟩

/-- Something read, the place after it, and the places of faults in it. -/
structure Scanned (α : Type) where
  value : α
  after : Cursor
  faults : List Nat

def isLineBreak (c : Char) : Bool :=
  c == '\n' || c == '\r' || c.toNat == 0x2028 || c.toNat == 0x2029

def isBlank (c : Char) : Bool :=
  let n := c.toNat
  n == 0x20 || n == 0x09 || n == 0x0b || n == 0x0c || n == 0x85 || n == 0xa0 || n == 0x1680 ||
    decide (0x2000 ≤ n ∧ n ≤ 0x200b) || n == 0x202f || n == 0x205f || n == 0x3000 || n == 0xfeff

def beginsName (c : Char) : Bool :=
  if c.toNat < 128 then c.isAlpha || c == '$' || c == '_'
  else Text.Unicode.isIdentifierStart c

def continuesName (c : Char) : Bool :=
  if c.toNat < 128 then c.isAlphanum || c == '$' || c == '_'
  else c.toNat == 0x200c || c.toNat == 0x200d || Text.Unicode.isIdentifierContinue c

def hexNumber? (digits : List Char) : Option Nat :=
  digits.foldl (fun value c =>
    match value, Text.hexValue? c with
    | some n, some d => some (16 * n + d)
    | _, _ => none) (some 0)

/-- Reads the part of a code point escape after its `u`, four digits or any number of digits in
braces: the code point, and how many characters it takes. -/
def scanCodePoint (text : List Char) : Option (Nat × Nat) :=
  match text with
  | '\x7b' :: rest =>
    let digits := rest.takeWhile fun c => (Text.hexValue? c).isSome
    match hexNumber? digits, rest.dropWhile fun c => (Text.hexValue? c).isSome with
    | some value, '\x7d' :: _ =>
      if digits.isEmpty || 0x10ffff < value then none else some (value, digits.length + 2)
    | _, _ => none
  | a :: b :: c :: d :: _ => (hexNumber? [a, b, c, d]).map fun value => (value, 4)
  | _ => none

/-- The character of a code point, unless it is half of a surrogate pair. -/
def charOf? (code : Nat) : Option Char :=
  if h : code.isValidChar then some (Char.ofNatAux code h) else none

/-- Whether a character may stand in a name, at its front or behind that. -/
def mayStand (isFirst : Bool) (c : Char) : Bool :=
  if isFirst then beginsName c else continuesName c

/-- Reads an escape in a name after its backslash: the character, and how many characters it takes.
It is at fault after the backslash if it is malformed, and behind its end if its character cannot
stand there. -/
def scanNameEscape (isFirst : Bool) (text : List Char) (offset : Nat) : Except Nat (Char × Nat) :=
  match text with
  | 'u' :: rest =>
    match scanCodePoint rest with
    | some (code, length) =>
      match charOf? code with
      | some c => if mayStand isFirst c then .ok (c, length + 1) else .error (offset + length + 1)
      | none => .error offset
    | none => .error offset
  | _ => .error offset

/-- Reads the rest of a name, with the characters before it in reverse; `skip` characters belong to
an escape that was read before. -/
def scanNameFrom : List Char → Nat → Nat → List Char → Bool → Scanned (List Char × Bool)
  | [], _, offset, seen, escaped => ⟨(seen.reverse, escaped), ⟨[], offset⟩, []⟩
  | _ :: rest, skip + 1, offset, seen, escaped => scanNameFrom rest skip (offset + 1) seen escaped
  | c :: rest, 0, offset, seen, escaped =>
    if c = '\\' then
      match scanNameEscape seen.isEmpty rest (offset + 1) with
      | .ok (char, length) => scanNameFrom rest length (offset + 1) (char :: seen) true
      | .error place => ⟨(seen.reverse, true), ⟨rest, offset + 1⟩, [place]⟩
    else if mayStand seen.isEmpty c then
      scanNameFrom rest 0 (offset + c.utf8Size) (c :: seen) escaped
    else ⟨(seen.reverse, escaped), ⟨c :: rest, offset⟩, []⟩

def scanName (cursor : Cursor) : Scanned (List Char × Bool) :=
  scanNameFrom cursor.rest 0 cursor.offset [] false

end Bundler.Script
