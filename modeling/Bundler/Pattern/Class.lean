import Bundler.Pattern.Escape

/-!
# Classes of characters in brackets

A class lists characters, ranges, named classes and classes in it. Operators between two lists
form the intersection, the difference or the symmetric difference, from left to right.
-/

namespace Bundler.Pattern

open Text (CharSet)

def namedClass? : String → Option CharSet
  | "alnum" => some (.ofText "30-39 41-5a 61-7a")
  | "alpha" => some (.ofText "41-5a 61-7a")
  | "ascii" => some .ascii
  | "blank" => some (.ofText "9 20")
  | "cntrl" => some (.ofText "0-1f 7f")
  | "digit" => some asciiDigits
  | "graph" => some (.ofText "21-7e")
  | "lower" => some (.ofText "61-7a")
  | "print" => some (.ofText "20-7e")
  | "punct" => some (.ofText "21-2f 3a-40 5b-60 7b-7e")
  | "space" => some asciiBlanks
  | "upper" => some (.ofText "41-5a")
  | "word" => some asciiWord
  | "xdigit" => some (.ofText "30-39 41-46 61-66")
  | _ => none

/-- Reads a class name between colons, if there is one: the class, or nothing where it is no
class of this kind of text. -/
def classNamed (flags : Flags) (text : List Char) : Option (Option CharSet × List Char) :=
  match text with
  | '[' :: ':' :: rest =>
    let (negated, rest) :=
      match rest with
      | '^' :: rest => (true, rest)
      | rest => (false, rest)
    let name := rest.takeWhile fun c => c != ':'
    match rest.drop name.length with
    | ':' :: ']' :: rest =>
      (namedClass? (String.ofList name)).map fun chars => (flags.close negated chars, rest)
    | _ => none
  | _ => none

def classItem (flags : Flags) : List Char → Option (Primitive × List Char)
  | [] => none
  | '\\' :: rest => escape flags rest
  | c :: rest => some (.literal c.toNat false, rest)

def Primitive.code? (flags : Flags) : Primitive → Option Nat
  | .literal code _ => if !flags.unicode && decide (127 < code) then none else some code
  | _ => none

def Primitive.toSet? (flags : Flags) : Primitive → Option CharSet
  | .class chars => some chars
  | item => (item.code? flags).map fun code => .range code code

/-- The character behind a dash: a comment in between is not gone past. -/
def behindDash (flags : Flags) (text : List Char) : Option Char :=
  if flags.extended then
    match text.dropWhile Text.Unicode.isWhiteSpace with
    | '#' :: rest => (rest.dropWhile Text.Unicode.isWhiteSpace).head?
    | rest => rest.head?
  else text.head?

def classRange (flags : Flags) (text : List Char) : Option (CharSet × List Char) := do
  let (first, rest) ← classItem flags text
  match skipBlanks flags rest with
  | [] => none
  | '-' :: after =>
    let next := behindDash flags after
    if next == some ']' || next == some '-' then
      return (← first.toSet? flags, '-' :: after)
    else
      let (last, rest) ← classItem flags (skipBlanks flags after)
      let low ← first.code? flags
      let high ← last.code? flags
      if low ≤ high then some (.range low high, rest) else none
  | rest => return (← first.toSet? flags, rest)

/-- The operators between the operands of a class. -/
inductive ClassOp where
  | inter
  | diff
  | symmDiff

namespace ClassOp

def apply : ClassOp → CharSet → CharSet → CharSet
  | inter, left, right => left.inter right
  | diff, left, right => left.diff right
  | symmDiff, left, right => left.symmDiff right

def ofText? : List Char → Option (ClassOp × List Char)
  | '&' :: '&' :: rest => some (inter, rest)
  | '-' :: '-' :: rest => some (diff, rest)
  | '~' :: '~' :: rest => some (symmDiff, rest)
  | _ => none

end ClassOp

/-- A set and the height of the tree it was written as. -/
structure ClassPart where
  chars : CharSet
  height : Nat

/-- The state of a class that is being read: the items of the operand so far, and the operation
that waits for it. -/
structure ClassState where
  chars : CharSet := .empty
  count : Nat := 0
  tallest : Nat := 0
  pending : Option (ClassPart × ClassOp) := none

namespace ClassState

def add (state : ClassState) (chars : CharSet) (height : Nat) : ClassState :=
  { state with
    chars := state.chars.union chars
    count := state.count + 1
    tallest := max state.tallest height }

/-- The value of what has been read. Only a list of several items is a level of its own. -/
def value (flags : Flags) (state : ClassState) : ClassPart :=
  let height := if state.count < 2 then state.tallest else state.tallest + 1
  match state.pending with
  | none => ⟨state.chars, height⟩
  | some (left, op) =>
    ⟨op.apply (flags.fold left.chars) (flags.fold state.chars), max left.height height + 1⟩

end ClassState

def leadingDashes (flags : Flags) : Nat → List Char → ClassState → ClassState × List Char
  | 0, text, state => (state, text)
  | fuel + 1, text, state =>
    match text with
    | '-' :: rest =>
      leadingDashes flags fuel (skipBlanks flags rest) (state.add (.single '-') 0)
    | text => (state, text)

/-- Reads a class, its opening bracket being behind; `fuel` bounds the characters. -/
def classBody (flags : Flags) : Nat → List Char → Option (ClassPart × List Char)
  | 0, _ => none
  | fuel + 1, text =>
    let text := skipBlanks flags text
    let (negated, text) :=
      match text with
      | '^' :: rest => (true, skipBlanks flags rest)
      | text => (false, text)
    let (state, text) := leadingDashes flags text.length text {}
    let (state, text) :=
      match state.count, text with
      | 0, ']' :: rest => (state.add (.single ']') 0, skipBlanks flags rest)
      | _, text => (state, text)
    items fuel negated state text
where
  /-- Reads the items of a class and its closing bracket. -/
  items : Nat → Bool → ClassState → List Char → Option (ClassPart × List Char)
    | 0, _, _, _ => none
    | fuel + 1, negated, state, text =>
      let text := skipBlanks flags text
      match text with
      | [] => none
      | ']' :: rest =>
        let part := state.value flags
        (flags.close negated part.chars).map fun chars => (⟨chars, part.height + 1⟩, rest)
      | '[' :: rest =>
        match classNamed flags text with
        | some (none, _) => none
        | some (some chars, rest) => items fuel negated (state.add chars 0) rest
        | none =>
          match classBody flags fuel rest with
          | none => none
          | some (part, rest) => items fuel negated (state.add part.chars part.height) rest
      | _ =>
        match ClassOp.ofText? text with
        | some (op, rest) =>
          items fuel negated { pending := some (state.value flags, op) } rest
        | none =>
          match classRange flags text with
          | none => none
          | some (chars, rest) => items fuel negated (state.add chars 0) rest

end Bundler.Pattern
