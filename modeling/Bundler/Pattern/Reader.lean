import Bundler.Pattern.Class
import Bundler.Pattern.Size

/-!
# Reading patterns

A pattern is written as alternatives of repeated items. Flags in parentheses change how the rest
of a group is read. A text that is no pattern is refused.
-/

namespace Bundler.Pattern

open Text (CharSet)

/-- What is left of a pattern, the group names that it has used, and the number of its groups. -/
structure Cursor where
  rest : List Char
  names : List String
  groups : Nat
deriving Inhabited

/-- A pattern and the height of the tree it was written as. -/
structure Part where
  pattern : Pattern
  height : Nat
deriving Inhabited

def maxHeight : Nat := 250

def decimal (flags : Flags) (text : List Char) : Option (Nat × List Char) :=
  let text := text.dropWhile Text.Unicode.isWhiteSpace
  let (digits, rest) := takeThrough flags Char.isDigit (text.length + 1) text
  let rest := rest.dropWhile Text.Unicode.isWhiteSpace
  let value := digits.foldl (fun n c => n * 10 + (c.toNat - '0'.toNat)) 0
  if digits.isEmpty || decide (Nat.pow 2 32 ≤ value) then none else some (value, rest)

/-- Reads the bounds of a repetition, the opening brace being behind. -/
def bounds (flags : Flags) (text : List Char) : Option ((Nat × Option Nat) × List Char) := do
  let (least, rest) ← decimal flags (skipBlanks flags text)
  let (most, rest) ←
    match rest with
    | ',' :: rest =>
      match skipBlanks flags rest with
      | '\x7d' :: rest => some (none, '\x7d' :: rest)
      | rest => (decimal flags rest).map fun (most, rest) => (some most, rest)
    | rest => some (some least, rest)
  match rest with
  | '\x7d' :: rest =>
    if most.any (· < least) then none else some ((least, most), rest)
  | _ => none

def skipLazy : List Char → List Char
  | '?' :: rest => rest
  | rest => rest

def isNameChar (isFirst : Bool) (c : Char) : Bool :=
  if isFirst then c == '_' || Text.Unicode.isAlphabetic c
  else c == '_' || c == '.' || c == '[' || c == ']' || Text.Unicode.isAlphanumeric c

def groupName (here : Cursor) (text : List Char) : Option Cursor :=
  let name := text.takeWhile (· != '>')
  let isValid :=
    match name with
    | [] => false
    | c :: rest => isNameChar true c && rest.all (isNameChar false)
  let key := String.ofList name
  match text.drop name.length with
  | '>' :: rest =>
    if isValid && !here.names.contains key then
      some { here with rest := rest, names := key :: here.names }
    else none
  | _ => none

def Flags.set (flags : Flags) (value : Bool) : Char → Option Flags
  | 'i' => some { flags with insensitive := value }
  | 'm' => some { flags with multiLine := value }
  | 's' => some { flags with dotAll := value }
  | 'U' => some flags
  | 'u' => some { flags with unicode := value }
  | 'R' => some { flags with crlf := value }
  | 'x' => some { flags with extended := value }
  | _ => none

def flagList : Flags → (seen : List Char) → (negated afterDash : Bool) → List Char →
    Option (Flags × Bool × List Char)
  | _, _, _, _, [] => none
  | flags, seen, negated, afterDash, c :: rest =>
      if c = ':' ∨ c = ')' then
        if afterDash || (seen.isEmpty && c == ')') then none else some (flags, c == ':', rest)
      else if c = '-' then
        if negated then none else flagList flags seen true true rest
      else if seen.contains c then none
      else
        match flags.set (!negated) c with
        | some flags => flagList flags (c :: seen) negated false rest
        | none => none

/-- Any character but a line break. -/
def dot (flags : Flags) : Option CharSet :=
  if !flags.unicode then none
  else if flags.dotAll then some .all
  else if flags.crlf then some (CharSet.ofText "a d").complement
  else some (CharSet.single '\n').complement

def character (flags : Flags) (code : Nat) : Pattern :=
  if !flags.unicode && decide (127 < code) then literal [Char.ofNat code]
  else ofSet (flags.fold (.range code code))

def primitive (flags : Flags) (text : List Char) : Option (Pattern × List Char) :=
  match text with
  | [] => none
  | '\\' :: rest =>
    match escape flags rest with
    | none => none
    | some (.literal code isByte, rest) =>
      if !flags.unicode && isByte && decide (127 < code) then none
      else some (character flags code, rest)
    | some (.class chars, rest) => some (ofSet chars, rest)
    | some (.look condition, rest) => some (.look condition, rest)
  | '.' :: rest => (dot flags).map fun chars => (ofSet chars, rest)
  | '^' :: rest =>
    some (.look (if flags.multiLine then .lineStart flags.crlf else .textStart), rest)
  | '$' :: rest =>
    some (.look (if flags.multiLine then .lineEnd flags.crlf else .textEnd), rest)
  | c :: rest => some (character flags c.toNat, rest)

/-- One element of a sequence: a part, or a change of flags. -/
inductive Element where
  | item (part : Part)
  | switch

namespace Element

def toPart : Element → Part
  | item part => part
  | switch => ⟨.empty, 0⟩

end Element

def sequence (elements : List Element) : Part :=
  match elements with
  | [] => ⟨.empty, 0⟩
  | [element] => element.toPart
  | elements =>
    let parts := elements.map Element.toPart
    ⟨concat (parts.reverse.map Part.pattern), (parts.map Part.height).foldl max 0 + 1⟩

def alternatives (parts : List Part) : Part :=
  match parts with
  | [] => ⟨.empty, 0⟩
  | [part] => part
  | parts =>
    ⟨choice (parts.reverse.map Part.pattern), (parts.map Part.height).foldl max 0 + 1⟩

/-- Repeats the last element of a sequence, if it can be repeated. -/
def repeatLast (least : Nat) (most : Option Nat) : List Element → Option (List Element)
  | .item part :: rest =>
    some (.item ⟨part.pattern.times least most, part.height + 1⟩ :: rest)
  | _ => none

/-- Reads alternatives up to a closing parenthesis or the end; `fuel` bounds the characters. -/
def body : Nat → Flags → List Part → List Element → Cursor → Option (Part × Cursor)
  | 0, _, _, _, _ => none
  | fuel + 1, flags, done, current, here =>
    let text := skipBlanks flags here.rest
    let finish (rest : List Char) : Option (Part × Cursor) :=
      some (alternatives (sequence current :: done), { here with rest := rest })
    let goOn (current : List Element) (text : List Char) : Option (Part × Cursor) :=
      body fuel flags done current { here with rest := text }
    match text with
    | [] => finish []
    | ')' :: rest => finish (')' :: rest)
    | '|' :: rest => body fuel flags (sequence current :: done) [] { here with rest := rest }
    | '*' :: rest => do goOn (← repeatLast 0 none current) (skipLazy rest)
    | '+' :: rest => do goOn (← repeatLast 1 none current) (skipLazy rest)
    | '?' :: rest => do goOn (← repeatLast 0 (some 1) current) (skipLazy rest)
    | '\x7b' :: rest => do
      let ((least, most), rest) ← bounds flags rest
      goOn (← repeatLast least most current) (skipLazy (skipBlanks flags rest))
    | '[' :: rest => do
      let (part, rest) ← classBody flags (2 * rest.length + 2) rest
      goOn (.item ⟨ofSet part.chars, part.height⟩ :: current) rest
    | '(' :: rest =>
      let enclosed (inner : Flags) (wrap : Pattern → Pattern) (inside : Cursor) :
          Option (Part × Cursor) := do
        let (part, after) ← body fuel inner [] [] inside
        match after.rest with
        | ')' :: rest =>
          body fuel flags done (.item ⟨wrap part.pattern, part.height + 1⟩ :: current)
            { after with rest := rest }
        | _ => none
      let numbered (inside : Cursor) : Option (Part × Cursor) :=
        enclosed flags (.group here.groups) { inside with groups := here.groups + 1 }
      match skipBlanks flags rest with
      | '?' :: rest =>
        match rest with
        | 'P' :: '<' :: rest => do numbered (← groupName here rest)
        | '<' :: '=' :: _ => none
        | '<' :: '!' :: _ => none
        | '<' :: rest => do numbered (← groupName here rest)
        | rest => do
          let (inner, isGroup, rest) ← flagList flags [] false false rest
          if isGroup then enclosed inner id { here with rest := rest }
          else body fuel inner done (.switch :: current) { here with rest := rest }
      | rest => numbered { here with rest := rest }
    | text => do
      let (pattern, rest) ← primitive flags text
      goOn (.item ⟨pattern, 0⟩ :: current) rest

/-- The pattern that a text denotes, if it denotes one. -/
def ofText? (text : String) : Option Pattern := do
  let chars := text.toList
  let (part, after) ← body (2 * chars.length + 2) {} [] [] ⟨chars, [], 0⟩
  if after.rest.isEmpty && decide (part.height ≤ maxHeight) && part.pattern.fits then
    some part.pattern
  else none

end Bundler.Pattern
