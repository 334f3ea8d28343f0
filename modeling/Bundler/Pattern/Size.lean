import Bundler.Pattern.Normal
import Bundler.Text.ByteRange

/-!
# The size of a pattern

A pattern is run by a machine that reads bytes, forward to find a match and backward to find its
start. The size of the machine is the room that its states take with all repetitions written
out. A pattern whose machine is too large is refused.
-/

namespace Bundler.Pattern

open Text (CharSet)

/-- The direction in which a machine reads. -/
inductive Direction where
  | forward
  | backward
deriving DecidableEq, Repr, Inhabited

def stateSize : Nat := 32

def transitionSize : Nat := 8

def waySize : Nat := 4

def maxSize : Nat := 10 * Nat.pow 2 20

/-- The transitions of a state: the bytes, and the number of the state behind them. -/
abbrev Transitions := List ((Nat × Nat) × Nat)

/-- Puts sequences together that follow each other and have the same first range. -/
def groupStarts : List (List (Nat × Nat)) → List ((Nat × Nat) × List (List (Nat × Nat)))
  | (start :: tail) :: rest =>
    match groupStarts rest with
    | (start', tails) :: groups =>
      if start = start' then (start, tail :: tails) :: groups
      else (start, [tail]) :: (start', tails) :: groups
    | [] => [(start, [tail])]
  | _ => []

/-- The number of a state with some transitions, which is a new one if none has them. -/
def numberOf (known : List Transitions) (transitions : Transitions) : Nat × List Transitions :=
  match known.findIdx? (· == transitions) with
  | some place => (known.length - place, known)
  | none => (known.length + 1, transitions :: known)

/-- The state that reads some sequences, with all states known then; number 0 is the end. -/
def stateFor : (depth : Nat) → List Transitions → List (List (Nat × Nat)) →
    Nat × List Transitions
  | 0, known, _ => (0, known)
  | depth + 1, known, sequences =>
    match groupStarts sequences with
    | [] => (0, known)
    | groups =>
      let (transitions, known) := groups.foldl (fun (transitions, known) (bytes, tails) =>
        let (next, known) := stateFor depth known tails
        (transitions ++ [(bytes, next)], known)) (([] : Transitions), known)
      numberOf known transitions

def sharedLength : List (Nat × Nat) → List (Nat × Nat) → Nat
  | a :: as, b :: bs => if a = b then sharedLength as bs + 1 else 0
  | _, _ => 0

/-- The number of ranges in sequences, those that a sequence shares with the one before it at
their start aside. -/
def unsharedLength : List (Nat × Nat) → List (List (Nat × Nat)) → Nat
  | _, [] => 0
  | last, sequence :: rest =>
      sequence.length - sharedLength last sequence + unsharedLength sequence rest

def setSize (direction : Direction) (chars : CharSet) : Nat :=
  if chars.isAscii then 2 * stateSize + chars.ranges.length * transitionSize
  else
    let sequences := chars.byteSequences
    match direction with
    | .forward =>
      let states := (stateFor 4 [] sequences).2
      states.foldl (fun size transitions =>
        size + stateSize + transitions.length * transitionSize) stateSize
    | .backward =>
      2 * stateSize + sequences.length * waySize + unsharedLength [] sequences * stateSize

def partAtEmpty : List (List Nat) → List (List (List Nat))
  | [] => [[]]
  | [] :: rest => [] :: partAtEmpty rest
  | text :: rest =>
    match partAtEmpty rest with
    | part :: parts => (text :: part) :: parts
    | [] => [[text]]

def addToGroups (groups : List (Nat × List (List Nat))) : List Nat → List (Nat × List (List Nat))
  | [] => groups
  | byte :: tail =>
    if groups.any (·.1 == byte) then
      groups.map fun (b, tails) => if b = byte then (b, tails ++ [tail]) else (b, tails)
    else groups ++ [(byte, [tail])]

/-- The size of the machine for a choice of literals: texts with the same start share it. An
empty text parts those before it from those behind it. -/
def literalsSize : (fuel : Nat) → List (List Nat) → Nat
  | 0, _ => 0
  | fuel + 1, texts =>
    let texts :=
      match texts with
      | [] :: rest => [] :: rest.dropWhile (·.isEmpty)
      | texts => texts
    if texts.all (·.isEmpty) then 0
    else
      let parts := (partAtEmpty texts).map fun part => part.foldl addToGroups []
      let own := parts.foldl (fun size groups =>
        match groups with
        | [] => size + waySize
        | [_] => size + stateSize + 2 * waySize
        | groups => size + stateSize + groups.length * transitionSize + 2 * waySize) 0
      let inner := parts.foldl (fun size groups =>
        groups.foldl (fun size (_, tails) => size + literalsSize fuel tails) size) 0
      stateSize + own - waySize + inner

/-- The bytes of the literals among some patterns, if all of them are literals. -/
def literals? : List Pattern → Option (List (List Nat))
  | [] => some []
  | literal text :: rest =>
    (literals? rest).map (text.flatMap (fun c => Text.encodeCode c.toNat) :: ·)
  | _ => none

/-- The size of a part of a machine. -/
structure Size where
  /-- The room of the part. -/
  room : Nat
  /-- The room that its last state takes when it is linked to the next part. -/
  link : Nat
  /-- The room of the part as some branches of a choice. -/
  asBranches : Nat
deriving Repr, Inhabited

namespace Size

def ofRoom (room link : Nat) : Size := ⟨room, link, room + link + waySize⟩

def copies (size : Size) (n : Nat) : Nat := n * size.room + (n - 1) * size.link

/-- The part repeated. Only a part that always consumes something needs no state of its own to
be left out. -/
def repeated (size : Size) (consumes : Bool) : (least : Nat) → (most : Option Nat) → Size
  | 0, none =>
      if consumes then ofRoom (size.room + size.link + stateSize + waySize) waySize
      else ofRoom (size.room + size.link + 3 * stateSize + 4 * waySize) 0
  | least + 1, none => ofRoom (size.copies (least + 1) + size.link + stateSize + waySize) waySize
  | 0, some 1 => ofRoom (size.room + size.link + 2 * stateSize + 2 * waySize) 0
  | least, some most =>
      if least = most then ofRoom (size.copies least) size.link
      else
        let first := if least = 0 then stateSize else size.copies least + size.link
        ofRoom (first + stateSize +
          (most - least) * (size.room + size.link + stateSize + 2 * waySize)) 0

end Size

/-- The least number of characters in a match; a pattern that never matches has none. -/
def leastLength : Pattern → Option Nat
  | empty | look _ => some 0
  | literal text => some text.length
  | oneOf chars => if chars.ranges.isEmpty then none else some 1
  | group _ inner => inner.leastLength
  | seq first second => do return (← first.leastLength) + (← second.leastLength)
  | alt left right => do return min (← left.leastLength) (← right.leastLength)
  | repeated inner least _ => inner.leastLength.map (· * least)

def size (direction : Direction) : Pattern → Size
  | empty | look _ => .ofRoom stateSize 0
  | literal text =>
      .ofRoom (text.foldl (fun n c => n + (Text.encodeCode c.toNat).length) 0 * stateSize) 0
  | oneOf chars => .ofRoom (setSize direction chars) 0
  | group _ inner =>
      let inner := inner.size direction
      match direction with
      | .forward => .ofRoom (inner.room + inner.link + 2 * stateSize) 0
      | .backward => inner
  | seq first second =>
      let first := first.size direction
      let second := second.size direction
      match direction with
      | .forward => .ofRoom (first.room + first.link + second.room) second.link
      | .backward => .ofRoom (first.room + second.link + second.room) first.link
  | alt left right =>
      let branches := (left.size direction).asBranches + (right.size direction).asBranches
      match literals? (left.branches ++ right.branches) with
      | some texts =>
        let texts := if direction = .forward then texts else texts.map List.reverse
        let longest := texts.foldl (fun n text => max n text.length) 0
        ⟨stateSize + literalsSize (longest + 1) texts, 0, branches⟩
      | none => ⟨2 * stateSize + branches, 0, branches⟩
  | repeated inner least most =>
      (inner.size direction).repeated (inner.leastLength.any (0 < ·)) least most

def isBoundBy (direction : Direction) (condition : Look) : Pattern → Bool
  | look found => found == condition
  | group _ inner => inner.isBoundBy direction condition
  | seq first second =>
      let inFirst := first.isBoundBy direction condition
      let inSecond := second.isBoundBy direction condition
      match direction with
      | .forward => inFirst || (first.isBlank && inSecond)
      | .backward => inSecond || (second.isBlank && inFirst)
  | alt left right =>
      left.isBoundBy direction condition && right.isBoundBy direction condition
  | repeated inner least _ => decide (0 < least) && inner.isBoundBy direction condition
  | _ => false

/-- The size of the whole machine: forward it marks the match, and it can start anywhere unless
the pattern is bound to an end of the text. -/
def machineSize (direction : Direction) (pattern : Pattern) : Nat :=
  let size := pattern.size direction
  let bound : Look := if direction = .forward then .textStart else .textEnd
  let start :=
    if pattern.isBoundBy direction bound then stateSize
    else 3 * stateSize + transitionSize + 2 * waySize
  let marks := if direction = .forward then 2 * stateSize else 0
  start + marks + size.room + size.link + stateSize

def fits (pattern : Pattern) : Bool :=
  decide (pattern.machineSize .forward ≤ maxSize) &&
    decide (pattern.machineSize .backward ≤ maxSize)

end Bundler.Pattern
