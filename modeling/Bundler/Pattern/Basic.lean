import Bundler.Text.Unicode.Property

/-!
# Patterns

A pattern describes stretches of a text. Read as a function it takes a set of positions to the
set of positions that a match from one of them can end at. Sets of positions are bit masks.
-/

namespace Bundler

open Text (CharSet)

/-- A condition on a position, which consumes nothing. -/
inductive Look where
  | textStart
  | textEnd
  | lineStart (crlf : Bool)
  | lineEnd (crlf : Bool)
  | boundary (unicode : Bool)
  | notBoundary (unicode : Bool)
  | wordStart (unicode : Bool)
  | wordEnd (unicode : Bool)
  | wordStartHalf (unicode : Bool)
  | wordEndHalf (unicode : Bool)
deriving DecidableEq, Repr, Inhabited

/-- A regular expression. -/
inductive Pattern where
  | empty
  | literal (text : List Char)
  | oneOf (chars : CharSet)
  | look (condition : Look)
  | group (number : Nat) (inner : Pattern)
  | seq (first second : Pattern)
  | alt (left right : Pattern)
  | repeated (inner : Pattern) (least : Nat) (most : Option Nat)
deriving DecidableEq, Repr, Inhabited

namespace Look

/-- Whether a condition holds between the character before and the one after. -/
def holds (condition : Look) (before after : Option Char) : Bool :=
  let isWord (unicode : Bool) : Option Char → Bool
    | none => false
    | some c => if unicode then Text.Unicode.isWord c else c.isAlphanum || c == '_'
  match condition with
  | textStart => before.isNone
  | textEnd => after.isNone
  | lineStart false => before.isNone || before == some '\n'
  | lineStart true =>
      before.isNone || before == some '\n' || (before == some '\r' && after != some '\n')
  | lineEnd false => after.isNone || after == some '\n'
  | lineEnd true =>
      after.isNone || after == some '\r' || (after == some '\n' && before != some '\r')
  | boundary u => isWord u before != isWord u after
  | notBoundary u => isWord u before == isWord u after
  | wordStart u => !isWord u before && isWord u after
  | wordEnd u => isWord u before && !isWord u after
  | wordStartHalf u => !isWord u before
  | wordEndHalf u => !isWord u after

end Look

namespace Pattern

/-- The positions before which a character of the set stands, in order from `bit`. -/
def maskOf (chars : CharSet) : (bit : Nat) → List Char → Nat
  | _, [] => 0
  | bit, c :: rest =>
      (if chars.has c then bit else 0) ||| maskOf chars (2 * bit) rest

def lookMask (condition : Look) : (bit : Nat) → (before : Option Char) → List Char → Nat
  | bit, before, [] => if condition.holds before none then bit else 0
  | bit, before, c :: rest =>
      (if condition.holds before (some c) then bit else 0) |||
        lookMask condition (2 * bit) (some c) rest

/-- Applies a step `n` times, or until no position is left. -/
def iterate (step : Nat → Nat) : Nat → Nat → Nat
  | 0, mask => mask
  | n + 1, mask => if mask = 0 then 0 else iterate step n (step mask)

/-- The positions reached by up to `n` steps. -/
def accumulate (step : Nat → Nat) : Nat → Nat → Nat
  | 0, mask => mask
  | n + 1, mask =>
      let next := mask ||| step mask
      if next = mask then mask else accumulate step n next

def reachOne (text : List Char) (chars : CharSet) (mask : Nat) : Nat :=
  (mask &&& maskOf chars 1 text) <<< 1

/-- The positions at which a match can end, given the positions at which it can start. -/
def reach (text : List Char) : Pattern → Nat → Nat
  | empty, mask => mask
  | literal chars, mask => chars.foldl (fun mask c => reachOne text (.single c) mask) mask
  | oneOf chars, mask => reachOne text chars mask
  | look condition, mask => mask &&& lookMask condition 1 none text
  | group _ inner, mask => reach text inner mask
  | seq first second, mask => reach text second (reach text first mask)
  | alt left right, mask => reach text left mask ||| reach text right mask
  | repeated inner least most, mask =>
      let start := iterate (reach text inner) least mask
      match most with
      | none => accumulate (reach text inner) (text.length + 1) start
      | some most => accumulate (reach text inner) (most - least) start

def isMatch (pattern : Pattern) (text : String) : Bool :=
  let chars := text.toList
  reach chars pattern (Nat.pow 2 (chars.length + 1) - 1) != 0

end Pattern

end Bundler
