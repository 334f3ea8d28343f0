import Bundler.Text.CharSet

/-!
# Runs of equal class

A table that gives every code point a class lists stretches of code points of one class. It is
written as the length of each stretch, if that is not one, and the number of its class in
letters.
-/

namespace Bundler.Text.Unicode

/-- Stretches of equal class in order: the first code point of each and the number of its class. -/
abbrev Runs := Array (Nat × Nat)

namespace Runs

/-- The number that a letter stands for: capital letters come before small ones. -/
def letterNumber (c : Char) : Nat :=
  if c.isUpper then c.toNat - 'A'.toNat else c.toNat - 'a'.toNat + 26

def read : (start : Nat) → (digits : Option Nat) → Runs → List Char → Runs
  | _, _, runs, [] => runs
  | start, digits, runs, c :: rest =>
      if c.isDigit then read start (some (digits.getD 0 * 10 + (c.toNat - '0'.toNat))) runs rest
      else read (start + digits.getD 1) none (runs.push (start, letterNumber c)) rest

/-- Reads runs whose class is a capital letter, which counts 26, and a small letter. -/
def readPairs : (start : Nat) → (digits : Option Nat) → Runs → List Char → Runs
  | start, digits, runs, c :: d :: rest =>
      if c.isDigit then
        readPairs start (some (digits.getD 0 * 10 + (c.toNat - '0'.toNat))) runs (d :: rest)
      else
        let number := letterNumber c * 26 + (letterNumber d - 26)
        readPairs (start + digits.getD 1) none (runs.push (start, number)) rest
  | _, _, runs, _ => runs

/-- The index of the last run between `low` and `high` that starts at or before `code`. -/
def indexOf (runs : Runs) (code : Nat) : (fuel low high : Nat) → Nat
  | 0, low, _ => low
  | fuel + 1, low, high =>
      if high ≤ low + 1 then low
      else
        let middle := (low + high) / 2
        if (runs.getD middle (0, 0)).1 ≤ code then indexOf runs code fuel middle high
        else indexOf runs code fuel low middle

def classOf (runs : Runs) (code : Nat) : Nat :=
  (runs.getD (indexOf runs code 13 0 runs.size) (0, 0)).2

def rangesWhere (test : Nat → Bool) : List (Nat × Nat) → List (Nat × Nat)
  | [] => []
  | [(start, number)] => if test number then [(start, CharSet.lastCode)] else []
  | (start, number) :: (next, number') :: rest =>
      if test number then (start, next - 1) :: rangesWhere test ((next, number') :: rest)
      else rangesWhere test ((next, number') :: rest)

def setWhere (runs : Runs) (test : Nat → Bool) : CharSet :=
  ⟨CharSet.join (rangesWhere test runs.toList)⟩

end Runs

end Bundler.Text.Unicode
