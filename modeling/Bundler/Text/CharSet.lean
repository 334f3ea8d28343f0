import Bundler.Text.Hex

/-!
# Sets of characters

A set of characters is a list of closed ranges of code points. The ranges stand in increasing
order, and at least one code point lies between two of them. Code points of no character are
never in the complement of a set.
-/

namespace Bundler.Text

/-- A set of characters, as ranges of code points. -/
structure CharSet where
  ranges : List (Nat × Nat)
deriving DecidableEq, Repr, Inhabited

namespace CharSet

def lastCode : Nat := 0x10ffff

/-- Goes on with a range as far as the ranges behind it overlap or touch it. -/
def joinFrom (low high : Nat) : List (Nat × Nat) → List (Nat × Nat)
  | [] => [(low, high)]
  | (low', high') :: rest =>
      if low' ≤ high + 1 then joinFrom low (max high high') rest
      else (low, high) :: joinFrom low' high' rest

/-- Joins ranges that overlap or touch; the ranges stand in the order of their starts. -/
def join : List (Nat × Nat) → List (Nat × Nat)
  | [] => []
  | (low, high) :: rest => joinFrom low high rest

/-- Whether a range starts no later than another one. -/
def startsBefore (a b : Nat × Nat) : Bool := decide (a.1 ≤ b.1)

def empty : CharSet := ⟨[]⟩

/-- The code points between two bounds, which are in the set. -/
def range (low high : Nat) : CharSet := ⟨[(low, high)]⟩

def single (c : Char) : CharSet := range c.toNat c.toNat

def ofRanges (ranges : List (Nat × Nat)) : CharSet := ⟨join (ranges.mergeSort startsBefore)⟩

def ofCodes (codes : List Nat) : CharSet := ofRanges (codes.map fun code => (code, code))

def union (a b : CharSet) : CharSet := ⟨join (a.ranges.merge b.ranges startsBefore)⟩

/-- What the ranges leave out from `start` on. -/
def gapsFrom (start : Nat) : List (Nat × Nat) → List (Nat × Nat)
  | [] => if start ≤ lastCode then [(start, lastCode)] else []
  | (low, high) :: rest =>
      if start < low then (start, low - 1) :: gapsFrom (high + 1) rest
      else gapsFrom (high + 1) rest

/-- The characters that are not in the set. -/
def complement (a : CharSet) : CharSet := ⟨gapsFrom 0 (a.union (range 0xd800 0xdfff)).ranges⟩

def inter (a b : CharSet) : CharSet := (a.complement.union b.complement).complement

/-- The characters of the first set that are not in the second. -/
def diff (a b : CharSet) : CharSet := (a.complement.union b).complement

def symmDiff (a b : CharSet) : CharSet := (a.diff b).union (b.diff a)

def unions (sets : List CharSet) : CharSet := ofRanges (sets.flatMap ranges)

def all : CharSet := complement empty

def ascii : CharSet := range 0 127

def hasCode (code : Nat) : List (Nat × Nat) → Bool
  | [] => false
  | (low, high) :: rest => if code ≤ high then decide (low ≤ code) else hasCode code rest

def has (a : CharSet) (c : Char) : Bool := hasCode c.toNat a.ranges

def isAscii (a : CharSet) : Bool := a.ranges.all fun r => decide (r.2 < 128)

def only? (a : CharSet) : Option Char :=
  match a.ranges with
  | [(low, high)] => if low = high then some (Char.ofNat low) else none
  | _ => none

/-- Reads ranges such as `2a-2f 3d`; `first` is the start of a range whose end is being read. -/
def readRanges : (first : Option Nat) → (code : Nat) → List Char → List (Nat × Nat)
  | first, code, [] => [(first.getD code, code)]
  | first, code, c :: rest =>
      if c = '-' then readRanges (some code) 0 rest
      else if c = ' ' then (first.getD code, code) :: readRanges none 0 rest
      else readRanges first (16 * code + (hexValue? c).getD 0) rest

/-- The set that a text lists: code points and ranges of them, in order, in hexadecimal digits. -/
def ofText (text : String) : CharSet := ⟨readRanges none 0 text.toList⟩

end CharSet

end Bundler.Text
