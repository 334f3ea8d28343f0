import Bundler.Text.CharSet

/-!
# Ranges of bytes

A range of characters, encoded in bytes, is a union of sequences of byte ranges: every way to
choose one byte of each range is the encoding of a character of the range.
-/

namespace Bundler.Text

def encodeCode (code : Nat) : List Nat :=
  if code < 0x80 then [code]
  else if code < 0x800 then [0xc0 + code / 64, 0x80 + code % 64]
  else if code < 0x10000 then
    [0xe0 + code / 4096, 0x80 + code / 64 % 64, 0x80 + code % 64]
  else
    [0xf0 + code / 262144, 0x80 + code / 4096 % 64, 0x80 + code / 64 % 64, 0x80 + code % 64]

/-- Where a range leaves the first block, or enters the last one, of a size, if it holds only a
part of that block and lies in several. -/
def blockCut? (low high size : Nat) : Option Nat :=
  if low / size = high / size then none
  else if low % size ≠ 0 then some ((low / size + 1) * size)
  else if high % size ≠ size - 1 then some (high / size * size)
  else none

/-- Where a range is divided so that its parts become sequences of byte ranges. -/
def rangeCut? (low high : Nat) : Option Nat :=
  ([0x80, 0x800, 0x10000].find? fun bound => decide (low < bound) && decide (bound ≤ high)) <|>
    (if high < 0x80 then none else [64, 4096, 262144].findSome? (blockCut? low high))

def byteSequences (low high : Nat) : List (List (Nat × Nat)) :=
  match rangeCut? low high with
  | none => [(encodeCode low).zip (encodeCode high)]
  | some middle =>
    if low < middle ∧ middle ≤ high then
      byteSequences low (middle - 1) ++ byteSequences middle high
    else []
termination_by high - low

def CharSet.byteSequences (chars : CharSet) : List (List (Nat × Nat)) :=
  (chars.diff (.range 0xd800 0xdfff)).ranges.flatMap fun r => Text.byteSequences r.1 r.2

end Bundler.Text
