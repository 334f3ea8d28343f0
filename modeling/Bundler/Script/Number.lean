import Bundler.Decimal.Binary64
import Bundler.Script.Cursor

/-!
# Numbers of a script

Decimal numbers with fraction and exponent, whole numbers of the radixes 2, 8 and 16, and whole
numbers of any size.
-/

namespace Bundler.Script

/-- The value of a number. -/
inductive Quantity where
  | number (value : Decimal.Binary64)
  | bigInt (value : Nat)
deriving DecidableEq, Repr, Inhabited

/-- Digits without separators, and the place after them. A separator that no digit follows is a
fault behind it. -/
def scanDigitsFrom (isDigit : Char → Bool) : List Char → Nat → List Char → Scanned (List Char)
  | '_' :: c :: rest, offset, seen =>
    if isDigit c then scanDigitsFrom isDigit rest (offset + 2) (c :: seen)
    else ⟨seen.reverse, ⟨c :: rest, offset + 1⟩, [offset + 1]⟩
  | ['_'], offset, seen => ⟨seen.reverse, ⟨[], offset + 1⟩, [offset + 1]⟩
  | c :: rest, offset, seen =>
    if isDigit c then scanDigitsFrom isDigit rest (offset + 1) (c :: seen)
    else ⟨seen.reverse, ⟨c :: rest, offset⟩, []⟩
  | [], offset, seen => ⟨seen.reverse, ⟨[], offset⟩, []⟩

def scanDigits (isDigit : Char → Bool) (needed : Bool) (cursor : Cursor) : Scanned (List Char) :=
  match cursor.rest with
  | c :: rest =>
    if isDigit c then scanDigitsFrom isDigit rest (cursor.offset + 1) [c]
    else ⟨[], cursor, if needed then [cursor.offset] else []⟩
  | [] => ⟨[], cursor, if needed then [cursor.offset] else []⟩

def digitsValue (radix : Nat) (digits : List Char) : Nat :=
  digits.foldl (fun n c => radix * n + (Text.hexValue? c).getD 0) 0

def roundedValue (radix : Nat) (digits : List Char) : Decimal.Binary64 :=
  digits.foldl (fun value c =>
    match value with
    | .infinite => .infinite
    | value => .ofRatio (radix * value.floor + (Text.hexValue? c).getD 0) 1) .zero

/-- A number that is read with its place, unless a name or a digit follows it directly. -/
def endNumber (found : Scanned Quantity) : Scanned (Option Quantity) :=
  match found.after.rest with
  | c :: _ =>
    if c.isDigit || beginsName c then
      let name := found.after.rest.takeWhile beginsName
      let rest := found.after.rest.dropWhile beginsName
      ⟨none, found.after.past name rest, found.faults ++ [found.after.offset]⟩
    else ⟨some found.value, found.after, found.faults⟩
  | [] => ⟨some found.value, found.after, found.faults⟩

/-- The part of a decimal number after its whole digits: a fraction if `point` says that one has
begun, and an exponent. -/
def scanFraction (whole : List Char) (point needed : Bool) (cursor : Cursor) : Scanned Quantity :=
  let fraction : Scanned (List Char) :=
    if point then scanDigits Char.isDigit needed cursor else ⟨[], cursor, []⟩
  let digits := digitsValue 10 (whole ++ fraction.value)
  let scale : Int := -(fraction.value.length : Int)
  match fraction.after.rest with
  | e :: rest =>
    if e = 'e' || e = 'E' then
      let after := fraction.after.past [e] rest
      let sign : Bool × Cursor := match rest with
        | '-' :: rest => (true, after.past ['-'] rest)
        | '+' :: rest => (false, after.past ['+'] rest)
        | _ => (false, after)
      let exponent := scanDigits Char.isDigit true sign.2
      let power : Int := digitsValue 10 exponent.value
      ⟨.number (.ofDecimal digits (scale + if sign.1 then -power else power)), exponent.after,
        fraction.faults ++ exponent.faults⟩
    else ⟨.number (.ofDecimal digits scale), fraction.after, fraction.faults⟩
  | [] => ⟨.number (.ofDecimal digits scale), fraction.after, fraction.faults⟩

/-- The part of a number with a radix after its mark. Without a digit it is malformed. -/
def scanRadix (radix : Nat) (cursor : Cursor) : Scanned (Option Quantity) :=
  let isDigit (c : Char) : Bool := ((Text.hexValue? c).map fun d => decide (d < radix)).getD false
  let digits := scanDigits isDigit true cursor
  if digits.faults.isEmpty then
    match digits.after.rest with
    | 'n' :: rest =>
      endNumber ⟨.bigInt (digitsValue radix digits.value), digits.after.past ['n'] rest, []⟩
    | _ => endNumber ⟨.number (roundedValue radix digits.value), digits.after, []⟩
  else ⟨none, digits.after, digits.faults⟩

/-- The part of a number after a zero that more digits follow: octal unless one of them is none
of an octal number. -/
def scanAfterZero (cursor : Cursor) : Scanned (Option Quantity) :=
  let digits := cursor.rest.takeWhile Char.isDigit
  let after := cursor.past digits (cursor.rest.dropWhile Char.isDigit)
  if digits.any fun c => '7' < c then
    match after.rest with
    | '.' :: rest => endNumber (scanFraction digits true false (after.past ['.'] rest))
    | _ => endNumber (scanFraction digits false false after)
  else endNumber ⟨.number (roundedValue 8 digits), after, []⟩

/-- Reads a number that begins with a digit, or with a point and a digit. -/
def scanNumber (cursor : Cursor) : Scanned (Option Quantity) :=
  match cursor.rest with
  | '0' :: c :: rest =>
    let after := cursor.past ['0', c] rest
    match c with
    | 'x' => scanRadix 16 after
    | 'X' => scanRadix 16 after
    | 'o' => scanRadix 8 after
    | 'O' => scanRadix 8 after
    | 'b' => scanRadix 2 after
    | 'B' => scanRadix 2 after
    | 'n' => endNumber ⟨.bigInt 0, after, []⟩
    | '.' => endNumber (scanFraction [] true false after)
    | _ =>
      if c.isDigit then scanAfterZero (cursor.past ['0'] (c :: rest))
      else endNumber (scanFraction [] false false (cursor.past ['0'] (c :: rest)))
  | '.' :: rest => endNumber (scanFraction [] true true (cursor.past ['.'] rest))
  | _ =>
    let whole := scanDigits Char.isDigit true cursor
    let found : Scanned Quantity := match whole.after.rest with
      | 'n' :: rest => ⟨.bigInt (digitsValue 10 whole.value), whole.after.past ['n'] rest, []⟩
      | '.' :: rest => scanFraction whole.value true false (whole.after.past ['.'] rest)
      | _ => scanFraction whole.value false false whole.after
    let ended := endNumber found
    ⟨ended.value, ended.after, whole.faults ++ ended.faults⟩

end Bundler.Script
