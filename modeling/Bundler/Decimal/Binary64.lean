/-!
# Binary floating point

Non-negative numbers of the form `mantissa * 2 ^ exponent` with 53 significant bits, the nearest
such number to a ratio, and the shortest decimal that reads back as one.
-/

namespace Bundler.Decimal

/-- A non-negative binary floating-point number. -/
inductive Binary64 where
  | finite (mantissa : Nat) (exponent : Int)
  | infinite
deriving DecidableEq, Repr, Inhabited

namespace Binary64

def precision : Nat := 53

def minExponent : Int := -1074

def maxExponent : Int := 971

def zero : Binary64 := finite 0 0

/-- The quotient rounded to the nearest integer, a tie to the even one. -/
def roundDiv (num den : Nat) : Nat :=
  let low := num / den
  let twice := 2 * (num % den)
  if twice < den then low
  else if den < twice then low + 1
  else if low % 2 = 0 then low else low + 1

/-- The quotient in units of `2 ^ exponent`, as numerator and denominator. -/
def inUnits (num den : Nat) (exponent : Int) : Nat × Nat :=
  match exponent with
  | .ofNat n => (num, den * Nat.pow 2 n)
  | .negSucc n => (num * Nat.pow 2 (n + 1), den)

/-- The number nearest to `num / den`, a tie going to the even mantissa. -/
def ofRatio (num den : Nat) : Binary64 :=
  if num = 0 then zero
  else
    let guess : Int := (Nat.log2 num : Int) - (Nat.log2 den : Int) - 52
    let scaled := inUnits num den guess
    let exponent := if scaled.1 / scaled.2 < Nat.pow 2 52 then guess - 1 else guess
    let exponent := max exponent minExponent
    let scaled := inUnits num den exponent
    let mantissa := roundDiv scaled.1 scaled.2
    let result :=
      if mantissa = Nat.pow 2 precision then (Nat.pow 2 52, exponent + 1)
      else (mantissa, exponent)
    if maxExponent < result.2 then infinite else finite result.1 result.2

/-- The number of decimal digits of a natural number, one for zero. -/
def digitCount (n : Nat) : Nat :=
  (Nat.toDigits 10 n).length

/-- The number nearest to `digits * 10 ^ exponent`. -/
def ofDecimal (digits : Nat) (exponent : Int) : Binary64 :=
  let magnitude := exponent + digitCount digits
  if digits = 0 then zero
  else if 400 < magnitude then infinite
  else if magnitude < -400 then zero
  else
    match exponent with
    | .ofNat n => ofRatio (digits * Nat.pow 10 n) 1
    | .negSucc n => ofRatio digits (Nat.pow 10 (n + 1))

def ratio : Binary64 → Nat × Nat
  | infinite => (1, 0)
  | finite mantissa exponent => inUnits mantissa 1 (-exponent)

def mul : Binary64 → Binary64 → Binary64
  | infinite, _ | _, infinite => infinite
  | a, b => ofRatio (a.ratio.1 * b.ratio.1) (a.ratio.2 * b.ratio.2)

def div : Binary64 → Binary64 → Binary64
  | infinite, _ => infinite
  | _, infinite => zero
  | a, b => ofRatio (a.ratio.1 * b.ratio.2) (a.ratio.2 * b.ratio.1)

/-- The greatest power of ten that is not infinite. -/
def greatestTen : Nat := 308

/-- The number times a power of ten in steps, each of which is rounded. A result that is too great
is none. -/
def scaled : (fuel : Nat) → Binary64 → (exponent : Int) → Option Binary64
  | 0, _, _ => some zero
  | fuel + 1, value, exponent =>
    match exponent with
    | .ofNat n =>
      if value = zero then some zero
      else if greatestTen < n then none
      else
        match value.mul (ofDecimal 1 n) with
        | infinite => none
        | result => some result
    | .negSucc n =>
      if value = zero then some zero
      else if greatestTen < n + 1 then
        scaled fuel (value.div (ofDecimal 1 greatestTen)) (exponent + greatestTen)
      else some (value.div (ofDecimal 1 (n + 1)))

def isWhole : Binary64 → Bool
  | infinite => false
  | finite _ (.ofNat _) => true
  | finite mantissa (.negSucc n) => mantissa % Nat.pow 2 (n + 1) == 0

def floor : Binary64 → Nat
  | infinite => 0
  | finite mantissa (.ofNat n) => mantissa * Nat.pow 2 n
  | finite mantissa (.negSucc n) => mantissa / Nat.pow 2 (n + 1)

/-- A ratio in units of `10 ^ exponent`. -/
def inTens (num den : Nat) (exponent : Int) : Nat × Nat :=
  match exponent with
  | .ofNat n => (num, den * Nat.pow 10 n)
  | .negSucc n => (num * Nat.pow 10 (n + 1), den)

/-- Raises an estimate of the greatest `e` with `10 ^ e ≤ num / den` until it is right. -/
def decimalExponent (num den : Nat) : Nat → Int → Int
  | 0, e => e
  | fuel + 1, e =>
      let next := inTens num den (e + 1)
      if next.2 ≤ next.1 then decimalExponent num den fuel (e + 1) else e

/-- The decimal of `count` digits that lies in the interval of numbers that round to the given
one, the nearer of the two candidates. All bounds are in quarter units of the last place. -/
def candidate (low mid high : Nat) (closed : Bool) (unit : Int) (place : Int) : Option Nat :=
  let scale (n : Nat) : Nat × Nat :=
    let parts := inUnits n 1 (-unit)
    inTens parts.1 parts.2 place
  let value := scale mid
  let lower := value.1 / value.2
  let within (n : Nat) : Bool :=
    let l := scale low
    let h := scale high
    let left := n * l.2
    let right := n * h.2
    if closed then decide (l.1 ≤ left) && decide (right ≤ h.1)
    else decide (l.1 < left) && decide (right < h.1)
  let below := within lower
  let above := within (lower + 1)
  if below && above then
    let twice := 2 * (value.1 % value.2)
    if twice < value.2 || (twice == value.2 && lower % 2 == 0) then some lower
    else some (lower + 1)
  else if below then some lower
  else if above then some (lower + 1)
  else none

def shortestFrom (low mid high : Nat) (closed : Bool) (unit top : Int) :
    Nat → Nat → Nat × Int
  | 0, count =>
      let place := top - count
      let parts := inUnits mid 1 (-unit)
      let value := inTens parts.1 parts.2 place
      (roundDiv value.1 value.2, place)
  | fuel + 1, count =>
      let place := top - count
      match candidate low mid high closed unit place with
      | some digits => (digits, place)
      | none => shortestFrom low mid high closed unit top fuel (count + 1)

def stripZeros : Nat → Nat → Int → Nat × Int
  | 0, digits, exponent => (digits, exponent)
  | fuel + 1, digits, exponent =>
      if digits ≠ 0 ∧ digits % 10 = 0 then stripZeros fuel (digits / 10) (exponent + 1)
      else (digits, exponent)

/-- The shortest decimal `digits * 10 ^ exponent` that reads back as the number, of those the
nearest to it. -/
def shortest : Binary64 → Nat × Int
  | infinite => (0, 0)
  | finite mantissa exponent =>
    if mantissa = 0 then (0, 0)
    else
      let gap := if mantissa = Nat.pow 2 52 ∧ minExponent < exponent then 1 else 2
      let unit := exponent - 2
      let ratio := inUnits (4 * mantissa) 1 (-unit)
      let magnitude : Int := (Nat.log2 ratio.1 : Int) - (Nat.log2 ratio.2 : Int) - 1
      let estimate : Int := magnitude * 30103 / 100000 - 1
      let top := decimalExponent ratio.1 ratio.2 8 estimate
      let found := shortestFrom (4 * mantissa - gap) (4 * mantissa) (4 * mantissa + 2)
        (mantissa % 2 == 0) unit top 17 0
      stripZeros 400 found.1 found.2

end Binary64

end Bundler.Decimal
