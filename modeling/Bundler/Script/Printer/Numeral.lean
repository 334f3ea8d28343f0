import Bundler.Decimal.Binary64
import Bundler.Text.Hex

/-!
# Numerals

A number is written in the shortest of the forms that read back as it: positional, with an
exponent, or hexadecimal.
-/

namespace Bundler.Script.Numeral

open Bundler.Decimal (Binary64)

def decimalDigits (n : Nat) : List Char := Nat.toDigits 10 n

/-- The decimal digits of an integer, after a minus if it is negative. -/
def signedDigits : Int → List Char
  | .ofNat n => decimalDigits n
  | .negSucc n => '-' :: decimalDigits (n + 1)

def pointAfterFirst : List Char → List Char
  | [] => []
  | [d] => [d]
  | d :: rest => d :: '.' :: rest

/-- The usual text of a decimal: positional from seven places after the point up to twenty-one
digits before it, else with an exponent. `point` is the place of the point after the digits'
front. -/
def usual (digits : List Char) (point : Int) : List Char :=
  let count : Int := digits.length
  if count ≤ point ∧ point ≤ 21 then digits ++ List.replicate (point - count).toNat '0'
  else if 0 < point ∧ point ≤ 21 then
    digits.take point.toNat ++ '.' :: digits.drop point.toNat
  else if -6 < point ∧ point ≤ 0 then
    '0' :: '.' :: List.replicate (-point).toNat '0' ++ digits
  else
    let exponent := point - 1
    pointAfterFirst digits ++ 'e' ::
      (if 0 ≤ exponent then '+' :: signedDigits exponent else signedDigits exponent)

def usualText (value : Binary64) : List Char :=
  let (digits, exponent) := value.shortest
  if digits = 0 then ['0']
  else
    let text := decimalDigits digits
    usual text (exponent + text.length)

/-- The shorter of two texts, the first of two that are equally long. -/
def shorter (first second : List Char) : List Char :=
  if second.length < first.length then second else first

def dropZero : List Char → List Char
  | '0' :: '.' :: rest => '.' :: rest
  | text => text

def dropPlus : List Char → List Char
  | [] => []
  | 'e' :: '+' :: rest => 'e' :: rest
  | c :: rest => c :: dropPlus rest

/-- The form with a negative exponent of a text that begins with a point and a zero. -/
def negativeForm : List Char → List Char
  | '.' :: '0' :: rest =>
    let zeros := 1 + (rest.takeWhile (· == '0')).length
    let digits := rest.dropWhile (· == '0')
    shorter ('.' :: '0' :: rest) (digits ++ ['e', '-'] ++ decimalDigits (zeros + digits.length))
  | text => text

def exponentForm (text : List Char) : List Char :=
  let zeros := (text.reverse.takeWhile (· == '0')).length
  if zeros = 0 then text
  else shorter text (text.take (text.length - zeros) ++ 'e' :: decimalDigits zeros)

/-- The form without a point of a text with a point and an exponent. -/
def pointlessForm (text : List Char) : List Char :=
  match text.span (· != '.') with
  | (whole, _ :: rest) =>
    match rest.span (· != 'e') with
    | (fraction, _ :: exponent) =>
      let value : Int := match exponent with
        | '-' :: digits => -((digits.foldl (fun n c => 10 * n + (c.toNat - 48)) 0 : Nat) : Int)
        | digits => ((digits.foldl (fun n c => 10 * n + (c.toNat - 48)) 0 : Nat) : Int)
      shorter text (whole ++ fraction ++ 'e' :: signedDigits (value - fraction.length))
    | _ => text
  | _ => text

/-- The shortest text of a number that is not a small whole one. -/
def shortest (value : Binary64) : List Char :=
  let plain := dropPlus (dropZero (usualText value))
  if value.isWhole then
    let hex := '0' :: 'x' :: Text.hexDigits (min value.floor (Nat.pow 2 128 - 1))
    if hex.length < plain.length then hex else pointlessForm (exponentForm plain)
  else pointlessForm (exponentForm (negativeForm plain))

def isSmall (value : Binary64) : Bool :=
  value.isWhole && decide (value.floor < 1000)

def text (value : Binary64) : List Char :=
  match value with
  | .infinite => "Infinity".toList
  | value => if isSmall value then usualText value else shortest value

/-- Whether a point directly after the text would belong to the number. -/
def takesPoint (value : Binary64) : Bool :=
  match value with
  | .infinite => false
  | value => isSmall value || (shortest value).all fun c => c != '.' && c != 'e' && c != 'x'

end Bundler.Script.Numeral
