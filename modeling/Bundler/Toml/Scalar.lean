import Bundler.Text.Hex
import Bundler.Toml.Basic

/-!
# Numbers, dates and times

The words that stand for a TOML value without quotes or brackets.
-/

namespace Bundler.Toml

namespace Scalar

/-- The digits of a word in which single underscores may stand between digits. -/
def digitsFrom (isDigit : Char → Bool) : Bool → List Char → Option (List Char)
  | true, [] => some []
  | false, [] => none
  | true, '_' :: rest => digitsFrom isDigit false rest
  | _, c :: rest =>
      if isDigit c then (digitsFrom isDigit true rest).map (c :: ·) else none

def digits (isDigit : Char → Bool) (word : List Char) : Option (List Char) :=
  digitsFrom isDigit false word

def valueOf (base : Nat) (word : List Char) : Nat :=
  word.foldl (fun value c => base * value + (Text.hexValue? c).getD 0) 0

/-- Whether decimal digits have a zero in front that means nothing. -/
def hasLeadingZero : List Char → Bool
  | '0' :: _ :: _ => true
  | _ => false

def maxMagnitude : Nat := Nat.pow 2 128 - 1

/-- An integer whose magnitude is not too great. -/
def integer (isNegative : Bool) (value : Nat) : Option Toml :=
  let limit := if isNegative then Nat.pow 2 127 else maxMagnitude
  if value ≤ limit then some (.integer isNegative value)
  else none

def basedInteger (base : Nat) (word : List Char) : Option Toml := do
  let ds ← digits (fun c => match Text.hexValue? c with
    | some value => decide (value < base)
    | none => false) word
  integer false (valueOf base ds)

def signed : List Char → Bool × List Char
  | '-' :: rest => (true, rest)
  | '+' :: rest => (false, rest)
  | word => (false, word)

def cutAt (test : Char → Bool) : List Char → List Char × List Char
  | [] => ([], [])
  | c :: rest =>
      if test c then ([], c :: rest)
      else
        let cut := cutAt test rest
        (c :: cut.1, cut.2)

def exponent? : List Char → Option Int
  | [] => some 0
  | mark :: rest =>
      if mark = 'e' ∨ mark = 'E' then do
        let sign := signed rest
        let ds ← digits Char.isDigit sign.2
        return if sign.1 then -(valueOf 10 ds : Int) else valueOf 10 ds
      else none

def fraction? : List Char → Option (List Char)
  | [] => some []
  | '.' :: rest => digits Char.isDigit rest
  | _ => none

def decimal (word : List Char) : Option Toml := do
  let sign := signed word
  let parts := cutAt (fun c => c = 'e' ∨ c = 'E') sign.2
  let halves := cutAt (· = '.') parts.1
  let whole ← digits Char.isDigit halves.1
  if hasLeadingZero whole then none
  else
    let fraction ← fraction? halves.2
    let power ← exponent? parts.2
    if halves.2.isEmpty && parts.2.isEmpty then integer sign.1 (valueOf 10 whole)
    else
      let value := Decimal.Binary64.ofDecimal (valueOf 10 (whole ++ fraction))
        (power - fraction.length)
      if value = .infinite then none else some (.real sign.1 value)

def twoDigits : List Char → Option (Nat × List Char)
  | a :: b :: rest =>
      if a.isDigit && b.isDigit then some (valueOf 10 [a, b], rest) else none
  | _ => none

def daysOf (year month : Nat) : Nat :=
  if month = 2 then
    if year % 4 = 0 ∧ (year % 100 ≠ 0 ∨ year % 400 = 0) then 29 else 28
  else if month = 4 ∨ month = 6 ∨ month = 9 ∨ month = 11 then 30
  else 31

/-- Reads a date; gives its text and the rest. -/
def date? (word : List Char) : Option (List Char × List Char) := do
  let (century, word') ← twoDigits word
  let (years, word') ← twoDigits word'
  match word' with
  | '-' :: word' =>
    let (month, word') ← twoDigits word'
    match word' with
    | '-' :: word' =>
      let (day, word') ← twoDigits word'
      if 1 ≤ month ∧ month ≤ 12 ∧ 1 ≤ day ∧ day ≤ daysOf (100 * century + years) month then
        some (word.take 10, word')
      else none
    | _ => none
  | _ => none

/-- The digits of a fraction of a second that count, without zeros at the end but for one that
is alone. -/
def shownFraction (ds : List Char) : List Char :=
  match (ds.take 9).reverse.dropWhile (· = '0') with
  | [] => ['0']
  | shown => shown.reverse

def subsecond? : List Char → Option (List Char × List Char)
  | '.' :: rest =>
      let ds := rest.takeWhile Char.isDigit
      if ds.isEmpty then none
      else some ('.' :: shownFraction ds, rest.dropWhile Char.isDigit)
  | rest => some ([], rest)

/-- Reads a time of the day; gives its text and the rest. Seconds may be absent. -/
def time? (word : List Char) : Option (List Char × List Char) := do
  let (hour, afterHour) ← twoDigits word
  match afterHour with
  | ':' :: more =>
    let (minute, afterMinute) ← twoDigits more
    if 23 < hour ∨ 59 < minute then none
    else
      match afterMinute with
      | ':' :: more =>
        let (second, afterSecond) ← twoDigits more
        if 60 < second then none
        else
          let (fraction, rest) ← subsecond? afterSecond
          some (word.take 8 ++ fraction, rest)
      | rest => some (word.take 5, rest)
  | _ => none

/-- Reads the distance of a time from the universal time, which may be absent. -/
def offset? : List Char → Option (List Char)
  | [] => some []
  | ['Z'] => some ['Z']
  | ['z'] => some ['Z']
  | sign :: rest =>
      if sign = '+' ∨ sign = '-' then do
        let (hour, afterHour) ← twoDigits rest
        match afterHour with
        | ':' :: more =>
          let (minute, afterMinute) ← twoDigits more
          let sign := if hour = 0 ∧ minute = 0 then '+' else sign
          if hour ≤ 23 ∧ minute ≤ 59 ∧ afterMinute.isEmpty then some (sign :: rest) else none
        | _ => none
      else none

def dateTime (word : List Char) : Option Toml :=
  match date? word with
  | some (day, []) => some (.dateTime (String.ofList day))
  | some (day, mark :: rest) =>
    if mark = 'T' ∨ mark = 't' ∨ mark = ' ' then do
      let (time, rest) ← time? rest
      let offset ← offset? rest
      return .dateTime (String.ofList (day ++ 'T' :: time ++ offset))
    else none
  | none =>
    match time? word with
    | some (time, []) => some (.dateTime (String.ofList time))
    | _ => none

def ofWord (word : List Char) : Option Toml :=
  match word with
  | ['t', 'r', 'u', 'e'] => some (.bool true)
  | ['f', 'a', 'l', 's', 'e'] => some (.bool false)
  | '0' :: 'x' :: rest => basedInteger 16 rest
  | '0' :: 'o' :: rest => basedInteger 8 rest
  | '0' :: 'b' :: rest => basedInteger 2 rest
  | word =>
    match (signed word).2 with
    | ['i', 'n', 'f'] => some (.real (signed word).1 .infinite)
    | ['n', 'a', 'n'] => some .notNumber
    | _ =>
      match decimal word with
      | some value => some value
      | none => dateTime word

def isWordChar (c : Char) : Bool :=
  c.isAlphanum || c == '_' || c == '+' || c == '-' || c == '.' || c == ':'

def cutWord (text : List Char) : List Char × List Char :=
  let word := text.takeWhile isWordChar
  let rest := text.dropWhile isWordChar
  match date? word, rest with
  | some (_, []), ' ' :: c :: more =>
    if c.isDigit then
      let time := (c :: more).takeWhile isWordChar
      (word ++ ' ' :: time, (c :: more).dropWhile isWordChar)
    else (word, rest)
  | _, _ => (word, rest)

end Scalar

end Bundler.Toml
