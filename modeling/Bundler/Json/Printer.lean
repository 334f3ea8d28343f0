import Bundler.Json.Basic
import Bundler.Text.Hex

/-!
# Printing JSON

A compact form without blanks and an indented form with one item per line.
-/

namespace Bundler

namespace Json

def escapeChar (c : Char) : List Char :=
  match c with
  | '"' => ['\\', '"']
  | '\\' => ['\\', '\\']
  | '\x08' => ['\\', 'b']
  | '\x0c' => ['\\', 'f']
  | '\n' => ['\\', 'n']
  | '\r' => ['\\', 'r']
  | '\t' => ['\\', 't']
  | c => if c.toNat < 32 then ['\\', 'u'] ++ Text.hexPadded 4 c.toNat else [c]

def quoteChars (text : List Char) : List Char :=
  '"' :: text.flatMap escapeChar ++ ['"']

def quote (text : String) : String :=
  String.ofList (quoteChars text.toList)

end Json

namespace JsonNumber

/-- Puts a decimal point behind the first `before` digits. -/
def withPoint (digits : List Char) (before : Nat) : List Char :=
  digits.take before ++ '.' :: digits.drop before

/-- Real numbers have a fraction or an exponent; the exponent form starts at `10 ^ 16` and below
`10 ^ -5`. -/
def renderReal (value : Decimal.Binary64) : List Char :=
  let decimal := value.shortest
  let digits := Nat.toDigits 10 decimal.1
  let count : Int := digits.length
  let point := count + decimal.2
  if decimal.1 = 0 then ['0', '.', '0']
  else if 0 ≤ decimal.2 ∧ point ≤ 16 then
    digits ++ List.replicate decimal.2.toNat '0' ++ ['.', '0']
  else if 0 < point ∧ point ≤ 16 then withPoint digits point.toNat
  else if -5 < point ∧ point ≤ 0 then
    ['0', '.'] ++ List.replicate (-point).toNat '0' ++ digits
  else
    let mantissa := if digits.length = 1 then digits else withPoint digits 1
    let sign := if point ≤ 0 then ['e'] else ['e', '+']
    mantissa ++ sign ++ (toString (point - 1)).toList

def render : JsonNumber → String
  | natural value => toString value
  | negative value => "-" ++ toString value
  | real isNegative value =>
      String.ofList ((if isNegative then ['-'] else []) ++ renderReal value)

end JsonNumber

namespace Json

mutual

def compact : Json → String
  | null => "null"
  | bool value => if value then "true" else "false"
  | number value => value.render
  | string value => quote value
  | array items => "[" ++ ",".intercalate (compactItems items) ++ "]"
  | object fields => "\x7b" ++ ",".intercalate (compactFields fields) ++ "\x7d"

def compactItems : List Json → List String
  | [] => []
  | item :: rest => compact item :: compactItems rest

def compactFields : List (String × Json) → List String
  | [] => []
  | (key, value) :: rest => (quote key ++ ":" ++ compact value) :: compactFields rest

end

def newline (level : Nat) : String :=
  String.ofList ('\n' :: List.replicate (2 * level) ' ')

def block (level : Nat) (opening closing : String) (lines : List String) : String :=
  if lines.isEmpty then opening ++ closing
  else
    opening ++ newline (level + 1) ++ ("," ++ newline (level + 1)).intercalate lines ++
      newline level ++ closing

mutual

/-- The indented form of a value inside `level` brackets. -/
def indented (level : Nat) : Json → String
  | array items => block level "[" "]" (indentedItems (level + 1) items)
  | object fields => block level "\x7b" "\x7d" (indentedFields (level + 1) fields)
  | null => "null"
  | bool value => if value then "true" else "false"
  | number value => value.render
  | string value => quote value

def indentedItems (level : Nat) : List Json → List String
  | [] => []
  | item :: rest => indented level item :: indentedItems level rest

def indentedFields (level : Nat) : List (String × Json) → List String
  | [] => []
  | (key, value) :: rest =>
      (quote key ++ ": " ++ indented level value) :: indentedFields level rest

end

def pretty (value : Json) : String :=
  indented 0 value

end Json

end Bundler
