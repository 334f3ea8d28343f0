import Bundler.Pattern.Normal
import Bundler.Text.Unicode.Query

/-!
# Escapes in patterns

What a backslash and the characters behind it stand for: a character, a set of characters or a
condition. In an extended pattern blanks and comments may stand between the characters.
-/

namespace Bundler.Pattern

open Text (CharSet)

/-- Switches that decide how a pattern is read. -/
structure Flags where
  insensitive : Bool := false
  multiLine : Bool := false
  dotAll : Bool := false
  unicode : Bool := true
  crlf : Bool := false
  extended : Bool := false
deriving Inhabited

def skipComment : List Char → List Char
  | [] => []
  | '\n' :: rest => rest
  | _ :: rest => skipComment rest

def skipBlanksFrom : (fuel : Nat) → List Char → List Char
  | 0, text => text
  | _, [] => []
  | fuel + 1, c :: rest =>
      if Text.Unicode.isWhiteSpace c then skipBlanksFrom fuel rest
      else if c = '#' then skipBlanksFrom fuel (skipComment rest)
      else c :: rest

def skipBlanks (flags : Flags) (text : List Char) : List Char :=
  if flags.extended then skipBlanksFrom text.length text else text

/-- Reads characters while they pass a test, going past blanks. The second result is what stands
at the first character that fails. -/
def takeThrough (flags : Flags) (test : Char → Bool) :
    (fuel : Nat) → List Char → List Char × List Char
  | 0, text => ([], text)
  | fuel + 1, text =>
    match skipBlanks flags text with
    | [] => ([], [])
    | c :: rest =>
      if test c then
        let (taken, rest) := takeThrough flags test fuel rest
        (c :: taken, rest)
      else ([], c :: rest)

def upToBrace (flags : Flags) (text : List Char) : Option (List Char × List Char) :=
  match takeThrough flags (· != '\x7d') (text.length + 1) text with
  | (taken, _ :: rest) => some (taken, rest)
  | (_, []) => none

/-- Characters that only stand for themselves behind a backslash. -/
def isMeta (c : Char) : Bool :=
  ['\\', '.', '+', '*', '?', '(', ')', '|', '[', ']', '\x7b', '\x7d', '^', '$', '#', '&', '-',
    '~'].contains c

/-- Characters that may stand behind a backslash without a meaning of their own. -/
def isEscapable (c : Char) : Bool :=
  isMeta c || (decide (c.toNat < 128) && !c.isAlphanum && c != '<' && c != '>')

/-- The digits that are told apart without tables. -/
def asciiDigits : CharSet := .ofText "30-39"

def asciiBlanks : CharSet := .ofText "9-d 20"

def asciiWord : CharSet := .ofText "30-39 41-5a 5f 61-7a"

/-- The set with all cases of its characters where case is ignored. -/
def Flags.fold (flags : Flags) (chars : CharSet) : CharSet :=
  if !flags.insensitive then chars
  else if flags.unicode then chars.folded
  else chars.asciiFolded

/-- The set, or its complement. Without tables the result must be of one byte. -/
def Flags.close (flags : Flags) (negated : Bool) (chars : CharSet) : Option CharSet :=
  let chars := flags.fold chars
  let chars := if negated then chars.complement else chars
  if flags.unicode || chars.isAscii then some chars else none

/-- What a backslash, or a plain character, stands for. -/
inductive Primitive where
  | literal (code : Nat) (isByte : Bool)
  | class (chars : CharSet)
  | look (condition : Look)

def hexNumber? (digits : List Char) : Option Nat :=
  digits.foldlM (fun value c => (Text.hexValue? c).map (value * 16 + ·)) 0

def fixedHex (flags : Flags) : Nat → Nat → List Char → Option (Nat × List Char)
  | 0, value, rest => some (value, rest)
  | n + 1, value, text =>
    match skipBlanks flags text with
    | c :: rest =>
      match Text.hexValue? c with
      | some digit => fixedHex flags n (value * 16 + digit) rest
      | none => none
    | [] => none

def hexLiteral (flags : Flags) (width : Nat) (text : List Char) :
    Option (Primitive × List Char) := do
  let (code, rest) ←
    match skipBlanks flags text with
    | '\x7b' :: rest =>
      match upToBrace flags rest with
      | some (c :: digits, rest) => (hexNumber? (c :: digits)).map (·, rest)
      | _ => none
    | rest => fixedHex flags width 0 rest
  if (0xD800 ≤ code ∧ code ≤ 0xDFFF) ∨ 0x10ffff < code then none
  else some (.literal code (width == 2 && (skipBlanks flags text).head? != some '\x7b'), rest)

def propertyClass (flags : Flags) (negated : Bool) (text : List Char) :
    Option (Primitive × List Char) := do
  let (query, rest) ←
    match skipBlanks flags text with
    | '\x7b' :: rest => upToBrace flags rest
    | '\\' :: _ => none
    | c :: rest => some ([c], rest)
    | [] => none
  if !flags.unicode then none
  else
    let chars ← Text.Unicode.querySet? query
    return (.class (← flags.close negated chars), rest)

def shorthand (flags : Flags) (unicode ascii : CharSet) (negated : Bool) : Option Primitive :=
  let chars := if flags.unicode then unicode else ascii
  let chars := if negated then chars.complement else chars
  if flags.unicode || chars.isAscii then some (.class chars) else none

/-- Reads what follows the letter of a word boundary: braces with the name of a special boundary,
or nothing. -/
def boundaryKind (flags : Flags) (text : List Char) : Option (Primitive × List Char) :=
  let u := flags.unicode
  let isNameChar (c : Char) : Bool := c.isAlpha || c == '-'
  match text with
  | '\x7b' :: rest =>
    match takeThrough flags isNameChar (rest.length + 1) rest with
    | ([], []) => none
    | ([], _) => some (.look (.boundary u), text)
    | (name, '\x7d' :: rest) =>
      match String.ofList name with
      | "start" => some (.look (.wordStart u), rest)
      | "end" => some (.look (.wordEnd u), rest)
      | "start-half" => some (.look (.wordStartHalf u), rest)
      | "end-half" => some (.look (.wordEndHalf u), rest)
      | _ => none
    | _ => none
  | text => some (.look (.boundary u), text)

def escape (flags : Flags) (text : List Char) : Option (Primitive × List Char) :=
  match text with
  | [] => none
  | c :: rest =>
    let u := flags.unicode
    let literal (code : Nat) : Option (Primitive × List Char) := some (.literal code false, rest)
    let look (condition : Look) : Option (Primitive × List Char) := some (.look condition, rest)
    let digit := Text.Unicode.Category.decimalNumber.set
    let blank := Text.Unicode.whiteSpace
    let word := Text.Unicode.wordSet
    match c with
    | 'x' => hexLiteral flags 2 rest
    | 'u' => hexLiteral flags 4 rest
    | 'U' => hexLiteral flags 8 rest
    | 'p' => propertyClass flags false rest
    | 'P' => propertyClass flags true rest
    | 'd' => (shorthand flags digit asciiDigits false).map (·, rest)
    | 'D' => (shorthand flags digit asciiDigits true).map (·, rest)
    | 's' => (shorthand flags blank asciiBlanks false).map (·, rest)
    | 'S' => (shorthand flags blank asciiBlanks true).map (·, rest)
    | 'w' => (shorthand flags word asciiWord false).map (·, rest)
    | 'W' => (shorthand flags word asciiWord true).map (·, rest)
    | 'a' => literal 7
    | 'f' => literal 12
    | 't' => literal 9
    | 'n' => literal 10
    | 'r' => literal 13
    | 'v' => literal 11
    | 'A' => look .textStart
    | 'z' => look .textEnd
    | 'b' => boundaryKind flags rest
    | 'B' => look (.notBoundary u)
    | '<' => look (.wordStart u)
    | '>' => look (.wordEnd u)
    | c => if isEscapable c then literal c.toNat else none

end Bundler.Pattern
