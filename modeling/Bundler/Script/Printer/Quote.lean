import Bundler.Script.Quoted

/-!
# Written strings

Strings are written in double quotes. Characters that would end the string or the line are
escaped, and so are some others that would not show.
-/

namespace Bundler.Script.Quote

/-- Whether a text goes on with the name of a tag that ends a script. -/
def endsScript (rest : List Char) : Bool :=
  (rest.take 7).map Char.toLower == ['/', 's', 'c', 'r', 'i', 'p', 't']

/-- One character of a string, with the characters after it in sight. -/
def char (c : Char) (rest : List Char) : List Char :=
  match c with
  | '"' => ['\\', '"']
  | '\\' => ['\\', '\\']
  | '\n' => ['\\', 'n']
  | '\r' => ['\\', 'r']
  | _ =>
    let n := c.toNat
    if n = 0 then
      if (rest.head?.map Char.isDigit).getD false then ['\\', 'x', '0', '0'] else ['\\', '0']
    else if n = 0x07 then ['\\', 'x', '0', '7']
    else if n = 0x08 then ['\\', 'b']
    else if n = 0x0b then ['\\', 'v']
    else if n = 0x0c then ['\\', 'f']
    else if n = 0x1b then ['\\', 'x', '1', 'B']
    else if n = 0x2028 then ['\\', 'u', '2', '0', '2', '8']
    else if n = 0x2029 then ['\\', 'u', '2', '0', '2', '9']
    else if n = 0xa0 then ['\\', 'x', 'A', '0']
    else if c = '<' && endsScript rest then ['<', '\\']
    else [c]

/-- The characters of a string without marks. -/
def plain : List Char → List Char
  | [] => []
  | c :: rest => char c rest ++ plain rest

/-- The characters of a string in which halves of surrogate pairs are marked. -/
def marked : List Char → List Char
  | [] => []
  | c :: a :: b :: d :: e :: rest =>
    if c.toNat = 0xfffd then
      if [a, b, d, e] = ['f', 'f', 'f', 'd'] then c :: marked rest
      else '\\' :: 'u' :: a :: b :: d :: e :: marked rest
    else char c (a :: b :: d :: e :: rest) ++ marked (a :: b :: d :: e :: rest)
  | c :: rest => char c rest ++ marked rest

def text (value : String) (lone : Bool) : List Char :=
  '"' :: (if lone then marked value.toList else plain value.toList) ++ ['"']

/-- The quote around the raw text of a directive: single if a double quote comes first in it. -/
def directiveQuote : List Char → Char
  | [] => '"'
  | '"' :: _ => '\''
  | '\'' :: _ => '"'
  | '\\' :: _ :: rest => directiveQuote rest
  | _ :: rest => directiveQuote rest

def directive (raw : String) : List Char :=
  let quote := directiveQuote raw.toList
  quote :: raw.toList ++ [quote]

def raw : List Char → List Char
  | [] => []
  | c :: rest => if c = '<' && endsScript rest then '<' :: '\\' :: raw rest else c :: raw rest

end Bundler.Script.Quote
