/-!
# Lines and columns

A byte offset into a text is shown as a line and a column, both counted from one; a column
counts characters.
-/

namespace Bundler.Text

/-- A place in a text. -/
structure Location where
  line : Nat
  column : Nat
deriving DecidableEq, Repr, Inhabited

namespace Location

def start : Location := ⟨1, 1⟩

def advance (here : Location) (c : Char) : Location :=
  if c = '\n' then ⟨here.line + 1, 1⟩ else ⟨here.line, here.column + 1⟩

def scan (here : Location) (offset : Nat) : List Char → Location
  | [] => here
  | c :: rest =>
      if c.utf8Size ≤ offset then
        scan (here.advance c) (offset - c.utf8Size) rest
      else
        here

/-- The place of the character that holds the byte at `offset`; the end of the text for any
offset past it. -/
def ofOffset (text : List Char) (offset : Nat) : Location :=
  start.scan offset text

/-- A location is written `line:column`. -/
def render (here : Location) : String :=
  s!"{here.line}:{here.column}"

end Location

end Bundler.Text
