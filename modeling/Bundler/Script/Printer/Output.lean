import Bundler.Script.Comment
import Bundler.Script.Node
import Bundler.Script.Printer.Quote
import Bundler.Text.Unicode.Property

/-!
# Written text

The text that a printer has written so far, with what the next piece depends on: the last
character, the indentation, where an expression began, and the comments that are still to come.
-/

namespace Bundler.Script

/-- The text so far and what the next piece depends on. -/
structure Output where
  /-- The text, backwards. -/
  reversed : List Char
  length : Nat
  indent : Nat
  /-- Whether the next indentation is a single space. -/
  spaceNext : Bool
  /-- The comments that are to be written, each with the place of its token. -/
  comments : List (Nat × Comment)
  /-- Where the expression of a statement begins. -/
  statementStart : Option Nat
  /-- Where the expression that an arrow function returns begins. -/
  arrowStart : Option Nat
  /-- Where the expression that is exported by default begins. -/
  defaultStart : Option Nat
  /-- The operator before an operand that was written last, and where it ends. -/
  lastOperator : Option (Char × Nat)
  /-- Where a number ends that a point would belong to. -/
  numberEnd : Option Nat
  /-- Where a regular expression ends. -/
  regexEnd : Option Nat
  /-- Whether there is markup. -/
  markup : Bool
deriving Inhabited

abbrev Writer := StateM Output

/-- What surrounds an expression: how tightly it has to hold together, and what it may not be
without parentheses. -/
structure Surroundings where
  precedence : Precedence
  forbidsIn : Bool
  forbidsCall : Bool
deriving DecidableEq, Repr, Inhabited

abbrev Layout := Surroundings → Writer Unit

abbrev Laid := Tree Layout

namespace Surroundings

/-- Surroundings that only ask for a precedence. -/
def of (precedence : Precedence) : Surroundings := ⟨precedence, false, false⟩

def free : Surroundings := of .lowest

def item : Surroundings := of .comma

def at_ (outer : Surroundings) (precedence : Precedence) : Surroundings :=
  { outer with precedence := precedence }

/-- Other precedence, where only calls are forbidden as before. -/
def callsOnly (outer : Surroundings) (precedence : Precedence) : Surroundings :=
  ⟨precedence, false, outer.forbidsCall⟩

/-- Other precedence, where only `in` is forbidden as before. -/
def inOnly (outer : Surroundings) (precedence : Precedence) : Surroundings :=
  ⟨precedence, outer.forbidsIn, false⟩

end Surroundings

namespace Writer

def chars (text : List Char) : Writer Unit :=
  modify fun output =>
    { output with
      reversed := text.foldl (fun all c => c :: all) output.reversed
      length := output.length + text.length }

def text (piece : String) : Writer Unit := chars piece.toList

def space : Writer Unit := chars [' ']

def newline : Writer Unit := chars ['\n']

def moveIn : Writer Unit := modify fun output => { output with indent := output.indent + 1 }

def moveOut : Writer Unit := modify fun output => { output with indent := output.indent - 1 }

def startLine : Writer Unit := do
  let output ← get
  if output.spaceNext then
    modify fun output => { output with spaceNext := false }
    space
  else chars (List.replicate output.indent '\t')

def stayOnLine : Writer Unit := modify fun output => { output with spaceNext := true }

def endStatement : Writer Unit := chars [';', '\n']

def place : Writer Nat := do return (← get).length

def last? : Writer (Option Char) := do return (← get).reversed.head?

/-- Writes a space if what was written last would go on with a name. -/
def separateName : Writer Unit := do
  let output ← get
  match output.reversed with
  | [] => return ()
  | c :: _ =>
    if output.regexEnd == some output.length || continuesName c then space

def name (piece : String) : Writer Unit := do
  separateName
  text piece

/-- Writes in parentheses if asked to. -/
def wrap (needed : Bool) (inner : Writer Unit) : Writer Unit := do
  if needed then chars ['(']
  inner
  if needed then chars [')']

/-- Writes in braces, on one line or with a line for each statement inside. -/
def braces (oneLine : Bool) (inner : Writer Unit) : Writer Unit := do
  chars ['\x7b']
  if !oneLine then
    newline
    moveIn
  inner
  if !oneLine then
    moveOut
    startLine
  chars ['\x7d']

def separated (separator : Writer Unit) : List (Writer Unit) → Writer Unit
  | [] => return ()
  | [piece] => piece
  | piece :: rest => do
    piece
    separator
    separated separator rest

def commas (pieces : List (Writer Unit)) : Writer Unit := separated (chars [',', ' ']) pieces

/-! ### Comments -/

/-- Takes the comments of a token off those that are to be written. -/
def takeComments (start : Nat) : Writer (List Comment) := do
  let output ← get
  let (here, others) := output.comments.partition fun entry => entry.1 == start
  if here.isEmpty then return []
  else
    set { output with comments := others }
    return here.map Prod.snd

def hasComments (start : Nat) : Writer Bool := do
  return (← get).comments.any fun entry => entry.1 == start

def prependTo (c : Char) : List (List Char) → List (List Char)
  | [] => [[c]]
  | line :: rest => (c :: line) :: rest

def splitLines : List Char → List (List Char)
  | [] => [[]]
  | '\r' :: '\n' :: rest => [] :: splitLines rest
  | c :: rest => if isLineBreak c then [] :: splitLines rest else prependTo c (splitLines rest)

/-- Writes a line of a comment that takes several. The line that opens a comment stays where it is,
the others are moved to the indentation. -/
def commentLine (line : List Char) : Writer Unit := do
  if !Comment.beginsWith "/*" line then startLine
  chars (Quote.raw (line.dropWhile Text.Unicode.isWhiteSpace))

/-- Writes a comment; the lines of one that takes several are moved to the indentation. -/
def comment (comment : Comment) : Writer Unit :=
  if comment.isMultiline then separated newline ((splitLines comment.text).map commentLine)
  else chars (Quote.raw comment.text)

def openComments (first : Comment) : Writer Unit := do
  if first.afterBreak then
    match ← last? with
    | some '\n' => startLine
    | some '\t' => return ()
    | none => return ()
    | some _ =>
      newline
      startLine
  else startLine

/-- Writes comments after the first one, and what ends the last one. -/
def moreComments : Comment → List Comment → Writer Unit
  | first, [] => do
    comment first
    if first.isLine || first.beforeBreak then newline else stayOnLine
  | first, next :: rest => do
    comment first
    if first.isLine || first.beforeBreak then
      newline
      startLine
    else if next.isLegal then newline
    else space
    moreComments next rest

def comments : List Comment → Writer Unit
  | [] => return ()
  | first :: rest => do
    openComments first
    moreComments first rest

def leadingComments (start : Nat) : Writer Unit := do
  comments (← takeComments start)

/-- Lets the next line begin at its indentation, whatever was written. -/
def leaveLine : Writer Unit := modify fun output => { output with spaceNext := false }

def openingComments (start : Nat) : Writer Unit := do
  if ← hasComments start then
    leadingComments start
    startLine

def nameComments (start : Nat) : Writer Unit := do
  if ← hasComments start then
    leadingComments start
    space
    leaveLine

/-- Writes the comments of a token inside of an expression, each on a line of its own. Says whether
there were any. -/
def innerComments (start : Nat) : Writer Bool := do
  match ← takeComments start with
  | [] => return false
  | found =>
    found.forM fun item => do
      newline
      startLine
      comment item
    newline
    return true

end Writer

end Bundler.Script
