import Bundler.Script.Printer.Output

/-!
# Parts of nodes

What the layouts of many kinds of nodes have in common: parts that may be missing, keys, words
that qualify a declaration, statements on lines of their own, and the bodies of loops.
-/

namespace Bundler.Script

def Tree.write (node : Laid) (around : Surroundings) : Writer Unit := node.value around

/-- Writes a node to which its surroundings do not matter. -/
def Tree.writeFree (node : Laid) : Writer Unit := node.value .free

def Tree.writeItem (node : Laid) : Writer Unit := node.value .item

namespace Writer

/-- Writes a part after a text, if the part is there. -/
def after (before : String) (node : Laid) (around : Surroundings) : Writer Unit := do
  if !node.isAbsent then
    text before
    node.write around

def words : List (Bool × String) → Writer Unit
  | [] => return ()
  | (applies, word) :: rest => do
    if applies then
      name word
      space
    words rest

/-- Writes a key, in brackets if it is computed. -/
def key (computed : Bool) (node : Laid) : Writer Unit := do
  if computed then chars ['[']
  node.writeItem
  if computed then chars [']']

/-- Writes a sign that is there or not. -/
def mark (applies : Bool) (sign : Char) : Writer Unit := do
  if applies then chars [sign]

/-- Writes type parameters, parameters in parentheses and a result type. -/
def signature (generics inputs result : Laid) : Writer Unit := do
  generics.writeFree
  chars ['(']
  inputs.writeFree
  chars [')']
  after ": " result .free

def decorators (marks : Laid) : Writer Unit :=
  marks.children.forM fun mark => do
    mark.writeFree
    space

def lined (pieces : List (Writer Unit)) : Writer Unit := do
  moveIn
  separated (chars [',']) (pieces.map fun piece => do
    newline
    startLine
    piece)
  newline
  moveOut
  startLine

end Writer

/-- How a statement ends. -/
inductive Ending where
  /-- With a semicolon and the line. -/
  | semicolon
  /-- With the line. -/
  | line
  /-- With what its last part ends with. -/
  | within
deriving DecidableEq, Repr

def Kind.ending : Kind → Ending
  | .block | .function _ | .class_ _ | .interface _ | .enum _ _ | .namespace_ _ _ | .switch_
  | .try_ _ => .line
  | .if_ | .for_ | .forIn | .forOf _ | .while_ | .with_ | .labeled | .exportDeclaration
  | .exportDefault _ => .within
  | _ => .semicolon

namespace Writer

/-- Ends a statement as its kind does. -/
def ending (kind : Kind) : Writer Unit :=
  match kind.ending with
  | .semicolon => endStatement
  | .line => newline
  | .within => return ()

/-- Whether a statement declares a function whose calls are free of effects. -/
def declaresEffectFree : Laid → Bool
  | .node (.function shape) _ _ _ _ => !shape.isExpression && shape.isEffectFree
  | .node .exportDeclaration _ _ _ [inner] => declaresEffectFree inner
  | .node (.exportDefault _) _ _ _ [inner] => declaresEffectFree inner
  | _ => false

def noteEffectFreeFunction : Writer Unit := text "/* @__NO_SIDE_EFFECTS__ */"

def statement (node : Laid) : Writer Unit := do
  leadingComments node.start
  if declaresEffectFree node then
    startLine
    noteEffectFreeFunction
    newline
  startLine
  node.writeFree
  ending node.kind

/-- Writes directives and statements. A string that is the first statement, and yet no directive,
is put in parentheses. -/
def statements (nodes : List Laid) : Writer Unit :=
  match nodes with
  | [] => return ()
  | first :: rest => do
    match first with
    | .node .expressionStatement _ _ _ [expression] =>
      match expression.bare.kind with
      | .string _ _ _ =>
        wrap true expression.writeFree
        endStatement
      | _ => statement first
    | _ => statement first
    rest.forM statement

def block (nodes : List Laid) : Writer Unit := braces nodes.isEmpty (nodes.forM statement)

/-- Writes the statement that a loop or a condition is about: a block or nothing right behind it,
another one on the same line. -/
def body (node : Laid) : Writer Unit :=
  match node.kind with
  | .block => do
    space
    node.writeFree
    newline
  | .empty => endStatement
  | _ => do
    stayOnLine
    statement node

def members (nodes : List Laid) (end_ : Laid → Writer Unit) : Writer Unit :=
  braces nodes.isEmpty (nodes.forM fun node => do
    leadingComments node.start
    startLine
    node.writeFree
    end_ node)

end Writer

end Bundler.Script
