import Bundler.Script.Printer.Statement

/-!
# Layout of imports and exports
-/

namespace Bundler.Script.Layout

open Writer

/-- Names in braces, with blanks inside unless there are none. -/
def bracedNames (items : List Laid) : Writer Unit := do
  chars ['\x7b']
  if !items.isEmpty then
    space
    commas (items.map Tree.writeFree)
    space
  chars ['\x7d']

def source (specifier attributes : Laid) : Writer Unit := do
  specifier.writeFree
  after " " attributes .free

def isBraced (specifier : Laid) : Bool :=
  match specifier.kind with
  | .importSpecifier _ => true
  | _ => false

def importNames (specifiers : List Laid) : Writer Unit :=
  let outer := specifiers.filter fun specifier => !isBraced specifier
  let inner := specifiers.filter isBraced
  let braced := if inner.isEmpty && !outer.isEmpty then [] else [bracedNames inner]
  commas (outer.map Tree.writeFree ++ braced)

def import_ (phase : Option String) (typeOnly : Bool) (specifiers specifier attributes : Laid) :
    Layout := fun _ => do
  text "import "
  words [(typeOnly, "type"), (phase.isSome, phase.getD "")]
  if !specifiers.isAbsent then
    importNames specifiers.children
    text " from "
  source specifier attributes

def importNamespace (called : Laid) : Layout := fun _ => do
  text "* as "
  called.writeFree

/-- Two names with a word between them, or just one if both are the same. -/
def twoNames (typeOnly : Bool) (first second : Laid) : Layout := fun _ => do
  words [(typeOnly, "type")]
  first.writeFree
  if first.nameText != second.nameText then after " as " second .free

/-- An exported name behind its comments, with the name that it is exported as if it is another
one. -/
def exportSpecifier (typeOnly : Bool) (first second : Laid) : Layout := fun _ => do
  words [(typeOnly, "type")]
  nameComments first.start
  first.writeFree
  if first.nameText != second.nameText then
    text " as "
    nameComments second.start
    second.writeFree

def exportNamed (typeOnly : Bool) (specifiers specifier attributes : Laid) : Layout := fun _ => do
  text "export "
  words [(typeOnly, "type")]
  bracedNames specifiers.children
  if !specifier.isAbsent then
    text " from "
    source specifier attributes

def exportAll (typeOnly : Bool) (called specifier attributes : Laid) : Layout := fun _ => do
  text "export "
  words [(typeOnly, "type")]
  chars ['*']
  after " as " called .free
  text " from "
  source specifier attributes

def exportDeclaration (inner : Laid) : Layout := fun _ => do
  text "export "
  inner.writeFree
  ending inner.kind

def isInterface (node : Laid) : Bool :=
  match node.kind with
  | .interface _ => true
  | _ => false

def isDeclaration (node : Laid) : Bool :=
  match node.kind with
  | .function shape => !shape.isExpression
  | .class_ shape => !shape.isExpression
  | _ => isInterface node

def exportDefault (inner : Laid) : Layout := fun _ => do
  text "export default "
  if isDeclaration inner then
    inner.writeFree
    if !isInterface inner then newline
  else
    modify fun output => { output with defaultStart := some output.length }
    inner.writeItem
    endStatement

def importAttributes (keyword : String) (items : List Laid) : Layout := fun _ => do
  text keyword
  space
  bracedNames items

def importAttribute (keyed value : Laid) : Layout := fun _ => do
  keyed.writeFree
  text ": "
  value.writeFree

end Bundler.Script.Layout
