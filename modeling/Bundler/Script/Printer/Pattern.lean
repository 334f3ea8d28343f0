import Bundler.Script.Printer.Part

/-!
# Layout of patterns

What takes values apart: the patterns of declarations and parameters, and the targets of
assignments.
-/

namespace Bundler.Script.Layout

open Writer

def isRest (node : Laid) : Bool :=
  match node.kind with
  | .restPattern | .restTarget => true
  | _ => false

/-- Elements with commas between them, and one more behind a hole at the end. -/
def holed : List Laid → Writer Unit
  | [] => return ()
  | [last] => do
    last.writeFree
    mark last.isAbsent ','
  | element :: rest => do
    element.writeFree
    chars [',', ' ']
    holed rest

/-- A list of patterns or targets. `opensApart` says that a space stands before what takes the rest
even if nothing else does. -/
def arrayPattern (opensApart : Bool) (elements : List Laid) : Layout := fun _ => do
  let front := elements.filter fun node => !isRest node
  chars ['[']
  match elements.find? isRest with
  | some rest =>
    if front.isEmpty && opensApart then space
    front.forM fun node => do
      node.writeFree
      chars [',', ' ']
    rest.writeFree
  | none => holed front
  chars [']']

def objectPattern (properties : List Laid) : Layout := fun _ => do
  if properties.isEmpty then chars ['\x7b', '\x7d']
  else
    chars ['\x7b', ' ']
    commas (properties.map Tree.writeFree)
    chars [' ', '\x7d']

def objectTarget (properties : List Laid) : Layout := fun _ => do
  chars ['\x7b']
  commas (properties.map Tree.writeFree)
  chars ['\x7d']

/-- The name that a pattern declares, if it is one, even with a default. -/
def declaredName? (pattern : Laid) : Option String :=
  match pattern with
  | .node (.name text) _ _ _ _ => some text
  | .node .defaulted _ _ _ (.node (.name text) _ _ _ _ :: _) => some text
  | _ => none

def isShorthand (computed : Bool) (key value : Laid) : Bool :=
  match computed, key.kind with
  | false, .name text => declaredName? value == some text
  | _, _ => false

def bindingProperty (computed : Bool) (property value : Laid) : Layout := fun _ => do
  if !isShorthand computed property value then
    key computed property
    text ": "
  value.writeFree

def targetProperty (computed : Bool) (property value : Laid) : Layout := fun _ => do
  key computed property
  text ": "
  value.writeFree

def rest (inner : Laid) : Layout := fun _ => do
  text "..."
  inner.writeFree

def defaulted (pattern value : Laid) : Layout := fun _ => do
  pattern.writeItem
  after " = " value .item

def typedPattern (isDefinite : Bool) (pattern type : Laid) : Layout := fun _ => do
  pattern.writeFree
  mark isDefinite '!'
  after ": " type .free

end Bundler.Script.Layout
