import Bundler.Script.Printer.Part

/-!
# Layout of markup
-/

namespace Bundler.Script.Layout

open Writer

def markupElement (selfClosing : Bool) (called attributes inner : Laid) : Layout :=
  fun _ => do
    chars ['<']
    called.writeFree
    attributes.children.forM fun one => do
      space
      one.writeFree
    if selfClosing then text " />"
    else
      chars ['>']
      inner.children.forM Tree.writeFree
      text "</"
      called.writeFree
      chars ['>']

/-- Markup without an element around it. -/
def markupFragment (inner : List Laid) : Layout := fun _ => do
  text "<>"
  inner.forM Tree.writeFree
  text "</>"

def markupNames (left : Laid) (sign : Char) (right : Laid) : Layout := fun _ => do
  left.writeFree
  chars [sign]
  right.writeFree

def markupAttribute (called value : Laid) : Layout := fun _ => do
  called.writeFree
  after "=" value .free

/-- The value of an attribute in quotes that do not occur in it. -/
def markupString (raw : String) : Layout := fun _ =>
  let quote := if raw.toList.contains '"' then '\'' else '"'
  chars (quote :: raw.toList ++ [quote])

/-- An expression in braces, or the comments that stand there instead. -/
def markupExpression (stop : Nat) (inner : Laid) : Layout := fun _ => do
  chars ['\x7b']
  if inner.isAbsent then leadingComments (stop - 1) else inner.writeFree
  chars ['\x7d']

def markupSpread (inner : Laid) : Layout := fun _ => do
  text "\x7b..."
  inner.writeItem
  chars ['\x7d']

end Bundler.Script.Layout
