import Bundler.Script.Printer.Expression

/-!
# Layout of statements
-/

namespace Bundler.Script.Layout

open Writer

def expressionStatement (expression : Laid) : Layout := fun _ => do
  modify fun output => { output with statementStart := some output.length }
  expression.writeFree

/-- A word with what it is about, if there is anything. -/
def worded (word : String) (operand : Laid) : Layout := fun _ => do
  name word
  after " " operand .free

def condition (word : String) (test : Laid) : Writer Unit := do
  text word
  chars [' ', '(']
  test.writeFree
  chars [')']

/-- Whether a statement ends in a condition to which an alternative behind it would belong. -/
def endsOpen : Laid → Bool
  | .node .if_ _ _ _ [_, _, alternate] =>
    match alternate with
    | .node .absent _ _ _ _ => true
    | alternate => endsOpen alternate
  | .node .for_ _ _ _ [_, _, _, body] => endsOpen body
  | .node .forIn _ _ _ [_, _, body] => endsOpen body
  | .node (.forOf _) _ _ _ [_, _, body] => endsOpen body
  | .node .while_ _ _ _ [_, body] => endsOpen body
  | .node .with_ _ _ _ [_, body] => endsOpen body
  | .node .labeled _ _ _ [_, body] => endsOpen body
  | _ => false

/-- What is done if a condition does not hold. -/
def alternative (alternate : Laid) : Writer Unit := do
  name "else"
  match alternate.kind with
  | .if_ => do
    space
    alternate.writeFree
  | _ => body alternate

def if_ (test consequent alternate : Laid) : Layout := fun _ => do
  condition "if" test
  let closed : Bool ← match consequent.kind with
    | .block => do
      space
      consequent.writeFree
      pure true
    | _ =>
      if endsOpen consequent then do
        space
        braces false (statement consequent)
        pure true
      else do
        body consequent
        pure false
  if alternate.isAbsent then
    if closed then newline
  else
    if closed then space else startLine
    alternative alternate

/-- A loop that counts. -/
def for_ (first test step inner : Laid) : Layout := fun _ => do
  text "for ("
  first.write ⟨.lowest, true, false⟩
  chars [';']
  after " " test .free
  chars [';']
  after " " step .free
  chars [')']
  body inner

/-- Writes what a loop puts values into. A name that would begin a function otherwise stands in
parentheses. -/
def loopTarget (left : Laid) : Writer Unit :=
  match left.kind with
  | .name "async" => wrap true left.writeFree
  | _ => left.writeFree

def forIn (left object inner : Laid) : Layout := fun _ => do
  text "for ("
  loopTarget left
  text " in "
  object.writeFree
  chars [')']
  body inner

def forOf (awaits : Bool) (left values inner : Laid) : Layout := fun _ => do
  text (if awaits then "for await (" else "for (")
  loopTarget left
  text " of "
  values.writeItem
  chars [')']
  body inner

def while_ (test inner : Laid) : Layout := fun _ => do
  condition "while" test
  body inner

def doWhile (inner test : Laid) : Layout := fun _ => do
  text "do"
  match inner.kind with
  | .block =>
    space
    inner.writeFree
    space
  | .empty =>
    endStatement
    startLine
  | _ =>
    newline
    moveIn
    statement inner
    moveOut
    startLine
  condition "while" test

def with_ (object inner : Laid) : Layout := fun _ => do
  text "with("
  object.writeFree
  chars [')']
  body inner

def labeled (label inner : Laid) : Layout := fun _ => do
  label.writeFree
  chars [':']
  body inner

def case_ (test : Laid) (nodes : List Laid) : Layout := fun _ => do
  if test.isAbsent then text "default"
  else
    text "case "
    test.writeFree
  chars [':']
  match nodes with
  | [single] => body single
  | nodes =>
    newline
    moveIn
    nodes.forM statement
    moveOut

def switch_ (value : Laid) (cases : List Laid) : Layout := fun _ => do
  condition "switch" value
  space
  braces cases.isEmpty (cases.forM fun one => do
    startLine
    one.writeFree)

/-- A block with what is done when it fails or ends. -/
def try_ (catchPlace : Nat) (first parameter handler finalizer : Laid) : Layout := fun _ => do
  text "try "
  first.writeFree
  if !handler.isAbsent then
    space
    leadingComments catchPlace
    text "catch "
    if !parameter.isAbsent then
      wrap true parameter.writeFree
      space
    openingComments handler.start
    handler.writeFree
  after " finally " finalizer .free

def declaration (shape : DeclarationShape) (declarators : List Laid) : Layout := fun around => do
  words [(shape.isDeclare, "declare")]
  text shape.keyword
  space
  commas (declarators.map fun declarator => declarator.write around)

def declarator (pattern value : Laid) : Layout := fun around => do
  pattern.writeFree
  after " = " value (around.at_ .comma)

end Bundler.Script.Layout
