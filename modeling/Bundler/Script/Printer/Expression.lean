import Bundler.Script.Printer.Function
import Bundler.Script.Printer.Numeral

/-!
# Layout of expressions

Parentheses stand where an operator would otherwise take an operand away from another, and where
an expression would otherwise begin like something else.
-/

namespace Bundler.Script.Layout

open Writer

def number (value : Decimal.Binary64) : Layout := fun _ => do
  separateName
  chars (Numeral.text value)
  if Numeral.takesPoint value then
    modify fun output => { output with numberEnd := some output.length }

def regex (pattern flags : String) : Layout := fun _ => do
  if (← last?) == some '/' then space
  text ("/" ++ pattern ++ "/" ++ flags)
  modify fun output => { output with regexEnd := some output.length }

def template (parts : List Laid) : Layout := fun _ => do
  chars ['\x60']
  parts.forM fun part =>
    match part.kind with
    | .piece raw => chars (Quote.raw raw.toList)
    | _ => do
      chars ['$', '\x7b']
      part.writeFree
      chars ['\x7d']
  chars ['\x60']

def tagged (tag generics template : Laid) : Layout := fun _ => do
  tag.write (.of .postfixed)
  generics.writeFree
  template.writeFree

/-! ### Lists and objects -/

/-- Pieces for elements, where a hole at the end has a comma of its own. -/
def elementPieces : List Laid → List (Writer Unit)
  | [] => []
  | [last] => [do last.writeItem; mark last.isAbsent ',']
  | element :: rest => element.writeItem :: elementPieces rest

def array (elements : List Laid) : Layout := fun _ => do
  let pieces := elementPieces elements
  chars ['[']
  if 2 < elements.length then lined pieces else commas pieces
  chars [']']

def isBareProperty (computed shorthand : Bool) (keyed value : Laid) : Bool :=
  match computed, keyed.kind, value.bare.kind with
  | false, .name text, .name other => if text == "__proto__" then shorthand else text == other
  | _, _, _ => false

/-- Whether a key can only be written as a computed one. -/
def needsBrackets (keyed : Laid) : Bool :=
  match keyed.kind with
  | .number .infinite => true
  | _ => false

def property (computed shorthand : Bool) (keyed value : Laid) : Layout := fun _ => do
  if !isBareProperty computed shorthand keyed value then
    key (computed || needsBrackets keyed) keyed
    text ": "
  value.writeItem

/-- Whether an object that is written here would be taken for a block. -/
def atBlockPlace : Writer Bool := do
  let output ← get
  return output.statementStart == some output.length || output.arrowStart == some output.length

/-- An object. One of more than one property takes several lines, and one behind comments stands in
parentheses with them. -/
def object (start : Nat) (properties : List Laid) : Layout := fun _ => do
  let opens ← atBlockPlace
  let commented ← hasComments start
  wrap (opens || commented) do
    openingComments start
    chars ['\x7b']
    match properties with
    | [] => pure ()
    | [single] =>
      space
      single.writeItem
      space
    | several => lined (several.map Tree.writeItem)
    chars ['\x7d']

def spread (inner : Laid) : Layout := fun _ => do
  text "..."
  inner.writeItem

/-! ### Operators -/

/-- Whether a sign joins another one of its kind to an operator that counts up or down. -/
def joins (sign : Char) : Bool := sign == '+' || sign == '-'

/-- Writes a space before an operator that would otherwise join the one before it. -/
def separateOperator (operator : String) : Writer Unit := do
  let output ← get
  match output.lastOperator with
  | some (sign, place) =>
    if joins sign && place == output.length && operator.toList.head? == some sign then space
  | none => return ()

def unary (op : UnaryOp) (operand : Laid) : Layout := fun around =>
  wrap (Precedence.prefixed ≤ around.precedence) do
    if op.isWord then
      name op.text
      space
    else
      separateOperator op.text
      text op.text
      modify fun output =>
        { output with lastOperator := op.text.toList.head?.map fun c => (c, output.length) }
    match op, operand.kind with
    | .delete_, .number .infinite =>
      text "(0, "
      operand.write (around.at_ .exponentiation)
      chars [')']
    | _, _ => operand.write (around.at_ .exponentiation)

/-- An operator that counts up or down. -/
def update (op : UpdateOp) (leads : Bool) (operand : Laid) : Layout := fun around =>
  if leads then
    wrap (Precedence.prefixed ≤ around.precedence) do
      separateOperator op.text
      text op.text
      operand.write (around.at_ .prefixed)
  else
    wrap (Precedence.postfixed ≤ around.precedence) do
      separateOperator op.text
      operand.write (around.at_ .postfixed)
      text op.text

/-- The operator of an expression of two operands, seen through parentheses. -/
def operator? (node : Laid) : Option BinaryOp :=
  match node.bare.kind with
  | .binary op => some op
  | _ => none

/-- Whether an operand has to stand apart from the operator, as mixing them is not allowed. -/
def standsApart (op : BinaryOp) (operand : Laid) : Bool :=
  match op, operator? operand with
  | .nullish, some .and => true
  | .nullish, some .or => true
  | _, _ => false

/-- Whether an expression is a sign or a word before its operand, seen through parentheses. -/
def isUnary (node : Laid) : Bool :=
  match node.bare.kind with
  | .unary _ => true
  | _ => false

def leftPrecedence (op : BinaryOp) (left : Laid) : Precedence :=
  if standsApart op left then .prefixed
  else if op.isRightAssociative then
    if isUnary left then .call else op.precedence
  else op.precedence - 1

/-- How tightly the right side of an operator has to hold together. -/
def rightPrecedence (op : BinaryOp) (right : Laid) : Precedence :=
  if standsApart op right then .prefixed
  else if op.isRightAssociative || (op.isLogical && operator? right == some op) then
    op.precedence - 1
  else op.precedence

def binary (op : BinaryOp) (left right : Laid) : Layout := fun around =>
  let wrapped := op.precedence ≤ around.precedence || (op == .in_ && around.forbidsIn)
  let inside := if wrapped then { around with forbidsIn := false } else around
  wrap wrapped do
    left.write (inside.at_ (leftPrecedence op left))
    text (" " ++ op.text ++ " ")
    right.write (inside.inOnly (rightPrecedence op right))

def privateIn (name right : Laid) : Layout := fun around =>
  wrap (Precedence.compare ≤ around.precedence) do
    name.writeFree
    text " in "
    right.write ⟨.equals, true, false⟩

def isObjectTarget (target : Laid) : Bool :=
  match target.kind with
  | .objectTarget => true
  | _ => false

def assign (op : AssignOp) (target value : Laid) : Layout := fun around => do
  let opens ← atBlockPlace
  wrap (Precedence.assign ≤ around.precedence || (opens && isObjectTarget target)) do
    target.writeItem
    text (" " ++ op.text ++ " ")
    value.write (around.at_ .comma)

def conditional (test consequent alternate : Laid) : Layout := fun around =>
  let wrapped : Bool := Precedence.conditional ≤ around.precedence
  let inside := if wrapped then { around with forbidsIn := false } else around
  wrap wrapped do
    test.write (inside.inOnly .conditional)
    text " ? "
    consequent.write (.of .yield_)
    text " : "
    alternate.write (inside.inOnly .yield_)

def sequence (items : List Laid) : Layout := fun around =>
  wrap (Precedence.comma ≤ around.precedence)
    (commas (items.map fun item => item.write (around.inOnly .lowest)))

def yield_ (delegate : Bool) (operand : Laid) : Layout := fun around =>
  wrap (Precedence.assign ≤ around.precedence) do
    name "yield"
    mark delegate '*'
    after " " operand (around.at_ .yield_)

def await_ (operand : Laid) : Layout := fun around =>
  wrap (Precedence.prefixed ≤ around.precedence) do
    name "await"
    space
    operand.write (around.at_ .exponentiation)

/-! ### Accesses and calls -/

def startArgument (start : Nat) : Writer Unit := do
  if !(← innerComments start) then newline
  startLine

/-- Arguments in parentheses. Each takes a line if there are comments among them. -/
def arguments (items : List Laid) (stop : Nat) : Writer Unit := do
  let ends ← hasComments (stop - 1)
  let commented ← items.anyM fun item => hasComments item.start
  chars ['(']
  if ends || commented then
    moveIn
    separated (chars [',']) (items.map fun item => do
      startArgument item.start
      item.writeItem)
    if !(← innerComments (stop - 1)) then newline
    moveOut
    startLine
  else commas (items.map Tree.writeItem)
  chars [')']

def noteEffectFree (effectFree : Bool) : Writer Unit := do
  if effectFree then text "/* @__PURE__ */ "

def reopen (statement default : Bool) : Writer Unit :=
  modify fun output =>
    if default then { output with defaultStart := some output.length }
    else if statement then { output with statementStart := some output.length }
    else output

def call (optional effectFree : Bool) (stop : Nat) (callee generics items : Laid) : Layout :=
  fun around => do
    let output ← get
    let statement := output.statementStart == some output.length
    let default := output.defaultStart == some output.length
    wrap (Precedence.new_ ≤ around.precedence || around.forbidsCall ||
        (effectFree && Precedence.postfixed ≤ around.precedence)) do
      noteEffectFree effectFree
      reopen statement default
      callee.write (.of .postfixed)
      if optional then text "?."
      generics.writeFree
      arguments items.children stop

def new_ (effectFree : Bool) (stop : Nat) (callee generics items : Laid) : Layout := fun around =>
  wrap (Precedence.member ≤ around.precedence ||
      (effectFree && Precedence.postfixed ≤ around.precedence)) do
    noteEffectFree effectFree
    name "new"
    space
    callee.write ⟨.new_, false, true⟩
    generics.writeFree
    arguments items.children stop

def member (optional : Bool) (object called : Laid) : Layout := fun around => do
  object.write (around.callsOnly .postfixed)
  if optional then text "?."
  else
    let output ← get
    if output.numberEnd == some output.length then space
    chars ['.']
  called.writeFree

/-- Whether an expression is a name that would begin a declaration in front of a bracket. -/
def isDeclaringName (object : Laid) : Bool :=
  match object.bare.kind with
  | .name "let" => true
  | _ => false

def element (optional : Bool) (object index : Laid) : Layout := fun around => do
  wrap (isDeclaringName object) (object.write (around.callsOnly .postfixed))
  if optional then text "?."
  chars ['[']
  index.writeFree
  chars [']']

def chain (inner : Laid) : Layout := fun around =>
  wrap (Precedence.postfixed ≤ around.precedence) (inner.write around)

def importCall (phase : Option String) (stop : Nat) (source options : Laid) : Layout :=
  fun around =>
    wrap (Precedence.new_ ≤ around.precedence || around.forbidsCall) do
      name "import"
      match phase with
      | some word => text ("." ++ word)
      | none => pure ()
      arguments (source :: if options.isAbsent then [] else [options]) stop

/-! ### Marks of types -/

def typedExpression (word : String) (expression type : Laid) : Layout := fun around =>
  wrap (Precedence.compare ≤ around.precedence) do
    expression.write (around.at_ .exponentiation)
    text (" " ++ word ++ " ")
    type.writeFree

def isFunctionType (type : Laid) : Bool :=
  match type.kind with
  | .functionType => true
  | _ => false

def assertedType (type expression : Laid) : Layout := fun around =>
  wrap true do
    chars ['<']
    if isFunctionType type then space
    type.writeFree
    chars ['>']
    expression.write (around.at_ .member)

def isParenthesized (expression : Laid) : Bool :=
  match expression.kind with
  | .parenthesized => true
  | _ => false

/-- An expression that is said not to be missing. -/
def nonNull (expression : Laid) : Layout := fun around => do
  wrap (isParenthesized expression) (expression.write around)
  chars ['!']

def instantiation (expression generics : Laid) : Layout := fun around => do
  expression.write around
  generics.writeFree

end Bundler.Script.Layout
