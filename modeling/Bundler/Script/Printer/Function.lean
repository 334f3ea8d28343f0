import Bundler.Script.Printer.Pattern

/-!
# Layout of functions and classes
-/

namespace Bundler.Script.Layout

open Writer

def parameter (access : Option String) (isReadonly isOverride isOptional : Bool) :
    List Laid → Layout
  | [marks, pattern, type, value], _ => do
    decorators marks
    words [(access.isSome, access.getD ""), (isOverride, "override"), (isReadonly, "readonly")]
    pattern.writeFree
    mark isOptional '?'
    after ": " type .free
    after " = " value .item
  | _, _ => return ()

def stayInline (comments : List Comment) : Bool :=
  comments.all fun comment => !comment.isLine && !comment.afterBreak && !comment.beforeBreak

/-- The body of a function, with the comments before its last brace. -/
def functionBody (stop : Nat) (nodes : List Laid) : Layout := fun _ => do
  let last ← takeComments (stop - 1)
  braces (nodes.isEmpty && stayInline last) do
    statements nodes
    if !last.isEmpty then
      comments last
      leaveLine

def bodyOrEnd (body : Laid) : Writer Unit :=
  if body.isAbsent then chars [';'] else after " " body .free

def atOpening : Writer Bool := do
  let output ← get
  return output.statementStart == some output.length || output.defaultStart == some output.length

def function (shape : FunctionShape) : List Laid → Layout
  | [called, generics, inputs, result, body], _ => do
    if shape.isExpression && shape.isEffectFree then
      noteEffectFreeFunction
      space
    let opens ← atOpening
    wrap (shape.isExpression && (opens || shape.isParenthesized)) do
      separateName
      words [(shape.isDeclare, "declare"), (shape.isAsync, "async")]
      text "function"
      if shape.isGenerator then chars ['*', ' ']
      called.writeFree
      signature generics inputs result
      bodyOrEnd body
  | _, _ => return ()

def arrow (shape : ArrowShape) : List Laid → Layout
  | [generics, inputs, result, body], around => do
    if shape.isEffectFree then
      noteEffectFreeFunction
      space
    wrap (Precedence.assign ≤ around.precedence || shape.isParenthesized) do
      words [(shape.isAsync, "async")]
      signature generics inputs result
      text " => "
      if shape.hasExpressionBody then
        modify fun output => { output with arrowStart := some output.length }
        body.write (around.at_ .comma)
      else body.writeFree
  | _, _ => return ()

def method (computed isOptional : Bool) (keyed : Laid) (function : Laid) : Writer Unit :=
  match function with
  | .node (.function shape) _ _ _ [_, generics, inputs, result, body] => do
    words [(shape.isAsync, "async")]
    mark shape.isGenerator '*'
    key computed keyed
    mark isOptional '?'
    signature generics inputs result
    if !body.isAbsent then
      space
      body.writeFree
    else chars [';']
  | _ => return ()

def roleWord : MethodRole → List (Bool × String)
  | .getter => [(true, "get")]
  | .setter => [(true, "set")]
  | _ => []

def methodProperty (role : MethodRole) (computed : Bool) (keyed function : Laid) : Layout :=
  fun _ => do
    words (roleWord role)
    method computed false keyed function

/-- Whether the expression of a decorator needs no parentheses. -/
def isPlainDecorator : Laid → Bool
  | .node (.name _) _ _ _ _ => true
  | .node (.member _) _ _ _ _ => true
  | .node (.call _ _) _ _ _ (callee :: _) => isPlainDecorator callee
  | _ => false

def decorator (expression : Laid) : Layout := fun _ => do
  chars ['@']
  wrap (!isPlainDecorator expression) expression.writeFree

def classMethod (role : MethodRole) (computed : Bool) (modifiers : Modifiers)
    (marks keyed function : Laid) : Layout := fun _ => do
  decorators marks
  words [(modifiers.access.isSome, modifiers.access.getD ""), (modifiers.isAbstract, "abstract"),
    (modifiers.isStatic, "static")]
  words (roleWord role)
  method computed modifiers.isOptional keyed function

def fieldWords (modifiers : Modifiers) : List (Bool × String) :=
  if modifiers.isAccessor then
    [(modifiers.isAbstract, "abstract"), (modifiers.access.isSome, modifiers.access.getD ""),
      (modifiers.isStatic, "static"), (modifiers.isOverride, "override"), (true, "accessor")]
  else
    [(modifiers.isDeclare, "declare"), (modifiers.access.isSome, modifiers.access.getD ""),
      (modifiers.isAbstract, "abstract"), (modifiers.isStatic, "static"),
      (modifiers.isReadonly, "readonly")]

def field (computed : Bool) (modifiers : Modifiers) (marks keyed type value : Laid) : Layout :=
  fun _ => do
    decorators marks
    words (fieldWords modifiers)
    key computed keyed
    mark (modifiers.isOptional && !modifiers.isAccessor) '?'
    after ": " type .free
    after " = " value .item

def staticBlock (nodes : List Laid) : Layout := fun _ => do
  text "static "
  braces false (nodes.forM statement)

def endMember (node : Laid) : Writer Unit :=
  match node.kind with
  | .field _ _ | .indexSignature _ => endStatement
  | _ => newline

def classBody (nodes : List Laid) : Layout := fun _ => members nodes endMember

def class_ (shape : ClassShape) : List Laid → Layout
  | [marks, called, generics, base, baseArguments, interfaces, body], _ => do
    let opens ← atOpening
    wrap (shape.isExpression && opens) do
      decorators marks
      separateName
      words [(shape.isDeclare, "declare"), (shape.isAbstract, "abstract")]
      text "class"
      after " " called .free
      generics.writeFree
      after " extends " base (.of .postfixed)
      baseArguments.writeFree
      if !interfaces.children.isEmpty then
        text " implements "
        commas (interfaces.children.map Tree.writeFree)
      space
      body.writeFree
  | _, _ => return ()

end Bundler.Script.Layout
