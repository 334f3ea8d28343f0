import Bundler.Script.Printer.Markup
import Bundler.Script.Printer.Type
import Bundler.Script.Reader.Program

/-!
# Writing programs

The layout of each kind of node, put together, and the text of a whole program. A node is laid out
from its parts, which are laid out before it.
-/

namespace Bundler.Script

namespace Layout

open Writer

/-- The layout of what is not there. -/
def nothing : Layout := fun _ => return ()

def word (piece : String) : Layout := fun _ => name piece

def plain (piece : String) : Layout := fun _ => text piece

def one (layout : Laid → Layout) : List Laid → Layout
  | [a] => layout a
  | _ => nothing

def two (layout : Laid → Laid → Layout) : List Laid → Layout
  | [a, b] => layout a b
  | _ => nothing

def three (layout : Laid → Laid → Laid → Layout) : List Laid → Layout
  | [a, b, c] => layout a b c
  | _ => nothing

def four (layout : Laid → Laid → Laid → Laid → Layout) : List Laid → Layout
  | [a, b, c, d] => layout a b c d
  | _ => nothing

def first (layout : Laid → List Laid → Layout) : List Laid → Layout
  | a :: rest => layout a rest
  | [] => nothing

def program (hashbang : Option String) (stop : Nat) (nodes : List Laid) : Layout := fun _ => do
  match hashbang with
  | some line => text ("#!" ++ line ++ "\n")
  | none => pure ()
  statements nodes
  leadingComments stop

def ofParts (kind : Kind) (start stop : Nat) (parts : List Laid) : Layout :=
  match kind with
  | .absent | .list | .empty => nothing
  -- names and literals
  | .name text => word text
  | .privateName text => plain ("#" ++ text)
  | .string value _ lone => fun _ => chars (Quote.text value lone)
  | .number value => number value
  | .bigInt value => word (toString value ++ "n")
  | .boolean value => word (if value then "true" else "false")
  | .null => word "null"
  | .regex pattern flags => regex pattern flags
  | .this => word "this"
  | .super => word "super"
  | .piece raw => plain raw
  -- expressions
  | .template | .templateType => template parts
  | .tagged => three tagged parts
  | .array _ => array parts
  | .object _ => object start parts
  | .property computed shorthand => two (property computed shorthand) parts
  | .methodProperty role computed => two (methodProperty role computed) parts
  | .shorthandDefault | .defaulted | .targetShorthand | .targetDefault => two defaulted parts
  | .spread => one spread parts
  | .function shape => function shape parts
  | .arrow shape => arrow shape parts
  | .parameters => fun _ => commas (parts.map Tree.writeFree)
  | .parameter access isReadonly isOverride isOptional =>
    parameter access isReadonly isOverride isOptional parts
  | .functionBody => functionBody stop parts
  | .class_ shape => class_ shape parts
  | .classBody => classBody parts
  | .method role computed modifiers => three (classMethod role computed modifiers) parts
  | .field computed modifiers => four (field computed modifiers) parts
  | .staticBlock => staticBlock parts
  | .decorator => one decorator parts
  | .unary op => one (unary op) parts
  | .update op leads => one (update op leads) parts
  | .binary op => two (binary op) parts
  | .privateIn => two privateIn parts
  | .assign op => two (assign op) parts
  | .conditional => three conditional parts
  | .sequence => sequence parts
  | .call optional effectFree => three (call optional effectFree stop) parts
  | .new_ effectFree => three (new_ effectFree stop) parts
  | .member optional => two (member optional) parts
  | .element optional => two (element optional) parts
  | .chain => one chain parts
  | .parenthesized => one Tree.write parts
  | .yield_ delegate => one (yield_ delegate) parts
  | .await_ => one await_ parts
  | .importCall phase => two (importCall phase stop) parts
  | .metaProperty object property => word (object ++ "." ++ property)
  | .asType => two (typedExpression "as") parts
  | .satisfiesType => two (typedExpression "satisfies") parts
  | .assertedType => two assertedType parts
  | .nonNull => one nonNull parts
  | .instantiation => two instantiation parts
  -- patterns and targets
  | .objectPattern => objectPattern parts
  | .bindingProperty computed _ => two (bindingProperty computed) parts
  | .arrayPattern => arrayPattern true parts
  | .arrayTarget => arrayPattern false parts
  | .restPattern | .restTarget | .restType => one rest parts
  | .typedPattern isDefinite => two (typedPattern isDefinite) parts
  | .objectTarget => objectTarget parts
  | .targetProperty computed => two (targetProperty computed) parts
  -- statements
  | .program hashbang => program hashbang stop parts
  | .directive raw => fun _ => chars (Quote.directive raw)
  | .expressionStatement => one expressionStatement parts
  | .block => fun _ => block parts
  | .if_ => three if_ parts
  | .for_ => four for_ parts
  | .forIn => three forIn parts
  | .forOf awaits => three (forOf awaits) parts
  | .while_ => two while_ parts
  | .doWhile => two doWhile parts
  | .break_ => one (worded "break") parts
  | .continue_ => one (worded "continue") parts
  | .return_ => one (worded "return") parts
  | .with_ => two with_ parts
  | .labeled => two labeled parts
  | .switch_ => first switch_ parts
  | .case_ => first case_ parts
  | .throw_ => one (worded "throw") parts
  | .try_ catchPlace => four (try_ catchPlace) parts
  | .debugger_ => word "debugger"
  | .declaration shape => declaration shape parts
  | .declarator => two declarator parts
  -- modules
  | .import_ phase typeOnly => three (import_ phase typeOnly) parts
  | .importDefault => one Tree.write parts
  | .importNamespace => one importNamespace parts
  | .importSpecifier typeOnly => two (twoNames typeOnly) parts
  | .exportSpecifier typeOnly => two (exportSpecifier typeOnly) parts
  | .exportNamed typeOnly => three (exportNamed typeOnly) parts
  | .exportDeclaration => one exportDeclaration parts
  | .exportDefault _ => one exportDefault parts
  | .exportAll typeOnly => three (exportAll typeOnly) parts
  | .importAttributes keyword => importAttributes keyword parts
  | .importAttribute => two importAttribute parts
  | .importEquals => two importEquals parts
  | .externalReference => one (enclosed "require(" · ")") parts
  | .exportAssignment => one (enclosed "export = " · "") parts
  | .exportNamespace => one (enclosed "export as namespace " · "") parts
  -- declarations of types
  | .interface isDeclare => four (interface_ isDeclare) parts
  | .typeAlias isDeclare => three (typeAlias isDeclare) parts
  | .enum isConst isDeclare => first (enum_ isConst isDeclare) parts
  | .enumMember computed => two (enumMember computed) parts
  | .namespace_ keyword isDeclare => two (namespace_ keyword isDeclare) parts
  | .namespaceBody => namespaceBody parts
  -- types
  | .typeKeyword text => word text
  | .typeReference | .heritage => two applied parts
  | .qualifiedName => two (between · "." ·) parts
  | .typeQuery => two typeQuery parts
  | .importType => four importType parts
  | .arrayType => one (enclosed "" · "[]") parts
  | .indexedAccess => two (fun object index around => do
      object.writeFree
      enclosed "[" index "]" around) parts
  | .union => joined " | " parts
  | .intersection => joined " & " parts
  | .conditionalType => four conditionalType parts
  | .inferType => two inferType parts
  | .typeOperator text => one (enclosed (text ++ " ") · "") parts
  | .tupleType => tupleType parts
  | .namedTupleMember isOptional => two (namedTupleMember isOptional) parts
  | .markedType mark leads =>
    one (fun inner => if leads then enclosed mark inner "" else enclosed "" inner mark) parts
  | .optionalType => one (enclosed "" · "?") parts
  | .parenthesizedType => one (enclosed "(" · ")") parts
  | .literalType => one Tree.write parts
  | .functionType => three (functionType "") parts
  | .constructorType isAbstract =>
    three (functionType (if isAbstract then "abstract new " else "new ")) parts
  | .typeLiteral => typeLiteral parts
  | .mappedType readonly optional => mappedType readonly optional parts
  | .typePredicate asserts => two (typePredicate asserts) parts
  | .typeParameters => typeParameters parts
  | .typeParameter words => three (typeParameter words) parts
  | .typeArguments => typeArguments parts
  | .propertySignature computed isOptional isReadonly =>
    two (propertySignature computed isOptional isReadonly) parts
  | .methodSignature role computed isOptional =>
    four (methodSignature role computed isOptional) parts
  | .callSignature => three (callSignature "") parts
  | .constructSignature => three (callSignature "new ") parts
  | .indexSignature isReadonly => three (indexSignature isReadonly) parts
  -- markup
  | .markupElement selfClosing => three (markupElement selfClosing) parts
  | .markupFragment => markupFragment parts
  | .markupName text | .markupText text => plain text
  | .markupMember => two (markupNames · '.' ·) parts
  | .markupNamespaced => two (markupNames · ':' ·) parts
  | .markupAttribute => two markupAttribute parts
  | .markupSpread | .markupSpreadChild => one markupSpread parts
  | .markupString raw => markupString raw
  | .markupExpression => one (markupExpression stop) parts

end Layout

namespace Program

def blank (comments : List (Nat × Comment)) (markup : Bool) : Output where
  reversed := []
  length := 0
  indent := 0
  spaceNext := false
  comments := comments.filter fun entry =>
    !entry.2.isEffectFreeCall && !entry.2.isEffectFreeFunction
  statementStart := none
  arrowStart := none
  defaultStart := none
  lastOperator := none
  numberEnd := none
  regexEnd := none
  markup := markup

def render (program : Program) (markup : Bool) : String :=
  let tree : Laid := program.tree.annotate Layout.ofParts
  let output := ((tree.writeFree).run (blank program.comments markup)).2
  String.ofList output.reversed.reverse

end Program

end Bundler.Script
