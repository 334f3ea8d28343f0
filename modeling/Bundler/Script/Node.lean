import Bundler.Script.Comment
import Bundler.Script.Operator

/-!
# Syntax trees

A node has a kind, a place in the text and children in the order of the text. A part that may be
missing has a child of its own in either case; a part that repeats is one child that lists the
repeated ones. Each kind below is followed by its children.
-/

namespace Bundler.Script

/-- What qualifies a member of a class. -/
structure Modifiers where
  access : Option String
  isDeclare : Bool
  isStatic : Bool
  isAbstract : Bool
  isOverride : Bool
  isReadonly : Bool
  isAccessor : Bool
  isOptional : Bool
deriving DecidableEq, Repr, Inhabited

/-- What a method does. -/
inductive MethodRole where
  | method | getter | setter | constructor
deriving DecidableEq, Repr, Inhabited

/-- What distinguishes functions. -/
structure FunctionShape where
  isExpression : Bool
  isAsync : Bool
  isGenerator : Bool
  isDeclare : Bool
  /-- Whether the function was written in parentheses. -/
  isParenthesized : Bool
  /-- Whether a comment says that its calls are free of effects. -/
  isEffectFree : Bool
deriving DecidableEq, Repr, Inhabited

/-- What distinguishes arrow functions. -/
structure ArrowShape where
  isAsync : Bool
  hasExpressionBody : Bool
  isParenthesized : Bool
  /-- Whether a comment says that its calls are free of effects. -/
  isEffectFree : Bool
deriving DecidableEq, Repr, Inhabited

/-- What distinguishes classes. -/
structure ClassShape where
  isExpression : Bool
  isAbstract : Bool
  isDeclare : Bool
deriving DecidableEq, Repr, Inhabited

/-- What distinguishes declarations of variables. -/
structure DeclarationShape where
  keyword : String
  isDeclare : Bool
deriving DecidableEq, Repr, Inhabited

/-- A mark that is added, removed or left in a mapped type. -/
inductive MappedMark where
  | absent | plain | added | removed
deriving DecidableEq, Repr, Inhabited

/-- The kind of a node. -/
inductive Kind where
  /-- A part that is missing. -/
  | absent
  /-- A part that repeats. -/
  | list
  -- names and literals, without children
  | name (text : String)
  | privateName (text : String)
  | string (value raw : String) (lone : Bool)
  | number (value : Decimal.Binary64)
  | bigInt (value : Nat)
  | boolean (value : Bool)
  | null
  | regex (pattern flags : String)
  | this
  | super
  /-- A piece of a template. -/
  | piece (raw : String)
  -- expressions
  /-- Pieces and expressions in turn. -/
  | template
  /-- Tag, type arguments, template. -/
  | tagged
  /-- Elements; a missing one is a hole. The place of a comma at the end is kept. -/
  | array (comma : Option Nat)
  /-- Properties, methods and spreads. The place of a comma at the end is kept. -/
  | object (comma : Option Nat)
  /-- Key, value. -/
  | property (computed shorthand : Bool)
  /-- Key, function. -/
  | methodProperty (role : MethodRole) (computed : Bool)
  /-- Name, default: a property that only a target of an assignment may have. -/
  | shorthandDefault
  /-- Expression. -/
  | spread
  /-- Name, type parameters, parameters, result type, body. -/
  | function (shape : FunctionShape)
  /-- Type parameters, parameters, result type, body. -/
  | arrow (shape : ArrowShape)
  /-- Parameters. -/
  | parameters
  /-- Decorators, pattern, type, default. -/
  | parameter (access : Option String) (isReadonly isOverride isOptional : Bool)
  /-- Directives and statements. -/
  | functionBody
  /-- Decorators, name, type parameters, base, its type arguments, interfaces, body. -/
  | class_ (shape : ClassShape)
  /-- Members. -/
  | classBody
  /-- Decorators, key, function. -/
  | method (role : MethodRole) (computed : Bool) (modifiers : Modifiers)
  /-- Decorators, key, type, value. -/
  | field (computed : Bool) (modifiers : Modifiers)
  /-- Statements. -/
  | staticBlock
  /-- Expression. -/
  | decorator
  /-- Operand. -/
  | unary (op : UnaryOp)
  /-- Operand. -/
  | update (op : UpdateOp) (prefixed : Bool)
  /-- Left side, right side. -/
  | binary (op : BinaryOp)
  /-- Private name, right side. -/
  | privateIn
  /-- Target, value. -/
  | assign (op : AssignOp)
  /-- Test, consequent, alternate. -/
  | conditional
  /-- Expressions. -/
  | sequence
  /-- Callee, type arguments, arguments. -/
  | call (optional effectFree : Bool)
  /-- Callee, type arguments, arguments. -/
  | new_ (effectFree : Bool)
  /-- Object, name. -/
  | member (optional : Bool)
  /-- Object, expression. -/
  | element (optional : Bool)
  /-- Expression: the whole of a chain with an optional link. -/
  | chain
  /-- Expression in parentheses. -/
  | parenthesized
  /-- Operand. -/
  | yield_ (delegate : Bool)
  /-- Operand. -/
  | await_
  /-- Source, options. -/
  | importCall (phase : Option String)
  | metaProperty (object property : String)
  /-- Expression, type. -/
  | asType
  /-- Expression, type. -/
  | satisfiesType
  /-- Type, expression. -/
  | assertedType
  /-- Expression. -/
  | nonNull
  /-- Expression, type arguments. -/
  | instantiation
  -- patterns of declarations
  /-- Properties and a rest. -/
  | objectPattern
  /-- Key, pattern. -/
  | bindingProperty (computed shorthand : Bool)
  /-- Elements and a rest; a missing one is a hole. -/
  | arrayPattern
  /-- Pattern. -/
  | restPattern
  /-- Pattern, default. -/
  | defaulted
  /-- Pattern, type. -/
  | typedPattern (isDefinite : Bool)
  -- targets of assignments
  /-- Properties and a rest. -/
  | objectTarget
  /-- Key, target. -/
  | targetProperty (computed : Bool)
  /-- Name, default. -/
  | targetShorthand
  /-- Elements and a rest; a missing one is a hole. -/
  | arrayTarget
  /-- Target. -/
  | restTarget
  /-- Target, default. -/
  | targetDefault
  -- statements
  /-- Directives and statements. -/
  | program (hashbang : Option String)
  | directive (raw : String)
  /-- Expression. -/
  | expressionStatement
  /-- Statements. -/
  | block
  | empty
  /-- Test, consequent, alternate. -/
  | if_
  /-- Start, test, step, body. -/
  | for_
  /-- Target, object, body. -/
  | forIn
  /-- Target, sequence, body. -/
  | forOf (awaits : Bool)
  /-- Test, body. -/
  | while_
  /-- Body, test. -/
  | doWhile
  /-- Label. -/
  | break_
  /-- Label. -/
  | continue_
  /-- Value. -/
  | return_
  /-- Object, body. -/
  | with_
  /-- Label, body. -/
  | labeled
  /-- Value, cases. -/
  | switch_
  /-- Test, statements. -/
  | case_
  /-- Value. -/
  | throw_
  /-- Block, parameter, handler, finalizer; the parameter is missing if the handler is. The place of
  the word before the handler is kept. -/
  | try_ (handlerPlace : Nat)
  | debugger_
  /-- Declarators. -/
  | declaration (shape : DeclarationShape)
  /-- Pattern, value. -/
  | declarator
  -- modules
  /-- Specifiers, or nothing if there is no list of them, source, attributes. -/
  | import_ (phase : Option String) (typeOnly : Bool)
  /-- Local name. -/
  | importDefault
  /-- Local name. -/
  | importNamespace
  /-- Imported name, local name. -/
  | importSpecifier (typeOnly : Bool)
  /-- Specifiers, source, attributes. -/
  | exportNamed (typeOnly : Bool)
  /-- Local name, exported name. -/
  | exportSpecifier (typeOnly : Bool)
  /-- Declaration. -/
  | exportDeclaration
  /-- Declaration or expression. The place of the word for the default is kept. -/
  | exportDefault (word : Nat)
  /-- Exported name, source, attributes. -/
  | exportAll (typeOnly : Bool)
  /-- Attributes. -/
  | importAttributes (keyword : String)
  /-- Key, value. -/
  | importAttribute
  -- declarations with types
  /-- Name, reference. -/
  | importEquals
  /-- Source. -/
  | externalReference
  /-- Expression. -/
  | exportAssignment
  /-- Name. -/
  | exportNamespace
  /-- Name, type parameters, bases, members. -/
  | interface (isDeclare : Bool)
  /-- Name, type parameters, type. -/
  | typeAlias (isDeclare : Bool)
  /-- Name, members. -/
  | enum (isConst isDeclare : Bool)
  /-- Key, value. -/
  | enumMember (computed : Bool)
  /-- Name, body. -/
  | namespace_ (keyword : String) (isDeclare : Bool)
  /-- Directives and statements. -/
  | namespaceBody
  -- types
  | typeKeyword (text : String)
  /-- Name, type arguments. -/
  | typeReference
  /-- Left name, right name. -/
  | qualifiedName
  /-- Name, type arguments. -/
  | typeQuery
  /-- Source, options, qualifier, type arguments. -/
  | importType
  /-- Element type. -/
  | arrayType
  /-- Object type, index type. -/
  | indexedAccess
  /-- Types. -/
  | union
  /-- Types. -/
  | intersection
  /-- Checked type, bound, consequent, alternate. -/
  | conditionalType
  /-- Name, bound. -/
  | inferType
  /-- Type. -/
  | typeOperator (text : String)
  /-- Types. -/
  | tupleType
  /-- Name, type. -/
  | namedTupleMember (isOptional : Bool)
  /-- Type with a mark before or behind it. -/
  | markedType (mark : String) (leads : Bool)
  /-- Type. -/
  | optionalType
  /-- Type. -/
  | restType
  /-- Type. -/
  | parenthesizedType
  /-- Literal. -/
  | literalType
  /-- Pieces and types in turn. -/
  | templateType
  /-- Type parameters, parameters, result type. -/
  | functionType
  /-- Type parameters, parameters, result type. -/
  | constructorType (isAbstract : Bool)
  /-- Members. -/
  | typeLiteral
  /-- Parameter name, constraint, new name, type. -/
  | mappedType (readonly optional : MappedMark)
  /-- Subject, type. -/
  | typePredicate (asserts : Bool)
  /-- Type parameters. -/
  | typeParameters
  /-- Name, bound, default. The words before it are in the order in which they are written. -/
  | typeParameter (words : List String)
  /-- Types. -/
  | typeArguments
  /-- Expression, type arguments. -/
  | heritage
  -- members of types
  /-- Key, type. -/
  | propertySignature (computed isOptional isReadonly : Bool)
  /-- Key, type parameters, parameters, result type. -/
  | methodSignature (role : MethodRole) (computed isOptional : Bool)
  /-- Type parameters, parameters, result type. -/
  | callSignature
  /-- Type parameters, parameters, result type. -/
  | constructSignature
  /-- Parameter name, parameter type, type. -/
  | indexSignature (isReadonly : Bool)
  -- markup
  /-- Name, attributes, children. -/
  | markupElement (selfClosing : Bool)
  /-- Children. -/
  | markupFragment
  | markupName (text : String)
  /-- Object, property. -/
  | markupMember
  /-- Namespace, name. -/
  | markupNamespaced
  /-- Name, value. -/
  | markupAttribute
  /-- Expression. -/
  | markupSpread
  | markupString (raw : String)
  | markupText (raw : String)
  /-- Expression. -/
  | markupExpression
  /-- Expression. -/
  | markupSpreadChild
deriving Inhabited

/-- A syntax tree whose nodes carry values. -/
inductive Tree (α : Type) where
  | node (kind : Kind) (start stop : Nat) (value : α) (children : List (Tree α))

abbrev Node := Tree Unit

namespace Tree

variable {α β : Type}

instance [Inhabited α] : Inhabited (Tree α) := ⟨.node .absent 0 0 default []⟩

def kind : Tree α → Kind
  | node kind _ _ _ _ => kind

def start : Tree α → Nat
  | node _ start _ _ _ => start

def stop : Tree α → Nat
  | node _ _ stop _ _ => stop

def value : Tree α → α
  | node _ _ _ value _ => value

def children : Tree α → List (Tree α)
  | node _ _ _ _ children => children

def isAbsent (tree : Tree α) : Bool :=
  match tree.kind with
  | .absent => true
  | _ => false

/-- An expression without the parentheses around it. -/
def bare : Tree α → Tree α
  | node .parenthesized _ _ _ [inner] => bare inner
  | tree => tree

def nameText (tree : Tree α) : String :=
  match tree.kind with
  | .name text => text
  | .string value _ _ => value
  | _ => ""

def withKind (kind : Kind) : Tree α → Tree α
  | node _ start stop value children => node kind start stop value children

mutual

/-- Gives each node the value that a rule computes from the node and the values of its parts. -/
def annotate (rule : Kind → Nat → Nat → List (Tree β) → β) : Tree α → Tree β
  | node kind start stop _ children =>
    let parts := annotateAll rule children
    node kind start stop (rule kind start stop parts) parts

def annotateAll (rule : Kind → Nat → Nat → List (Tree β) → β) : List (Tree α) → List (Tree β)
  | [] => []
  | tree :: rest => annotate rule tree :: annotateAll rule rest

end

end Tree

namespace Node

def mk (kind : Kind) (start stop : Nat) (children : List Node) : Node :=
  .node kind start stop () children

def absent : Node := mk .absent 0 0 []

def list (items : List Node) : Node := mk .list 0 0 items

end Node

end Bundler.Script
