import Bundler.Script.Reader.Function

/-!
# Reading classes
-/

namespace Bundler.Script.Parser

def modifiersOf (found : List Qualifier) (isOptional : Bool) : Modifiers where
  access := accessOf found
  isDeclare := qualifiedBy found .declare_
  isStatic := qualifiedBy found .static_
  isAbstract := qualifiedBy found .abstract_
  isOverride := qualifiedBy found .override_
  isReadonly := qualifiedBy found .readonly_
  isAccessor := qualifiedBy found .accessor_
  isOptional := isOptional

def fieldQualifiers : List Word :=
  [.public_, .private_, .protected_, .declare_, .abstract_, .static_, .override_, .readonly_]

def accessorQualifiers : List Word :=
  [.public_, .private_, .protected_, .abstract_, .static_, .override_, .accessor_]

def accessQualifiers : List Word :=
  [.public_, .private_, .protected_, .abstract_, .static_, .override_]

def methodQualifiers : List Word := .async_ :: accessQualifiers

/-- The name under which a key that is not computed puts a member. -/
def keyName? (computed : Bool) (key : Node) : Option String :=
  match computed, key.kind with
  | false, .name text => some text
  | false, .string value _ _ => some value
  | _, _ => none

/-- Notes a setter whose parameter has a default, where the language has types. -/
def checkDefault (role : MethodRole) (inputs : Node) : Parser Unit := do
  match role, properParameters inputs.children with
  | .setter, [.node (.parameter _ _ _ _) _ _ _ [_, _, _, value]] =>
    if !value.isAbsent && (← dialect).typed then fault inputs.start
  | _, _ => return ()

/-- Notes a getter with parameters, and a setter without just one or with a default. -/
def checkAccessor (role : MethodRole) (method : Node) : Parser Unit := do
  match method with
  | .node _ _ _ _ [_, _, inputs, _, _] =>
    checkAccess role inputs
    checkDefault role inputs
  | _ => return ()

def checkMember (found : List Qualifier) (isMethod isGenerator : Bool) (role : MethodRole)
    (computed : Bool) (key : Node) : Parser Unit := do
  let name := keyName? computed key
  let isStatic := qualifiedBy found .static_
  if name == some "constructor" && !isStatic then
    if !isMethod || role == .getter || role == .setter || isGenerator ||
        qualifiedBy found .async_ then
      fault key.start
  if name == some "prototype" && isStatic then fault key.start
  match key.kind with
  | .privateName "constructor" => fault key.start
  | _ => return ()

def fieldEnd : Parser Unit := do
  if mayEnd (← token) then
    let _ ← eat .semicolon
  else unexpected

/-- The key of a member. A private one grants no access of its own. -/
def memberKey (parts : Parts) (found : List Qualifier) : Parser (Node × Bool) := do
  match (← token).kind with
  | .privateName _ =>
    found.forM fun qualifier => if qualifier.word.isAccess then fault qualifier.place else return ()
  | _ => pure ()
  propertyKey parts true

def hasBody : Node → Bool
  | .node (.function _) _ _ _ [_, _, _, _, body] => !body.isAbsent
  | _ => false

/-- A constructor from its key on. It has no type parameters and no result, and it is not called on
anything. -/
def constructorRest (parts : Parts) (fuel : Nat) (start : Nat) (marks : Node)
    (found : List Qualifier) : Parser Node := do
  let (key, _) ← propertyKey parts false
  let method ← methodFunction parts fuel .constructor (qualifiedBy found .async_) false
  match method with
  | .node _ _ _ _ [_, generics, inputs, _, _] =>
    if (properParameters inputs.children).length < inputs.children.length then
      fault (inputs.children.head?.map Tree.start |>.getD start)
    if !generics.isAbsent then fault generics.start
  | _ => pure ()
  checkMember found true false .constructor false key
  checkQualifiers [.public_, .private_, .protected_] found
  finish (.method .constructor false (modifiersOf found false)) start [marks, key, method]

def methodRest (parts : Parts) (fuel : Nat) (start : Nat) (marks : Node) (found : List Qualifier)
    (role : MethodRole) (isGenerator computed isOptional : Bool) (key : Node) : Parser Node := do
  checkMember found true isGenerator role computed key
  let owner : ParameterOwner := if role == .setter then .setter else .method
  let method ← methodFunction parts fuel owner (qualifiedBy found .async_) isGenerator
  checkAccessor role method
  if qualifiedBy found .abstract_ && hasBody method then fault key.start
  checkQualifiers (if role == .method then methodQualifiers else accessQualifiers) found
  finish (.method role computed (modifiersOf found isOptional)) start [marks, key, method]

def fieldRest (parts : Parts) (start : Nat) (marks : Node) (found : List Qualifier)
    (computed isOptional : Bool) (key : Node) : Parser Node := do
  checkMember found false false .method computed key
  let type ← typeAnnotation parts
  let inside (outer : Context) : Context :=
    { outer with allowsIn := true, yields := false, awaits := false, isTop := false }
  let value ← within inside (initializer parts)
  let field ← finish (.field computed (modifiersOf found isOptional)) start
    [marks, key, type, value]
  fieldEnd
  if qualifiedBy found .abstract_ && !value.isAbsent then fault key.start
  checkQualifiers (if qualifiedBy found .accessor_ then accessorQualifiers else fieldQualifiers)
    found
  return field

/-- A property of a class: a method or a field. -/
def propertyRest (parts : Parts) (fuel : Nat) (start : Nat) (marks : Node)
    (found : List Qualifier) : Parser Node := do
  let isGenerator ← eat .star
  let (key, computed) ← memberKey parts found
  let mark ← here
  let isOptional ← eat .question
  if isGenerator || (← atSign .parenOpen) || (← atSign .less) then
    methodRest parts fuel start marks found .method isGenerator computed isOptional key
  else
    let isDefinite ← if (← token).afterBreak then pure false else eat .bang
    if isOptional && (isDefinite || qualifiedBy found .accessor_) then fault mark
    fieldRest parts start marks found computed isOptional key

/-- Whether what comes next is a getter or a setter: the word, and a key behind it. -/
def accessRole : Parser MethodRole := do
  let word ← token
  if word.isWord .get_ || word.isWord .set_ then
    let applies ← next fun token => startsKey token || token.isSign .bracketOpen ||
      match token.kind with
      | .privateName _ => true
      | _ => false
    return if !applies then .method else if word.isWord .get_ then .getter else .setter
  else return .method

def atConstructor : Parser Bool := do
  match (← token).kind with
  | .name _ (some .constructor_) => return true
  | .string "constructor" _ _ => next (·.isSign .parenOpen)
  | _ => return false

/-- Statements that run when a class is defined. They are not qualified. -/
def staticBlock (parts : Parts) (fuel : Nat) (start : Nat) (marks : Node)
    (found : List Qualifier) : Parser Node := do
  marks.children.forM fun mark => fault mark.start
  checkQualifiers [] found
  advance
  expect .braceOpen
  let inside (outer : Context) : Context :=
    { outer with
      allowsIn := true
      yields := false
      awaits := true
      returns := false
      isTop := false }
  let statements ← within inside (statementList parts fuel)
  expect .braceClose
  finish .staticBlock start statements

def member (parts : Parts) (fuel : Nat) : Parser Node := do
  if ← eat .semicolon then return Node.absent
  else
    let start ← here
    let marks ← decorators parts fuel
    let found ← qualifiers true true fuel []
    let opensBlock ← next (·.isSign .braceOpen)
    if (← atWord .static_) && opensBlock then staticBlock parts fuel start marks found
    else
      match ← accessRole with
      | .method =>
        if !qualifiedBy found .static_ && (← atConstructor) then
          constructorRest parts fuel start marks found
        else if (← dialect).typed && (← atIndexSignature) then
          let signature ← indexSignature parts fuel (qualifiedBy found .readonly_) start
          fieldEnd
          checkQualifiers [.readonly_, .static_] found
          return signature
        else propertyRest parts fuel start marks found
      | role =>
        advance
        let (key, computed) ← memberKey parts found
        methodRest parts fuel start marks found role false computed false key

def classBody (parts : Parts) (fuel : Nat) : Parser Node := do
  let start ← here
  expect .braceOpen
  let members ← many fuel do
    if ← atSign .braceClose then return none else some <$> member parts fuel
  expect .braceClose
  finish .classBody start (members.filter fun node => !node.isAbsent)

/-- A base with its type arguments, which whatever may follow there. -/
def baseWithArguments (parts : Parts) (fuel : Nat) : Parser (Node × Node) := do
  match ← parts .leftSide with
  | .node .instantiation _ _ _ [base, arguments] => return (base, arguments)
  | base =>
    if (← dialect).typed && (← atSign .less) then return (base, ← typeArguments parts fuel)
    else return (base, Node.absent)

/-- What a class extends, and the interfaces that it promises to follow. -/
structure Heritage where
  base : Option (Node × Node)
  interfaces : Option (List Node)

/-- The bases behind the word `extends`, of which a class may have one. -/
def classBase (parts : Parts) (fuel : Nat) : Parser (Node × Node) := do
  advance
  let first ← baseWithArguments parts fuel
  let _ ← many fuel do
    if ← eat .comma then
      let start ← here
      let _ ← baseWithArguments parts fuel
      fault start
      return some ()
    else return none
  return first

/-- The interfaces behind the word `implements`. -/
def classInterfaces (parts : Parts) (fuel : Nat) : Parser (List Node) := do
  advance
  let first ← typeReference parts fuel
  let more ← many fuel do
    if ← eat .comma then some <$> typeReference parts fuel else return none
  return first :: more

def heritage (parts : Parts) (fuel : Nat) : Nat → Heritage → Parser Heritage
  | 0, found => return found
  | count + 1, found => do
    let current ← token
    if current.isWord .extends_ then
      if found.base.isSome || found.interfaces.isSome then fault current.start
      let base ← classBase parts fuel
      heritage parts fuel count { found with base := some base }
    else if current.isWord .implements_ then
      if found.interfaces.isSome then fault current.start
      let more ← classInterfaces parts fuel
      heritage parts fuel count { found with interfaces := some (found.interfaces.getD [] ++ more) }
    else return found

/-- A class from the word `class` on. -/
def classFrom (parts : Parts) (fuel : Nat) (shape : ClassShape) (start : Nat) (marks : Node) :
    Parser Node := do
  expectWord .class_
  let current ← token
  let name ← if current.isIdentifier && !current.isWord .implements_ then bindingName
    else pure Node.absent
  let generics ← typeParameters parts fuel
  let found ← heritage parts fuel fuel ⟨none, none⟩
  let (base, arguments) := found.base.getD (Node.absent, Node.absent)
  let interfaces := Node.list (found.interfaces.getD [])
  let inside (outer : Context) : Context :=
    { outer with declares := outer.declares || shape.isDeclare }
  let body ← within inside (classBody parts fuel)
  finish (.class_ shape) start [marks, name, generics, base, arguments, interfaces, body]

end Bundler.Script.Parser
