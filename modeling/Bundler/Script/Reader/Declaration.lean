import Bundler.Script.Reader.Statement

/-!
# Reading declarations of types

Interfaces, aliases, enumerations and namespaces, and declarations without a value.
-/

namespace Bundler.Script.Parser

def declares : Nat → Parser Bool
  | 0 => return false
  | fuel + 1 => do
    let current ← token
    match current.word? with
    | some .var_ | some .let_ | some .const_ | some .function_ | some .class_ | some .enum_ =>
      return true
    | some .interface_ | some .type_ =>
      skip
      let name ← token
      return name.isIdentifier && !name.afterBreak
    | some .module_ | some .namespace_ =>
      skip
      let name ← token
      let isString := match name.kind with
        | .string _ _ _ => true
        | _ => false
      return !name.afterBreak && (name.isIdentifier || isString)
    | some .abstract_ | some .accessor_ | some .async_ | some .declare_ | some .private_
    | some .protected_ | some .public_ | some .readonly_ =>
      skip
      if (← token).afterBreak then return false else declares fuel
    | some .static_ =>
      skip
      declares fuel
    | some .export_ =>
      skip
      let following ← token
      match following.kind with
      | .sign .equal | .sign .star | .sign .braceOpen | .sign .at
      | .name _ (some .default_) | .name _ (some .as_) => return true
      | _ => declares fuel
    | some .import_ =>
      skip
      let following ← token
      return following.isName || following.isSign .star || following.isSign .braceOpen ||
        match following.kind with
        | .string _ _ _ => true
        | _ => false
    | some .global_ =>
      skip
      let following ← token
      return following.isIdentifier || following.isSign .braceOpen || following.isWord .export_
    | _ => return false

def atTypedDeclaration (fuel : Nat) : Parser Bool := do
  let current ← token
  let begins := match current.word? with
    | some .interface_ | some .type_ | some .module_ | some .namespace_ | some .declare_
    | some .enum_ | some .private_ | some .protected_ | some .public_ | some .abstract_
    | some .accessor_ | some .static_ | some .readonly_ | some .global_ => true
    | _ => false
  if begins && (← dialect).typed then foresee (declares fuel) else return false

def interfaceDeclaration (parts : Parts) (fuel : Nat) (isDeclare : Bool) (start : Nat) :
    Parser Node := do
  advance
  let name ← bindingName
  let generics ← typeParameters parts fuel
  let base : Parser Node := do
    let from_ ← here
    let (inner, arguments) ← baseWithArguments parts fuel
    finish .heritage from_ [inner, arguments]
  let bases ← if ← eatWord .extends_ then do
      let first ← base
      let more ← many fuel do
        if ← eat .comma then some <$> base else return none
      pure (first :: more)
    else pure []
  let members ← typeMembers parts fuel
  finish (.interface isDeclare) start [name, generics, Node.list bases, Node.list members]

def aliasDeclaration (parts : Parts) (fuel : Nat) (isDeclare : Bool) (start : Nat) :
    Parser Node := do
  advance
  let name ← bindingName
  let generics ← typeParameters parts fuel
  expect .equal
  let type ← parts .type
  semicolon
  finish (.typeAlias isDeclare) start [name, generics, type]

/-- Notes the key of a member of an enumeration that is a number or is computed from anything but a
text. -/
def checkEnumKey (computed : Bool) (key : Node) : Parser Unit := do
  match computed, key with
  | true, .node (.string _ _ _) _ _ _ _ => return ()
  | true, .node .template _ _ _ [_] => return ()
  | true, _ => fault key.start
  | false, .node (.number _) start _ _ _ => fault start
  | false, .node (.bigInt _) start _ _ _ => fault start
  | false, _ => return ()

def enumMember (parts : Parts) : Parser Node := do
  let start ← here
  let (key, computed) ← propertyKey parts false
  checkEnumKey computed key
  let value ← initializer parts
  finish (.enumMember computed) start [key, value]

def enumDeclaration (parts : Parts) (fuel : Nat) (isConst isDeclare : Bool) (start : Nat) :
    Parser Node := do
  advance
  let name ← bindingName
  expect .braceOpen
  let (members, _) ← commaList fuel .braceClose (enumMember parts)
  expect .braceClose
  finish (.enum isConst isDeclare) start (name :: members)

def namespaceBody (parts : Parts) (fuel : Nat) (isDeclare : Bool) : Parser Node := do
  let start ← here
  expect .braceOpen
  let inside (outer : Context) : Context :=
    { outer with declares := outer.declares || isDeclare, awaits := false, isTop := false }
  let statements ← within inside (statementList parts fuel)
  expect .braceClose
  finish .namespaceBody start (markDirectives statements)

def namespaceDeclaration (parts : Parts) (fuel : Nat) (isDeclare : Bool) (start : Nat) :
    Parser Node := do
  let keyword := nameText (← token)
  let body (name : Node) : Parser Node := do
    if ← atSign .braceOpen then
      let body ← namespaceBody parts fuel isDeclare
      finish (.namespace_ keyword isDeclare) start [name, body]
    else
      semicolon
      finish (.namespace_ keyword isDeclare) start [name, Node.absent]
  if keyword == "global" then
    let name ← leaf (.name "global")
    body name
  else
    advance
    match (← token).kind with
    | .string value raw lone =>
      if keyword == "namespace" then unexpected
      body (← leaf (.string value raw lone))
    | _ =>
      let name ← qualifiedName fuel (← bindingName)
      let inner ← namespaceBody parts fuel isDeclare
      finish (.namespace_ keyword isDeclare) start [name, inner]

/-- A name for what another module or namespace exports. Only languages with types have them. -/
def importEquals (fuel : Nat) (start : Nat) (name : Node) : Parser Node := do
  expect .equal
  let from_ ← here
  let isExternal ← do
    if ← atWord .require_ then next (·.isSign .parenOpen) else pure false
  let reference ← if isExternal then do
      advance
      expect .parenOpen
      let source ← stringLiteral
      expect .parenClose
      finish .externalReference from_ [source]
    else qualifiedName fuel (← identifier)
  semicolon
  if !(← dialect).typed then fault start
  finish .importEquals start [name, reference]

/-- Whether a word qualifies the declaration that comes next, not as its own first word. -/
def qualifiesDeclaration (word : Word) : Parser Bool :=
  match word with
  | .const_ => return false
  | .async_ => next fun token => !token.afterBreak && followsModifier token &&
      !token.isWord .function_
  | .static_ | .accessor_ => next followsModifier
  | word =>
    if word.isModifier then next fun token => !token.afterBreak && followsModifier token
    else return false

/-- Reads the words before a declaration, and notes those that occur again. -/
def declarationQualifiers : Nat → List Qualifier → Parser (List Qualifier)
  | 0, seen => return seen.reverse
  | fuel + 1, seen => do
    let current ← token
    match current.word? with
    | none => return seen.reverse
    | some word =>
      if ← qualifiesDeclaration word then
        let repeats (earlier : Qualifier) : Bool :=
          earlier.word == word || (earlier.word.isAccess && word.isAccess)
        if seen.any repeats then fault current.start
        advance
        declarationQualifiers fuel (⟨word, current.start⟩ :: seen)
      else return seen.reverse

/-- An import among declarations, which gives a name to something. -/
def declaredImport (fuel : Nat) (start : Nat) : Parser Node := do
  advance
  let qualified ← next fun token => token.isIdentifier && !token.isWord .from_
  if (← atWord .type_) && qualified then advance
  let name ← bindingName
  importEquals fuel start name

def typedDeclaration (parts : Parts) (fuel : Nat) (marks : Node) (start : Nat) : Parser Node := do
  let found ← declarationQualifiers fuel []
  let isDeclare := qualifiedBy found .declare_
  let current ← token
  match current.word? with
  | some .class_ =>
    let whole ← classFrom parts fuel ⟨false, qualifiedBy found .abstract_, isDeclare⟩ start marks
    checkQualifiers [.declare_, .abstract_] found
    return whole
  | word =>
    let whole ← match word with
      | some .interface_ => interfaceDeclaration parts fuel isDeclare start
      | some .type_ => aliasDeclaration parts fuel isDeclare start
      | some .enum_ => enumDeclaration parts fuel false isDeclare start
      | some .module_ | some .namespace_ | some .global_ =>
        namespaceDeclaration parts fuel isDeclare start
      | some .function_ | some .async_ => function parts fuel false true isDeclare start
      | some .var_ => bindings parts fuel "var" isDeclare false start
      | some .let_ => bindings parts fuel "let" isDeclare false start
      | some .const_ => do
        if ← next (·.isWord .enum_) then
          advance
          enumDeclaration parts fuel true isDeclare start
        else bindings parts fuel "const" isDeclare false start
      | some .import_ => declaredImport fuel start
      | _ => unexpected
    checkQualifiers [.declare_] found
    return whole

end Bundler.Script.Parser
