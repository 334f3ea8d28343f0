import Bundler.Script.Reader.Pattern

/-!
# Reading types
-/

namespace Bundler.Script.Parser

/-- A sign that closes a list of types; the lexer reads signs that begin with it one at a time. -/
def closeTypes : Parser Unit := expect .greater

def typeArguments (parts : Parts) (fuel : Nat) : Parser Node := do
  let start ← here
  expect .less
  let (items, _) ← commaList fuel .greater (parts .type)
  closeTypes
  if items.isEmpty then fault start
  finish .typeArguments start items

/-- Type arguments on the line of the name before them, if there are any. -/
def typeArgumentsHere (parts : Parts) (fuel : Nat) : Parser Node := do
  let current ← token
  if current.isSign .less && !current.afterBreak then typeArguments parts fuel
  else return Node.absent

def typeParameter (parts : Parts) (fuel : Nat) : Parser Node := do
  let start ← here
  let found ← qualifiers true false fuel []
  checkQualifiers [.in_, .out_, .const_] found
  let named (word : Word) (text : String) : List String :=
    if qualifiedBy found word then [text] else []
  let words := named .const_ "const" ++ named .in_ "in" ++ named .out_ "out"
  let name ← bindingName
  let bound ← if ← eatWord .extends_ then parts .type else pure Node.absent
  let default ← if ← eat .equal then parts .type else pure Node.absent
  finish (.typeParameter words) start [name, bound, default]

/-- Type parameters, of which there has to be one, if the language has types and they are there. -/
def typeParameters (parts : Parts) (fuel : Nat) : Parser Node := do
  if (← dialect).typed && (← atSign .less) then
    let start ← here
    advance
    let (items, _) ← commaList fuel .greater (typeParameter parts fuel)
    closeTypes
    if items.isEmpty then fault start
    finish .typeParameters start items
  else return Node.absent

/-- A type, or a statement about a parameter that a function may make of its result. -/
def resultType (parts : Parts) : Parser Node := do
  let start ← here
  let current ← token
  let names ← next fun token => token.isWord .is_ && !token.afterBreak
  if (current.isIdentifier || current.isWord .this_) && names then
    let subject ← if current.isWord .this_ then leaf .this else identifier
    advance
    let type ← parts .type
    finish (.typePredicate false) start [subject, type]
  else parts .type

/-- The result type of a function after a colon, if the language has types and it is there. -/
def resultAnnotation (parts : Parts) : Parser Node := do
  if (← dialect).typed && (← atSign .colon) then
    advance
    within ({ · with conditionals := true }) (resultType parts)
  else return Node.absent

/-- The result type of a function as far as what it belongs to allows one. -/
def ownResult (parts : Parts) (owner : ParameterOwner) : Parser Node := do
  let colon ← here
  let result ← resultAnnotation parts
  if owner.refusesResult && !result.isAbsent then fault colon
  return result

def qualifiedName (fuel : Nat) (first : Node) : Parser Node := do
  let rec go : Nat → Node → Parser Node
    | 0, left => return left
    | fuel + 1, left => do
      if ← eat .dot then
        let right ← anyName
        go fuel (← finish .qualifiedName left.start [left, right])
      else return left
  go fuel first

def typeReference (parts : Parts) (fuel : Nat) : Parser Node := do
  let start ← here
  let name ← qualifiedName fuel (← anyName)
  let arguments ← typeArgumentsHere parts fuel
  finish .typeReference start [name, arguments]

/-- Ends a member of a type, which needs no sign behind it. -/
def typeMemberEnd : Parser Unit := do
  if ← eat .comma then return ()
  else
    let _ ← eat .semicolon

/-- Whether an index signature begins here. What comes after the bracket is a name that goes on like
a parameter; an ellipsis, nothing or a qualified name are taken for one as well. -/
def atIndexSignature : Parser Bool :=
  foresee do
    expect .bracketOpen
    let first ← token
    let qualifies := (first.word?.map Word.isModifier).getD false
    if first.isSign .ellipsis || first.isSign .bracketClose then return true
    else if !qualifies && !first.isIdentifier then return false
    else
      skip
      let second ← token
      if qualifies && second.isIdentifier then return true
      else if second.isSign .colon || second.isSign .comma then return true
      else if second.isSign .question then
        skip
        let third ← token
        return third.isSign .colon || third.isSign .comma || third.isSign .bracketClose
      else return false

/-- A parameter of an index signature: its name and its type, which has to be there. -/
def indexParameter (parts : Parts) : Parser Node := do
  let name ← bindingName
  if !(← atSign .colon) then unexpected
  let type ← typeAnnotation parts
  return Node.list [name, type]

def indexSignature (parts : Parts) (fuel : Nat) (isReadonly : Bool) (start : Nat) :
    Parser Node := do
  expect .bracketOpen
  let (inputs, _) ← commaList fuel .bracketClose (indexParameter parts)
  expect .bracketClose
  let type ← typeAnnotation parts
  match inputs with
  | [.node .list _ _ _ [name, key]] =>
    if type.isAbsent then fault start
    finish (.indexSignature isReadonly) start [name, key, type]
  | _ =>
    fault start
    finish (.indexSignature isReadonly) start [Node.absent, Node.absent, type]

/-- Notes a getter with parameters, and a setter without just one. -/
def checkAccess (role : MethodRole) (inputs : Node) : Parser Unit :=
  match role, properParameters inputs.children with
  | .getter, _ :: _ => fault inputs.start
  | .setter, [.node _ _ _ _ (_ :: .node .restPattern rest _ _ _ :: _)] => fault rest
  | .setter, [_] => return ()
  | .setter, _ => fault inputs.start
  | _, _ => return ()

def callableRest (parts : Parts) (fuel : Nat) (owner : ParameterOwner) : Parser (List Node) := do
  let generics ← typeParameters parts fuel
  let inputs ← parameters parts fuel owner
  let result ← ownResult parts owner
  return [generics, inputs, result]

/-- A member of a type with a key. Only a property can be qualified. -/
def keyedMember (parts : Parts) (fuel : Nat) (found : List Qualifier) (start : Nat) :
    Parser Node := do
  let word ← token
  let role : MethodRole ← if ← next followsModifier then
      pure (if word.isWord .get_ then .getter else if word.isWord .set_ then .setter else .method)
    else pure .method
  if role != .method then advance
  let (key, computed) ← propertyKey parts false
  let isOptional ← if role == .method then eat .question else pure false
  if role != .method || (← atSign .parenOpen) || (← atSign .less) then
    found.forM fun qualifier => fault qualifier.place
    let rest ← callableRest parts fuel (if role == .setter then .setter else .other)
    match rest with
    | [_, inputs, _] => checkAccess role inputs
    | _ => pure ()
    finish (.methodSignature role computed isOptional) start (key :: rest)
  else
    let type ← typeAnnotation parts
    finish (.propertySignature computed isOptional (qualifiedBy found .readonly_)) start [key, type]

def typeMember (parts : Parts) (fuel : Nat) : Parser Node := do
  let start ← here
  let current ← token
  let member ← if current.isSign .parenOpen || current.isSign .less then do
      let rest ← callableRest parts fuel .other
      finish .callSignature start rest
    else if current.isWord .new_ &&
        (← next fun token => token.isSign .parenOpen || token.isSign .less) then do
      advance
      let rest ← callableRest parts fuel .other
      finish .constructSignature start rest
    else do
      let found ← qualifiers false false fuel []
      checkQualifiers [.readonly_] found
      if ← atIndexSignature then indexSignature parts fuel (qualifiedBy found .readonly_) start
      else keyedMember parts fuel found start
  typeMemberEnd
  return member

def typeMembers (parts : Parts) (fuel : Nat) : Parser (List Node) := do
  expect .braceOpen
  let members ← manyUntil fuel .braceClose (typeMember parts fuel)
  expect .braceClose
  return members

/-- A mark of a mapped type: the word or sign, or it after a plus or a minus. -/
def mappedMark (atMark : Token → Bool) : Parser MappedMark := do
  let current ← token
  if atMark current then
    advance
    return .plain
  else if current.isSign .plus || current.isSign .minus then
    if ← next atMark then
      advance
      advance
      return if current.isSign .plus then .added else .removed
    else return .absent
  else return .absent

def atMappedType : Parser Bool :=
  foresee do
    expect .braceOpen
    let _ ← mappedMark (·.isWord .readonly_)
    expect .bracketOpen
    let name ← token
    skip
    return name.isIdentifier && (← atWord .in_)

def mappedType (parts : Parts) : Parser Node := do
  let start ← here
  expect .braceOpen
  let readonly ← mappedMark (·.isWord .readonly_)
  expect .bracketOpen
  let name ← bindingName
  expectWord .in_
  let constraint ← parts .type
  let renamed ← if ← eatWord .as_ then parts .type else pure Node.absent
  expect .bracketClose
  let optional ← mappedMark (·.isSign .question)
  let type ← typeAnnotation parts
  let _ ← eat .semicolon
  expect .braceClose
  finish (.mappedType readonly optional) start [name, constraint, renamed, type]

def namedElement (parts : Parts) : Parser Node := do
  let name ← anyName
  let isOptional ← eat .question
  expect .colon
  let type ← parts .type
  finish (.namedTupleMember isOptional) name.start [name, type]

def atNamedElement : Parser Bool :=
  foresee do
    let name ← token
    skip
    let _ ← eat .question
    return name.isName && (← atSign .colon)

/-- An element of a tuple type. One that takes the rest cannot be missing. -/
def tupleElement (parts : Parts) : Parser Node := do
  let start ← here
  if ← eat .ellipsis then
    let type ← if ← atNamedElement then namedElement parts else parts .type
    match type.kind with
    | .namedTupleMember true => fault start
    | _ => pure ()
    finish .restType start [type]
  else if ← atNamedElement then namedElement parts
  else
    let type ← parts .type
    match type with
    | .node (.markedType "?" false) _ _ _ [inner] => finish .optionalType start [inner]
    | type => return type

def isOptionalElement (node : Node) : Bool :=
  match node.kind with
  | .optionalType | .namedTupleMember true => true
  | _ => false

def isRestElement (node : Node) : Bool :=
  match node.kind with
  | .restType => true
  | _ => false

/-- A tuple type. After an element that may be missing each one may be. -/
def tupleType (parts : Parts) (fuel : Nat) : Parser Node := do
  let start ← here
  advance
  let (items, _) ← commaList fuel .bracketClose (tupleElement parts)
  expect .bracketClose
  let later := items.dropWhile fun item => !isOptionalElement item
  later.forM fun item =>
    if isOptionalElement item || isRestElement item then return () else fault item.start
  finish .tupleType start items

def templateParts (inner : Parser Node) (onPiece : Bool → Nat → Parser Unit) :
    Nat → List Node → Parser (List Node)
  | 0, seen => return seen.reverse
  | fuel + 1, seen => do
    let current ← token
    match current.kind with
    | .template raw ok last =>
      onPiece ok current.start
      let piece ← leaf (.piece raw)
      if last then return (piece :: seen).reverse
      else
        let value ← inner
        if ← atSign .braceClose then
          let state ← get
          let rest := scanTemplate state.cursor
          retoken (templateKind rest) rest.after (templateFaults state.token.start rest)
          match (← token).kind with
          | .template _ _ _ => templateParts inner onPiece fuel (value :: piece :: seen)
          | _ => failAt (← here)
        else failAt (← here)
    | _ => unexpected

def typeKeyword? (token : Token) : Option String :=
  match token.word? with
  | some .any_ => some "any"
  | some .unknown_ => some "unknown"
  | some .string_ => some "string"
  | some .number_ => some "number"
  | some .bigint_ => some "bigint"
  | some .symbol_ => some "symbol"
  | some .boolean_ => some "boolean"
  | some .undefined_ => some "undefined"
  | some .never_ => some "never"
  | some .object_ => some "object"
  | some .intrinsic_ => some "intrinsic"
  | some .void_ => some "void"
  | some .null_ => some "null"
  | _ => none

/-- The options of the type of what a module exports: an object with the attributes. -/
def importTypeOptions (parts : Parts) : Parser Node := do
  if !(← atSign .braceOpen) then unexpected
  let options ← parts (.assignment true)
  match options.children with
  | .node (.property false _) _ _ _ (key :: _) :: _ => if key.nameText != "with" then fault key.start
  | member :: _ => fault member.start
  | [] => pure ()
  return options

def importType (parts : Parts) (fuel : Nat) : Parser Node := do
  let start ← here
  advance
  expect .parenOpen
  let source ← parts .type
  let options ← if ← eat .comma then importTypeOptions parts else pure Node.absent
  expect .parenClose
  let qualifier ← if ← eat .dot then qualifiedName fuel (← anyName) else pure Node.absent
  let arguments ← typeArgumentsHere parts fuel
  finish .importType start [source, options, qualifier, arguments]

def negativeType : Parser Node := do
  let start ← here
  if !(← next fun token => token.isNumeric) then unexpected
  advance
  let literal ← match (← token).kind with
    | .number value => leaf (.number value)
    | .bigInt value => leaf (.bigInt value)
    | _ => unexpected
  let whole ← finish (.unary .minus) start [literal]
  finish .literalType start [whole]

/-- Whether a question mark before a token stands for a type on its own. -/
def endsUnknown (token : Token) : Bool :=
  match token.sign? with
  | some .comma | some .braceClose | some .parenClose | some .greater | some .equal
  | some .bar => true
  | _ => false

/-- A type that holds together without operators. -/
def plainType (parts : Parts) (fuel : Nat) : Parser Node := do
  let start ← here
  let current ← token
  match current.kind with
  | .string value raw lone =>
    let literal ← leaf (.string value raw lone)
    finish .literalType start [literal]
  | .number value =>
    let literal ← leaf (.number value)
    finish .literalType start [literal]
  | .bigInt value =>
    let literal ← leaf (.bigInt value)
    finish .literalType start [literal]
  | .template _ _ _ =>
    let items ← templateParts (parts .type) (fun _ _ => pure ()) fuel []
    finish .templateType start items
  | .sign .minus => negativeType
  | .sign .question =>
    advance
    if endsUnknown (← token) then finish (.typeKeyword "unknown") start []
    else
      let type ← parts .type
      finish (.markedType "?" true) start [type]
  | .sign .bang =>
    advance
    let type ← parts .plainType
    finish (.markedType "!" true) start [type]
  | .sign .braceOpen =>
    if ← atMappedType then mappedType parts
    else
      let members ← typeMembers parts fuel
      finish .typeLiteral start members
  | .sign .bracketOpen => tupleType parts fuel
  | .sign .parenOpen =>
    advance
    let inner ← parts .type
    expect .parenClose
    finish .parenthesizedType start [inner]
  | .name text word =>
    let dotted ← next (·.isSign .dot)
    match word with
    | some .true_ => do
      let literal ← leaf (.boolean true)
      finish .literalType start [literal]
    | some .false_ => do
      let literal ← leaf (.boolean false)
      finish .literalType start [literal]
    | some .this_ => leaf .this
    | some .import_ => importType parts fuel
    | some .typeof_ => do
      advance
      let name ← if ← atWord .import_ then importType parts fuel
        else qualifiedName fuel (← if ← atWord .this_ then leaf .this else anyName)
      let arguments ← typeArgumentsHere parts fuel
      finish .typeQuery start [name, arguments]
    | some .asserts_ => do
      let asserted ← next fun token =>
        !token.afterBreak && (token.isIdentifier || token.isWord .this_)
      if asserted then
        advance
        let subject ← if ← atWord .this_ then leaf .this else identifier
        let type ← if ← eatWord .is_ then parts .type else pure Node.absent
        finish (.typePredicate true) start [subject, type]
      else typeReference parts fuel
    | _ =>
      match typeKeyword? current with
      | some _ => if dotted then typeReference parts fuel else leaf (.typeKeyword text)
      | none => typeReference parts fuel
  | _ => unexpected

def startsType (token : Token) : Bool :=
  token.isIdentifier || token.isLiteral ||
    match token.kind with
    | .template _ _ _ => true
    | .sign .braceOpen | .sign .bracketOpen | .sign .less | .sign .bar | .sign .amp
    | .sign .minus | .sign .parenOpen | .sign .ellipsis | .sign .star | .sign .question
    | .sign .bang => true
    | .name _ (some .this_) | .name _ (some .typeof_) | .name _ (some .void_)
    | .name _ (some .new_) | .name _ (some .import_) | .name _ (some .function_) => true
    | _ => false

/-- What may stand behind a type: brackets, or a mark of what is missing or not. -/
def typeSuffixes (parts : Parts) : Nat → Node → Parser Node
  | 0, type => return type
  | fuel + 1, type => do
    let current ← token
    if current.afterBreak then return type
    else if current.isSign .bracketOpen then
      advance
      if ← eat .bracketClose then
        typeSuffixes parts fuel (← finish .arrayType type.start [type])
      else
        let index ← parts .type
        expect .bracketClose
        typeSuffixes parts fuel (← finish .indexedAccess type.start [type, index])
    else if current.isSign .bang then
      advance
      typeSuffixes parts fuel (← finish (.markedType "!" false) type.start [type])
    else if current.isSign .question && !(← next startsType) then
      advance
      typeSuffixes parts fuel (← finish (.markedType "?" false) type.start [type])
    else return type

def postfixType (parts : Parts) (fuel : Nat) : Parser Node :=
  within ({ · with conditionals := true }) do
    typeSuffixes parts fuel (← plainType parts fuel)

/-- A type that is found out, with its bound unless that would belong to a condition. -/
def inferredType (parts : Parts) : Parser Node := do
  let start ← here
  advance
  let name ← bindingName
  let conditional := (← context).conditionals
  let bound ← attempt do
    expectWord .extends_
    let type ← within ({ · with conditionals := false }) (parts .type)
    if conditional && (← atSign .question) then unexpected else return type
  finish .inferType start [name, bound.getD Node.absent]

def operatorType (parts : Parts) : Nat → Nat → Parser Node
  | 0, fuel => postfixType parts fuel
  | depth + 1, fuel => do
    let start ← here
    let current ← token
    match current.word? with
    | some .keyof_ | some .unique_ | some .readonly_ =>
      advance
      let type ← operatorType parts depth fuel
      finish (.typeOperator (nameText current)) start [type]
    | some .infer_ => inferredType parts
    | _ => postfixType parts fuel

def joinedTypes (sign : Sign) (kind : Kind) (item : Parser Node) (fuel : Nat) : Parser Node := do
  let start ← here
  let leading ← eat sign
  let first ← item
  if leading || (← atSign sign) then
    let more ← many fuel do
      if ← eat sign then some <$> item else return none
    finish kind start (first :: more)
  else return first

def atFunctionType (parts : Parts) : Parser Bool :=
  foresee do
    expect .parenOpen
    if (← atSign .parenClose) || (← atSign .ellipsis) then return true
    else
      if ← atWord .this_ then advance
      else
        let _ ← parts .pattern
        pure ()
      let current ← token
      if current.isSign .colon || current.isSign .comma || current.isSign .question ||
          current.isSign .equal then
        return true
      else if current.isSign .parenClose then
        advance
        atSign .arrow
      else return false

def functionType (parts : Parts) (fuel : Nat) : Parser Node := do
  let start ← here
  let isAbstract ← eatWord .abstract_
  let isConstructor ← eatWord .new_
  let generics ← typeParameters parts fuel
  let inputs ← parameters parts fuel .other
  expect .arrow
  let result ← resultType parts
  finish (if isConstructor then .constructorType isAbstract else .functionType) start
    [generics, inputs, result]

/-- A type without a condition. -/
def unionType (parts : Parts) (fuel : Nat) : Parser Node :=
  joinedTypes .bar .union (joinedTypes .amp .intersection (operatorType parts fuel fuel) fuel) fuel

def type (parts : Parts) (fuel : Nat) : Parser Node := do
  let start ← here
  let current ← token
  let isFunction ← if current.isSign .less || current.isWord .new_ then pure true
    else if current.isWord .abstract_ then next (·.isWord .new_)
    else if current.isSign .parenOpen then atFunctionType parts
    else pure false
  if isFunction then functionType parts fuel
  else
    let checked ← unionType parts fuel
    let following ← token
    if (← context).conditionals && following.isWord .extends_ && !following.afterBreak then
      advance
      let bound ← within ({ · with conditionals := false }) (parts .type)
      expect .question
      let consequent ← within ({ · with conditionals := true }) (parts .type)
      expect .colon
      let alternate ← within ({ · with conditionals := true }) (parts .type)
      finish .conditionalType start [checked, bound, consequent, alternate]
    else return checked

/-- Whether a call or something else that only type arguments may precede follows them. -/
def mayFollowTypeArguments (token : Token) : Bool :=
  match token.kind with
  | .sign .parenOpen | .template _ _ _ => true
  | .sign .less | .sign .greater | .sign .plus | .sign .minus => false
  | _ =>
    token.afterBreak || (BinaryOp.ofToken? token).isSome ||
      !(token.isName || token.isLiteral ||
        match token.kind with
        | .sign .bracketOpen | .sign .braceOpen | .sign .slash | .sign .slashEqual | .sign .bang
        | .sign .tilde | .sign .plusPlus | .sign .minusMinus | .sign .at
        | .privateName _ => true
        | _ => false)

/-- Type arguments in an expression, if what looks like them cannot be a comparison. -/
def expressionTypeArguments (parts : Parts) (fuel : Nat) : Parser (Option Node) := do
  if (← dialect).typed && (← atSign .less) then
    attempt do
      let arguments ← typeArguments parts fuel
      if mayFollowTypeArguments (← token) then return arguments else unexpected
  else return none

end Bundler.Script.Parser
