import Bundler.Script.Reader.State

/-!
# Parts of a program

The parts that readers ask each other for, and the smallest of them: names, keys and literals. A
reader gets the readers of the parts inside it as an argument.
-/

namespace Bundler.Script

/-- Parts that hold others of their kind. -/
inductive Part where
  /-- A statement; `alone` says that it is the body of another one. -/
  | statement (alone : Bool)
  /-- Expressions with commas between them. -/
  | expression
  /-- An expression without commas. An arrow function in it may have a result type unless it is
  followed by the colon of a conditional expression. -/
  | assignment (resultTypes : Bool)
  /-- An expression of operators that bind tighter than a precedence. -/
  | binary (above : Precedence)
  /-- An expression of operators before an operand. -/
  | unary
  /-- An expression of calls and accesses to members. -/
  | leftSide
  /-- A pattern of a declaration. -/
  | pattern
  /-- A type. -/
  | type
  /-- A type without operators. -/
  | plainType
  /-- Markup; `between` says that it stands between the tags of other markup. -/
  | markup (between : Bool)
deriving DecidableEq, Repr

abbrev Parts := Part → Parser Node

namespace Parser

def nameText (token : Token) : String :=
  match token.kind with
  | .name text _ => text
  | _ => ""

def checkName (token : Token) (context : Context) : Parser Unit := do
  if token.isWord .await_ && context.awaits then fault token.start
  if token.isWord .yield_ && context.yields then fault token.start

def identifier : Parser Node := do
  let current ← token
  if current.isIdentifier then
    checkName current (← context)
    leaf (.name (nameText current))
  else unexpected

/-- A name that is declared. Outside of all functions `await` may be one in a program that is not
known to be a module from the start. -/
def bindingName : Parser Node := do
  let current ← token
  if current.isIdentifier then
    let outer ← context
    let undecided := outer.isTop && (← dialect).kind == .either
    checkName current { outer with awaits := outer.awaits && !undecided }
    leaf (.name (nameText current))
  else failAt current.start

def anyName : Parser Node := do
  let current ← token
  if current.isName then leaf (.name (nameText current)) else unexpected

def privateName : Parser Node := do
  let current ← token
  match current.kind with
  | .privateName text => leaf (.privateName text)
  | _ => unexpected

def stringLiteral : Parser Node := do
  let current ← token
  match current.kind with
  | .string value raw lone => leaf (.string value raw lone)
  | _ => unexpected

def moduleName : Parser Node := do
  match (← token).kind with
  | .string value raw lone =>
    if lone then fault (← here)
    leaf (.string value raw lone)
  | _ => anyName

def startsKey (token : Token) : Bool :=
  match token.kind with
  | .name _ _ | .string _ _ _ | .number _ | .bigInt _ => true
  | _ => false

/-- Whether the current token may follow a word that qualifies a member. -/
def followsModifier (token : Token) : Bool :=
  startsKey token ||
    match token.kind with
    | .privateName _ | .sign .bracketOpen | .sign .braceOpen | .sign .star
    | .sign .ellipsis => true
    | _ => false

def computedKey (parts : Parts) : Parser Node := do
  expect .bracketOpen
  let key ← within ({ · with allowsIn := true }) (parts (.assignment true))
  expect .bracketClose
  return key

def propertyKey (parts : Parts) (allowsPrivate : Bool) : Parser (Node × Bool) := do
  match (← token).kind with
  | .string value raw lone => return (← leaf (.string value raw lone), false)
  | .number value => return (← leaf (.number value), false)
  | .bigInt value => return (← leaf (.bigInt value), false)
  | .sign .bracketOpen => return (← computedKey parts, true)
  | .privateName text =>
    if allowsPrivate then return (← leaf (.privateName text), false) else unexpected
  | _ => return (← anyName, false)

def next (test : Token → Bool) : Parser Bool :=
  foresee do
    skip
    return test (← token)

/-- Whether the current word is followed on its line by something that it may qualify. -/
def qualifies : Parser Bool :=
  next fun token => !token.afterBreak && followsModifier token

def nameOrLiteralFollows : Parser Bool :=
  next fun token => !token.afterBreak && (token.isName || token.isLiteral)

/-- A type after a colon, if the language has types. -/
def typeAnnotation (parts : Parts) : Parser Node := do
  if (← dialect).typed && (← atSign .colon) then
    advance
    within ({ · with allowsIn := true, conditionals := true }) (parts .type)
  else return Node.absent

def initializer (parts : Parts) : Parser Node := do
  if ← eat .equal then parts (.assignment true) else return Node.absent

def condition (parts : Parts) : Parser Node := do
  expect .parenOpen
  let test ← within ({ · with allowsIn := true }) (parts .expression)
  expect .parenClose
  return test

end Parser

end Bundler.Script
