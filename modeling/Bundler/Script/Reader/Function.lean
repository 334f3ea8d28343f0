import Bundler.Script.Reader.Type

/-!
# Reading functions
-/

namespace Bundler.Script.Parser

/-- Statements that are no more than a string address the tools that run the program, as long as
nothing else comes before them. -/
def markDirectives : List Node → List Node
  | .node .expressionStatement start stop _ [.node (.string _ raw _) _ _ _ _] :: rest =>
    Node.mk (.directive raw) start stop [] :: markDirectives rest
  | statements => statements

def markFunction : Node → Node
  | .node (.function shape) start stop _ children =>
    Node.mk (.function { shape with isEffectFree := true }) start stop children
  | .node (.arrow shape) start stop _ children =>
    Node.mk (.arrow { shape with isEffectFree := true }) start stop children
  | node => node

def markConstant : Node → Node
  | .node (.declaration ⟨"const", isDeclare⟩) start stop _
      (.node .declarator start' stop' _ [place, value] :: rest) =>
    let first := Node.mk .declarator start' stop' [place, markFunction value]
    Node.mk (.declaration ⟨"const", isDeclare⟩) start stop (first :: rest)
  | node => node

def markDeclared : Node → Node
  | .node (.exportDefault word) start stop _ [inner] =>
    Node.mk (.exportDefault word) start stop [markFunction inner]
  | .node .exportDeclaration start stop _ [inner] =>
    Node.mk .exportDeclaration start stop [markConstant (markFunction inner)]
  | node => markConstant (markFunction node)

/-- Statements up to a closing brace, which stays, or to the end of the text. -/
def statementList (parts : Parts) (fuel : Nat) : Parser (List Node) :=
  many fuel do
    let current ← token
    match current.kind with
    | .sign .braceClose | .endOfText => return none
    | _ => some <$> parts (.statement false)

def insideFunction (isAsync isGenerator : Bool) (outer : Context) : Context :=
  { outer with
    allowsIn := true
    yields := isGenerator
    awaits := isAsync
    returns := true
    isTop := false }

def functionBody (parts : Parts) (fuel : Nat) (isAsync isGenerator : Bool) : Parser Node := do
  let start ← here
  expect .braceOpen
  let statements ← within (insideFunction isAsync isGenerator) (statementList parts fuel)
  expect .braceClose
  finish .functionBody start (markDirectives statements)

/-- The part of a function after its name. In a language with types the body may be missing, and it
has to be where a program only declares. -/
def functionRest (parts : Parts) (fuel : Nat) (owner : ParameterOwner) (shape : FunctionShape)
    (start : Nat) (name : Node) : Parser Node := do
  let inside (outer : Context) : Context :=
    { outer with yields := shape.isGenerator, awaits := shape.isAsync, isTop := false }
  let generics ← typeParameters parts fuel
  let inputs ← within inside (parameters parts fuel owner)
  let result ← ownResult parts owner
  if ← atSign .braceOpen then
    if shape.isDeclare || (← context).declares then fault (← here)
    let body ← functionBody parts fuel shape.isAsync shape.isGenerator
    finish (.function shape) start [name, generics, inputs, result, body]
  else if (← dialect).typed then
    let whole ← finish (.function shape) start [name, generics, inputs, result, Node.absent]
    semicolon
    return whole
  else failAt start

/-- A function from its first word on. Declarations need a name. -/
def function (parts : Parts) (fuel : Nat) (isExpression needsName isDeclare : Bool)
    (start : Nat) : Parser Node := do
  let isAsync ← eatWord .async_
  expectWord .function_
  let star ← here
  let isGenerator ← eat .star
  if isGenerator && (isDeclare || (← context).declares) then fault star
  let shape : FunctionShape := ⟨isExpression, isAsync, isGenerator, isDeclare, false, false⟩
  let current ← token
  let inside (outer : Context) : Context :=
    if isExpression then { outer with yields := isGenerator, awaits := isAsync } else outer
  let name ← if current.isIdentifier then within inside identifier
    else
      if needsName then
        if current.isSign .parenOpen then fault current.start
        else if current.isName then failAt current.start
      pure Node.absent
  functionRest parts fuel .other shape start name

def methodFunction (parts : Parts) (fuel : Nat) (owner : ParameterOwner)
    (isAsync isGenerator : Bool) : Parser Node := do
  let start ← here
  functionRest parts fuel owner ⟨true, isAsync, isGenerator, false, false, false⟩ start Node.absent

/-- Whether a function begins here: `async` and `function` on one line. -/
def atAsyncFunction : Parser Bool := do
  if ← atWord .async_ then next fun token => token.isWord .function_ && !token.afterBreak
  else return false

/-- Whether what begins here is an arrow function with parameters in parentheses. -/
inductive ArrowGuess where
  | yes | no | maybe
deriving DecidableEq, Repr

/-- The last two steps of a guess, from the token after a parenthesis on. -/
def guessInParentheses : Parser ArrowGuess := do
  let second ← token
  if second.isSign .parenClose then
    skip
    let third ← token
    match third.sign? with
    | some .colon | some .arrow | some .braceOpen => return .yes
    | _ => return .no
  else if second.isSign .bracketOpen || second.isSign .braceOpen then return .maybe
  else if second.isSign .ellipsis then return .yes
  else
    skip
    let third ← token
    let qualified := match second.word? with
      | some word => word.isModifier && word != .async_ && third.isIdentifier
      | none => false
    if qualified && (← dialect).typed then
      return if third.isWord .as_ then .no else .yes
    else if !second.isIdentifier && !second.isWord .this_ then return .no
    else
      match third.sign? with
      | some .colon => return .yes
      | some .question =>
        skip
        match (← token).sign? with
        | some .colon | some .comma | some .equal | some .parenClose => return .yes
        | _ => return .no
      | some .comma | some .equal | some .parenClose => return .maybe
      | _ => return .no

def guessInTypes : Parser ArrowGuess := do
  let second ← token
  if !second.isIdentifier && !second.isWord .const_ then return .no
  else if (← dialect).markup then
    skip
    if second.isWord .const_ && (← token).isIdentifier then skip
    let third ← token
    if third.isWord .extends_ then
      skip
      match (← token).sign? with
      | some .equal | some .greater | some .slash => return .no
      | _ => return .yes
    else if third.isSign .comma || third.isSign .equal then return .yes
    else return .no
  else return .maybe

def guessArrow : Parser ArrowGuess := fun state =>
  let guess : Parser ArrowGuess := do
    let isAsync ← atWord .async_
    if isAsync then skip
    let first ← token
    if isAsync && first.afterBreak then return .no
    else if first.isSign .parenOpen then
      skip
      guessInParentheses
    else if first.isSign .less && (← dialect).typed then
      skip
      guessInTypes
    else return .no
  if state.token.isWord .async_ || state.token.isSign .parenOpen || state.token.isSign .less then
    match guess state with
    | .done answer _ => .done answer state
    | .failed _ _ => .done .no state
  else .done .no state

def arrowRest (parts : Parts) (fuel : Nat) (isAsync resultTypes : Bool) (start : Nat)
    (generics inputs result : Node) : Parser Node := do
  let arrow ← token
  if arrow.isSign .arrow && arrow.afterBreak then fault arrow.start
  expect .arrow
  if ← atSign .braceOpen then
    let body ← functionBody parts fuel isAsync false
    finish (.arrow ⟨isAsync, false, false, false⟩) start [generics, inputs, result, body]
  else
    let inside (outer : Context) : Context :=
      { outer with awaits := isAsync, yields := false, isTop := false }
    let body ← within inside (parts (.assignment resultTypes))
    finish (.arrow ⟨isAsync, true, false, false⟩) start [generics, inputs, result, body]

def arrowFunction (parts : Parts) (fuel : Nat) (resultTypes : Bool) : Parser Node := do
  let start ← here
  let isAsync ← eatWord .async_
  let inside (outer : Context) : Context :=
    if isAsync then { outer with awaits := true } else outer
  let generics ← within inside (typeParameters parts fuel)
  let inputs ← within inside (parameters parts fuel .arrow)
  let hasResult := (← dialect).typed && (← atSign .colon)
  let result ← resultAnnotation parts
  let whole ← arrowRest parts fuel isAsync resultTypes start generics inputs result
  if hasResult && !resultTypes && !(← atSign .colon) then unexpected
  else return whole

def arrowOfName (parts : Parts) (fuel : Nat) (isAsync resultTypes : Bool) (start : Nat)
    (name : Node) : Parser Node := do
  let parameter := Node.mk (.parameter none false false false) name.start name.stop
    [Node.list [], name, Node.absent, Node.absent]
  let inputs := Node.mk .parameters name.start name.stop [parameter]
  arrowRest parts fuel isAsync resultTypes start Node.absent inputs Node.absent

/-- An arrow function where the first tokens leave it open: it is one if it can be read as one. -/
def possibleArrow (parts : Parts) (fuel : Nat) (resultTypes : Bool) : Parser (Option Node) := do
  let start ← here
  if (← get).noArrows.contains start then return none
  else
    match ← attempt (arrowFunction parts fuel resultTypes) with
    | some arrow => return some arrow
    | none =>
      modify fun state => { state with noArrows := start :: state.noArrows }
      return none

/-- An arrow function if one begins here. -/
def arrowFunction? (parts : Parts) (fuel : Nat) (resultTypes : Bool) : Parser (Option Node) := do
  match ← guessArrow with
  | .no => return none
  | .yes => some <$> arrowFunction parts fuel resultTypes
  | .maybe => possibleArrow parts fuel resultTypes

/-- Whether `async`, a name and an arrow come next on one line. -/
def atAsyncArrow : Parser Bool := do
  if ← atWord .async_ then
    foresee do
      skip
      let name ← token
      if name.afterBreak || !name.isIdentifier then return false
      else
        skip
        let arrow ← token
        return arrow.isSign .arrow && !arrow.afterBreak
  else return false

/-- An arrow function of `async` and one name. -/
def asyncArrow (parts : Parts) (fuel : Nat) (resultTypes : Bool) : Parser Node := do
  let start ← here
  advance
  let name ← within ({ · with awaits := true }) identifier
  arrowOfName parts fuel true resultTypes start name

end Bundler.Script.Parser
