import Bundler.Script.Reader.Expression

/-!
# Reading statements
-/

namespace Bundler.Script.Parser

def declarator (parts : Parts) : Parser Node := do
  let start ← here
  let pattern ← parts .pattern
  let typed := (← dialect).typed
  let isDefinite ← if typed && !(← token).afterBreak then eat .bang else pure false
  let place ← typedPattern parts isDefinite pattern
  let value ← initializer parts
  finish .declarator start [place, value]

def usesResources (keyword : String) : Bool := keyword == "using" || keyword == "await using"

/-- Notes patterns that need a value and have none, and patterns where only a name may stand. -/
def checkValues (inLoop : Bool) (keyword : String) : List Node → Parser Unit
  | [] => return ()
  | .node .declarator _ _ _ [place, value] :: rest => do
    let isName := match place with
      | .node (.name _) _ _ _ _ => true
      | .node (.typedPattern _) _ _ _ [.node (.name _) _ _ _ _, _] => true
      | _ => false
    let resources := usesResources keyword
    if resources && !isName then fault place.start
    let needed := if resources then !inLoop else !isName || keyword == "const"
    if value.isAbsent && needed then fault place.start
    checkValues inLoop keyword rest
  | _ :: rest => checkValues inLoop keyword rest

def declarators (parts : Parts) (fuel : Nat) (shape : DeclarationShape) (start : Nat) :
    Parser Node := do
  let first ← declarator parts
  let more ← many fuel do
    if ← eat .comma then some <$> declarator parts else return none
  finish (.declaration shape) start (first :: more)

def bindings (parts : Parts) (fuel : Nat) (keyword : String) (isDeclare alone : Bool)
    (start : Nat) : Parser Node := do
  advance
  if keyword == "await using" then advance
  let inside (outer : Context) : Context := { outer with declares := outer.declares || isDeclare }
  let found ← within inside (declarators parts fuel ⟨keyword, isDeclare⟩ start)
  if !(isDeclare || (← context).declares) then checkValues false keyword found.children
  semicolon
  if alone && keyword != "var" then fault start
  match found with
  | .node kind start _ _ children => finish kind start children

/-- A statement that is an expression, or a label with a statement. -/
def expressionStatement (parts : Parts) : Parser Node := do
  let start ← here
  let inner ← parts .expression
  match inner.kind, ← atSign .colon with
  | .name _, true =>
    advance
    let body ← parts (.statement true)
    finish .labeled start [inner, body]
  | _, _ =>
    semicolon
    finish .expressionStatement start [inner]

/-- A statement that begins with `let`. -/
def letStatement (parts : Parts) (fuel : Nat) (alone : Bool) : Parser Node := do
  let start ← here
  let isExpression ← next fun token =>
    (AssignOp.ofToken? token).isSome || (BinaryOp.ofToken? token).isSome ||
      token.isSign .dot || token.isSign .parenOpen
  let isName ← next fun token =>
    (alone && !token.isSign .bracketOpen) || token.isSign .semicolon
  if isExpression then expressionStatement parts
  else if isName then
    let name ← identifier
    semicolon
    finish .expressionStatement start [name]
  else bindings parts fuel "let" false alone start

def block (parts : Parts) (fuel : Nat) : Parser Node := do
  let start ← here
  expect .braceOpen
  let statements ← statementList parts fuel
  expect .braceClose
  finish .block start statements

def ifStatement (parts : Parts) : Parser Node := do
  let start ← here
  advance
  let test ← condition parts
  let consequent ← parts (.statement true)
  let alternate ← if ← eatWord .else_ then parts (.statement true) else pure Node.absent
  finish .if_ start [test, consequent, alternate]

def doStatement (parts : Parts) : Parser Node := do
  let start ← here
  advance
  let body ← parts (.statement true)
  expectWord .while_
  let test ← condition parts
  let _ ← eat .semicolon
  finish .doWhile start [body, test]

def whileStatement (parts : Parts) : Parser Node := do
  let start ← here
  advance
  let test ← condition parts
  let body ← parts (.statement true)
  finish .while_ start [test, body]

def declaresResources (node : Node) : Bool :=
  match node.kind with
  | .declaration shape => usesResources shape.keyword
  | _ => false

def forOver (parts : Parts) (start : Nat) (awaits : Bool) (left : Node) : Parser Node := do
  let inside (outer : Context) : Context := { outer with allowsIn := true }
  if ← eatWord .in_ then
    if awaits then fault start
    if declaresResources left then fault left.start
    let object ← within inside (parts .expression)
    expect .parenClose
    let body ← parts (.statement true)
    finish .forIn start [left, object, body]
  else
    advance
    let sequence ← within inside (parts (.assignment true))
    expect .parenClose
    let body ← parts (.statement true)
    finish (.forOf awaits) start [left, sequence, body]

def forCount (parts : Parts) (start : Nat) (awaits : Bool) (first : Node) :
    Parser Node := do
  expect .semicolon
  let inside (outer : Context) : Context := { outer with allowsIn := true }
  let ends ← do pure ((← atSign .semicolon) || (← atSign .parenClose))
  let test ← if ends then pure Node.absent else within inside (parts .expression)
  expect .semicolon
  let step ← if ← atSign .parenClose then pure Node.absent else within inside (parts .expression)
  expect .parenClose
  if awaits then fault start
  let body ← parts (.statement true)
  finish .for_ start [first, test, step, body]

/-- Whether a token may be declared behind `using`. -/
def atResource (token : Token) : Bool :=
  !token.afterBreak && (token.isIdentifier || token.isSign .braceOpen)

def forKeyword? : Parser (Option String) := do
  let current ← token
  match current.word? with
  | some .var_ => return some "var"
  | some .const_ => return some "const"
  | some .let_ =>
    let declares ← next fun token => token.isSign .braceOpen || token.isSign .bracketOpen ||
      (token.isName && !token.isWord .in_)
    return if declares && !current.escaped then some "let" else none
  | some .using_ =>
    let declares ← foresee do
      skip
      let name ← token
      if name.isWord .of_ && !name.afterBreak then
        skip
        let following ← token
        return following.isSign .equal || following.isSign .semicolon || following.isSign .colon
      else return atResource name
    return if declares then some "using" else none
  | some .await_ =>
    let declares ← foresee do
      skip
      let using_ ← token
      skip
      return using_.isWord .using_ && !using_.afterBreak && atResource (← token)
    return if declares then some "await using" else none
  | _ => return none

/-- Whether a loop goes over values: by their names or one after another. -/
def atForOver : Parser Bool := do
  return (← atWord .in_) || (← atWord .of_)

/-- A loop that counts or goes over values. -/
def forStatement (parts : Parts) (fuel : Nat) : Parser Node := do
  let start ← here
  advance
  let awaitPlace ← here
  let outer ← context
  let awaits ← atWord .await_
  if awaits then
    if !outer.awaits then
      if outer.isTop && (← dialect).kind == .either then scriptFault awaitPlace
      else fault awaitPlace
    advance
  expect .parenOpen
  if ← atSign .semicolon then forCount parts start awaits Node.absent
  else
    match ← forKeyword? with
    | some keyword =>
      let first ← here
      advance
      if keyword == "await using" then advance
      let left ← within ({ · with allowsIn := false })
        (declarators parts fuel ⟨keyword, false⟩ first)
      if ← atForOver then
        match left.children with
        | [_] => pure ()
        | _ => fault first
        forOver parts start awaits left
      else
        checkValues true keyword left.children
        forCount parts start awaits left
    | none =>
      let word ← token
      let left ← within ({ · with allowsIn := false }) (parts .expression)
      if ← atForOver then
        let isOf ← atWord .of_
        let place ← target left
        match left.kind with
        | .name _ =>
          if isOf && (word.isWord .let_ || (word.isWord .async_ && !word.escaped && !awaits)) then
            fault left.start
        | _ => if isOf && word.isWord .let_ then fault left.start
        forOver parts start awaits place
      else forCount parts start awaits left

def jump (kind : Kind) : Parser Node := do
  let start ← here
  advance
  let label ← if mayEnd (← token) then pure Node.absent else identifier
  semicolon
  finish kind start [label]

def returnStatement (parts : Parts) : Parser Node := do
  let start ← here
  if !(← context).returns then fault start
  advance
  let value ← if mayEnd (← token) then pure Node.absent
    else within ({ · with allowsIn := true }) (parts .expression)
  semicolon
  finish .return_ start [value]

def withStatement (parts : Parts) : Parser Node := do
  let start ← here
  advance
  let object ← condition parts
  let body ← parts (.statement true)
  finish .with_ start [object, body]

def switchCase (parts : Parts) (fuel : Nat) : Parser Node := do
  let start ← here
  let current ← token
  let test ← if current.isWord .default_ then do
      advance
      pure Node.absent
    else if current.isWord .case_ then do
      advance
      within ({ · with allowsIn := true }) (parts .expression)
    else failAt current.start
  expect .colon
  let statements ← many fuel do
    let current ← token
    if current.isWord .case_ || current.isWord .default_ || current.isSign .braceClose then
      return none
    else
      match current.kind with
      | .endOfText => return none
      | _ =>
        let statement ← parts (.statement false)
        if declaresResources statement then fault statement.start
        return some statement
  finish .case_ start (test :: statements)

def switchStatement (parts : Parts) (fuel : Nat) : Parser Node := do
  let start ← here
  advance
  let value ← condition parts
  expect .braceOpen
  let cases ← many fuel do
    if ← atSign .braceClose then return none else some <$> switchCase parts fuel
  expect .braceClose
  finish .switch_ start (value :: cases)

def throwStatement (parts : Parts) : Parser Node := do
  let start ← here
  advance
  if (← token).afterBreak then fault start
  let value ← parts .expression
  semicolon
  finish .throw_ start [value]

/-- A block with what is done when it fails or ends. -/
def tryStatement (parts : Parts) (fuel : Nat) : Parser Node := do
  let start ← here
  advance
  let body ← block parts fuel
  let catchPlace ← here
  let (parameter, handler) ← if ← eatWord .catch_ then do
      let parameter ← if ← eat .parenOpen then do
          let place ← typedPattern parts false (← parts .pattern)
          expect .parenClose
          pure place
        else pure Node.absent
      pure (parameter, ← block parts fuel)
    else pure (Node.absent, Node.absent)
  let finalizer ← if ← eatWord .finally_ then block parts fuel else pure Node.absent
  if handler.isAbsent && finalizer.isAbsent then fault body.stop
  finish (.try_ catchPlace) start [body, parameter, handler, finalizer]

def functionStatement (parts : Parts) (fuel : Nat) (alone : Bool) : Parser Node := do
  let start ← here
  let whole ← function parts fuel false true false start
  match whole.kind with
  | .function shape => if alone && (shape.isAsync || shape.isGenerator) then fault start
  | _ => pure ()
  return whole

def classStatement (parts : Parts) (fuel : Nat) (alone : Bool) (start : Nat) (marks : Node) :
    Parser Node := do
  let whole ← classFrom parts fuel ⟨false, false, false⟩ start marks
  if alone then fault start
  return whole

end Bundler.Script.Parser
