import Bundler.Script.Reader.Literal
import Bundler.Script.Reader.Markup

/-!
# Reading expressions
-/

namespace Bundler.Script.Parser

/-- Marks the call that an expression begins with as free of effects. -/
def markCall : Node → Node
  | .node (.call optional _) start stop _ children =>
    Node.mk (.call optional true) start stop children
  | .node (.new_ _) start stop _ children => Node.mk (.new_ true) start stop children
  | .node .parenthesized start stop _ [inner] =>
    Node.mk .parenthesized start stop [markCall inner]
  | .node .chain start stop _ [inner] => Node.mk .chain start stop [markCall inner]
  | .node (.binary op) start stop _ [left, right] =>
    Node.mk (.binary op) start stop [markCall left, right]
  | .node .conditional start stop _ [test, consequent, alternate] =>
    Node.mk .conditional start stop [markCall test, consequent, alternate]
  | node => node

def callArguments (parts : Parts) (fuel : Nat) : Parser Node := do
  let start ← here
  expect .parenOpen
  let argument : Parser Node := do
    if ← atSign .ellipsis then spread parts else parts (.assignment true)
  let (items, _) ← within ({ · with allowsIn := true, decorates := false })
    (commaList fuel .parenClose argument)
  expect .parenClose
  finish .list start items

def memberName : Parser Node := do
  match (← token).kind with
  | .privateName text => leaf (.privateName text)
  | _ => anyName

def elementKey (parts : Parts) : Parser Node := do
  advance
  let key ← within ({ · with allowsIn := true }) (parts .expression)
  expect .bracketClose
  return key

/-- A call of an expression, the type arguments of which may have been read before. -/
def callOf (parts : Parts) (fuel : Nat) (start : Nat) (optional : Bool) (callee generics : Node) :
    Parser Node := do
  match callee, optional with
  | .node .instantiation _ _ _ [inner, generics], false =>
    let items ← callArguments parts fuel
    finish (.call false false) start [inner, generics, items]
  | callee, _ =>
    let items ← callArguments parts fuel
    finish (.call optional false) start [callee, generics, items]

def taggedTemplate (parts : Parts) (fuel : Nat) (start : Nat) (chained : Bool) (tag : Node) :
    Parser Node := do
  if chained then fault (← here)
  let template ← templateLiteral parts fuel true
  match tag with
  | .node .instantiation _ _ _ [inner, generics] => finish .tagged start [inner, generics, template]
  | tag => finish .tagged start [tag, Node.absent, template]

def checkAccessed (object : Node) : Parser Unit :=
  match object.kind with
  | .instantiation => fault object.start
  | _ => return ()

/-- What comes after `?.`. -/
def optionalLink (parts : Parts) (fuel : Nat) (start : Nat) (object : Node) : Parser Node := do
  advance
  let current ← token
  match current.kind with
  | .sign .bracketOpen =>
    let key ← elementKey parts
    finish (.element true) start [object, key]
  | .sign .parenOpen => callOf parts fuel start true object Node.absent
  | .template _ _ _ => taggedTemplate parts fuel start true object
  | .name _ _ | .privateName _ =>
    checkAccessed object
    let name ← memberName
    finish (.member true) start [object, name]
  | _ =>
    match ← expressionTypeArguments parts fuel with
    | some generics => callOf parts fuel start true object generics
    | none => unexpected

/-- The next access or call after an expression, and whether an optional link was among them.
Without `calls` the expression is what `new` constructs. -/
def nextLink (parts : Parts) (fuel : Nat) (calls : Bool) (start : Nat) (left : Node)
    (chained : Bool) : Parser (Option (Node × Bool)) := do
  let current ← token
  let typed := (← dialect).typed
  match current.kind with
  | .sign .dot =>
    checkAccessed left
    advance
    let name ← memberName
    return some (← finish (.member false) start [left, name], chained)
  | .sign .questionDot =>
    if calls then return some (← optionalLink parts fuel start left, true)
    else failAt current.start
  | .sign .bracketOpen =>
    if (← context).decorates then return none
    else
      let key ← elementKey parts
      return some (← finish (.element false) start [left, key], chained)
  | .sign .bang =>
    if typed && !current.afterBreak then
      advance
      return some (← finish .nonNull start [left], chained)
    else return none
  | .template _ _ _ => return some (← taggedTemplate parts fuel start chained left, chained)
  | .sign .parenOpen =>
    if calls then return some (← callOf parts fuel start false left Node.absent, chained)
    else return none
  | .sign .less =>
    match ← expressionTypeArguments parts fuel with
    | some generics => return some (← finish .instantiation start [left, generics], chained)
    | none => return none
  | _ => return none

def links (parts : Parts) (fuel : Nat) (calls : Bool) (start : Nat) :
    Nat → Node → Bool → Parser (Node × Bool)
  | 0, left, chained => return (left, chained)
  | count + 1, left, chained => do
    match ← nextLink parts fuel calls start left chained with
    | some (left, chained) => links parts fuel calls start count left chained
    | none => return (left, chained)

def isLink (node : Node) : Bool :=
  match node.kind with
  | .call _ _ | .member _ | .element _ | .nonNull => true
  | _ => false

/-- `import` as an expression. It has a source, and may have options. -/
def importExpression (parts : Parts) (fuel : Nat) : Parser Node := do
  let start ← here
  advance
  let phase : Option String ← if ← eat .dot then
      let current ← token
      match current.word? with
      | some .meta_ => pure (some "meta")
      | some .source_ => pure (some "source")
      | some .defer_ => pure (some "defer")
      | _ => unexpected
    else pure none
  if phase == some "meta" then
    advance
    modify fun state => { state with hasModuleSyntax := true }
    finish (.metaProperty "import" "meta") start []
  else
    if phase.isSome then advance
    expect .parenOpen
    let (items, _) ← within ({ · with allowsIn := true })
      (commaList fuel .parenClose (parts (.assignment true)))
    expect .parenClose
    if items.isEmpty then failAt start
    if 2 < items.length then fault start
    finish (.importCall phase) start
      [items.head?.getD Node.absent, (items.drop 1).head?.getD Node.absent]

mutual

/-- An expression that holds together without operators. `new` may stand before another one. -/
def primary (parts : Parts) (fuel : Nat) : Nat → Parser Node
  | 0 => unexpected
  | depth + 1 => do
    let current ← token
    match current.kind with
    | .string value raw lone => leaf (.string value raw lone)
    | .number value => leaf (.number value)
    | .bigInt value => leaf (.bigInt value)
    | .template _ _ _ => templateLiteral parts fuel false
    | .sign .parenOpen => parenthesized parts fuel
    | .sign .bracketOpen => arrayLiteral parts fuel
    | .sign .braceOpen => objectLiteral parts fuel
    | .sign .slash | .sign .slashEqual => regexLiteral
    | .sign .less => if (← dialect).markup then parts (.markup false) else unexpected
    | .sign .at =>
      let marks ← decorators parts fuel
      classFrom parts fuel ⟨true, false, false⟩ current.start marks
    | .name _ (some .this_) => do advance; finish .this current.start []
    | .name _ (some .null_) => do advance; finish .null current.start []
    | .name _ (some .true_) => do advance; finish (.boolean true) current.start []
    | .name _ (some .false_) => do advance; finish (.boolean false) current.start []
    | .name _ (some .super_) =>
      advance
      match (← token).kind with
      | .sign .dot | .sign .bracketOpen | .sign .parenOpen => pure ()
      | _ => fault current.start
      finish .super current.start []
    | .name _ (some .function_) => function parts fuel true false false current.start
    | .name _ (some .async_) =>
      if ← atAsyncFunction then function parts fuel true false false current.start
      else identifier
    | .name _ (some .class_) =>
      classFrom parts fuel ⟨true, false, false⟩ current.start (Node.list [])
    | .name _ (some .import_) => importExpression parts fuel
    | .name _ (some .new_) => construction parts fuel depth
    | _ => identifier

/-- A construction by `new`. -/
def construction (parts : Parts) (fuel : Nat) : Nat → Parser Node
  | 0 => unexpected
  | depth + 1 => do
    let start ← here
    advance
    if ← eat .dot then
      if ← eatWord .target_ then finish (.metaProperty "new" "target") start []
      else failAt start
    else
      let first ← here
      let base ← primary parts fuel depth
      let (callee, _) ← links parts fuel false first fuel base false
      let items ← if ← atSign .parenOpen then callArguments parts fuel else pure (Node.list [])
      match base.kind with
      | .importCall _ => fault first
      | _ => pure ()
      match callee with
      | .node .instantiation _ _ _ [inner, generics] =>
        finish (.new_ false) start [inner, generics, items]
      | callee => finish (.new_ false) start [callee, Node.absent, items]

end

def leftSide (parts : Parts) (fuel : Nat) : Parser Node := do
  let start ← here
  let base ← primary parts fuel fuel
  let (whole, chained) ← links parts fuel true start fuel base false
  if chained && isLink whole then finish .chain start [whole] else return whole

/-- Whether `await` is an operator here. -/
def atAwait : Parser Bool := do
  if ← atWord .await_ then
    if (← context).awaits then return true else nameOrLiteralFollows
  else return false

/-- An operand that is waited for. Outside of all functions a program may turn out to be a
module, which may wait. -/
def awaiting (parts : Parts) : Parser Node := do
  let start ← here
  let outer ← context
  let open_ := outer.isTop && (← dialect).kind == .either
  if !outer.awaits && !open_ then fault start
  advance
  let inner ← within ({ · with awaits := true }) (parts .unary)
  finish .await_ start [inner]

def counted (parts : Parts) (fuel : Nat) : Parser Node := do
  let start ← here
  match UpdateOp.ofToken? (← token) with
  | some op =>
    advance
    let inner ← placeTarget (← parts .unary)
    finish (.update op true) start [inner]
  | none =>
    let operand ← leftSide parts fuel
    let following ← token
    match UpdateOp.ofToken? following with
    | some op =>
      if following.afterBreak then return operand
      else
        let inner ← placeTarget operand
        advance
        finish (.update op false) start [inner]
    | none => return operand

def unary (parts : Parts) (fuel : Nat) : Parser Node := do
  let start ← here
  let current ← token
  match UnaryOp.ofToken? current with
  | some op =>
    advance
    let marked := (← token).effectFreeCall
    let inner ← parts .unary
    finish (.unary op) start [if marked then markCall inner else inner]
  | none =>
    if ← atAwait then awaiting parts
    else
      let language ← dialect
      if current.isSign .less && language.typed && !language.markup then
        if language.refusesAngles then fault start
        advance
        let type ← parts .type
        closeTypes
        let inner ← parts .unary
        finish .assertedType start [type, inner]
      else counted parts fuel

/-- Puts together signs that begin with `>`, now that they can only be operators. -/
def joinGreater : Parser Unit := do
  let state ← get
  if state.token.isSign .greater then
    let (sign, length) := scanGreater state.cursor.rest
    retoken (.sign sign) ⟨state.cursor.rest.drop length, state.cursor.offset + length⟩ []

/-- Notes a mixture of operators that has to be written with parentheses. -/
def checkMixture (op : BinaryOp) (start : Nat) (left right : Node) : Parser Unit := do
  let mixes (node : Node) : Bool := match node.kind with
    | .binary .and | .binary .or => true
    | _ => false
  if op == .nullish && (mixes left || mixes right) then fault start
  if op == .power then
    match left.kind with
    | .unary _ | .await_ | .assertedType => fault left.start
    | _ => return ()

/-- Operators and their right sides after an operand, as long as they bind tighter than `above`. -/
def operations (parts : Parts) (fuel : Nat) (above : Precedence) (start : Nat) :
    Nat → Node → Parser Node
  | 0, left => return left
  | count + 1, left => do
    joinGreater
    let current ← token
    let typing := !current.afterBreak && above < Precedence.compare &&
      (current.isWord .as_ || current.isWord .satisfies_)
    if typing then
      advance
      let type ← parts .type
      if !(← dialect).typed then fault start
      let kind : Kind := if current.isWord .as_ then .asType else .satisfiesType
      operations parts fuel above start count (← finish kind start [left, type])
    else
      match BinaryOp.ofToken? current with
      | none => return left
      | some op =>
        let stops := if op.isRightAssociative then op.precedence < above
          else op.precedence ≤ above
        if stops || (op == .in_ && !(← context).allowsIn) then return left
        else
          advance
          let right ← parts (.binary op.precedence)
          checkMixture op start left right
          operations parts fuel above start count (← finish (.binary op) start [left, right])

/-- An expression of operators that bind tighter than `above`. -/
def binary (parts : Parts) (fuel : Nat) (above : Precedence) : Parser Node := do
  let start ← here
  let current ← token
  match current.kind, (← context).allowsIn with
  | .privateName _, true =>
    let name ← privateName
    expectWord .in_
    let right ← parts (.binary .compare)
    if Precedence.compare ≤ above then failAt start
    operations parts fuel above start fuel (← finish .privateIn start [name, right])
  | _, _ =>
    let first ← unary parts fuel
    operations parts fuel above start fuel (if current.effectFreeCall then markCall first else first)

/-- Whether `yield` is an operator here. -/
def atYield : Parser Bool := do
  if ← atWord .yield_ then
    if (← context).yields then return true else nameOrLiteralFollows
  else return false

def yielding (parts : Parts) : Parser Node := do
  let start ← here
  advance
  if !(← context).yields then fault start
  let following ← token
  if following.afterBreak then finish (.yield_ false) start [Node.absent]
  else
    let delegate ← eat .star
    let ends := match (← token).kind with
      | .endOfText | .sign .semicolon | .sign .braceClose | .sign .parenClose
      | .sign .bracketClose | .sign .colon | .sign .comma | .name _ (some .in_) => true
      | _ => false
    if delegate || !ends then
      let inner ← parts (.assignment true)
      finish (.yield_ delegate) start [inner]
    else finish (.yield_ false) start [Node.absent]

/-- The part of an expression after its first operands: an arrow, a value or a choice. -/
def assignmentRest (parts : Parts) (fuel : Nat) (resultTypes : Bool) (start : Nat) (left : Node) :
    Parser Node := do
  let current ← token
  match left.kind, current.isSign .arrow with
  | .name _, true => arrowOfName parts fuel false resultTypes start left
  | _, _ =>
    match AssignOp.ofToken? current with
    | some op =>
      let place ← if op == .plain then target left else placeTarget left
      advance
      let value ← parts (.assignment resultTypes)
      finish (.assign op) start [place, value]
    | none =>
      if current.isSign .question then
        advance
        let consequent ← within ({ · with allowsIn := true }) (parts (.assignment false))
        expect .colon
        let alternate ← parts (.assignment resultTypes)
        finish .conditional start [left, consequent, alternate]
      else return left

/-- An expression without commas. -/
def assignment (parts : Parts) (fuel : Nat) (resultTypes : Bool) : Parser Node := do
  let start ← here
  let opening ← token
  let mark (node : Node) : Node := if opening.effectFreeFunction then markFunction node else node
  if ← atYield then yielding parts
  else
    match ← arrowFunction? parts fuel resultTypes with
    | some arrow => return mark arrow
    | none =>
      if ← atAsyncArrow then mark <$> asyncArrow parts fuel resultTypes
      else
        let left ← parts (.binary .comma)
        let whole ← assignmentRest parts fuel resultTypes start left
        return mark (if opening.effectFreeCall then markCall whole else whole)

def expression (parts : Parts) (fuel : Nat) : Parser Node := do
  let start ← here
  let first ← parts (.assignment true)
  if ← atSign .comma then
    let more ← many fuel do
      if ← eat .comma then some <$> parts (.assignment true) else return none
    finish .sequence start (first :: more)
  else return first

end Bundler.Script.Parser
