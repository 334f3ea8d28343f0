import Bundler.Script.Reader.Modifier

/-!
# Reading patterns

The names that a declaration or a function takes apart values into, with their defaults.
-/

namespace Bundler.Script.Parser

/-- A pattern with a default, if there is one. -/
def defaultedPattern (parts : Parts) : Parser Node := do
  let start ← here
  let pattern ← parts .pattern
  if ← eat .equal then
    let value ← within ({ · with allowsIn := true }) (parts (.assignment true))
    finish .defaulted start [pattern, value]
  else return pattern

/-- Notes a default of a pattern that takes the rest, which may have none. -/
def refuseDefault (parts : Parts) (place : Nat) : Parser Unit := do
  let value ← within ({ · with allowsIn := true }) (initializer parts)
  if !value.isAbsent then fault place

/-- A pattern after an ellipsis. Only a comma at the end may follow it, and that is a fault. -/
def restPattern (parts : Parts) (close : Sign) : Parser Node := do
  let start ← here
  advance
  let pattern ← parts .pattern
  refuseDefault parts pattern.start
  let rest ← finish .restPattern start [pattern]
  if ← atSign .comma then
    let comma ← here
    if ← next (·.isSign close) then fault comma else fault start
  return rest

def patternElement (parts : Parts) : Parser Node := do
  let current ← token
  if current.isSign .comma then return Node.absent
  else if current.isSign .ellipsis then restPattern parts .bracketClose
  else defaultedPattern parts

def bindingProperty (parts : Parts) : Parser Node := do
  let first ← token
  if first.isSign .ellipsis then
    let rest ← restPattern parts .braceClose
    match rest.children with
    | [.node (.name _) _ _ _ _] => return rest
    | [pattern] => fault pattern.start; return rest
    | _ => return rest
  else
    let (key, computed) ← propertyKey parts false
    if first.isIdentifier && !(← atSign .colon) then
      checkName first (← context)
      if ← eat .equal then
        let value ← within ({ · with allowsIn := true }) (parts (.assignment true))
        let pattern ← finish .defaulted first.start [key, value]
        finish (.bindingProperty computed true) first.start [key, pattern]
      else finish (.bindingProperty computed true) first.start [key, key]
    else
      expect .colon
      let pattern ← defaultedPattern parts
      finish (.bindingProperty computed false) first.start [key, pattern]

/-- A pattern: a name, or a list or an object of patterns. -/
def pattern (parts : Parts) (fuel : Nat) : Parser Node := do
  let start ← here
  if ← eat .bracketOpen then
    let (elements, _) ← commaList fuel .bracketClose (patternElement parts)
    expect .bracketClose
    finish .arrayPattern start elements
  else if ← eat .braceOpen then
    let (properties, _) ← commaList fuel .braceClose (bindingProperty parts)
    expect .braceClose
    finish .objectPattern start properties
  else bindingName

def typedPattern (parts : Parts) (isDefinite : Bool) (pattern : Node) : Parser Node := do
  let type ← typeAnnotation parts
  if type.isAbsent && !isDefinite then return pattern
  else finish (.typedPattern isDefinite) pattern.start [pattern, type]

def decorator (parts : Parts) : Parser Node := do
  let start ← here
  advance
  let expression ← within ({ · with decorates := true }) (parts .leftSide)
  finish .decorator start [expression]

def decorators (parts : Parts) (fuel : Nat) : Parser Node := do
  let found ← many fuel do
    if ← atSign .at then some <$> decorator parts else return none
  return Node.list found

/-- What parameters belong to. -/
inductive ParameterOwner where
  | constructor | method | setter | arrow | other
deriving DecidableEq, Repr

namespace ParameterOwner

def words (owner : ParameterOwner) (typed : Bool) : List Word :=
  if typed && owner == constructor then [.public_, .private_, .protected_, .readonly_, .override_]
  else []

def allowsMarks (owner : ParameterOwner) (typed : Bool) : Bool :=
  typed && (owner == constructor || owner == method || owner == setter)

/-- Whether a function has no result that could have a type. -/
def refusesResult (owner : ParameterOwner) : Bool := owner == constructor || owner == setter

end ParameterOwner

/-- Notes a qualified parameter that is not a name. -/
def checkQualified (start : Nat) (found : List Qualifier) (pattern : Node) : Parser Unit := do
  match found, pattern.kind with
  | [], _ => return ()
  | _, .name _ => return ()
  | _, _ => fault start

def restParameter (parts : Parts) (start : Nat) (marks : Node) (found : List Qualifier) :
    Parser Node := do
  let ellipsis ← here
  advance
  if !found.isEmpty then fault start
  let inner ← parts .pattern
  let rest ← finish .restPattern ellipsis [inner]
  let type ← typeAnnotation parts
  refuseDefault parts inner.start
  let whole ← finish (.parameter (accessOf found) (qualifiedBy found .readonly_)
    (qualifiedBy found .override_) false) start [marks, rest, type, Node.absent]
  if ← atSign .comma then
    let comma ← here
    if ← next (·.isSign .parenClose) then fault comma else fault start
  return whole

def parameter (parts : Parts) (fuel : Nat) (owner : ParameterOwner) : Parser Node := do
  let start ← here
  let typed := (← dialect).typed
  let marks ← decorators parts fuel
  if !owner.allowsMarks typed then marks.children.forM fun mark => fault mark.start
  let found ← qualifiers false false fuel []
  checkQualifiers (owner.words typed) found
  if ← atSign .ellipsis then restParameter parts start marks found
  else
    let pattern ← parts .pattern
    let isOptional ← if typed then eat .question else pure false
    let type ← typeAnnotation parts
    let value ← within ({ · with allowsIn := true }) (initializer parts)
    if isOptional && !value.isAbsent then fault start
    checkQualified start found pattern
    finish (.parameter (accessOf found) (qualifiedBy found .readonly_)
      (qualifiedBy found .override_) isOptional) start [marks, pattern, type, value]

/-- The first parameter, which in a language with types may stand for the receiver. -/
def firstParameter (parts : Parts) (fuel : Nat) (owner : ParameterOwner) : Parser Node := do
  let current ← token
  if (← dialect).typed && current.isWord .this_ then
    if owner == .arrow then fault current.start
    let receiver ← leaf .this
    let type ← typeAnnotation parts
    finish (.parameter none false false false) current.start
      [Node.list [], receiver, type, Node.absent]
  else parameter parts fuel owner

def parameters (parts : Parts) (fuel : Nat) (owner : ParameterOwner) : Parser Node := do
  let start ← here
  expect .parenOpen
  let open_ ← here
  let item : Parser Node := do
    if (← here) == open_ then firstParameter parts fuel owner else parameter parts fuel owner
  let (items, _) ← commaList fuel .parenClose item
  expect .parenClose
  finish .parameters start items

/-- The parameters but for the receiver. -/
def properParameters (inputs : List Node) : List Node :=
  inputs.filter fun input =>
    match input with
    | .node (.parameter _ _ _ _) _ _ _ [_, .node .this _ _ _ _, _, _] => false
    | _ => true

end Bundler.Script.Parser
