import Bundler.Script.Reader.Class
import Bundler.Script.Reader.Target

/-!
# Reading literals

Lists, objects, templates and regular expressions.
-/

namespace Bundler.Script.Parser

def spread (parts : Parts) : Parser Node := do
  let start ← here
  advance
  let inner ← parts (.assignment true)
  finish .spread start [inner]

def listElement (parts : Parts) : Parser Node := do
  let current ← token
  if current.isSign .comma then return Node.absent
  else if current.isSign .ellipsis then spread parts
  else parts (.assignment true)

def arrayLiteral (parts : Parts) (fuel : Nat) : Parser Node := do
  let start ← here
  advance
  let (elements, comma) ← within ({ · with allowsIn := true })
    (commaList fuel .bracketClose (listElement parts))
  expect .bracketClose
  finish (.array comma) start elements

def objectMember (parts : Parts) (fuel : Nat) : Parser Node := do
  let start ← here
  let first ← token
  if first.isSign .ellipsis then spread parts
  else
    let accesses := (first.isWord .get_ || first.isWord .set_) &&
      (← next fun token => startsKey token || token.isSign .bracketOpen)
    let isAsync := first.isWord .async_ && (← next fun token => !token.afterBreak &&
      (startsKey token || token.isSign .bracketOpen || token.isSign .star))
    if accesses || isAsync then advance
    let isGenerator ← eat .star
    let named ← token
    let (key, computed) ← propertyKey parts false
    if accesses then
      let role : MethodRole := if first.isWord .get_ then .getter else .setter
      let owner : ParameterOwner := if role == .setter then .setter else .other
      let method ← methodFunction parts fuel owner false false
      checkAccessor role method
      finish (.methodProperty role computed) start [key, method]
    else if isAsync || isGenerator || (← atSign .parenOpen) || (← atSign .less) then
      let method ← methodFunction parts fuel .other isAsync isGenerator
      finish (.methodProperty .method computed) start [key, method]
    else if named.isIdentifier && !(← atSign .colon) then
      checkName named (← context)
      if ← eat .equal then
        let value ← parts (.assignment true)
        modify fun state => { state with openDefaults := start :: state.openDefaults }
        finish .shorthandDefault start [key, value]
      else finish (.property computed true) start [key, key]
    else
      expect .colon
      let value ← parts (.assignment true)
      finish (.property computed false) start [key, value]

def objectLiteral (parts : Parts) (fuel : Nat) : Parser Node := do
  let start ← here
  advance
  let (members, comma) ← within ({ · with allowsIn := true })
    (commaList fuel .braceClose (objectMember parts fuel))
  expect .braceClose
  finish (.object comma) start members

/-- A template. Without a tag its escapes have to be well formed. -/
def templateLiteral (parts : Parts) (fuel : Nat) (isTagged : Bool) : Parser Node := do
  let start ← here
  let check (ok : Bool) (place : Nat) : Parser Unit :=
    if ok || isTagged then pure () else fault (place + 1)
  let items ← templateParts (within ({ · with allowsIn := true }) (parts .expression)) check fuel []
  finish .template start items

def regexLiteral : Parser Node := do
  let state ← get
  let slash : Cursor := match state.token.kind with
    | .sign .slashEqual => ⟨'/' :: '=' :: state.cursor.rest, state.token.start⟩
    | _ => ⟨'/' :: state.cursor.rest, state.token.start⟩
  let found := scanRegex slash
  retoken found.value found.after found.faults
  match found.value with
  | .regex pattern flags =>
    if flags.contains 'u' && flags.contains 'v' then fault state.token.start
    leaf (.regex pattern flags)
  | _ => unexpected

/-- Expressions in parentheses. A function in them is marked as it stands there. -/
def parenthesized (parts : Parts) (fuel : Nat) : Parser Node := do
  let start ← here
  advance
  let first ← here
  let (items, comma) ← within ({ · with allowsIn := true, decorates := false })
    (commaList fuel .parenClose (parts (.assignment true)))
  if let some place := comma then failAt place
  let stop ← lastStop
  expect .parenClose
  match items with
  | [] => failAt start
  | [.node (.function shape) start' stop' _ children] =>
    let inner := Node.mk (.function { shape with isParenthesized := true }) start' stop' children
    finish .parenthesized start [inner]
  | [.node (.arrow shape) start' stop' _ children] =>
    let inner := Node.mk (.arrow { shape with isParenthesized := true }) start' stop' children
    finish .parenthesized start [inner]
  | [inner] => finish .parenthesized start [inner]
  | items => finish .parenthesized start [Node.mk .sequence first stop items]

end Bundler.Script.Parser
