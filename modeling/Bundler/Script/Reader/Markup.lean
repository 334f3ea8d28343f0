import Bundler.Script.Reader.Type

/-!
# Reading markup

Elements with attributes, and what stands between their tags.
-/

namespace Bundler.Script.Parser

/-- Goes past the current token to what stands between tags: a tag, an expression or text. -/
def skipToChild : Parser Unit :=
  modify fun state =>
    let state := { state with lastStop := state.token.stop }
    let start := state.cursor.offset
    let text := scanMarkupText state.cursor.rest start [] []
    let single (kind : TokenKind) (after : Cursor) : Lexeme :=
      ⟨⟨kind, start, after.offset, false, false, false, false⟩, default, after, []⟩
    let lexeme := match state.cursor.rest with
      | '<' :: rest => single (.sign .less) (state.cursor.past ['<'] rest)
      | '\x7b' :: rest => single (.sign .braceOpen) (state.cursor.past ['\x7b'] rest)
      | _ =>
        if text.after.rest.isEmpty then single .endOfText text.after
        else
          { single (.markupText (String.ofList text.value)) text.after with faults := text.faults }
    take state lexeme

def extendName : Parser Unit := do
  let state ← get
  match state.token.kind with
  | .name text _ =>
    let continues (c : Char) : Bool := continuesName c || c == '-'
    let more := state.cursor.rest.takeWhile continues
    let rest := state.cursor.rest.dropWhile continues
    if !more.isEmpty then
      retoken (.name (text ++ String.ofList more) none) (state.cursor.past more rest) []
  | _ => return ()

def markupName : Parser Node := do
  extendName
  let current ← token
  if current.isName then leaf (.markupName (nameText current)) else unexpected

def elementName (fuel : Nat) : Parser Node := do
  let first ← markupName
  if ← eat .colon then
    let name ← markupName
    finish .markupNamespaced first.start [first, name]
  else
    let rec go : Nat → Node → Parser Node
      | 0, left => return left
      | fuel + 1, left => do
        if ← eat .dot then
          let right ← markupName
          go fuel (← finish .markupMember left.start [left, right])
        else return left
    go fuel first

/-- Goes past an equals sign to the value of an attribute, a string of which has no escapes. -/
def skipToValue : Parser Unit :=
  modify fun state =>
    let place : GapPlace := ⟨false, true, state.dialect.allowsArrows⟩
    let gap := scanGap place state.cursor
    let start := gap.after.offset
    let past := { state with lastStop := state.token.stop }
    let plain := take past (scanLexeme place state.cursor)
    match gap.after.rest with
    | quote :: rest =>
      if quote == '"' || quote == '\'' then
        let raw := rest.takeWhile (· != quote)
        match rest.dropWhile (· != quote) with
        | _ :: after =>
          let after := gap.after.past (quote :: raw ++ [quote]) after
          let text := String.ofList raw
          let value : Token :=
            ⟨.string text text false, start, after.offset, gap.value.hasBreak, false, false, false⟩
          take past ⟨value, gap.value, after, []⟩
        | [] => plain
      else plain
    | [] => plain

/-- An expression in braces between tags or as a value; `close` goes past its last brace. -/
def markupExpression (parts : Parts) (close : Parser Unit) : Parser Node := do
  let start ← here
  advance
  let closing (kind : Kind) (children : List Node) : Parser Node := do
    let brace ← token
    if brace.isSign .braceClose then
      close
      return Node.mk kind start brace.stop children
    else failAt brace.start
  if ← atSign .ellipsis then
    advance
    let inner ← parts .expression
    closing .markupSpreadChild [inner]
  else if ← atSign .braceClose then closing .markupExpression [Node.absent]
  else
    let inner ← within ({ · with allowsIn := true }) (parts .expression)
    closing .markupExpression [inner]

def attributeValue (parts : Parts) : Parser Node := do
  let current ← token
  match current.kind with
  | .string _ raw _ => leaf (.markupString raw)
  | .sign .braceOpen =>
    if ← next (·.isSign .braceClose) then unexpected else markupExpression parts advance
  | .sign .less => parts (.markup false)
  | _ => unexpected

def markupAttribute (parts : Parts) : Parser Node := do
  let start ← here
  if ← eat .braceOpen then
    expect .ellipsis
    let inner ← within ({ · with allowsIn := true }) (parts (.assignment true))
    expect .braceClose
    finish .markupSpread start [inner]
  else
    let first ← markupName
    let name ← if ← eat .colon then do
        let second ← markupName
        finish .markupNamespaced start [first, second]
      else pure first
    if ← atSign .equal then
      skipToValue
      let value ← attributeValue parts
      finish .markupAttribute start [name, value]
    else finish .markupAttribute start [name, Node.absent]

/-- What stands between the tags of an element, up to the closing tag, which stays. -/
def markupChildren (parts : Parts) (fuel : Nat) : Parser (List Node) :=
  many fuel do
    let current ← token
    match current.kind with
    | .markupText text =>
      let start := current.start
      skipToChild
      return some (Node.mk (.markupText text) start current.stop [])
    | .sign .braceOpen => some <$> markupExpression parts skipToChild
    | .sign .less =>
      if ← next (·.isSign .slash) then return none
      else
        let element ← parts (.markup true)
        return some element
    | _ => unexpected

def markupNameText : Node → String
  | .node (.markupName text) _ _ _ _ => text
  | .node .markupNamespaced _ _ _ [left, right] =>
    markupNameText left ++ ":" ++ markupNameText right
  | .node .markupMember _ _ _ [left, right] => markupNameText left ++ "." ++ markupNameText right
  | _ => ""

/-- Markup from a tag on. `close` goes past its last sign. -/
def markupFrom (parts : Parts) (fuel : Nat) (close : Parser Unit) : Parser Node := do
  let start ← here
  expect .less
  let closing (kind : Kind) (children : List Node) : Parser Node := do
    let sign ← token
    if sign.isSign .greater then
      close
      return Node.mk kind start sign.stop children
    else failAt sign.start
  if ← atSign .greater then
    skipToChild
    let children ← markupChildren parts fuel
    expect .less
    expect .slash
    closing .markupFragment children
  else
    let name ← elementName fuel
    let _ ← typeArgumentsHere parts fuel
    let attributes ← many fuel do
      let current ← token
      if current.isSign .slash || current.isSign .greater || current.isEndOrMalformed then
        return none
      else some <$> markupAttribute parts
    if ← eat .slash then
      closing (.markupElement true) [name, Node.list attributes, Node.list []]
    else
      if !(← atSign .greater) then failAt (← here)
      skipToChild
      let children ← markupChildren parts fuel
      let last ← here
      expect .less
      expect .slash
      if ← atSign .greater then fault last
      else
        let second ← elementName fuel
        if markupNameText second != markupNameText name then fault second.start
      closing (.markupElement false) [name, Node.list attributes, Node.list children]

end Bundler.Script.Parser
