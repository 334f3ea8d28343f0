import Bundler.Script.Dialect
import Bundler.Script.Lexer
import Bundler.Script.Node

/-!
# Reading with one token in sight

A reader sees the current token. It goes on, notes faults that do not stop it, or fails at a
place. What it was before can be taken up again, so that a reader can try something.
-/

namespace Bundler.Script

/-- What the surroundings of a piece of program allow. -/
structure Context where
  /-- Whether `in` is an operator. -/
  allowsIn : Bool
  /-- Whether `yield` is a keyword. -/
  yields : Bool
  /-- Whether `await` is a keyword. -/
  awaits : Bool
  /-- Whether the program may return. -/
  returns : Bool
  /-- Whether the expression belongs to a decorator. -/
  decorates : Bool
  /-- Whether declarations need no bodies and no values. -/
  declares : Bool
  /-- Whether the place is outside of all functions. -/
  isTop : Bool
  /-- Whether a type may be conditional. -/
  conditionals : Bool
deriving DecidableEq, Repr, Inhabited

/-- Where a reader is. -/
structure ReaderState where
  dialect : Dialect
  /-- The place after the current token. -/
  cursor : Cursor
  token : Token
  /-- Where the token before the current one ends. -/
  lastStop : Nat
  context : Context
  /-- The comments that belong to a token, with its place, the last one first. -/
  comments : List (Nat × Comment)
  /-- The places of malformed tokens, the last one first. -/
  tokenFaults : List Nat
  /-- The places of faults that do not stop the reader, the last one first. -/
  faults : List Nat
  /-- The places of properties that only a target of an assignment may have. -/
  openDefaults : List Nat
  /-- The places of faults in a program that turns out to be a script, the last one first. -/
  scriptFaults : List Nat
  /-- The places of faults in a program that turns out to be a module, the last one first. -/
  moduleFaults : List Nat
  /-- The first comment of the text. -/
  firstComment : Option Comment
  /-- Whether something was imported or exported. -/
  hasModuleSyntax : Bool
  /-- Places where it was found out that no arrow function begins. -/
  noArrows : List Nat
deriving Inhabited

/-- How reading ends. -/
inductive Reading (α : Type) where
  | done (value : α) (state : ReaderState)
  | failed (place : Nat) (state : ReaderState)

def Parser (α : Type) : Type := ReaderState → Reading α

namespace Parser

variable {α β : Type}

instance : Monad Parser where
  pure value := fun state => .done value state
  bind first next := fun state =>
    match first state with
    | .done value state => next value state
    | .failed place state => .failed place state

instance : Inhabited (Parser α) := ⟨fun state => .failed 0 state⟩

def get : Parser ReaderState := fun state => .done state state

def modify (change : ReaderState → ReaderState) : Parser Unit :=
  fun state => .done () (change state)

def failAt (place : Nat) : Parser α := fun state => .failed place state

def fault (place : Nat) : Parser Unit :=
  modify fun state => { state with faults := place :: state.faults }

/-- Notes a fault of a program that turns out to be a script. -/
def scriptFault (place : Nat) : Parser Unit :=
  modify fun state => { state with scriptFaults := place :: state.scriptFaults }

def token : Parser Token := fun state => .done state.token state

def here : Parser Nat := fun state => .done state.token.start state

def lastStop : Parser Nat := fun state => .done state.lastStop state

def context : Parser Context := fun state => .done state.context state

def dialect : Parser Dialect := fun state => .done state.dialect state

/-- Fails at a token that cannot stand here. If it is malformed or missing, the last malformed
token says why. -/
def unexpected : Parser α := fun state =>
  match state.token.isEndOrMalformed, state.tokenFaults with
  | true, place :: earlier => .failed place { state with tokenFaults := earlier }
  | _, _ => .failed state.token.start state

/-- Signs after which a comment on the same line belongs to the next token. -/
def isExpectant (token : Token) : Bool :=
  match token.kind with
  | .sign .equal | .sign .parenOpen => true
  | _ => false

def gapAfter (state : ReaderState) : GapPlace :=
  ⟨false, isExpectant state.token, state.dialect.allowsArrows⟩

def take (state : ReaderState) (lexeme : Lexeme) : ReaderState :=
  { state with
    cursor := lexeme.after
    token := lexeme.token
    comments := lexeme.gap.comments.foldl (fun all comment => (lexeme.token.start, comment) :: all)
      state.comments
    moduleFaults := lexeme.gap.arrows ++ state.moduleFaults
    firstComment := state.firstComment <|> lexeme.gap.first
    tokenFaults := lexeme.faults.foldl (fun all place => place :: all) state.tokenFaults }

def skip : Parser Unit :=
  modify fun state =>
    take { state with lastStop := state.token.stop }
      (scanLexeme (gapAfter state) state.cursor)

/-- Goes past the current token. A word with a meaning of its own is not written with escapes. -/
def advance : Parser Unit := do
  let current ← token
  if current.escaped && current.word?.isSome then fault current.start
  skip

def retoken (kind : TokenKind) (after : Cursor) (faults : List Nat) : Parser Unit :=
  modify fun state =>
    { state with
      cursor := after
      token := { state.token with kind := kind, stop := after.offset }
      tokenFaults := faults.foldl (fun all place => place :: all) state.tokenFaults }

def atSign (sign : Sign) : Parser Bool := fun state => .done (state.token.isSign sign) state

def atWord (word : Word) : Parser Bool := fun state => .done (state.token.isWord word) state

/-- Goes past a sign if it is there. -/
def eat (sign : Sign) : Parser Bool := do
  if ← atSign sign then
    advance
    return true
  else return false

/-- Goes past a word if it is there. -/
def eatWord (word : Word) : Parser Bool := do
  if ← atWord word then
    advance
    return true
  else return false

def expect (sign : Sign) : Parser Unit := do
  if ← atSign sign then advance else failAt (← here)

def expectWord (word : Word) : Parser Unit := do
  if ← atWord word then advance else failAt (← here)

/-- Whether a statement may end before the current token without a semicolon. -/
def mayEnd (token : Token) : Bool :=
  token.afterBreak ||
    match token.kind with
    | .sign .semicolon | .sign .braceClose | .endOfText => true
    | _ => false

def semicolon : Parser Unit := do
  if mayEnd (← token) then
    let _ ← eat .semicolon
  else failAt (← lastStop)

/-- Reads something, or reads nothing if that fails; only what was found out about arrow functions
is kept then. -/
def attempt (parser : Parser α) : Parser (Option α) := fun state =>
  match parser state with
  | .done value after => .done (some value) after
  | .failed _ after => .done none { state with noArrows := after.noArrows }

/-- Answers a question about what comes next, `false` if the reader of the answer fails. -/
def foresee (parser : Parser Bool) : Parser Bool := fun state =>
  match parser state with
  | .done value _ => .done value state
  | .failed _ _ => .done false state

def within (change : Context → Context) (parser : Parser α) : Parser α := fun state =>
  match parser { state with context := change state.context } with
  | .done value after => .done value { after with context := state.context }
  | .failed place after => .failed place { after with context := state.context }

def finish (kind : Kind) (start : Nat) (children : List Node) : Parser Node := fun state =>
  .done (Node.mk kind start state.lastStop children) state

def leaf (kind : Kind) : Parser Node := do
  let current ← token
  skip
  return Node.mk kind current.start current.stop []

def repeatFrom (parser : Parser (Option α)) : Nat → List α → Parser (List α)
  | 0, seen => return seen.reverse
  | fuel + 1, seen => do
    match ← parser with
    | some value => repeatFrom parser fuel (value :: seen)
    | none => return seen.reverse

/-- Reads something as long as it is there, at most as often as `fuel` says. -/
def many (fuel : Nat) (parser : Parser (Option α)) : Parser (List α) :=
  repeatFrom parser fuel []

def manyUntil (fuel : Nat) (close : Sign) (item : Parser α) : Parser (List α) :=
  many fuel do
    let current ← token
    if current.isSign close || current.isEndOrMalformed then return none
    else some <$> item

/-- Reads the items of a list after the first one, and the place of a comma at its end. -/
def listFrom (close : Sign) (item : Parser α) : Nat → List α → Parser (List α × Option Nat)
  | 0, seen => return (seen.reverse, none)
  | fuel + 1, seen => do
    let current ← token
    if current.isSign close || current.isEndOrMalformed then return (seen.reverse, none)
    else if current.isSign .comma then
      advance
      if ← atSign close then return (seen.reverse, some current.start)
      else listFrom close item fuel ((← item) :: seen)
    else failAt current.start

/-- Reads items with commas between them up to a sign that closes the list and stays, and the
place of a comma at the end. -/
def commaList (fuel : Nat) (close : Sign) (item : Parser α) : Parser (List α × Option Nat) := do
  let current ← token
  if current.isSign close || current.isEndOrMalformed then return ([], none)
  else listFrom close item fuel [← item]

end Parser

end Bundler.Script
