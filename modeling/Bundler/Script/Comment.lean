import Bundler.Script.Cursor

/-!
# Comments

What stands between two tokens: blanks, line breaks and comments. A comment that stands at the
end of a line belongs to nothing; every other one belongs to the token after it.
-/

namespace Bundler.Script

/-- A comment with its delimiters, and how it stands among the lines. -/
structure Comment where
  text : List Char
  start : Nat
  isLine : Bool
  /-- Whether a line break stands before it, after the last token. -/
  afterBreak : Bool
  /-- Whether a line break follows it. -/
  beforeBreak : Bool
deriving Repr, Inhabited

namespace Comment

def beginsWith (word : String) (text : List Char) : Bool :=
  word.toList.isPrefixOf text

def mentions (word : String) : List Char → Bool
  | [] => word.isEmpty
  | c :: rest => beginsWith word (c :: rest) || mentions word rest

def content (comment : Comment) : List Char :=
  if comment.isLine then comment.text.drop 2 else (comment.text.drop 2).dropLast.dropLast

def mark? (comment : Comment) : Option (List Char) :=
  match comment.content.dropWhile isBlank with
  | '@' :: rest => some rest
  | '#' :: rest => some rest
  | _ => none

/-- Whether a comment says that the call after it is free of effects. -/
def isEffectFreeCall (comment : Comment) : Bool :=
  (comment.mark?.map (beginsWith "__PURE__")).getD false

/-- Whether a comment says that calls of the function after it are free of effects. -/
def isEffectFreeFunction (comment : Comment) : Bool :=
  (comment.mark?.map (beginsWith "__NO_SIDE_EFFECTS__")).getD false

def isLegal (comment : Comment) : Bool :=
  match comment.content with
  | '!' :: _ => true
  | text => mentions "@license" text || mentions "@preserve" text

def hasArrow (comment : Comment) : Bool :=
  comment.text.head? == some '<' || comment.text.head? == some '-'

/-- Whether a comment at the front of a text says that it is written in a typed dialect of its
own. -/
def mentionsFlow (comment : Comment) : Bool := mentions "@flow" comment.text

def isMultiline (comment : Comment) : Bool :=
  !comment.isLine && comment.text.any isLineBreak

end Comment

/-- Where a gap is. -/
structure GapPlace where
  /-- Whether there is no token before it. -/
  isFirst : Bool
  /-- Whether the token before it expects something. -/
  expectant : Bool
  /-- Whether comments may be written as in markup: `<!--` anywhere, `-->` at the front of a
  line, both to the end of the line. -/
  allowsArrows : Bool

/-- What stands before a token: the comments that belong to it, and whether a line break is
among it. -/
structure Gap where
  comments : List Comment
  hasBreak : Bool
  /-- Whether a comment says that the call after it is free of effects. -/
  effectFreeCall : Bool
  /-- Whether a comment says so of the calls of the function after it. -/
  effectFreeFunction : Bool
  /-- The first comment, whether or not it belongs to the token. -/
  first : Option Comment
  /-- The places of comments that are written as in markup, the last one first. -/
  arrows : List Nat
deriving Inhabited

/-- Where a reader of a gap is. -/
structure GapState where
  /-- The comments that may belong to the next token, the last one first. -/
  pending : List Comment
  /-- Whether a line has ended since the last token, as far as comments are concerned. -/
  lineEnded : Bool
  hasBreak : Bool
  effectFreeCall : Bool
  effectFreeFunction : Bool
  first : Option Comment
  arrows : List Nat

namespace GapState

/-- A line ends: comments on the line of the last token belong to nothing. -/
def endLine (state : GapState) : GapState :=
  let pending := match state.pending with
    | [] => []
    | last :: earlier =>
      if state.lineEnded then { last with beforeBreak := true } :: earlier else []
  { state with pending := pending, lineEnded := true, hasBreak := true }

/-- Notes what a comment says of the token after the gap, whether or not it belongs to it. -/
def heed (state : GapState) (comment : Comment) : GapState :=
  { state with
    first := state.first <|> some comment
    arrows := if comment.hasArrow then comment.start :: state.arrows else state.arrows
    effectFreeCall := state.effectFreeCall || comment.isEffectFreeCall
    effectFreeFunction := state.effectFreeFunction || comment.isEffectFreeFunction }

/-- A comment to the end of the line. After a sign that expects something it belongs to the next
token even on the line of the last one. -/
def addLine (state : GapState) (expectant : Bool) (text : List Char) (start : Nat) : GapState :=
  let comment : Comment := ⟨text, start, true, state.lineEnded, true⟩
  let pending := if !state.lineEnded && !expectant then [] else comment :: state.pending
  { state.heed comment with pending := pending, lineEnded := true }

def addBlock (state : GapState) (text : List Char) (start : Nat) : GapState :=
  let comment : Comment := ⟨text, start, false, state.lineEnded, false⟩
  { state.heed comment with
    pending := comment :: state.pending
    hasBreak := state.hasBreak || text.any isLineBreak }

end GapState

/-- The part of a text up to the first end of a block comment, if there is one. -/
def blockComment? : List Char → Option (List Char)
  | [] => none
  | '*' :: '/' :: _ => some ['*', '/']
  | c :: rest => (blockComment? rest).map (c :: ·)

/-- A comment at the front of a text, if there is one: whether it goes to the end of the line, and
its text. -/
def frontComment? (allowsArrows opensLine : Bool) (text : List Char) :
    Option (Bool × List Char) :=
  let line := some (true, text.takeWhile fun c => !isLineBreak c)
  match text with
  | '/' :: '/' :: _ => line
  | '/' :: '*' :: rest => (blockComment? rest).map fun block => (false, '/' :: '*' :: block)
  | '<' :: '!' :: '-' :: '-' :: _ => if allowsArrows then line else none
  | '-' :: '-' :: '>' :: _ => if allowsArrows && opensLine then line else none
  | _ => none

/-- Reads a gap, `skip` characters of which belong to a comment that was read before. A block
comment without an end is a fault, and the gap ends before it. -/
def scanGapFrom (place : GapPlace) : List Char → Nat → Nat → GapState → Scanned GapState
  | [], _, offset, state => ⟨state, ⟨[], offset⟩, []⟩
  | c :: rest, skip + 1, offset, state =>
    scanGapFrom place rest skip (offset + c.utf8Size) state
  | c :: rest, 0, offset, state =>
    if isLineBreak c then scanGapFrom place rest 0 (offset + c.utf8Size) state.endLine
    else if isBlank c then scanGapFrom place rest 0 (offset + c.utf8Size) state
    else
      match frontComment? place.allowsArrows (place.isFirst || state.hasBreak) (c :: rest) with
      | some (true, text) =>
        scanGapFrom place rest (text.length - 1) (offset + 1)
          (state.addLine place.expectant text offset)
      | some (false, text) =>
        scanGapFrom place rest (text.length - 1) (offset + 1) (state.addBlock text offset)
      | none =>
        let isOpen := c = '/' && rest.head? = some '*'
        ⟨state, ⟨c :: rest, offset⟩, if isOpen then [offset] else []⟩

def scanGap (place : GapPlace) (cursor : Cursor) : Scanned Gap :=
  let blank : GapState := ⟨[], place.isFirst, false, false, false, none, []⟩
  let found := scanGapFrom place cursor.rest 0 cursor.offset blank
  let state := found.value
  ⟨⟨state.pending.reverse, state.hasBreak, state.effectFreeCall, state.effectFreeFunction,
    state.first, state.arrows⟩, found.after, found.faults⟩

end Bundler.Script
