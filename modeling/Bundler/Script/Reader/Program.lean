import Bundler.Script.Export
import Bundler.Script.Reader.Module

/-!
# Reading programs

The reader of each part, put together, and the reader of a whole text. The text has a tree if no
fault was noted; if not, the place of the fault that is reported is the first malformed token's,
else the first other fault's.
-/

namespace Bundler.Script

namespace Parser

def plainStatement (parts : Parts) (fuel : Nat) (alone : Bool) : Parser Node := do
  let start ← here
  let current ← token
  match current.kind with
  | .sign .braceOpen => block parts fuel
  | .sign .semicolon => do advance; finish .empty start []
  | .sign .at =>
    let marks ← decorators parts fuel
    if ← atWord .export_ then exportStatement parts fuel start marks
    else if (← dialect).typed && (← atTypedDeclaration fuel) then
      typedDeclaration parts fuel marks start
    else classStatement parts fuel alone start marks
  | .name _ (some word) =>
    match word with
    | .if_ => ifStatement parts
    | .do_ => doStatement parts
    | .while_ => whileStatement parts
    | .for_ => forStatement parts fuel
    | .continue_ => jump .continue_
    | .break_ => jump .break_
    | .return_ => returnStatement parts
    | .with_ => withStatement parts
    | .switch_ => switchStatement parts fuel
    | .throw_ => throwStatement parts
    | .try_ => tryStatement parts fuel
    | .debugger_ => do advance; semicolon; finish .debugger_ start []
    | .class_ => classStatement parts fuel alone start (Node.list [])
    | .function_ => functionStatement parts fuel alone
    | .export_ => exportStatement parts fuel start (Node.list [])
    | .var_ => bindings parts fuel "var" false alone start
    | .const_ =>
      if (← dialect).typed && (← next (·.isWord .enum_)) then
        typedDeclaration parts fuel (Node.list []) start
      else bindings parts fuel "const" false alone start
    | .let_ =>
      if current.escaped then expressionStatement parts else letStatement parts fuel alone
    | .async_ =>
      if ← atAsyncFunction then functionStatement parts fuel alone else expressionStatement parts
    | .import_ =>
      if ← next fun token => token.isSign .parenOpen || token.isSign .dot then
        expressionStatement parts
      else importDeclaration fuel
    | .using_ | .await_ =>
      match ← forKeyword? with
      | some keyword => bindings parts fuel keyword false alone start
      | none => expressionStatement parts
    | _ =>
      if ← atTypedDeclaration fuel then
        typedDeclaration parts fuel (Node.list []) start
      else expressionStatement parts
  | _ => expressionStatement parts

def statement (parts : Parts) (fuel : Nat) (alone : Bool) : Parser Node := do
  let current ← token
  let whole ← plainStatement parts fuel alone
  return if current.effectFreeFunction then markDeclared whole else whole

def step (parts : Parts) (fuel : Nat) : Parts
  | .statement alone => statement parts fuel alone
  | .expression => expression parts fuel
  | .assignment resultTypes => assignment parts fuel resultTypes
  | .binary above => binary parts fuel above
  | .unary => unary parts fuel
  | .leftSide => leftSide parts fuel
  | .pattern => pattern parts fuel
  | .type => type parts fuel
  | .plainType => plainType parts fuel
  | .markup between => markupFrom parts fuel (if between then skipToChild else advance)

/-- The reader of a part that is nested at most as deep as a number says. -/
def read : Nat → Parts
  | 0 => fun _ => unexpected
  | fuel + 1 => step (read fuel) fuel

def program (parts : Parts) (fuel : Nat) (hashbang : Option String) : Parser Node := do
  let statements ← many fuel do
    match (← token).kind with
    | .endOfText => return none
    | _ => some <$> parts (.statement false)
  let stop ← here
  return Node.mk (.program hashbang) 0 stop (markDirectives statements)

end Parser

/-- A program with its comments. -/
structure Program where
  tree : Node
  /-- The comments that belong to a token, with its place. -/
  comments : List (Nat × Comment)
deriving Inhabited

namespace Program

/-- The line at the front of a text that names the tool to run it with, and the rest. -/
def splitHashbang (source : List Char) : Option String × Cursor :=
  match source with
  | '#' :: '!' :: rest =>
    let line := rest.takeWhile fun c => !isLineBreak c
    (some (String.ofList line),
      (⟨source, 0⟩ : Cursor).past ('#' :: '!' :: line) (rest.dropWhile fun c => !isLineBreak c))
  | c :: '#' :: '!' :: rest =>
    if c.toNat = 0xfeff then
      let line := rest.takeWhile fun c => !isLineBreak c
      (some (String.ofList line),
        (⟨source, 0⟩ : Cursor).past (c :: '#' :: '!' :: line)
          (rest.dropWhile fun c => !isLineBreak c))
    else (none, ⟨source, 0⟩)
  | _ => (none, ⟨source, 0⟩)

def surroundings (dialect : Dialect) (awaits : Bool) : Context where
  allowsIn := true
  yields := false
  awaits := awaits
  returns := dialect.kind == .body
  decorates := false
  declares := dialect.declares
  isTop := true
  conditionals := true

/-- A depth that no program of a text exceeds. -/
def depth (source : List Char) : Nat := 32 * (source.length + 2)

def run (dialect : Dialect) (awaits : Bool) (source : List Char) : Reading Node :=
  let (hashbang, cursor) := splitHashbang source
  let first := scanLexeme ⟨hashbang.isNone, false, dialect.allowsArrows⟩ cursor
  let blank : ReaderState :=
    { dialect := dialect
      cursor := cursor
      token := first.token
      lastStop := 0
      context := surroundings dialect awaits
      comments := []
      tokenFaults := []
      faults := []
      openDefaults := []
      scriptFaults := []
      moduleFaults := []
      firstComment := none
      hasModuleSyntax := false
      noArrows := [] }
  let fuel := depth source
  Parser.program (Parser.read fuel) fuel hashbang (Parser.take blank first)

/-- The places of faults that were noted while reading, with the one that stopped it. -/
def faults (stopped : Option Nat) (state : ReaderState) : List Nat :=
  state.tokenFaults.reverse ++ state.faults.reverse ++ stopped.toList ++ state.openDefaults.reverse

/-- The places of faults in a program as a whole: names that are exported twice, and what only the
other kind of program may hold. -/
def wholeFaults (tree : Node) (state : ReaderState) : List Nat :=
  let exported := if state.dialect.typed then [] else ExportedName.faults tree.children
  let undecided := state.dialect.kind == .either
  exported ++
    if undecided && state.hasModuleSyntax then state.moduleFaults.reverse
    else if undecided then state.scriptFaults.reverse
    else []

/-- The place that is reported for faults that were noted while reading: the first one, unless the
text declares at its front that it is written in another language. -/
def report (state : ReaderState) (place : Nat) : Nat :=
  match state.firstComment with
  | some comment =>
    if !state.dialect.typed && comment.mentionsFlow then comment.start else place
  | none => place

/-- What comes of reading: a program, or the place of a fault. -/
def ofReading : Reading Node → Except Nat Program
  | .failed place state => .error (report state ((faults (some place) state).head?.getD place))
  | .done tree state =>
    match faults none state, wholeFaults tree state with
    | place :: _, _ => .error (report state place)
    | [], place :: _ => .error place
    | [], [] => .ok ⟨tree, state.comments.reverse⟩

/-- Reads a text. One that may be a module is read again as one once it turns out to be one. -/
def read (dialect : Dialect) (source : List Char) : Except Nat Program :=
  let reading := run dialect (dialect.kind == .module) source
  match reading with
  | .done _ state =>
    if dialect.kind == .either && state.hasModuleSyntax then ofReading (run dialect true source)
    else ofReading reading
  | .failed _ _ => ofReading reading

end Program

end Bundler.Script
