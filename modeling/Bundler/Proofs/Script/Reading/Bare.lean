import Bundler.Proofs.Script.Reading.Whole

/-! Reading a text in which nothing but blanks stands between the tokens. The reader notes nothing
on its way from token to token, so it is known exactly what it leaves behind. -/

namespace Bundler.Script

namespace Sight

variable (sight : Sight) (start stop : Nat)

@[simp]
theorem token_kind : (sight.token start stop).kind = sight.kind := rfl

@[simp]
theorem token_start : (sight.token start stop).start = start := rfl

@[simp]
theorem token_stop : (sight.token start stop).stop = stop := rfl

@[simp]
theorem token_escaped : (sight.token start stop).escaped = false := rfl

end Sight

namespace ReaderState

variable {state : ReaderState} {sight : Sight} {start : Nat} {after : Cursor}

/-- A reader has gone past the current token to the next one, and has noted nothing. -/
def onto (state : ReaderState) (sight : Sight) (start : Nat) (after : Cursor) : ReaderState :=
  { state with
    cursor := after
    token := sight.token start after.offset
    lastStop := state.token.stop }

@[simp]
theorem onto_token : (state.onto sight start after).token = sight.token start after.offset := rfl

@[simp]
theorem onto_lastStop : (state.onto sight start after).lastStop = state.token.stop := rfl

end ReaderState

namespace Parser

variable {α β : Type} {state later final : ReaderState} {sight sight' : Sight}
  {start start' stop stop' : Nat} {after : Cursor}

/-! ### Running readers -/

section Running

@[simp]
theorem bind_apply (parser : Parser α) (next : α → Parser β) (state : ReaderState) :
    (parser >>= next) state = match parser state with
      | .done value state => next value state
      | .failed place state => .failed place state := rfl

@[simp]
theorem pure_apply (value : α) (state : ReaderState) :
    (pure value : Parser α) state = .done value state := rfl

@[simp]
theorem map_apply (f : α → β) (parser : Parser α) (state : ReaderState) :
    (f <$> parser) state = match parser state with
      | .done value state => .done (f value) state
      | .failed place state => .failed place state := rfl

@[simp]
theorem get_apply (state : ReaderState) : get state = .done state state := rfl

@[simp]
theorem token_apply (state : ReaderState) : token state = .done state.token state := rfl

@[simp]
theorem here_apply (state : ReaderState) : here state = .done state.token.start state := rfl

@[simp]
theorem context_apply (state : ReaderState) : context state = .done state.context state := rfl

@[simp]
theorem dialect_apply (state : ReaderState) : dialect state = .done state.dialect state := rfl

@[simp]
theorem atSign_apply (sign : Sign) (state : ReaderState) :
    atSign sign state = .done (state.token.isSign sign) state := rfl

@[simp]
theorem atWord_apply (word : Word) (state : ReaderState) :
    atWord word state = .done (state.token.isWord word) state := rfl

@[simp]
theorem finish_apply (kind : Kind) (start : Nat) (children : List Node) (state : ReaderState) :
    finish kind start children state =
      .done (Node.mk kind start state.lastStop children) state := rfl

theorem within_of_done {change : Context → Context} {parser : Parser α} {value : α}
    (hchange : change state.context = state.context) (hlater : later.context = state.context)
    (h : parser state = .done value later) : within change parser state = .done value later := by
  have hsame : { state with context := change state.context } = state := by rw [hchange]
  rw [within, hsame, h, ← hlater]

end Running

/-! ### Going past tokens -/

section Tokens

variable (h : Meets state.cursor sight start after)

include h

theorem skip_eq : skip state = .done () (state.onto sight start after) := by
  simp [skip, modify, take, h _, Sight.lexeme, ReaderState.onto]

theorem leaf_eq (kind : Kind) : leaf kind state =
    .done (Node.mk kind state.token.start state.token.stop []) (state.onto sight start after) := by
  simp [leaf, skip_eq h]

theorem advance_eq (hplain : state.token.escaped = false) :
    advance state = .done () (state.onto sight start after) := by
  simp [advance, hplain, skip_eq h]

theorem expect_eq {sign : Sign} (hsign : state.token = (Sight.sign sign).token start' stop') :
    expect sign state = .done () (state.onto sight start after) := by
  simp [expect, hsign, Token.isSign, Token.sign?, advance_eq h]

end Tokens

/-! ### Operands -/

/-- A reader comes to a state with a tree, apart from places. -/
def Gives (parser : Parser Node) (state : ReaderState) (node : Node) (later : ReaderState) : Prop :=
  ∃ tree, parser state = .done tree later ∧ tree.unplaced = node

/-- From a state on an operand goes on with accesses and calls, none of them optional. -/
def Chains (fuel count : Nat) (state : ReaderState) (object node : Node) (later : ReaderState) :
    Prop :=
  ∀ place left, left.unplaced = object → ∃ tree,
    links (read fuel) fuel true place count left false state = .done (tree, false) later ∧
      tree.unplaced = node

section Operands

variable {parts : Parts} {fuel count : Nat} {object node : Node} {text : String}
  {word : Option Word}

theorem primary_name {depth : Nat} (hword : word = none ∨ word = some .module_)
    (htoken : state.token = Sight.token ⟨.name text word, false⟩ start stop)
    (hnext : Meets state.cursor sight start' after) :
    primary parts fuel (depth + 1) state =
      .done (Node.mk (.name text) start stop []) (state.onto sight start' after) := by
  have hleaf := leaf_eq hnext (.name text)
  rw [htoken] at hleaf
  rcases hword with rfl | rfl <;>
    simp [primary, identifier, checkName, htoken, hleaf, Token.isIdentifier, Token.isWord,
      Token.word?, nameText, Word.isReserved]

theorem primary_string {depth : Nat} {value raw : String} {lone : Bool}
    (htoken : state.token = Sight.token ⟨.string value raw lone, false⟩ start stop)
    (hnext : Meets state.cursor sight start' after) :
    primary parts fuel (depth + 1) state =
      .done (Node.mk (.string value raw lone) start stop []) (state.onto sight start' after) := by
  have hleaf := leaf_eq hnext (.string value raw lone)
  rw [htoken] at hleaf
  simp [primary, htoken, hleaf]

theorem chains_end (htoken : state.token = sight.token start stop) (hends : sight.Ends) :
    Chains fuel (count + 1) state object object state := by
  refine fun place left hleft => ⟨left, ?_, hleft⟩
  rw [links]
  rcases hends with ⟨⟨⟨⟩⟩ | _⟩ | _ <;> simp [nextLink, htoken]

theorem Chains.dot {place : Nat} {behind : Cursor} (hobject : object.kind ≠ .instantiation)
    (hdot : state.token = (Sight.sign .dot).token start stop)
    (hname : Meets state.cursor ⟨.name text word, false⟩ start' after)
    (hnext : Meets after sight place behind)
    (hrest : Chains fuel count
      ((state.onto ⟨.name text word, false⟩ start' after).onto sight place behind)
      (.of (.member false) [object, .of (.name text) []]) node later) :
    Chains fuel (count + 1) state object node later := by
  intro from_ left hleft
  have hcheck : checkAccessed left = pure () := by
    unfold checkAccessed
    split
    · rename_i hkind
      rw [← hleft, Node.kind_unplaced, hkind] at hobject
      exact absurd rfl hobject
    · rfl
  have hadvance := advance_eq hname (by rw [hdot]; rfl)
  have hleaf := @leaf_eq (state.onto ⟨.name text word, false⟩ start' after) _ _ _ hnext
    (.name text)
  obtain ⟨tree, hlinks, htree⟩ := hrest from_
    (Node.mk (.member false) from_ after.offset
      [left, Node.mk (.name text) start' after.offset []]) (by simp [hleft, Kind.unplaced])
  refine ⟨tree, ?_, htree⟩
  rw [links, ← hlinks]
  simp [nextLink, hdot, hcheck, hadvance, memberName, anyName, hleaf, Token.isName, nameText]

/-- A single argument in parentheses. -/
theorem gives_callArguments {place next : Nat} {behind : Cursor} {item : Node}
    {closing : ReaderState} (houter : Ordinary state.context)
    (hopen : state.token = (Sight.sign .parenOpen).token start stop)
    (hfirst : Meets state.cursor sight start' after) (hopens : sight.Opens)
    (hitem : Gives (read (fuel + 1) (.assignment true)) (state.onto sight start' after) item
      closing)
    (hcontext : closing.context = state.context)
    (hclose : closing.token = (Sight.sign .parenClose).token place stop')
    (hnext : Meets closing.cursor sight' next behind) :
    Gives (callArguments (read (fuel + 1)) (fuel + 1)) state (.list [item])
      (closing.onto sight' next behind) := by
  obtain ⟨value, hvalue, hplain⟩ := hitem
  have hsign (sign : Sign) (h : sign = .ellipsis ∨ sign = .parenClose) :
      (state.onto sight start' after).token.isSign sign = false := by
    rcases h with rfl | rfl <;> cases hopens <;> rfl
  have hends : (state.onto sight start' after).token.isEndOrMalformed = false := by
    cases hopens <;> rfl
  have hlast : closing.token.isSign .parenClose = true := by
    rw [hclose]
    rfl
  have hitems : commaList (fuel + 1) .parenClose (do
        if ← atSign .ellipsis then spread (read (fuel + 1)) else read (fuel + 1) (.assignment true))
      (state.onto sight start' after) = .done ([value], none) closing := by
    simp [commaList, listFrom, hsign, hends, hvalue, hlast, -ReaderState.onto_token]
  have hwithin := @within_of_done _ (state.onto sight start' after) _
    ({ · with allowsIn := true, decorates := false }) _ _ houter.enclosed hcontext hitems
  refine ⟨Node.mk .list state.token.start closing.token.stop [value], ?_, by
    simp [hplain, Kind.unplaced]; rfl⟩
  simp [callArguments, expect_eq hfirst hopen, hwithin, expect_eq hnext hclose]

theorem Chains.call {items : Node} {middle : ReaderState}
    (hobject : object.kind ≠ .instantiation)
    (hopen : state.token = (Sight.sign .parenOpen).token start stop)
    (hitems : Gives (callArguments (read fuel) fuel) state items middle)
    (hrest : Chains fuel count middle (.of (.call false false) [object, .absent, items]) node
      later) : Chains fuel (count + 1) state object node later := by
  intro from_ left hleft
  obtain ⟨value, hvalue, hplain⟩ := hitems
  have hcall : callOf (read fuel) fuel from_ false left Node.absent = (do
      let items ← callArguments (read fuel) fuel
      finish (.call false false) from_ [left, Node.absent, items]) := by
    unfold callOf
    split
    · rw [← hleft] at hobject
      exact absurd rfl hobject
    · rfl
  obtain ⟨tree, hlinks, htree⟩ := hrest from_
    (Node.mk (.call false false) from_ middle.lastStop [left, .absent, value])
    (by simp [hleft, hplain, Kind.unplaced])
  refine ⟨tree, ?_, htree⟩
  rw [links, ← hlinks]
  simp [nextLink, hopen, hcall, hvalue]

theorem Gives.leftSide {base : Node} {middle : ReaderState}
    (hbase : primary (read (fuel + 1)) (fuel + 1) (fuel + 1) state = .done base middle)
    (hchains : Chains (fuel + 1) (fuel + 1) middle base.unplaced node later) :
    Gives (leftSide (read (fuel + 1)) (fuel + 1)) state node later := by
  obtain ⟨tree, hlinks, htree⟩ := hchains state.token.start base rfl
  exact ⟨tree, by simp [Parser.leftSide, hbase, hlinks], htree⟩

/-- No operator stands before an operand or behind it. -/
theorem Gives.unary (htoken : state.token = sight.token start stop) (hopens : sight.Opens)
    (hlater : later.token = sight'.token start' stop') (hends : sight'.Ends)
    (h : Gives (Parser.leftSide parts fuel) state node later) :
    Gives (Parser.unary parts fuel) state node later := by
  obtain ⟨tree, hrun, htree⟩ := h
  have hupdate : UpdateOp.ofToken? state.token = none := by
    rw [htoken]
    cases hopens <;> rfl
  have hbehind : UpdateOp.ofToken? later.token = none := by
    rw [hlater]
    rcases hends with ⟨⟨⟨⟩⟩ | _⟩ | _ <;> rfl
  have hcounted : counted parts fuel state = .done tree later := by
    simp [counted, hupdate, hrun, hbehind]
  have hop : UnaryOp.ofToken? state.token = none := by
    rw [htoken]
    cases hopens <;> rfl
  have hawait : atAwait state = .done false state := by
    have hword : state.token.isWord .await_ = false := by
      rw [htoken]
      cases hopens <;> rfl
    simp [atAwait, hword]
  have hless : state.token.isSign .less = false := by
    rw [htoken]
    cases hopens <;> rfl
  exact ⟨tree, by simp [Parser.unary, hop, hawait, hless, hcounted], htree⟩

theorem operations_eq {above : Precedence} {place : Nat} {tree : Node}
    (htoken : state.token = sight.token start stop) (hstops : sight.Stops) :
    operations parts fuel above place (count + 1) tree state = .done tree state := by
  have hjoin : joinGreater state = .done () state := by
    have hgreater : state.token.isSign .greater = false := by
      rw [htoken]
      rcases hstops with ⟨⟨⟩⟩ | _ <;> rfl
    simp [joinGreater, hgreater]
  have hop : BinaryOp.ofToken? state.token = none := by
    rw [htoken]
    rcases hstops with ⟨⟨⟩⟩ | _ <;> rfl
  have hword (word : Word) : state.token.isWord word = false := by
    rw [htoken]
    rcases hstops with ⟨⟨⟩⟩ | _ <;> rfl
  simp [operations, hjoin, hop, hword]

/-- An operand alone is an expression of operators. -/
theorem Gives.binary {above : Precedence} (htoken : state.token = sight.token start stop)
    (hopens : sight.Opens) (hlater : later.token = sight'.token start' stop')
    (hstops : sight'.Stops)
    (h : Gives (Parser.leftSide (read (fuel + 1)) (fuel + 1)) state node later) :
    Gives (read (fuel + 2) (.binary above)) state node later := by
  obtain ⟨tree, hunary, htree⟩ := h.unary htoken hopens hlater (.of_stops hstops)
  have hoperations := @operations_eq later sight' start' stop' (read (fuel + 1)) (fuel + 1) fuel
    above start tree hlater hstops
  have hmark : state.token.effectFreeCall = false := by rw [htoken]; rfl
  have hstart : state.token.start = start := by rw [htoken]; rfl
  refine ⟨tree, ?_, htree⟩
  change Parser.binary (read (fuel + 1)) (fuel + 1) above state = .done tree later
  have hkind : state.token.kind = sight.kind := by rw [htoken]; rfl
  cases hopens <;> simp [Parser.binary, hkind, hunary, hmark, hoperations, hstart]

/-! ### Expressions and statements -/

/-- What begins with an operand is no arrow function. -/
theorem Gives.assignment {resultTypes : Bool} {left : Node} {middle : ReaderState}
    (htoken : state.token = sight.token start stop) (hopens : sight.Opens)
    (hparen : sight.kind ≠ .sign .parenOpen)
    (hleft : Gives (read fuel (.binary .comma)) state left middle)
    (hrest : ∀ tree : Node, tree.unplaced = left →
      Gives (assignmentRest (read fuel) fuel resultTypes start tree) middle node later) :
    Gives (read (fuel + 1) (.assignment resultTypes)) state node later := by
  have hword (word : Word) (h : word = .yield_ ∨ word = .async_) :
      state.token.isWord word = false := by
    rw [htoken]
    rcases h with rfl | rfl <;> cases hopens <;> rfl
  have hyield : atYield state = .done false state := by simp [atYield, hword]
  have hasync : atAsyncArrow state = .done false state := by simp [atAsyncArrow, hword]
  have hsign : state.token.isSign .parenOpen = false ∧ state.token.isSign .less = false := by
    rw [htoken]
    cases hopens <;> first | exact absurd rfl hparen | exact ⟨rfl, rfl⟩
  have hguess : guessArrow state = .done .no state := by
    simp [guessArrow, hword, hsign]
  have harrow : arrowFunction? (read fuel) fuel resultTypes state = .done none state := by
    simp [arrowFunction?, hguess]
  have hmark : state.token.effectFreeCall = false ∧ state.token.effectFreeFunction = false ∧
      state.token.start = start := by
    rw [htoken]
    exact ⟨rfl, rfl, rfl⟩
  obtain ⟨first, hfirst, hplain⟩ := hleft
  obtain ⟨tree, hrun, htree⟩ := hrest first hplain
  refine ⟨tree, ?_, htree⟩
  change Parser.assignment (read fuel) fuel resultTypes state = .done tree later
  simp [Parser.assignment, hyield, harrow, hasync, hmark, hfirst, hrun]

theorem Gives.value {resultTypes : Bool} (htoken : state.token = sight.token start stop)
    (hopens : sight.Opens) (hparen : sight.kind ≠ .sign .parenOpen)
    (hlater : later.token = sight'.token start' stop') (hcloses : sight'.Closes)
    (h : Gives (Parser.leftSide (read (fuel + 1)) (fuel + 1)) state node later) :
    Gives (read (fuel + 3) (.assignment resultTypes)) state node later := by
  refine Gives.assignment htoken hopens hparen
    (h.binary htoken hopens hlater (.of_closes hcloses)) fun tree htree => ⟨tree, ?_, htree⟩
  rw [assignmentRest]
  cases hcloses <;> simp [hlater, AssignOp.ofToken?, Token.sign?, Token.isSign]

/-- A member is assigned. -/
theorem Gives.assign {resultTypes : Bool} {place value : Node} {middle : ReaderState}
    {next : Nat}
    (htoken : state.token = sight.token start stop) (hopens : sight.Opens)
    (hparen : sight.kind ≠ .sign .parenOpen)
    (hmember : place.kind = .member false)
    (hplace : Gives (Parser.leftSide (read (fuel + 1)) (fuel + 1)) state place middle)
    (hequal : middle.token = (Sight.sign .equal).token start' stop')
    (hnext : Meets middle.cursor sight' next after)
    (hvalue : Gives (read (fuel + 2) (.assignment resultTypes)) (middle.onto sight' next after)
      value later) :
    Gives (read (fuel + 3) (.assignment resultTypes)) state
      (.of (.assign .plain) [place, value]) later := by
  refine Gives.assignment htoken hopens hparen
    (hplace.binary htoken hopens hequal (.equal false)) fun left hleft => ?_
  obtain ⟨tree, hrun, htree⟩ := hvalue
  have hkind : left.kind = .member false :=
    (Node.kind_eq_of_unplaced hleft (by rw [hmember]; rfl)).trans hmember
  have htarget : target left = pure left := by
    obtain ⟨kind, first, last, ⟨⟩, children⟩ := left
    obtain rfl : kind = .member false := hkind
    rw [target, placeTarget] <;> simp [isPlace]
  refine ⟨Node.mk (.assign .plain) start later.lastStop [left, tree], ?_, by
    simp [hleft, htree, Kind.unplaced]⟩
  have hadvance := advance_eq hnext (by rw [hequal]; rfl)
  simp [assignmentRest, hequal, AssignOp.ofToken?, Token.sign?, Token.isSign, hkind, htarget,
    hadvance, hrun]

/-- An expression and the semicolon behind it. -/
theorem Gives.expressionStatement (h : Gives (read fuel (.assignment true)) state node later)
    (hsemicolon : later.token = (Sight.sign .semicolon).token start stop)
    (hnext : Meets later.cursor sight start' after) :
    Gives (Parser.expressionStatement (read (fuel + 1))) state (.of .expressionStatement [node])
      (later.onto sight start' after) := by
  obtain ⟨tree, hrun, htree⟩ := h
  have hexpression : read (fuel + 1) .expression state = .done tree later := by
    change Parser.expression (read fuel) fuel state = .done tree later
    simp [Parser.expression, hrun, hsemicolon, Token.isSign, Token.sign?]
  have hadvance := advance_eq hnext (by rw [hsemicolon]; rfl)
  refine ⟨Node.mk .expressionStatement state.token.start stop [tree], ?_, by
    simp [htree, Kind.unplaced]⟩
  simp [Parser.expressionStatement, hexpression, semicolon, mayEnd, eat, hsemicolon,
    hadvance, Token.isSign, Token.sign?]

/-- A statement that begins with `module` is an expression. -/
theorem Gives.statement {alone : Bool}
    (htoken : state.token = Sight.token (.word text .module_) start stop)
    (hdialect : state.dialect.typed = false)
    (h : Gives (Parser.expressionStatement (read fuel)) state node later) :
    Gives (read (fuel + 1) (.statement alone)) state node later := by
  obtain ⟨tree, hrun, htree⟩ := h
  refine ⟨tree, ?_, htree⟩
  change Parser.statement (read fuel) fuel alone state = .done tree later
  have htyped : atTypedDeclaration fuel state = .done false state := by
    simp [atTypedDeclaration, hdialect]
  have hmark : state.token.effectFreeFunction = false := by rw [htoken]; rfl
  have hplain : plainStatement (read fuel) fuel alone state = .done tree later := by
    simp [plainStatement, htoken, htyped, hrun]
  simp [Parser.statement, hplain, hmark]

end Operands

end Parser

/-! ### Programs -/

/-- From a place on some tokens are scanned one after another, with nothing but blanks before
them. -/
def MeetsAll : List Sight → Cursor → Cursor → Prop
  | [], cursor, after => cursor = after
  | sight :: more, cursor, after =>
    ∃ start middle, Meets cursor sight start middle ∧ MeetsAll more middle after

theorem MeetsAll.append {sights more : List Sight} {cursor middle after : Cursor}
    (h : MeetsAll sights cursor middle) (hmore : MeetsAll more middle after) :
    MeetsAll (sights ++ more) cursor after := by
  induction sights generalizing cursor with
  | nil => exact (show cursor = middle from h) ▸ hmore
  | cons sight sights ih =>
      obtain ⟨start, next, hfirst, hrest⟩ := h
      exact ⟨start, next, hfirst, ih hrest⟩

theorem exists_meetsAll_plain {count : Nat} {text rest : List Char} {sights : List Sight}
    (h : plainTokens count text = (sights, rest)) (more : List Char) (offset : Nat) :
    ∃ stop, MeetsAll sights ⟨text ++ more, offset⟩ ⟨rest ++ more, stop⟩ := by
  induction count generalizing text sights offset with
  | zero =>
      obtain ⟨rfl, rfl⟩ := Prod.mk.inj h
      exact ⟨offset, rfl⟩
  | succ count ih =>
      rw [plainTokens] at h
      split at h
      · rename_i sight middle hfirst
        obtain ⟨rfl, hmiddle⟩ := Prod.mk.inj h
        obtain ⟨start, stop, hmeets⟩ := leads_of_plainToken hfirst more offset
        obtain ⟨last, hrest⟩ := ih (Prod.ext rfl hmiddle) stop
        exact ⟨last, start, _, hmeets, hrest⟩
      · obtain ⟨rfl, rfl⟩ := Prod.mk.inj h
        exact ⟨offset, rfl⟩

/-- A string literal is met before the rest of the text. -/
theorem exists_meets_string {part rest : List Char} {text : String}
    (hadds : Adds part ('"' :: rest) (text.toList.map Unit16.char)) (offset : Nat) :
    ∃ raw start stop,
      Meets ⟨'"' :: part ++ '"' :: rest, offset⟩ ⟨.string text raw false, false⟩ start
        ⟨rest, stop⟩ := by
  obtain ⟨start, hgap⟩ :=
    @exists_scanLexeme_gap [] (part ++ '"' :: rest) '"' (by decide) rfl offset
  obtain ⟨raw, stop, hstring⟩ := scanToken_of_adds hadds start
  refine ⟨raw, start, stop, fun place => (hgap place).trans ?_⟩
  rw [List.cons_append] at hstring
  rw [hstring]
  rfl

namespace Program

open Script.Parser

variable {source : List Char} {text : String} {start : Nat} {after : Cursor} {node : Node}
  {later : ReaderState}

/-- The state of a reader of a plain text in front of its first token. -/
def opening (sight : Sight) (start : Nat) (after : Cursor) : ReaderState where
  dialect := .plain
  cursor := after
  token := sight.token start after.offset
  lastStop := 0
  context := atTop
  comments := []
  tokenFaults := []
  faults := []
  openDefaults := []
  scriptFaults := []
  moduleFaults := []
  firstComment := none
  hasModuleSyntax := false
  noArrows := []

@[simp]
theorem opening_token (sight : Sight) (start : Nat) (after : Cursor) :
    (opening sight start after).token = sight.token start after.offset := rfl

theorem run_opening (hplain : splitHashbang source = (none, ⟨source, 0⟩)) {sight : Sight}
    (hfirst : Meets ⟨source, 0⟩ sight start after) :
    run .plain false source =
      program (Parser.read (depth source)) (depth source) none (opening sight start after) := by
  simp only [run, hplain, hfirst _]
  rfl

/-- A text of a single statement that begins with `module`. -/
theorem read_of_gives {afterBreak : Bool}
    (hplain : splitHashbang source = (none, ⟨source, 0⟩))
    (hfirst : Meets ⟨source, 0⟩ (.word text .module_) start after)
    (h : Gives (Parser.read (depth source) (.statement false))
      (opening (.word text .module_) start after) node later)
    (hlater : At atTop [.token ⟨.endOfText, afterBreak⟩] later) (hcomments : later.comments = [])
    (hkind : node.kind = .expressionStatement) (hdirective : NoDirective [node]) :
    ∃ program, read .plain source = .ok program ∧ program.comments = [] ∧
      program.tree.unplaced = .of (.program none) [node] := by
  obtain ⟨fuel, hfuel⟩ : ∃ fuel, depth source = fuel + 2 :=
    Nat.exists_eq_add_of_le' (by unfold depth; omega)
  obtain ⟨tree, hrun, htree⟩ := h
  have htrees : [tree].map Node.unplaced = [node] := by rw [List.map_singleton, htree]
  have hmany : many (fuel + 2) (topItem (fuel + 2)) (opening (.word text .module_) start after) =
      .done [tree] later := by
    obtain ⟨_, _, hend⟩ := hlater.token
    rw [hfuel] at hrun
    simp [many, repeatFrom, topItem, hend, hrun]
  have hprogram : run .plain false source =
      .done (Node.mk (.program none) 0 later.token.start [tree]) later := by
    rw [run_opening hplain hfirst, hfuel]
    have hmark : markDirectives [tree] = [tree] := markDirectives_eq htrees hdirective
    change (many (fuel + 2) (topItem (fuel + 2)) >>= fun statements => do
      let stop ← here
      return Node.mk (.program none) 0 stop (markDirectives statements)) _ = _
    simp [hmany, hmark]
  have hexports : ExportedName.faults
      (Node.mk (.program none) 0 later.token.start [tree]).children = [] :=
    exportFaults_expression ((Node.kind_eq_of_unplaced htree (by rw [hkind]; rfl)).trans hkind)
  refine ⟨⟨Node.mk (.program none) 0 later.token.start [tree], []⟩, ?_, rfl,
    by simp [htree, Kind.unplaced]⟩
  have hok : ofReading (.done (Node.mk (.program none) 0 later.token.start [tree]) later) =
      .ok ⟨Node.mk (.program none) 0 later.token.start [tree], []⟩ := by
    rw [ofReading_done hlater hexports, hcomments]
    rfl
  rw [← hok]
  simp [read, show (Dialect.plain.kind == .module) = false from rfl, hprogram, hlater.isScript]

end Program

end Bundler.Script
