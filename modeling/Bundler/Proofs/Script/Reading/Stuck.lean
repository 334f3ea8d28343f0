import Bundler.Proofs.Script.Reading.Statement

/-! Readers that cannot go on. No statement begins with a malformed token, and what fails inside
a list, an object, a function or a declaration fails as a whole. -/

namespace Bundler.Script

namespace Parser

variable {α β : Type}

/-- In front of a malformed token a reader fails. -/
def Stuck (parser : Parser α) : Prop :=
  ∀ state, state.token.kind = .malformed → ∃ place later, parser state = .failed place later

namespace Stuck

variable {fuel : Nat}

theorem bind {parser : Parser α} {next : α → Parser β} (h : Stuck parser) :
    Stuck (parser >>= next) := by
  intro state hstate
  obtain ⟨place, later, hfailed⟩ := h state hstate
  exact ⟨place, later, bind_of_failed hfailed⟩

theorem look {look : ReaderState → α} {next : α → Parser β}
    (h : ∀ state, state.token.kind = .malformed → Stuck (next (look state))) :
    Stuck ((fun state => .done (look state) state : Parser α) >>= next) :=
  fun state hstate => h state hstate state hstate

theorem here {next : Nat → Parser β} (h : ∀ place, Stuck (next place)) :
    Stuck (Parser.here >>= next) :=
  look fun _ _ => h _

theorem token {next : Token → Parser β}
    (h : ∀ current : Token, current.kind = .malformed → Stuck (next current)) :
    Stuck (Parser.token >>= next) :=
  look fun _ hstate => h _ hstate

theorem context {next : Context → Parser β} (h : ∀ outer, Stuck (next outer)) :
    Stuck (Parser.context >>= next) :=
  look fun _ _ => h _

theorem dialect {next : Dialect → Parser β} (h : ∀ dialect, Stuck (next dialect)) :
    Stuck (Parser.dialect >>= next) :=
  look fun _ _ => h _

theorem known {parser : Parser α} {value : α} {next : α → Parser β}
    (h : ∀ state, state.token.kind = .malformed → parser state = .done value state)
    (hnext : Stuck (next value)) : Stuck (parser >>= next) := by
  intro state hstate
  rw [bind_of_done (h state hstate)]
  exact hnext state hstate

/-- A malformed token is no word, so a question that begins with one is answered with no. -/
theorem atWord {word : Word} {yes : Parser Bool} {next : Bool → Parser β} (h : Stuck (next false)) :
    Stuck ((do if ← Parser.atWord word then yes else return false) >>= next) := by
  refine known (fun state hstate => ?_) h
  have hword : state.token.isWord word = false := by
    simp [Token.isWord, Token.word?, hstate]
  rw [bind_of_done (show Parser.atWord word state = .done false state by rw [← hword]; rfl)]
  rfl

theorem unexpected : Stuck (Parser.unexpected : Parser α) := by
  intro state _
  unfold Parser.unexpected
  split <;> exact ⟨_, _, rfl⟩

theorem identifier : Stuck Parser.identifier := by
  refine token fun current hcurrent => ?_
  rw [if_neg (by simp [Token.isIdentifier, hcurrent])]
  exact unexpected

theorem primary {parts : Parts} {depth : Nat} : Stuck (Parser.primary parts fuel depth) := by
  cases depth with
  | zero => exact unexpected
  | succ depth =>
      rw [Parser.primary]
      refine token fun current hcurrent => ?_
      simp only [hcurrent]
      exact identifier

theorem unary {parts : Parts} : Stuck (Parser.unary parts fuel) := by
  refine here fun _ => token fun current hcurrent => ?_
  rw [show UnaryOp.ofToken? current = none by simp [UnaryOp.ofToken?, hcurrent]]
  refine atWord <| dialect fun _ => ?_
  rw [if_neg (by simp [Token.isSign, Token.sign?, hcurrent])]
  refine here fun _ => token fun current hcurrent => ?_
  rw [show UpdateOp.ofToken? current = none by simp [UpdateOp.ofToken?, hcurrent]]
  exact bind (here fun _ => bind primary)

theorem binary {above : Precedence} : Stuck (read fuel (.binary above)) := by
  cases fuel with
  | zero => exact unexpected
  | succ fuel =>
      refine here fun _ => token fun current hcurrent => context fun _ => ?_
      simp only [hcurrent]
      exact bind unary

theorem assignment {resultTypes : Bool} : Stuck (read fuel (.assignment resultTypes)) := by
  cases fuel with
  | zero => exact unexpected
  | succ fuel =>
      refine here fun _ => token fun current hcurrent => atWord ?_
      have hguess (state : ReaderState) (hstate : state.token.kind = .malformed) :
          arrowFunction? (read fuel) fuel resultTypes state = .done none state := by
        have hno : guessArrow state = .done .no state := by
          unfold guessArrow
          rw [if_neg (by simp [Token.isWord, Token.word?, Token.isSign, Token.sign?, hstate])]
        exact (bind_of_done hno).trans rfl
      exact known hguess <| atWord <| bind binary

theorem statement {alone : Bool} : Stuck (read fuel (.statement alone)) := by
  cases fuel with
  | zero => exact unexpected
  | succ fuel =>
      refine token fun _ _ => bind <| here fun _ => token fun current hcurrent => ?_
      simp only [hcurrent]
      refine here fun _ => bind ?_
      cases fuel with
      | zero => exact unexpected
      | succ fuel => exact here fun _ => bind assignment

theorem within {change : Context → Context} {parser : Parser α} (h : Stuck parser) :
    Stuck (within change parser) := by
  intro state hstate
  obtain ⟨place, later, hfailed⟩ := h { state with context := change state.context } hstate
  refine ⟨place, { later with context := state.context }, ?_⟩
  rw [Parser.within, hfailed]

theorem statementList {count : Nat} : Stuck (statementList (read fuel) (count + 1)) := by
  refine bind <| token fun current hcurrent => ?_
  simp only [hcurrent]
  exact bind statement

end Stuck

section Rules

variable {outer : Context} {before after more middle : List Symbol} {sight : Sight}
  {fuel count depth start : Nat} {node : Node}

/-! ### In front of what is no token -/

theorem Runs.expectWrong {sign : Sign} {next : Unit → Parser β}
    (hsign : (sight.token 0 0).isSign sign = true) (h : Stuck (next ())) :
    Runs outer (Parser.expect sign >>= next) (.token sight :: .wrong :: more) .fails := by
  intro state hat
  obtain ⟨start, stop, htoken⟩ := hat.token
  have hexpect : Parser.expect sign state = Parser.skip state := by
    have hat : Parser.atSign sign state = .done true state := by
      rw [← hsign]
      change Reading.done (state.token.isSign sign) state = _
      rw [htoken]
      rfl
    have htoken' : Parser.token state = .done (sight.token start stop) state := by
      rw [← htoken]
      rfl
    exact (bind_of_done hat).trans (bind_of_done htoken')
  have hskip : Parser.skip state = .done () (take { state with lastStop := state.token.stop }
      (scanLexeme (gapAfter state) state.cursor)) := rfl
  obtain ⟨place, later, hfailed⟩ := h (take { state with lastStop := state.token.stop }
    (scanLexeme (gapAfter state) state.cursor))
    (hat.spans (gapAfter state) state.cursor.offset)
  rw [bind_of_done (hexpect.trans hskip)]
  exact hfailed ▸ trivial

/-- The body of a function does not begin with what is no token. -/
theorem runs_functionBody_wrong {afterBreak : Bool} :
    Runs outer (functionBody (read (fuel + 1)) (fuel + 1) false false)
      (.token ⟨.sign .braceOpen, afterBreak⟩ :: .wrong :: more) .fails :=
  .here fun _ => .expectWrong rfl <| .bind <| .within .statementList

/-! ### A part that fails -/

theorem runs_leftSide_fails
    (h : Runs outer (primary (read fuel) fuel fuel) before .fails) :
    Runs outer (leftSide (read fuel) fuel) before .fails :=
  .here fun _ => h.stop

theorem runs_functionExpression_fails {text : String} {afterBreak : Bool} {inputs : Node}
    (houter : Ordinary outer)
    (hinputs : Runs (Context.inParameters outer) (parameters (read fuel) fuel .other)
      (.sign .parenOpen :: more) (.tree (.sign .braceOpen :: middle) inputs))
    (hbody : Runs outer (functionBody (read fuel) fuel false false)
      (.sign .braceOpen :: middle) .fails) :
    Runs outer (primary (read fuel) fuel (depth + 1))
      (.token ⟨.name text (some .function_), afterBreak⟩ :: .sign .parenOpen :: more) .fails := by
  rw [primary]
  refine .token fun _ _ => runs_function_of_rest [] (.inl ⟨rfl, rfl, rfl⟩) fun left hleft => ?_
  exact runs_functionRest hleft houter hinputs fun _ _ _ _ => hbody.stop

/-- From some symbols on an item of a list fails. -/
def ListFails (outer : Context) (close : Sign) (item : Parser Node) (count : Nat)
    (before : List Symbol) : Prop :=
  ∀ seen, Runs outer (listFrom close item count seen) before .fails

theorem listFails_item {close : Sign} {item : Parser Node} {afterBreak : Bool}
    (hcomma : close ≠ .comma) (hclose : (sight.token 0 0).isSign close = false)
    (hitem : Runs outer item (.token sight :: more) .fails) :
    ListFails outer close item (count + 1)
      (.token ⟨.sign .comma, afterBreak⟩ :: .token sight :: more) :=
  fun _ => runs_listFrom_cons hcomma hclose hitem.stop

theorem ListFails.cons {close : Sign} {item : Parser Node} {afterBreak : Bool}
    (hcomma : close ≠ .comma) (hclose : (sight.token 0 0).isSign close = false)
    (hitem : Runs outer item (.token sight :: more) (.tree middle node))
    (hrest : ListFails outer close item count middle) :
    ListFails outer close item (count + 1)
      (.token ⟨.sign .comma, afterBreak⟩ :: .token sight :: more) :=
  fun seen => runs_listFrom_cons hcomma hclose <| hitem.bind fun value _ => hrest (value :: seen)

theorem runs_primary_object_fails {afterBreak : Bool} (houter : Ordinary outer)
    (hitems : Runs outer (commaList fuel .braceClose (objectMember (read fuel) fuel))
      (.token sight :: more) .fails) :
    Runs outer (primary (read fuel) fuel (depth + 1))
      (.token ⟨.sign .braceOpen, afterBreak⟩ :: .token sight :: more) .fails := by
  rw [primary]
  refine .token fun _ _ => .here fun _ => .advance fun _ => ?_
  exact (Runs.within (houter.inside ▸ hitems)).stop

theorem runs_parenthesized_fails {afterBreak : Bool} (hopens : sight.Opens)
    (hclose : (sight.token 0 0).isSign .parenClose = false)
    (h : Runs { outer with allowsIn := true, decorates := false }
      (read fuel (.assignment true)) (.token sight :: more) .fails) :
    Runs outer (primary (read fuel) fuel (depth + 1))
      (.token ⟨.sign .parenOpen, afterBreak⟩ :: .token sight :: more) .fails := by
  rw [primary]
  refine .token fun _ _ => .here fun _ => .advance fun _ => .here fun _ => ?_
  exact (Runs.within (runs_commaList_of_item hopens hclose h.stop)).stop

theorem runs_var_fails {text keyword : String} {word : Option Word} {b₀ b₁ b₂ : Bool}
    (hword : word = none ∨ word = some .module_)
    (h : Runs outer (read (fuel + 1) (.assignment true)) (.token sight :: more) .fails) :
    Runs outer (read (fuel + 2) (.statement false))
      (.token ⟨.name keyword (some .var_), b₀⟩ :: .token ⟨.name text word, b₁⟩ ::
        .token ⟨.sign .equal, b₂⟩ :: .token sight :: more) .fails := by
  refine runs_statement <| .here fun start => .token fun _ _ => .advance fun _ => ?_
  refine .neg (by simp) ?_
  have hsame : { outer with declares := outer.declares || false } = outer := by simp
  have hdeclarators : Runs outer (declarators (read (fuel + 1)) (fuel + 1) ⟨"var", false⟩ start)
      (.token ⟨.name text word, b₁⟩ :: .token ⟨.sign .equal, b₂⟩ :: .token sight :: more)
      .fails := (runs_declarator_of_value hword fun _ _ _ => h.stop).stop
  refine (Runs.within ?_).stop
  rw [hsame]
  exact hdeclarators

theorem runs_functionBody_fails {afterBreak : Bool} (hstarts : Starts sight)
    (h : Runs (insideFunction false false outer) (read (fuel + 1) (.statement false))
      (.token sight :: more) .fails) :
    Runs outer (functionBody (read (fuel + 1)) (fuel + 1) false false)
      (.token ⟨.sign .braceOpen, afterBreak⟩ :: .token sight :: more) .fails := by
  refine .here fun _ => .expect rfl fun _ => (Runs.within (Runs.stop ?_)).stop
  refine .token fun _ _ => ?_
  cases hstarts <;> exact h.stop

end Rules

end Parser

end Bundler.Script
