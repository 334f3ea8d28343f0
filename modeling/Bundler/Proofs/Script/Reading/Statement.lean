import Bundler.Proofs.Script.Reading.Function

/-! Reading statements, one rule for each kind that a bundle is written with, and the lists of them
that make up a block or the body of a function. -/

namespace Bundler.Script

namespace Parser

variable {outer : Context} {before after more middle : List Symbol} {sight sight' : Sight}
  {outcome : Outcome Node} {fuel count start : Nat} {node : Node}

section Rules

/-! ### Lists of statements -/

/-- A statement of a list, unless the list ends. -/
def statementItem (fuel : Nat) : Parser (Option Node) := do
  let current ← token
  match current.kind with
  | .sign .braceClose | .endOfText => return none
  | _ => some <$> read fuel (.statement false)

/-- A token that a statement of a bundle begins with. -/
inductive Starts : Sight → Prop where
  | name (text : String) (word : Option Word) (afterBreak : Bool) :
      Starts ⟨.name text word, afterBreak⟩
  | paren (afterBreak : Bool) : Starts ⟨.sign .parenOpen, afterBreak⟩

theorem runs_statementItem (hstarts : Starts sight)
    (h : Runs outer (read fuel (.statement false)) (.token sight :: more) (.tree after node)) :
    Runs outer (statementItem fuel) (.token sight :: more)
      (.goes after fun value => value.map Node.unplaced = some node) := by
  refine .token fun _ _ => ?_
  cases hstarts <;> exact h.bind fun value hvalue => .done (by simp [hvalue])

/-- From some symbols on there are some more statements. -/
def Series (outer : Context) (fuel count : Nat) (before after : List Symbol)
    (nodes : List Node) : Prop :=
  ∀ seen, Runs outer (repeatFrom (statementItem fuel) count seen) before
    (.goes after fun values => values.map Node.unplaced = (seen.map Node.unplaced).reverse ++ nodes)

theorem series_end {afterBreak : Bool} :
    Series outer fuel (count + 1) (.token ⟨.sign .braceClose, afterBreak⟩ :: more)
      (.token ⟨.sign .braceClose, afterBreak⟩ :: more) [] :=
  fun _ => Runs.known none (.token fun _ _ => .done rfl) (.done (by simp))

theorem Series.cons {nodes : List Node} (hstarts : Starts sight)
    (h : Runs outer (read fuel (.statement false)) (.token sight :: more) (.tree middle node))
    (hrest : Series outer fuel count middle after nodes) :
    Series outer fuel (count + 1) (.token sight :: more) after (node :: nodes) := by
  intro seen
  refine (runs_statementItem hstarts h).bind fun value hvalue => ?_
  obtain ⟨found, rfl, hfound⟩ := Option.map_eq_some_iff.mp hvalue
  simpa [hfound] using hrest (found :: seen)

/-- Statements that do not begin with a string alone. -/
def NoDirective (statements : List Node) : Prop :=
  ∀ first ∈ statements.head?, first.kind = .expressionStatement →
    ∀ inner ∈ first.children, ∀ value raw lone, inner.kind ≠ .string value raw lone

theorem NoDirective.of_kind {first : Node} {rest : List Node}
    (h : first.kind ≠ .expressionStatement) : NoDirective (first :: rest) := by
  intro _ hfirst hkind
  obtain rfl := Option.some.inj hfirst
  exact absurd hkind h

theorem noDirective_expression {inner : Node} {rest : List Node}
    (h : ∀ value raw lone, inner.kind ≠ .string value raw lone) :
    NoDirective (.of .expressionStatement [inner] :: rest) := by
  intro _ hfirst _ _ hinner
  obtain rfl := Option.some.inj hfirst
  obtain rfl := List.mem_singleton.mp hinner
  exact h

theorem markDirectives_eq {values statements : List Node}
    (hvalues : values.map Node.unplaced = statements) (h : NoDirective statements) :
    markDirectives values = values := by
  subst hvalues
  unfold markDirectives
  split
  · exact absurd rfl (h _ rfl rfl _ List.mem_cons_self _ _ _)
  · rfl

/-- Statements between braces are the body of a function. -/
theorem runs_functionBody {statements : List Node} {afterBreak afterBreak' : Bool}
    (hlist : Series (insideFunction false false outer) fuel fuel (.token sight :: more)
      (.token ⟨.sign .braceClose, afterBreak'⟩ :: .token sight' :: after) statements)
    (hplain : NoDirective statements) :
    Runs outer (functionBody (read fuel) fuel false false)
      (.token ⟨.sign .braceOpen, afterBreak⟩ :: .token sight :: more)
      (.tree (.token sight' :: after) (.of .functionBody statements)) := by
  refine .here fun _ => .expect rfl fun _ => (Runs.within (hlist [])).bind fun values hvalues => ?_
  refine .expect rfl fun _ => runs_finish ?_
  rw [markDirectives_eq hvalues hplain, hvalues]
  rfl

/-! ### Kinds of statements -/

theorem runs_statement {alone : Bool}
    (h : Runs outer (plainStatement (read fuel) fuel alone) (.token sight :: more) outcome) :
    Runs outer (read (fuel + 1) (.statement alone)) (.token sight :: more) outcome := by
  exact .token fun _ _ => h.returned fun _ => rfl

theorem runs_semicolon {afterBreak : Bool} :
    Runs outer semicolon (.token ⟨.sign .semicolon, afterBreak⟩ :: .token sight :: after)
      (.goes (.token sight :: after) (· = ())) :=
  .token fun _ _ => .pos (Bool.or_true _) <| .eat rfl <| .done rfl

theorem Runs.semicolon {β : Type} {next : Unit → Parser β} {outcome : Outcome β} {afterBreak : Bool}
    (h : Runs outer (next ()) (.token sight :: after) outcome) :
    Runs outer (Parser.semicolon >>= next)
      (.token ⟨.sign .semicolon, afterBreak⟩ :: .token sight :: after) outcome :=
  runs_semicolon.bind fun _ _ => h

/-- An expression with a semicolon behind it. -/
theorem runs_expressionStatement {afterBreak : Bool}
    (h : Runs outer (read fuel .expression) before
      (.tree (.token ⟨.sign .semicolon, afterBreak⟩ :: .token sight :: after) node)) :
    Runs outer (expressionStatement (read fuel)) before
      (.tree (.token sight :: after) (.of .expressionStatement [node])) := by
  refine .here fun _ => h.bind fun value hvalue => .atSign ?_
  split
  · rename_i hcolon
    cases hcolon
  · exact .semicolon <| runs_finish (by simp [hvalue, Kind.unplaced])

theorem not_mayEnd (hbegins : sight.Begins) (hbreak : sight.afterBreak = false) (start stop : Nat) :
    ¬ mayEnd (sight.token start stop) = true := by
  rcases hbegins with ⟨⟨⟩⟩ | _ <;> cases hbreak <;> nofun

theorem runs_return {keyword : String} {afterBreak afterBreak' : Bool} (houter : Ordinary outer)
    (hreturns : outer.returns = true) (hbegins : sight.Begins) (hbreak : sight.afterBreak = false)
    (h : Runs outer (read fuel .expression) (.token sight :: more)
      (.tree (.token ⟨.sign .semicolon, afterBreak'⟩ :: .token sight' :: after) node)) :
    Runs outer (read (fuel + 1) (.statement false))
      (.token ⟨.name keyword (some .return_), afterBreak⟩ :: .token sight :: more)
      (.tree (.token sight' :: after) (.of .return_ [node])) := by
  refine runs_statement <| .here fun _ => .token fun _ _ => .here fun _ => .context <|
    .neg (by simp [hreturns]) <| .advance fun _ => .token fun _ _ =>
    .neg (not_mayEnd hbegins hbreak _ _) ?_
  refine (Runs.within (houter.inside ▸ h)).bind fun value hvalue => .semicolon ?_
  exact runs_finish (by simp [hvalue, Kind.unplaced])

theorem runs_throw {keyword : String} {afterBreak afterBreak' : Bool}
    (hbreak : sight.afterBreak = false)
    (h : Runs outer (read fuel .expression) (.token sight :: more)
      (.tree (.token ⟨.sign .semicolon, afterBreak'⟩ :: .token sight' :: after) node)) :
    Runs outer (read (fuel + 1) (.statement false))
      (.token ⟨.name keyword (some .throw_), afterBreak⟩ :: .token sight :: more)
      (.tree (.token sight' :: after) (.of .throw_ [node])) := by
  refine runs_statement <| .here fun _ => .token fun _ _ => .here fun _ => .advance fun _ =>
    .token fun _ _ => .neg (by simp [Sight.token, hbreak]) ?_
  refine h.bind fun value hvalue => .semicolon ?_
  exact runs_finish (by simp [hvalue, Kind.unplaced])

/-- Statements between braces. -/
theorem runs_block {statements : List Node} {alone afterBreak afterBreak' : Bool}
    (hlist : Series outer fuel fuel (.token sight :: more)
      (.token ⟨.sign .braceClose, afterBreak'⟩ :: .token sight' :: after) statements) :
    Runs outer (read (fuel + 1) (.statement alone))
      (.token ⟨.sign .braceOpen, afterBreak⟩ :: .token sight :: more)
      (.tree (.token sight' :: after) (.of .block statements)) := by
  refine runs_statement <| .here fun _ => .token fun _ _ => .here fun _ => .expect rfl fun _ => ?_
  refine (hlist []).bind fun values hvalues => .expect rfl fun _ => ?_
  exact runs_finish (by rw [hvalues]; rfl)

/-- A statement under a condition, without another choice. -/
theorem runs_if {keyword : String} {afterBreak afterBreak' : Bool} {test consequent : Node}
    {sight'' : Sight} (houter : Ordinary outer)
    (htest : Runs outer (read fuel .expression) (.token sight :: more)
      (.tree (.token ⟨.sign .parenClose, afterBreak'⟩ :: .token sight' :: middle) test))
    (hconsequent : Runs outer (read fuel (.statement true)) (.token sight' :: middle)
      (.tree (.token sight'' :: after) consequent))
    (helse : (sight''.token 0 0).isWord .else_ = false) :
    Runs outer (read (fuel + 1) (.statement false))
      (.token ⟨.name keyword (some .if_), afterBreak⟩ :: .sign .parenOpen :: .token sight :: more)
      (.tree (.token sight'' :: after) (.of .if_ [test, consequent, .absent])) := by
  refine runs_statement <| .here fun _ => .token fun _ _ => .here fun _ => .advance fun _ => ?_
  refine Runs.bind (?_ : Runs _ _ _ (.tree (.token sight' :: middle) test))
    fun value hvalue => ?_
  · refine .expect rfl fun _ => (Runs.within (houter.inside ▸ htest)).bind fun value hvalue => ?_
    exact .expect rfl fun _ => .done hvalue
  · refine hconsequent.bind fun body hbody => .notEatWord helse <| .neg Bool.false_ne_true ?_
    refine Runs.known Node.absent (.done rfl) ?_
    exact runs_finish (by simp [hvalue, hbody, Kind.unplaced])

/-- A function that is declared. -/
theorem runs_functionStatement {text keyword : String} {afterBreak : Bool} {inputs body : Node}
    (houter : Ordinary outer)
    (hinputs : Runs (Context.inParameters outer) (parameters (read fuel) fuel .other)
      (.sign .parenOpen :: more) (.tree (.sign .braceOpen :: middle) inputs))
    (hbody : Runs outer (functionBody (read fuel) fuel false false)
      (.sign .braceOpen :: middle) (.tree after body)) :
    Runs outer (read (fuel + 1) (.statement false))
      (.token ⟨.name keyword (some .function_), afterBreak⟩ :: .name text :: .sign .parenOpen ::
        more)
      (.tree after (.of (.function (plainShape false))
        [.of (.name text) [], .absent, inputs, .absent, body])) := by
  refine runs_statement <| .here fun _ => .token fun _ _ => .here fun start => ?_
  refine Runs.bind (?_ : Runs _ _ _ (.tree after (.of (.function (plainShape false))
    [.of (.name text) [], .absent, inputs, .absent, body]))) fun value hvalue => ?_
  · refine runs_function_of_rest [.name text] (.inr ⟨text, rfl, rfl⟩) fun left hleft => ?_
    refine runs_functionRest hleft houter hinputs fun left inner hleft hinner => ?_
    exact hbody.bind fun value hvalue =>
      runs_finish (by simp [hleft, hinner, hvalue, Kind.unplaced])
  · split
    · exact .neg Bool.false_ne_true <| .done hvalue
    · exact .done hvalue

/-! ### Declarations of variables -/

/-- A name that is declared with a value. -/
theorem runs_declarator_of_value {text : String} {word : Option Word}
    {afterBreak afterBreak' : Bool} (hword : word = none ∨ word = some .module_)
    (h : ∀ start (place : Node), place.unplaced = .of (.name text) [] →
      Runs outer (read (fuel + 1) (.assignment true) >>= fun value =>
        finish .declarator start [place, value]) (.token sight :: more) outcome) :
    Runs outer (declarator (read (fuel + 1))) (.token ⟨.name text word, afterBreak⟩ ::
      .token ⟨.sign .equal, afterBreak'⟩ :: .token sight :: more) outcome := by
  refine .here fun start => (runs_pattern hword).bind fun place hplace => .dialect ?_
  refine .token fun _ _ => .neg Bool.false_ne_true <| Runs.known false (.done rfl) ?_
  refine Runs.known place (runs_noType.known _ <| .pos rfl <| .done rfl) ?_
  exact .assoc <| .eat rfl <| h start place hplace

theorem isAbsent_unplaced (node : Node) : node.unplaced.isAbsent = node.isAbsent := by
  obtain ⟨kind, start, stop, ⟨⟩, children⟩ := node
  cases kind <;> rfl

theorem runs_checkValues {found place value : Node}
    (hfound : found.unplaced = .of .declarator [place, value]) (hvalue : value.isAbsent = false) :
    Runs outer (checkValues false "var" [found]) before (.goes before (· = ())) := by
  have hkind : found.kind = .declarator := Node.kind_eq_of_unplaced hfound rfl
  have hchildren : found.children.map Node.unplaced = [place, value] := by
    rw [← Node.children_unplaced, hfound]
    rfl
  obtain ⟨kind, start, stop, ⟨⟩, children⟩ := found
  obtain rfl : kind = .declarator := hkind
  obtain ⟨left, rest, rfl, -, hrest⟩ := List.map_eq_cons_iff.mp hchildren
  obtain ⟨right, rfl, hright⟩ := List.map_eq_singleton_iff.mp hrest
  have hpresent : right.isAbsent = false := by rw [← isAbsent_unplaced, hright, hvalue]
  have hresources : usesResources "var" = false := by decide
  unfold checkValues
  exact .neg (by simp [hresources]) <| .neg (by simp [hpresent]) <| .done rfl

theorem runs_declarators {shape : DeclarationShape} {declared : Node} {afterBreak : Bool}
    (h : Runs outer (declarator (read fuel)) before
      (.tree (.token ⟨.sign .semicolon, afterBreak⟩ :: after) declared)) :
    Runs outer (declarators (read fuel) (count + 1) shape start) before
      (.goes (.token ⟨.sign .semicolon, afterBreak⟩ :: after) fun found => ∃ stop inner,
        found = Node.mk (.declaration shape) start stop [inner] ∧ inner.unplaced = declared) := by
  refine h.bind fun inner hinner => Runs.known [] ?_ ?_
  · exact Runs.known none (.notEat rfl <| .neg Bool.false_ne_true <| .done rfl) (.done rfl)
  · exact fun _ hat => ⟨hat, _, inner, rfl, hinner⟩

/-- A declaration of one variable with a value. -/
theorem runs_var {text keyword : String} {word : Option Word} {value : Node}
    {b₀ b₁ b₂ b₃ : Bool} (houter : Ordinary outer)
    (hword : word = none ∨ word = some .module_) (habsent : value.isAbsent = false)
    (h : Runs outer (read (fuel + 1) (.assignment true)) (.token sight :: more)
      (.tree (.token ⟨.sign .semicolon, b₃⟩ :: .token sight' :: after) value)) :
    Runs outer (read (fuel + 2) (.statement false))
      (.token ⟨.name keyword (some .var_), b₀⟩ :: .token ⟨.name text word, b₁⟩ ::
        .token ⟨.sign .equal, b₂⟩ :: .token sight :: more)
      (.tree (.token sight' :: after) (.of (.declaration ⟨"var", false⟩)
        [.of .declarator [.of (.name text) [], value]])) := by
  refine runs_statement <| .here fun start => .token fun _ _ => .advance fun _ => ?_
  refine .neg (by simp) ?_
  have hdeclarator : Runs outer (declarator (read (fuel + 1)))
      (.token ⟨.name text word, b₁⟩ :: .token ⟨.sign .equal, b₂⟩ ::
        .token sight :: more)
      (.tree (.token ⟨.sign .semicolon, b₃⟩ :: .token sight' :: after)
        (.of .declarator [.of (.name text) [], value])) :=
    runs_declarator_of_value hword fun start place hplace => h.bind fun right hright =>
      runs_finish (by simp [hplace, hright, Kind.unplaced])
  have hsame : { outer with declares := outer.declares || false } = outer := by simp
  refine Runs.bind (.within (hsame ▸ runs_declarators hdeclarator)) ?_
  rintro _ ⟨stop, inner, rfl, hinner⟩
  refine .context <| .pos (by simp [houter.declares]) ?_
  refine (runs_checkValues hinner habsent).known _ <| .semicolon <| .neg (by simp) ?_
  exact runs_finish (by simp [hinner, Kind.unplaced])

end Rules

end Parser

end Bundler.Script
