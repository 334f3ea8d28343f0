import Bundler.Proofs.Script.Reading.Expression

/-! Reading functions: their parameters and their bodies, and texts that can be the body of one. -/

namespace Bundler.Script

namespace Parser

variable {outer : Context} {before after more middle : List Symbol} {sight sight' : Sight}
  {outcome : Outcome Node} {fuel : Nat}

/-- Statements in the body of a plain function. -/
def inBody : Context where
  allowsIn := true
  yields := false
  awaits := false
  returns := true
  decorates := false
  declares := false
  isTop := false
  conditionals := true

theorem ordinary_inBody : Ordinary inBody := ⟨rfl, rfl, rfl⟩

/-- A text that can be the body of a function: between the lines that a bundle puts around it, it is
read as statements up to the closing brace, whatever token follows. -/
def IsBody (code : List Char) (statements : List Node) : Prop :=
  ∀ fuel sight more, Program.depth code ≤ fuel →
    Runs inBody (functionBody (read fuel) fuel false false)
      (.sign .braceOpen :: .block code :: .token sight :: more)
      (.tree (.token sight :: more) (.of .functionBody statements))

section Rules

/-! ### Parameters -/

/-- A parameter that is no more than a name. -/
def parameterNode (text : String) : Node :=
  .of (.parameter none false false false) [.list [], .of (.name text) [], .absent, .absent]

theorem runs_noType : Runs outer ( typeAnnotation (read fuel)) (.token sight :: more)
    (.goes (.token sight :: more) (· = Node.absent)) :=
  .dialect <| .atSign <| .neg Bool.false_ne_true <| .done rfl

theorem runs_initializer_none (h : (sight.token 0 0).isSign .equal = false) :
    Runs outer (initializer (read fuel)) (.token sight :: more)
      (.goes (.token sight :: more) (· = Node.absent)) :=
  .notEat h <| .neg Bool.false_ne_true <| .done rfl

theorem runs_pattern {text : String} {word : Option Word} {afterBreak : Bool}
    (hword : word = none ∨ word = some .module_) :
    Runs outer (read (fuel + 1) .pattern)
      (.token ⟨.name text word, afterBreak⟩ :: .token sight :: after)
      (.tree (.token sight :: after) (.of (.name text) [])) := by
  refine .here fun _ => .notEat rfl <| .neg Bool.false_ne_true <| .notEat rfl <|
    .neg Bool.false_ne_true <| .token fun _ _ => .pos ?_ <| .context <| .dialect ?_
  · rcases hword with rfl | rfl <;> rfl
  · refine Runs.known () ?_ runs_leaf
    rcases hword with rfl | rfl <;> exact .done rfl

theorem runs_qualifiers {count : Nat} {text : String} {word : Option Word} {afterBreak : Bool}
    (hword : word = none ∨ word = some .module_) :
    Runs outer (qualifiers false false (count + 1) [])
      (.token ⟨.name text word, afterBreak⟩ :: more)
      (.goes (.token ⟨.name text word, afterBreak⟩ :: more) (· = [])) := by
  refine .token fun _ _ => ?_
  rcases hword with rfl | rfl
  · exact .done rfl
  · exact .foresee fun _ => .pos (by simp [Word.isModifier]) (.done rfl)

theorem runs_decorators_none (h : (sight.token 0 0).isSign .at = false) :
    Runs outer (decorators (read (fuel + 1)) (fuel + 1)) (.token sight :: more)
      (.goes (.token sight :: more) (· = Node.list [])) :=
  Runs.known []
    (Runs.known none (.atSign <| .neg (by simp [h]) <| .done rfl) (.done rfl)) (.done rfl)

theorem runs_parameter {owner : ParameterOwner} {text : String} {word : Option Word}
    {afterBreak : Bool} (hword : word = none ∨ word = some .module_)
    (hnext : (sight.token 0 0).isSign .equal = false) :
    Runs outer (parameter (read (fuel + 1)) (fuel + 1) owner)
      (.token ⟨.name text word, afterBreak⟩ :: .token sight :: after)
      (.tree (.token sight :: after) (parameterNode text)) := by
  refine .here fun start => .dialect <| (runs_decorators_none rfl).known _ ?_
  extract_lets jp
  have hjp (value : Unit) : Runs outer (jp value)
      (.token ⟨.name text word, afterBreak⟩ :: .token sight :: after)
      (.tree (.token sight :: after) (parameterNode text)) := by
    refine (runs_qualifiers hword).known _ <| Runs.known () (.done rfl) ?_
    refine .atSign <| .neg Bool.false_ne_true <| (runs_pattern hword).bind fun name hname => ?_
    refine .neg Bool.false_ne_true <| Runs.known false (.done rfl) ?_
    refine runs_noType.known _ ?_
    refine Runs.known Node.absent (.within (runs_initializer_none hnext)) ?_
    refine .neg Bool.false_ne_true <| Runs.known () (.done rfl) ?_
    exact runs_finish (by simp [hname, Kind.unplaced, accessOf, qualifiedBy]; rfl)
  split
  · exact Runs.known () (.done rfl) (hjp ())
  · exact hjp ()

/-- The item of a list of parameters, the place where the list begins being known. -/
theorem runs_parameters {owner : ParameterOwner} {inputs : List Node} {afterBreak : Bool}
    (hitems : ∀ item : Parser Node,
      (∀ (text : String) (word : Option Word) (afterBreak : Bool) (sight : Sight)
        (after : List Symbol), word = none ∨ word = some .module_ →
        (sight.token 0 0).isSign .equal = false →
        Runs outer item (.token ⟨.name text word, afterBreak⟩ :: .token sight :: after)
          (.tree (.token sight :: after) (parameterNode text))) →
      Runs outer (commaList (fuel + 1) .parenClose item) (.token sight :: more)
        (.items (.token ⟨.sign .parenClose, afterBreak⟩ :: .token sight' :: after) inputs false)) :
    Runs outer (parameters (read (fuel + 1)) (fuel + 1) owner)
      (.sign .parenOpen :: .token sight :: more)
      (.tree (.token sight' :: after) (.of .parameters inputs)) := by
  refine .here fun _ => .expect rfl fun _ => .here fun place => ?_
  refine (hitems _ fun text word afterBreak sight after hword hnext => ?_).bind
    fun found hfound => ?_
  · refine .here fun _ => ?_
    split
    · exact .token fun _ _ => .dialect <| .neg Bool.false_ne_true <| runs_parameter hword hnext
    · exact runs_parameter hword hnext
  · exact .expect rfl fun _ => runs_finish (by simp [hfound.1, Kind.unplaced])

/-! ### Functions -/

/-- A function that is neither asynchronous nor a generator. -/
def plainShape (isExpression : Bool) : FunctionShape :=
  ⟨isExpression, false, false, false, false, false⟩

/-- The parameters of a plain function are read outside of all others. -/
def Context.inParameters (outer : Context) : Context :=
  { outer with yields := false, awaits := false, isTop := false }

section Functions

variable {isExpression : Bool} {inputs body : Node}

theorem runs_functionRest {start : Nat} {name left : Node} (hname : left.unplaced = name)
    (houter : Ordinary outer)
    (hinputs : Runs (Context.inParameters outer) (parameters (read fuel) fuel .other)
      (.sign .parenOpen :: more) (.tree (.sign .braceOpen :: middle) inputs))
    (hbody : ∀ left inner : Node, left.unplaced = name → inner.unplaced = inputs →
      Runs outer (functionBody (read fuel) fuel false false >>= fun body =>
        finish (.function (plainShape isExpression)) start
          [left, .absent, inner, .absent, body]) (.sign .braceOpen :: middle) outcome) :
    Runs outer (functionRest (read fuel) fuel .other (plainShape isExpression) start left)
      (.sign .parenOpen :: more) outcome := by
  refine Runs.known Node.absent ?_ ?_
  · exact .dialect <| .atSign <| .neg Bool.false_ne_true <| .done rfl
  refine (Runs.within hinputs).bind fun inner hinner => ?_
  refine Runs.known Node.absent ?_ ?_
  · refine .here fun _ => Runs.known Node.absent ?_ (.neg Bool.false_ne_true (.done rfl))
    exact .dialect <| .atSign <| .neg Bool.false_ne_true <| .done rfl
  refine .atSign <| .pos rfl <| .context <| .neg (by simp [plainShape, houter.declares]) ?_
  exact hbody left inner hname hinner

/-- A function from its first word up to the parenthesis before its parameters. -/
theorem runs_function_of_rest {needsName : Bool} {start : Nat} {text : String} {afterBreak : Bool}
    {name : Node} (front : List Symbol)
    (hname : front = [] ∧ needsName = false ∧ name = .absent ∨
      ∃ text, front = [.name text] ∧ name = .of (.name text) [])
    (hrest : ∀ left : Node, left.unplaced = name →
      Runs outer (functionRest (read fuel) fuel .other (plainShape isExpression) start left)
        (.sign .parenOpen :: more) outcome) :
    Runs outer (function (read fuel) fuel isExpression needsName false start)
      (.token ⟨.name text (some .function_), afterBreak⟩ ::
        (front ++ .sign .parenOpen :: more)) outcome := by
  obtain ⟨rfl, rfl, rfl⟩ | ⟨text, rfl, rfl⟩ := hname
  · refine .notEatWord rfl <| .expectWord rfl fun _ => .here fun _ => .notEat rfl <|
      .context <| .neg Bool.false_ne_true <| .token fun _ _ => .neg Bool.false_ne_true <|
      .neg Bool.false_ne_true <| Runs.known Node.absent (.done rfl) ?_
    exact hrest _ rfl
  · refine .notEatWord rfl <| .expectWord rfl fun _ => .here fun _ => .notEat rfl <|
      .context <| .neg Bool.false_ne_true <| .token fun _ _ => .pos rfl ?_
    exact (Runs.within (runs_identifier (.inl rfl))).bind hrest

/-- A function without a name, as an expression. -/
theorem runs_functionExpression {depth : Nat} {text : String} {afterBreak : Bool}
    (houter : Ordinary outer)
    (hinputs : Runs (Context.inParameters outer) (parameters (read fuel) fuel .other)
      (.sign .parenOpen :: more) (.tree (.sign .braceOpen :: middle) inputs))
    (hbody : Runs outer (functionBody (read fuel) fuel false false)
      (.sign .braceOpen :: middle) (.tree after body)) :
    Runs outer (primary (read fuel) fuel (depth + 1))
      (.token ⟨.name text (some .function_), afterBreak⟩ :: .sign .parenOpen :: more)
      (.tree after (.of (.function (plainShape true))
        [.absent, .absent, inputs, .absent, body])) := by
  rw [primary]
  refine .token fun _ _ => runs_function_of_rest [] (.inl ⟨rfl, rfl, rfl⟩) fun left hleft => ?_
  refine runs_functionRest hleft houter hinputs fun left inner hleft hinner => ?_
  exact hbody.bind fun value hvalue => runs_finish (by simp [hleft, hinner, hvalue, Kind.unplaced])

end Functions

end Rules

end Parser

end Bundler.Script
