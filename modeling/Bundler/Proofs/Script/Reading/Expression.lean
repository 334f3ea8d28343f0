import Bundler.Proofs.Script.Reading.Operand

/-! Reading whole expressions: what is no arrow function, what is assigned, objects, constructions
and expressions in parentheses. -/

namespace Bundler.Script

namespace Parser

variable {α : Type} {outer : Context} {before after more middle : List Symbol}
  {sight sight' : Sight} {outcome : Outcome Node} {fuel : Nat}

section Rules

/-! ### No arrow functions -/

theorem runs_guessArrow (hbegins : sight.Begins) (hparen : sight.kind ≠ .sign .parenOpen) :
    Runs outer guessArrow (.token sight :: more) (.goes (.token sight :: more) (· = .no)) := by
  intro state hat
  obtain ⟨_, _, htoken⟩ := hat.token
  rw [guessArrow, if_neg]
  · exact ⟨hat, rfl⟩
  · rw [htoken]
    rcases hbegins with ⟨⟨⟩⟩ | _ <;> first | exact absurd rfl hparen | nofun

/-- No arrow function begins with a parenthesis and a function. -/
theorem runs_guessArrow_function {text : String} {afterBreak afterBreak' : Bool} :
    Runs outer guessArrow
      (.token ⟨.sign .parenOpen, afterBreak⟩ ::
        .token ⟨.name text (some .function_), afterBreak'⟩ :: .token sight :: more)
      (.goes (.token ⟨.sign .parenOpen, afterBreak⟩ ::
        .token ⟨.name text (some .function_), afterBreak'⟩ :: .token sight :: more)
        (· = .no)) := by
  intro state hat
  obtain ⟨_, _, htoken⟩ := hat.token
  unfold guessArrow
  extract_lets guess
  rw [if_pos (by rw [htoken]; rfl)]
  have hguess : Runs outer guess (.token ⟨.sign .parenOpen, afterBreak⟩ ::
      .token ⟨.name text (some .function_), afterBreak'⟩ :: .token sight :: more)
      (.goes (.token sight :: more) (· = .no)) :=
    .atWord <| .neg Bool.false_ne_true <| .token fun _ _ => .neg Bool.false_ne_true <| .pos rfl <|
      .skip fun _ => .token fun _ _ => .neg Bool.false_ne_true <| .neg Bool.false_ne_true <|
      .neg Bool.false_ne_true <| .skip fun _ => .token fun _ _ => .dialect <|
      .neg Bool.false_ne_true <| .pos rfl <| .done rfl
  obtain ⟨answer, later, hdone, -, rfl⟩ := Outcome.exists_of_goes (hguess state hat)
  rw [hdone]
  exact ⟨hat, rfl⟩

/-- Where no arrow function begins there is a series of operands. -/
theorem runs_assignmentRest_end {resultTypes : Bool} {start : Nat} {left : Node}
    (hcloses : sight.Closes) :
    Runs outer (assignmentRest (read fuel) fuel resultTypes start left) (.token sight :: more)
      (.goes (.token sight :: more) (· = left)) := by
  refine .token fun _ _ => ?_
  split
  · rename_i harrow
    cases hcloses <;> cases harrow
  · split
    · rename_i hop
      cases hcloses <;> cases hop
    · exact .neg (by cases hcloses <;> nofun) (.done rfl)

theorem runs_assignment_of_guess {resultTypes : Bool} (hbegins : sight.Begins)
    (hguess : Runs outer guessArrow (.token sight :: more) (.goes (.token sight :: more) (· = .no)))
    (h : ∀ start, Runs outer (read fuel (.binary .comma) >>= fun left =>
      assignmentRest (read fuel) fuel resultTypes start left >>= fun whole => pure whole)
      (.token sight :: more) outcome) :
    Runs outer (read (fuel + 1) (.assignment resultTypes)) (.token sight :: more) outcome := by
  refine .here fun start => .token fun _ _ => ?_
  refine Runs.known false (.atWord <| .neg (fun hword => ?_) (.done rfl)) ?_
  · rcases hbegins with ⟨⟨⟩⟩ | _ <;> cases hword
  refine .neg Bool.false_ne_true ?_
  refine Runs.known none (hguess.known .no (.done rfl)) ?_
  refine Runs.known false (.atWord <| .neg (fun hword => ?_) (.done rfl)) ?_
  · rcases hbegins with ⟨⟨⟩⟩ | _ <;> cases hword
  exact h start

theorem runs_assignment {resultTypes : Bool} (hbegins : sight.Begins)
    (hguess : Runs outer guessArrow (.token sight :: more) (.goes (.token sight :: more) (· = .no)))
    (hcloses : outcome.Next Sight.Closes)
    (h : Runs outer (read fuel (.binary .comma)) (.token sight :: more) outcome) :
    Runs outer (read (fuel + 1) (.assignment resultTypes)) (.token sight :: more) outcome := by
  refine runs_assignment_of_guess hbegins hguess fun start => h.pass hcloses ?_
  intro sight more value hcloses
  refine (runs_assignmentRest_end hcloses).bind ?_
  rintro _ rfl
  exact .done rfl

theorem runs_target_element {value node : Node} (hvalue : value.unplaced = node)
    (hnode : node.kind = .element false) :
    Runs outer (target value) before (.goes before (· = value)) := by
  have hkind : value.kind = .element false :=
    (Node.kind_eq_of_unplaced hvalue (by rw [hnode]; rfl)).trans hnode
  obtain ⟨kind, start, stop, ⟨⟩, children⟩ := value
  obtain rfl : kind = .element false := hkind
  have hplace : target (.node (.element false) start stop () children) =
      pure (.node (.element false) start stop () children) := by
    rw [target, placeTarget] <;> simp [isPlace]
  rw [hplace]
  exact .done rfl

/-- A member behind a key in brackets is assigned. -/
theorem runs_assign_element {resultTypes : Bool} {place value : Node} {afterBreak : Bool}
    (hbegins : sight.Begins)
    (hguess : Runs outer guessArrow (.token sight :: more) (.goes (.token sight :: more) (· = .no)))
    (hplace : Runs outer (read fuel (.binary .comma)) (.token sight :: more)
      (.tree (.token ⟨.sign .equal, afterBreak⟩ :: .token sight' :: middle) place))
    (hkind : place.kind = .element false)
    (hvalue : Runs outer (read fuel (.assignment resultTypes)) (.token sight' :: middle)
      (.tree after value)) :
    Runs outer (read (fuel + 1) (.assignment resultTypes)) (.token sight :: more)
      (.tree after (.of (.assign .plain) [place, value])) := by
  refine runs_assignment_of_guess hbegins hguess fun start => hplace.bind fun left hleft => ?_
  refine Runs.bind (?_ : Runs _ _ _ (.tree after (.of (.assign .plain) [place, value])))
    fun whole hwhole => .done hwhole
  refine .token fun _ _ => ?_
  split
  · rename_i harrow
    cases harrow
  · refine (runs_target_element hleft hkind).bind ?_
    rintro _ rfl
    refine .advance fun _ => hvalue.bind fun right hright => ?_
    exact runs_finish (by simp [hleft, hright, Kind.unplaced])

theorem runs_expression
    (hnext : outcome.Next fun sight => (sight.token 0 0).isSign .comma = false)
    (h : Runs outer (read fuel (.assignment true)) before outcome) :
    Runs outer (read (fuel + 1) .expression) before outcome :=
  .here fun _ => h.pass hnext fun _ _ _ hcomma => .atSign <| .neg (by simp [hcomma]) (.done rfl)

/-- An expression that is no more than an operand. -/
theorem runs_value {resultTypes : Bool} (hopens : sight.Opens)
    (hparen : sight.kind ≠ .sign .parenOpen) (hcloses : outcome.Next Sight.Closes)
    (h : Runs outer (leftSide (read (fuel + 1)) (fuel + 1)) (.token sight :: more) outcome) :
    Runs outer (read (fuel + 3) (.assignment resultTypes)) (.token sight :: more) outcome :=
  runs_assignment (.of_opens hopens) (runs_guessArrow (.of_opens hopens) hparen) hcloses <|
    runs_binary hopens (hcloses.imp fun _ h => .inl (.of_closes h)) h

/-! ### Objects -/

/-- Whatever is foreseen, the reader stays where it is. -/
theorem Runs.foresee {β : Type} {asked : Parser Bool} {next : Bool → Parser β}
    {outcome : Outcome β} (h : ∀ answer, Runs outer (next answer) before outcome) :
    Runs outer (Parser.foresee asked >>= next) before outcome := by
  intro state hat
  have hdone : ∃ answer, Parser.foresee asked state = .done answer state := by
    unfold Parser.foresee
    split
    · exact ⟨_, rfl⟩
    · exact ⟨_, rfl⟩
  obtain ⟨answer, hdone⟩ := hdone
  rw [bind_of_done hdone]
  exact h answer state hat

/-- A token that names a member: a string, or a name without a meaning of its own. -/
inductive Keys : Sight → Node → Prop where
  | string (value raw : String) (lone afterBreak : Bool) :
      Keys ⟨.string value raw lone, afterBreak⟩ (.of (.string value raw lone) [])
  | name (text : String) (afterBreak : Bool) :
      Keys ⟨.name text none, afterBreak⟩ (.of (.name text) [])

theorem runs_propertyKey {key : Node} (hkey : Keys sight key) :
    Runs outer (propertyKey (read fuel) false) (.token sight :: .token sight' :: after)
      (.goes (.token sight' :: after) fun found => found.1.unplaced = key ∧ found.2 = false) := by
  refine .token fun _ _ => ?_
  cases hkey with
  | string => exact runs_leaf.bind fun name hname => .done ⟨hname, rfl⟩
  | name text =>
      refine Runs.bind (?_ : Runs _ _ _ (.tree (.token sight' :: after) (.of (.name text) [])))
        fun name hname => .done ⟨hname, rfl⟩
      exact .token fun _ _ => .pos rfl runs_leaf

theorem runs_objectMember_of_value {key : Node} {afterBreak : Bool} (hkey : Keys sight key)
    (h : ∀ start (name : Node), name.unplaced = key →
      Runs outer (read fuel (.assignment true) >>= fun value =>
        finish (.property false false) start [name, value]) (.token sight' :: more) outcome) :
    Runs outer (objectMember (read fuel) fuel)
      (.token sight :: .token ⟨.sign .colon, afterBreak⟩ :: .token sight' :: more) outcome := by
  have hplain (word : Word) (start stop : Nat) : (sight.token start stop).isWord word = false := by
    cases hkey <;> rfl
  refine .here fun start => .token fun _ _ => .neg (by cases hkey <;> nofun) ?_
  refine .foresee fun _ => .foresee fun _ => .neg (by simp [hplain]) ?_
  refine .notEat (by cases hkey <;> rfl) <| .token fun _ _ => ?_
  refine (runs_propertyKey hkey).bind ?_
  rintro ⟨name, computed⟩ ⟨hname, rfl⟩
  refine .neg (by simp [hplain]) <| .atSign <| .atSign <|
    .neg (show ¬ (_ || false || false || false) = true by simp [hplain]) ?_
  refine .atSign <| .neg ?_ <| .expect rfl fun _ => h start name hname
  simp [Token.isSign, Token.sign?, Sight.token]

/-- A member with a value behind a colon. -/
theorem runs_objectMember {key value : Node} {afterBreak : Bool} (hkey : Keys sight key)
    (hvalue : Runs outer (read fuel (.assignment true)) (.token sight' :: more)
      (.tree after value)) :
    Runs outer (objectMember (read fuel) fuel)
      (.token sight :: .token ⟨.sign .colon, afterBreak⟩ :: .token sight' :: more)
      (.tree after (.of (.property false false) [key, value])) :=
  runs_objectMember_of_value hkey fun _ _ hname => hvalue.bind fun _ hright =>
    runs_finish (by simp [hname, hright, Kind.unplaced])

theorem runs_objectLiteral {items : List Node} {comma afterBreak afterBreak' : Bool}
    (houter : Ordinary outer)
    (hitems : Runs outer (commaList fuel .braceClose (objectMember (read fuel) fuel))
      (.token sight :: more)
      (.items (.token ⟨.sign .braceClose, afterBreak'⟩ :: .token sight' :: after) items comma)) :
    Runs outer (objectLiteral (read fuel) fuel)
      (.token ⟨.sign .braceOpen, afterBreak⟩ :: .token sight :: more)
      (.tree (.token sight' :: after) (.of (.object (if comma then some 0 else none)) items)) := by
  refine .here fun _ => .advance fun _ => ?_
  refine (Runs.within (houter.inside ▸ hitems)).bind ?_
  rintro ⟨found, place⟩ ⟨hfound, hplace⟩
  refine .expect rfl fun _ => runs_finish ?_
  cases place <;> cases hplace <;> simp [hfound, Kind.unplaced]

theorem runs_primary_object {depth : Nat} {items : List Node} {comma afterBreak afterBreak' : Bool}
    (houter : Ordinary outer)
    (hitems : Runs outer (commaList fuel .braceClose (objectMember (read fuel) fuel))
      (.token sight :: more)
      (.items (.token ⟨.sign .braceClose, afterBreak'⟩ :: .token sight' :: after) items comma)) :
    Runs outer (primary (read fuel) fuel (depth + 1))
      (.token ⟨.sign .braceOpen, afterBreak⟩ :: .token sight :: more)
      (.tree (.token sight' :: after) (.of (.object (if comma then some 0 else none)) items)) := by
  rw [primary]
  exact .token fun _ _ => runs_objectLiteral houter hitems

/-! ### Constructions -/

/-- `new`, a name and arguments. -/
theorem runs_construction {depth : Nat} {text keyword : String} {items : List Node} {comma : Bool}
    {afterBreak afterBreak' : Bool} (houter : Ordinary outer)
    (hitems : Runs outer (commaList (fuel + 1) .parenClose (argument (fuel + 1)))
      (.token sight :: more)
      (.items (.token ⟨.sign .parenClose, afterBreak⟩ :: .token sight' :: after) items comma)) :
    Runs outer (primary (read (fuel + 1)) (fuel + 1) (depth + 3))
      (.token ⟨.name keyword (some .new_), afterBreak'⟩ :: .token ⟨.name text none, false⟩ ::
        .token ⟨.sign .parenOpen, false⟩ :: .token sight :: more)
      (.tree (.token sight' :: after)
        (.of (.new_ false) [.of (.name text) [], .absent, .list items])) := by
  rw [primary]
  refine .token fun _ _ => ?_
  rw [construction]
  refine .here fun start => .advance fun _ => .notEat rfl <| .neg Bool.false_ne_true ?_
  refine .here fun first => (runs_primary_name (.inl rfl)).bind fun base hbase => ?_
  have hname : base.kind = .name text := Node.kind_eq_of_unplaced hbase rfl
  have hnone : Runs outer (nextLink (read (fuel + 1)) (fuel + 1) false first base false)
      (.token ⟨.sign .parenOpen, false⟩ :: .token sight :: more)
      (.goes (.token ⟨.sign .parenOpen, false⟩ :: .token sight :: more) (· = none)) :=
    .token fun _ _ => .dialect <| .neg Bool.false_ne_true <| .done rfl
  refine Runs.known (base, false) (hnone.known none (.done rfl)) ?_
  refine .atSign <| .pos rfl <| (runs_callArguments houter hitems).bind fun found hfound => ?_
  obtain ⟨kind, start', stop, ⟨⟩, children⟩ := base
  obtain rfl : kind = .name text := hname
  exact runs_finish (by simp [hbase, hfound, Kind.unplaced])

/-! ### Parentheses -/

/-- A function in parentheses is marked as one. -/
theorem runs_parenthesized_function {depth : Nat} {shape : FunctionShape} {children : List Node}
    {afterBreak afterBreak' : Bool} (hopens : sight.Opens)
    (hclose : (sight.token 0 0).isSign .parenClose = false)
    (hfunction : Runs { outer with allowsIn := true, decorates := false }
      (read (fuel + 1) (.assignment true)) (.token sight :: more)
      (.tree (.token ⟨.sign .parenClose, afterBreak'⟩ :: .token sight' :: after)
        (.of (.function shape) children))) :
    Runs outer (primary (read (fuel + 1)) (fuel + 1) (depth + 1))
      (.token ⟨.sign .parenOpen, afterBreak⟩ :: .token sight :: more)
      (.tree (.token sight' :: after) (.of .parenthesized
        [.of (.function { shape with isParenthesized := true }) children])) := by
  rw [primary]
  refine .token fun _ _ => .here fun _ => .advance fun _ => .here fun _ => ?_
  refine Runs.bind (Runs.within (runs_commaList hopens hclose hfunction (lists_end rfl))) ?_
  · rintro ⟨items, comma⟩ ⟨hitems, hcomma⟩
    obtain rfl : comma = none := by cases comma <;> cases hcomma; rfl
    refine .lastStop fun _ => .expect rfl fun _ => ?_
    obtain ⟨value, rfl, hvalue⟩ := List.map_eq_singleton_iff.mp hitems
    have hkind : value.kind = .function shape := Node.kind_eq_of_unplaced hvalue rfl
    have hchildren : value.children.map Node.unplaced = children := by
      rw [← Node.children_unplaced, hvalue]
      rfl
    obtain ⟨kind, start, stop, ⟨⟩, inner⟩ := value
    obtain rfl : kind = .function shape := hkind
    have hinner : inner.map Node.unplaced = children := hchildren
    exact runs_finish (by simp [hinner, Kind.unplaced])

end Rules

end Parser

end Bundler.Script
