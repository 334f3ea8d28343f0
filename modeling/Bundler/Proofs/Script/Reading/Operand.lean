import Bundler.Proofs.Script.Reading.Runs

/-! Reading expressions, one rule for each way to build one: names and strings, accesses and calls,
operators, and what is assigned. -/

namespace Bundler.Script

namespace Sight

/-- A token that an operand begins with. -/
inductive Opens : Sight → Prop where
  | name (text : String) (afterBreak : Bool) : Opens ⟨.name text none, afterBreak⟩
  | module_ (text : String) (afterBreak : Bool) :
      Opens ⟨.name text (some .module_), afterBreak⟩
  | function_ (text : String) (afterBreak : Bool) :
      Opens ⟨.name text (some .function_), afterBreak⟩
  | new_ (text : String) (afterBreak : Bool) : Opens ⟨.name text (some .new_), afterBreak⟩
  | string (value raw : String) (lone afterBreak : Bool) :
      Opens ⟨.string value raw lone, afterBreak⟩
  | brace (afterBreak : Bool) : Opens ⟨.sign .braceOpen, afterBreak⟩
  | paren (afterBreak : Bool) : Opens ⟨.sign .parenOpen, afterBreak⟩

/-- A token that an expression begins with: an operand, or a sign before one. -/
inductive Begins : Sight → Prop where
  | of_opens {sight : Sight} (h : Opens sight) : Begins sight
  | bang (afterBreak : Bool) : Begins ⟨.sign .bang, afterBreak⟩

/-- A token that an expression ends before. -/
inductive Closes : Sight → Prop where
  | paren (afterBreak : Bool) : Closes ⟨.sign .parenClose, afterBreak⟩
  | bracket (afterBreak : Bool) : Closes ⟨.sign .bracketClose, afterBreak⟩
  | brace (afterBreak : Bool) : Closes ⟨.sign .braceClose, afterBreak⟩
  | comma (afterBreak : Bool) : Closes ⟨.sign .comma, afterBreak⟩
  | semicolon (afterBreak : Bool) : Closes ⟨.sign .semicolon, afterBreak⟩

/-- A token that a series of operands ends before. -/
inductive Stops : Sight → Prop where
  | of_closes {sight : Sight} (h : Closes sight) : Stops sight
  | equal (afterBreak : Bool) : Stops ⟨.sign .equal, afterBreak⟩

/-- A token that an operand ends before. -/
inductive Ends : Sight → Prop where
  | of_stops {sight : Sight} (h : Stops sight) : Ends sight
  | plus (afterBreak : Bool) : Ends ⟨.sign .plus, afterBreak⟩

end Sight

namespace Parser

variable {α β : Type}

/-- The symbol that a reader stops in front of, if it does not fail. -/
def Outcome.Next (test : Sight → Prop) : Outcome α → Prop
  | .goes (.token sight :: _) _ => test sight
  | .goes _ _ => False
  | .fails => True

theorem Outcome.Next.imp {outcome : Outcome α} {test weaker : Sight → Prop}
    (h : outcome.Next test) (himp : ∀ sight, test sight → weaker sight) : outcome.Next weaker := by
  cases outcome with
  | fails => trivial
  | goes after good =>
      cases after with
      | nil => exact h
      | cons symbol more =>
          cases symbol with
          | token sight => exact himp sight h
          | _ => exact h

/-- The context of an ordinary expression: `in` is an operator, nothing is a decorator, and nothing
is only declared. -/
structure Ordinary (outer : Context) : Prop where
  allowsIn : outer.allowsIn = true
  decorates : outer.decorates = false
  declares : outer.declares = false

theorem Ordinary.inside {outer : Context} (h : Ordinary outer) :
    { outer with allowsIn := true } = outer := by
  rw [← h.allowsIn]

theorem Ordinary.enclosed {outer : Context} (h : Ordinary outer) :
    { outer with allowsIn := true, decorates := false } = outer := by
  rw [← h.allowsIn, ← h.decorates]

section Rules

variable {outer : Context} {parser : Parser α} {before middle after more : List Symbol}
  {sight sight' : Sight} {outcome : Outcome Node} {fuel : Nat}

/-- What comes after a reader leaves its value as it is. -/
theorem Runs.pass {next : α → Parser α} {outcome : Outcome α} {test : Sight → Prop}
    (h : Runs outer parser before outcome) (htest : outcome.Next test)
    (hnext : ∀ sight more value, test sight →
      Runs outer (next value) (.token sight :: more) (.goes (.token sight :: more) (· = value))) :
    Runs outer (parser >>= next) before outcome := by
  cases outcome with
  | fails => exact h.stop
  | goes after good =>
      refine h.bind fun value hgood => ?_
      cases after with
      | nil => exact htest.elim
      | cons symbol more =>
          cases symbol with
          | token sight =>
              exact (hnext sight more value htest).weaken fun _ hvalue => hvalue ▸ hgood
          | _ => exact htest.elim

/-! ### Operators -/

theorem runs_counted (hopens : sight.Opens) (hends : outcome.Next Sight.Ends)
    (h : Runs outer (leftSide (read fuel) fuel) (.token sight :: more) outcome) :
    Runs outer (counted (read fuel) fuel) (.token sight :: more) outcome := by
  refine .here fun _ => .token fun _ _ => ?_
  split
  · rename_i hop
    cases hopens <;> cases hop
  · refine h.pass hends fun _ _ _ hends => .token fun _ _ => ?_
    split
    · rename_i hop
      rcases hends with ⟨⟨⟨⟩⟩ | _⟩ | _ <;> cases hop
    · exact .done rfl

theorem runs_unary (hopens : sight.Opens) (hends : outcome.Next Sight.Ends)
    (h : Runs outer (leftSide (read fuel) fuel) (.token sight :: more) outcome) :
    Runs outer (unary (read fuel) fuel) (.token sight :: more) outcome := by
  refine .here fun _ => .token fun _ _ => ?_
  split
  · rename_i hop
    cases hopens <;> cases hop
  · refine Runs.known false (.atWord <| .neg (fun hword => ?_) (.done rfl)) ?_
    · cases hopens <;> cases hword
    · refine .dialect <| .neg (by simp [Dialect.plain]) ?_
      exact runs_counted hopens hends h

theorem runs_joinGreater (hends : sight.Ends) :
    Runs outer joinGreater (.token sight :: more) (.goes (.token sight :: more) fun _ => True) :=
  .look fun state hat => by
    obtain ⟨_, _, htoken⟩ := hat.token
    refine .neg (fun hsign => ?_) (.done trivial)
    rw [htoken] at hsign
    rcases hends with ⟨⟨⟨⟩⟩ | _⟩ | _ <;> cases hsign

/-- Operands end before what is no operator, and before one that binds no tighter. -/
theorem runs_operations_end {above : Precedence} {start count : Nat} {left : Node}
    (hends : sight.Stops ∨ sight.Ends ∧ Precedence.add ≤ above) :
    Runs outer (operations (read fuel) fuel above start (count + 1) left) (.token sight :: more)
      (.goes (.token sight :: more) (· = left)) := by
  have hsight : sight.Ends := hends.elim .of_stops And.left
  refine (runs_joinGreater hsight).bind fun _ _ => .token fun _ _ => ?_
  refine .neg (fun htyping => ?_) ?_
  · rcases hsight with ⟨⟨⟨⟩⟩ | _⟩ | _ <;> simp [Token.isWord, Token.word?, Sight.token] at htyping
  · split
    · exact .done rfl
    · rename_i hop
      rcases hsight with ⟨⟨⟨⟩⟩ | _⟩ | _ <;> cases hop
      obtain ⟨-, habove⟩ := hends.resolve_left (by rintro ⟨⟨⟩⟩)
      refine .context <| .pos ?_ (.done rfl)
      simp [BinaryOp.isRightAssociative, BinaryOp.precedence, habove]

/-- From some symbols on a sum goes on with more operands. -/
def Sums (outer : Context) (fuel : Nat) (above : Precedence) (count : Nat)
    (before after : List Symbol) (left node : Node) : Prop :=
  ∀ start value, value.unplaced = left →
    Runs outer (operations (read fuel) fuel above start count value) before (.tree after node)

theorem sums_end {above : Precedence} {count : Nat} {node : Node}
    (hends : sight.Stops ∨ sight.Ends ∧ Precedence.add ≤ above) :
    Sums outer fuel above (count + 1) (.token sight :: more) (.token sight :: more) node node :=
  fun _ _ hvalue => (runs_operations_end hends).weaken fun _ h => h ▸ hvalue

theorem Sums.plus {above : Precedence} {count : Nat} {first second node : Node}
    {afterBreak : Bool} (habove : above < Precedence.add)
    (hsecond : Runs outer (read fuel (.binary .add)) (.token sight :: more)
      (.tree (.token sight' :: middle) second))
    (hrest : Sums outer fuel above count (.token sight' :: middle) after
      (.of (.binary .add) [first, second]) node) :
    Sums outer fuel above (count + 1) (.token ⟨.sign .plus, afterBreak⟩ :: .token sight :: more)
      after first node := by
  intro start left hleft
  refine (runs_joinGreater (.plus _)).bind fun _ _ => .token fun _ _ => ?_
  refine .neg (by simp [Token.isWord, Token.word?, Sight.token]) ?_
  refine .context <| .neg ?_ <| .advance fun _ => hsecond.bind fun right hright => ?_
  · simp only [BinaryOp.isRightAssociative, BinaryOp.precedence]
    simpa using habove
  · refine Runs.known () (.done rfl) ?_
    exact (runs_finish (by simp [hleft, hright, Kind.unplaced])).bind fun value hvalue =>
      hrest start value hvalue

theorem runs_sum {above : Precedence} {first node : Node} (hopens : sight.Opens)
    (hends : sight'.Ends)
    (h : Runs outer (leftSide (read (fuel + 1)) (fuel + 1)) (.token sight :: more)
      (.tree (.token sight' :: middle) first))
    (hrest : Sums outer (fuel + 1) above (fuel + 1) (.token sight' :: middle) after first node) :
    Runs outer (read (fuel + 2) (.binary above)) (.token sight :: more) (.tree after node) := by
  refine .here fun start => .token fun _ _ => .context ?_
  split
  · rename_i hname _
    cases hopens <;> cases hname
  · have hfirst : Runs outer (unary (read (fuel + 1)) (fuel + 1)) (.token sight :: more)
        (.tree (.token sight' :: middle) first) := runs_unary hopens hends h
    exact hfirst.bind fun value hvalue => hrest start value hvalue

theorem runs_binary {above : Precedence} (hopens : sight.Opens)
    (hends : outcome.Next fun sight => sight.Stops ∨ sight.Ends ∧ Precedence.add ≤ above)
    (h : Runs outer (leftSide (read (fuel + 1)) (fuel + 1)) (.token sight :: more) outcome) :
    Runs outer (read (fuel + 2) (.binary above)) (.token sight :: more) outcome := by
  refine .here fun start => .token fun _ _ => .context ?_
  split
  · rename_i hname _
    cases hopens <;> cases hname
  · refine (runs_unary hopens (hends.imp fun _ h => h.elim .of_stops And.left) h).pass hends ?_
    exact fun _ _ _ hends => runs_operations_end hends

theorem runs_binary_not {above : Precedence} {operand : Node} {afterBreak : Bool}
    (hopens : sight.Opens) (hstops : sight'.Stops)
    (h : Runs outer (leftSide (read fuel) fuel) (.token sight :: more)
      (.tree (.token sight' :: after) operand)) :
    Runs outer (read (fuel + 2) (.binary above)) (.token ⟨.sign .bang, afterBreak⟩ ::
      .token sight :: more) (.tree (.token sight' :: after) (.of (.unary .not) [operand])) := by
  refine .here fun start => .token fun _ _ => .context ?_
  refine Runs.bind (?_ : Runs _ _ _ (.tree (.token sight' :: after)
    (.of (.unary .not) [operand]))) fun value hvalue => ?_
  · refine .here fun start => .token fun _ _ => .advance fun _ => .token fun _ _ => ?_
    have hunary : Runs outer (unary (read fuel) fuel) (.token sight :: more)
        (.tree (.token sight' :: after) operand) := runs_unary hopens (.of_stops hstops) h
    exact hunary.bind fun value hvalue =>
      runs_finish (by simp [hvalue, Kind.unplaced, Sight.token])
  · exact (runs_operations_end (.inl hstops)).weaken fun _ h => h ▸ hvalue

/-! ### Names and strings -/

theorem runs_identifier {text : String} {word : Option Word} {afterBreak : Bool}
    (hword : word = none ∨ word = some .module_) :
    Runs outer identifier (.token ⟨.name text word, afterBreak⟩ :: .token sight :: after)
      (.tree (.token sight :: after) (.of (.name text) [])) := by
  refine .token fun _ _ => .pos (by rcases hword with rfl | rfl <;> rfl) <| .context ?_
  refine Runs.known () ?_ runs_leaf
  rcases hword with rfl | rfl <;> exact .done rfl

theorem runs_primary_name {depth : Nat} {text : String} {word : Option Word} {afterBreak : Bool}
    (hword : word = none ∨ word = some .module_) :
    Runs outer (primary (read fuel) fuel (depth + 1))
      (.token ⟨.name text word, afterBreak⟩ :: .token sight :: after)
      (.tree (.token sight :: after) (.of (.name text) [])) := by
  rw [primary]
  refine .token fun _ _ => ?_
  rcases hword with rfl | rfl
  · exact runs_identifier (.inl rfl)
  · exact runs_identifier (.inr rfl)

theorem runs_primary_string {depth : Nat} {value raw : String} {lone afterBreak : Bool} :
    Runs outer (primary (read fuel) fuel (depth + 1))
      (.token ⟨.string value raw lone, afterBreak⟩ :: .token sight :: after)
      (.tree (.token sight :: after) (.of (.string value raw lone) [])) := by
  rw [primary]
  exact .token fun _ _ => runs_leaf

/-! ### Lists -/

section Lists

variable {item : Parser Node} {close : Sign} {count : Nat} {seen nodes : List Node} {node : Node}
  {comma afterBreak : Bool}

/-- The items of a list are trees, apart from places; there may be a comma behind them. -/
def Outcome.items (after : List Symbol) (nodes : List Node) (comma : Bool) :
    Outcome (List Node × Option Nat) :=
  .goes after fun found => found.1.map Node.unplaced = nodes ∧ found.2.isSome = comma

/-- From some symbols on a list has some more items. -/
def Lists (outer : Context) (close : Sign) (item : Parser Node) (count : Nat)
    (before after : List Symbol) (nodes : List Node) (comma : Bool) : Prop :=
  ∀ seen, Runs outer (listFrom close item count seen) before
    (.items after ((seen.map Node.unplaced).reverse ++ nodes) comma)

theorem lists_end (hclose : (sight.token 0 0).isSign close = true) :
    Lists outer close item (count + 1) (.token sight :: more) (.token sight :: more) [] false :=
  fun _ => .token fun _ _ => .pos (Bool.or_eq_true_iff.mpr (.inl hclose)) (.done ⟨by simp, rfl⟩)

theorem lists_comma (hcomma : close ≠ .comma) (hclose : (sight.token 0 0).isSign close = true) :
    Lists outer close item (count + 1) (.token ⟨.sign .comma, afterBreak⟩ :: .token sight :: more)
      (.token sight :: more) [] true := by
  refine fun _ => .token fun _ _ => .neg ?_ <| .pos rfl <| .advance fun _ => .atSign <|
    .pos hclose <| .done ⟨by simp, rfl⟩
  simpa [Token.isSign, Token.sign?, Sight.token, Token.isEndOrMalformed] using hcomma.symm

theorem runs_listFrom_cons {outcome : Outcome (List Node × Option Nat)}
    (hcomma : close ≠ .comma) (hclose : (sight.token 0 0).isSign close = false)
    (h : Runs outer (item >>= fun value => listFrom close item count (value :: seen))
      (.token sight :: more) outcome) :
    Runs outer (listFrom close item (count + 1) seen)
      (.token ⟨.sign .comma, afterBreak⟩ :: .token sight :: more) outcome := by
  refine .token fun _ _ => .neg ?_ <| .pos rfl <| .advance fun _ => .atSign <|
    .neg (by simp [hclose]) h
  simpa [Token.isSign, Token.sign?, Sight.token, Token.isEndOrMalformed] using hcomma.symm

theorem Lists.cons (hcomma : close ≠ .comma) (hclose : (sight.token 0 0).isSign close = false)
    (hitem : Runs outer item (.token sight :: more) (.tree middle node))
    (hrest : Lists outer close item count middle after nodes comma) :
    Lists outer close item (count + 1) (.token ⟨.sign .comma, afterBreak⟩ :: .token sight :: more)
      after (node :: nodes) comma := by
  intro seen
  refine runs_listFrom_cons hcomma hclose <| hitem.bind fun value hvalue => ?_
  simpa [hvalue] using hrest (value :: seen)

theorem runs_commaList_nil (hclose : (sight.token 0 0).isSign close = true) :
    Runs outer (commaList fuel close item) (.token sight :: more)
      (.items (.token sight :: more) [] false) :=
  .token fun _ _ => .pos (Bool.or_eq_true_iff.mpr (.inl hclose)) (.done ⟨rfl, rfl⟩)

theorem runs_commaList_of_item {outcome : Outcome (List Node × Option Nat)}
    (hopens : sight.Opens) (hclose : (sight.token 0 0).isSign close = false)
    (h : Runs outer (item >>= fun value => listFrom close item fuel [value]) (.token sight :: more)
      outcome) :
    Runs outer (commaList fuel close item) (.token sight :: more) outcome := by
  refine .token fun start stop => .neg (fun hends => ?_) h
  have hsign : (sight.token start stop).isSign close = false := hclose
  rw [hsign] at hends
  cases hopens <;> cases hends

theorem runs_commaList (hopens : sight.Opens) (hclose : (sight.token 0 0).isSign close = false)
    (hitem : Runs outer item (.token sight :: more) (.tree middle node))
    (hrest : Lists outer close item fuel middle after nodes comma) :
    Runs outer (commaList fuel close item) (.token sight :: more)
      (.items after (node :: nodes) comma) := by
  refine runs_commaList_of_item hopens hclose <| hitem.bind fun value hvalue => ?_
  simpa [hvalue] using hrest [value]

end Lists

/-! ### Accesses and calls -/

/-- An access or a call is a tree, apart from places, and nothing in it is optional. -/
def Outcome.link (after : List Symbol) (node : Node) : Outcome (Node × Bool) :=
  .goes after fun found => found.1.unplaced = node ∧ found.2 = false

section Links

variable {calls : Bool} {start count : Nat} {left object node : Node}

/-- From some symbols on an expression goes on with accesses and calls. -/
def Links (outer : Context) (fuel : Nat) (calls : Bool) (count : Nat) (before after : List Symbol)
    (object node : Node) : Prop :=
  ∀ start left, left.unplaced = object →
    Runs outer (links (read fuel) fuel calls start count left false) before (.link after node)

theorem links_end (hends : sight.Ends) :
    Links outer fuel calls (count + 1) (.token sight :: more) (.token sight :: more) object
      object := by
  refine fun _ _ hleft => Runs.known none (.token fun _ _ => .dialect ?_)
    (.done ⟨hleft, rfl⟩)
  rcases hends with ⟨⟨⟨⟩⟩ | _⟩ | _ <;> exact .done rfl

theorem links_cons {next : Node}
    (h : ∀ start left, left.unplaced = object →
      Runs outer (nextLink (read fuel) fuel calls start left false) before
        (.goes middle fun found => ∃ value : Node, found = some (value, false) ∧
          value.unplaced = next))
    (hrest : Links outer fuel calls count middle after next node) :
    Links outer fuel calls (count + 1) before after object node := by
  intro start left hleft
  refine (h start left hleft).bind ?_
  rintro _ ⟨value, rfl, hvalue⟩
  exact hrest start value hvalue

theorem runs_checkAccessed (hleft : left.unplaced = object)
    (hobject : object.kind ≠ .instantiation) :
    Runs outer (checkAccessed left) before (.goes before fun _ => True) := by
  unfold checkAccessed
  split
  · rename_i hkind
    rw [← hleft, Node.kind_unplaced, hkind] at hobject
    exact absurd rfl hobject
  · exact .done trivial

theorem Links.dot {text : String} {word : Option Word} {afterBreak afterBreak' : Bool}
    (hobject : object.kind ≠ .instantiation)
    (hrest : Links outer fuel calls count (.token sight :: more) after
      (.of (.member false) [object, .of (.name text) []]) node) :
    Links outer fuel calls (count + 1)
      (.token ⟨.sign .dot, afterBreak⟩ :: .token ⟨.name text word, afterBreak'⟩ ::
        .token sight :: more) after object node := by
  refine links_cons (fun _ _ hleft => .token fun _ _ => .dialect ?_) hrest
  refine (runs_checkAccessed hleft hobject).bind fun _ _ => .advance fun _ => ?_
  refine Runs.bind (?_ : Runs _ _ _ (.tree (.token sight :: more) (.of (.name text) [])))
    fun name hname => ?_
  · exact .token fun _ _ => .token fun _ _ => .pos rfl runs_leaf
  · exact (runs_finish (by simp [hleft, hname, Kind.unplaced])).bind fun value hvalue =>
      .done ⟨value, rfl, hvalue⟩

theorem Links.element {key : Node} {afterBreak afterBreak' : Bool} (houter : Ordinary outer)
    (hkey : Runs outer (read fuel .expression) (.token sight :: more)
      (.tree (.token ⟨.sign .bracketClose, afterBreak'⟩ :: .token sight' :: middle) key))
    (hrest : Links outer fuel calls count (.token sight' :: middle) after
      (.of (.element false) [object, key]) node) :
    Links outer fuel calls (count + 1) (.token ⟨.sign .bracketOpen, afterBreak⟩ ::
      .token sight :: more) after object node := by
  refine links_cons (fun _ _ hleft => .token fun _ _ => .dialect <| .context <|
    .neg (by simp [houter.decorates]) ?_) hrest
  refine Runs.bind (?_ : Runs _ _ _ (.tree (.token sight' :: middle) key))
    fun value hvalue => ?_
  · refine .advance fun _ => (Runs.within (houter.inside ▸ hkey)).bind fun value hvalue => ?_
    exact .expect rfl fun _ => .done hvalue
  · exact (runs_finish (by simp [hleft, hvalue, Kind.unplaced])).bind fun value hvalue =>
      .done ⟨value, rfl, hvalue⟩

/-- An argument of a call. -/
def argument (fuel : Nat) : Parser Node := do
  if ← Parser.atSign .ellipsis then spread (read fuel) else read fuel (.assignment true)

theorem runs_argument {outcome : Outcome Node} (hopens : sight.Opens)
    (h : Runs outer (read fuel (.assignment true)) (.token sight :: more) outcome) :
    Runs outer (argument fuel) (.token sight :: more) outcome :=
  .atSign <| .neg (by cases hopens <;> nofun) h

theorem runs_callArguments {items : List Node} {comma : Bool} {afterBreak : Bool}
    (houter : Ordinary outer)
    (hitems : Runs outer (commaList fuel .parenClose (argument fuel)) (.token sight :: more)
      (.items (.token ⟨.sign .parenClose, afterBreak⟩ :: .token sight' :: after) items comma)) :
    Runs outer (callArguments (read fuel) fuel)
      (.token ⟨.sign .parenOpen, false⟩ :: .token sight :: more)
      (.tree (.token sight' :: after) (.list items)) := by
  refine .here fun _ => .expect rfl fun _ => ?_
  refine (Runs.within (houter.enclosed ▸ hitems)).bind fun found hfound => ?_
  exact .expect rfl fun _ => runs_finish (by simp [hfound.1, Kind.unplaced]; rfl)

theorem Links.call {items : List Node} {comma : Bool} {afterBreak : Bool}
    (houter : Ordinary outer) (hobject : object.kind ≠ .instantiation)
    (hitems : Runs outer (commaList fuel .parenClose (argument fuel)) (.token sight :: more)
      (.items (.token ⟨.sign .parenClose, afterBreak⟩ :: .token sight' :: middle) items comma))
    (hrest : Links outer fuel true count (.token sight' :: middle) after
      (.of (.call false false) [object, .absent, .list items]) node) :
    Links outer fuel true (count + 1) (.token ⟨.sign .parenOpen, false⟩ :: .token sight :: more)
      after object node := by
  refine links_cons (fun _ left hleft => .token fun _ _ => .dialect <| .pos rfl ?_) hrest
  refine Runs.bind (?_ : Runs _ _ _ (.tree (.token sight' :: middle)
    (.of (.call false false) [object, .absent, .list items]))) fun value hvalue =>
      .done ⟨value, rfl, hvalue⟩
  unfold callOf
  split
  · rw [← hleft] at hobject
    exact absurd rfl hobject
  · refine (runs_callArguments houter hitems).bind fun found hfound => ?_
    exact runs_finish (by simp [hleft, hfound, Kind.unplaced])

end Links

theorem runs_leftSide {base node : Node}
    (hbase : Runs outer (primary (read (fuel + 1)) (fuel + 1) (fuel + 1)) before
      (.tree middle base))
    (hlinks : Links outer (fuel + 1) true (fuel + 1) middle after base node) :
    Runs outer (leftSide (read (fuel + 1)) (fuel + 1)) before (.tree after node) := by
  refine .here fun start => hbase.bind fun value hvalue => ?_
  refine (hlinks start value hvalue).bind ?_
  rintro ⟨whole, chained⟩ ⟨hwhole, rfl⟩
  exact .neg (by simp) (.done hwhole)

end Rules

end Parser

end Bundler.Script
