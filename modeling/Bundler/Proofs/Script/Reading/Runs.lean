import Bundler.Proofs.Script.Order.State
import Bundler.Proofs.Script.Reading.Symbols
import Bundler.Script.Reader.Program

/-! What a reader does in front of some symbols. It comes to other symbols with a value, or it
fails; rules put this together along the definition of the reader. -/

namespace Bundler.Script

/-! ### Trees without places -/

namespace Kind

/-- A kind without the places that it keeps. -/
def unplaced : Kind → Kind
  | .array comma => .array (comma.map fun _ => 0)
  | .object comma => .object (comma.map fun _ => 0)
  | .try_ _ => .try_ 0
  | .exportDefault _ => .exportDefault 0
  | kind => kind

def keepsPlace : Kind → Bool
  | .array _ | .object _ | .try_ _ | .exportDefault _ => true
  | _ => false

theorem eq_of_unplaced {kind other : Kind} (h : other.unplaced = kind)
    (hkind : kind.keepsPlace = false) : other = kind := by
  subst h
  cases other <;> first | rfl | cases hkind

end Kind

namespace Node

mutual

/-- A tree without its places in the text. -/
def unplaced : Node → Node
  | .node kind _ _ _ children => .node kind.unplaced 0 0 () (unplacedAll children)

def unplacedAll : List Node → List Node
  | [] => []
  | node :: rest => node.unplaced :: unplacedAll rest

end

/-- A node without a place. -/
def of (kind : Kind) (children : List Node) : Node := mk kind 0 0 children

theorem unplacedAll_eq_map (nodes : List Node) : unplacedAll nodes = nodes.map unplaced := by
  induction nodes with
  | nil => rfl
  | cons node rest ih => rw [unplacedAll, ih, List.map_cons]

@[simp]
theorem unplaced_mk (kind : Kind) (start stop : Nat) (children : List Node) :
    (mk kind start stop children).unplaced = of kind.unplaced (children.map unplaced) := by
  rw [mk, unplaced, unplacedAll_eq_map]
  rfl

@[simp]
theorem unplaced_absent : absent.unplaced = absent := rfl

@[simp]
theorem unplaced_list (items : List Node) : (list items).unplaced = list (items.map unplaced) :=
  unplaced_mk ..

theorem kind_unplaced (node : Node) : node.unplaced.kind = node.kind.unplaced := by
  cases node
  rfl

theorem children_unplaced (node : Node) :
    node.unplaced.children = node.children.map unplaced := by
  cases node
  exact unplacedAll_eq_map _

theorem kind_eq_of_unplaced {value node : Node} (hvalue : value.unplaced = node)
    (hnode : node.kind.keepsPlace = false) : value.kind = node.kind := by
  subst hvalue
  exact Kind.eq_of_unplaced (kind_unplaced value).symm hnode

/-- What a tree looks like that is known apart from places. -/
theorem exists_of_unplaced {node : Node} {kind : Kind} {children : List Node}
    (h : node.unplaced = of kind children) (hkind : kind.keepsPlace = false) :
    ∃ start stop parts, node = mk kind start stop parts ∧ parts.map unplaced = children := by
  have hsame : node.kind = kind := kind_eq_of_unplaced h hkind
  refine ⟨node.start, node.stop, node.children, ?_, ?_⟩
  · obtain ⟨other, start, stop, ⟨⟩, parts⟩ := node
    obtain rfl : other = kind := hsame
    rfl
  · rw [← children_unplaced, h]
    rfl

end Node

namespace Parser

variable {α β : Type}

/-- A reader without faults stands in front of some symbols, and has found out nothing about what
lies ahead. -/
structure At (context : Context) (symbols : List Symbol) (state : ReaderState) : Prop where
  dialect : state.dialect = .plain
  context : state.context = context
  faults : state.faults = []
  tokenFaults : state.tokenFaults = []
  openDefaults : state.openDefaults = []
  scriptFaults : state.scriptFaults = []
  isScript : state.hasModuleSyntax = false
  noArrows : ∀ place ∈ state.noArrows, place < state.cursor.offset
  position : ∃ sight more start stop, symbols = .token sight :: more ∧
    state.token = sight.token start stop ∧ Spans more state.cursor.rest

/-- What a reader comes to. -/
inductive Outcome (α : Type) where
  /-- The symbols that are left, and what is true of the value. -/
  | goes (after : List Symbol) (good : α → Prop)
  | fails

def Outcome.Holds (context : Context) : Outcome α → Reading α → Prop
  | .goes after good, .done value state => At context after state ∧ good value
  | .fails, .failed _ _ => True
  | _, _ => False

/-- In front of some symbols a reader has an outcome. -/
def Runs (context : Context) (parser : Parser α) (before : List Symbol) (outcome : Outcome α) :
    Prop :=
  ∀ state, At context before state → outcome.Holds context (parser state)

theorem bind_of_done {parser : Parser α} {next : α → Parser β} {state later : ReaderState}
    {value : α} (h : parser state = .done value later) :
    (parser >>= next) state = next value later := by
  simp only [bind, h]

theorem bind_of_failed {parser : Parser α} {next : α → Parser β} {state later : ReaderState}
    {place : Nat} (h : parser state = .failed place later) :
    (parser >>= next) state = .failed place later := by
  simp only [bind, h]

namespace Outcome

variable {context : Context} {after : List Symbol} {good : α → Prop} {reading : Reading α}

theorem exists_of_goes (h : (Outcome.goes after good).Holds context reading) :
    ∃ value state, reading = .done value state ∧ At context after state ∧ good value := by
  cases reading with
  | done value state => exact ⟨value, state, rfl, h⟩
  | failed place state => exact h.elim

theorem exists_of_fails (h : (Outcome.fails : Outcome α).Holds context reading) :
    ∃ place state, reading = .failed place state := by
  cases reading with
  | done value state => exact h.elim
  | failed place state => exact ⟨place, state, rfl⟩

end Outcome

namespace At

variable {context : Context} {sight : Sight} {more : List Symbol} {state : ReaderState}

theorem token (h : At context (.token sight :: more) state) :
    ∃ start stop, state.token = sight.token start stop := by
  obtain ⟨_, _, start, stop, heq, htoken, -⟩ := h.position
  cases heq
  exact ⟨start, stop, htoken⟩

theorem spans (h : At context (.token sight :: more) state) : Spans more state.cursor.rest := by
  obtain ⟨_, _, _, _, heq, -, hspans⟩ := h.position
  cases heq
  exact hspans

/-- Looking further back changes nothing. -/
theorem within {change : Context → Context} {symbols : List Symbol}
    (h : At context symbols state) :
    At (change context) symbols { state with context := change state.context } :=
  ⟨h.dialect, by rw [h.context], h.faults, h.tokenFaults, h.openDefaults, h.scriptFaults,
    h.isScript, h.noArrows, h.position⟩

end At

section Rules

variable {outer : Context} {parser : Parser α} {before middle after : List Symbol} {good : α → Prop}
  {outcome : Outcome β} {sight : Sight}

/-! ### One after another -/

theorem Runs.bind {next : α → Parser β} (h : Runs outer parser before (.goes middle good))
    (hnext : ∀ value, good value → Runs outer (next value) middle outcome) :
    Runs outer (parser >>= next) before outcome := by
  intro state hat
  obtain ⟨value, later, hdone, hlater, hgood⟩ := Outcome.exists_of_goes (h state hat)
  rw [bind_of_done hdone]
  exact hnext value hgood later hlater

theorem Runs.stop {next : α → Parser β} (h : Runs outer parser before .fails) :
    Runs outer (parser >>= next) before .fails := by
  intro state hat
  obtain ⟨place, later, hfailed⟩ := Outcome.exists_of_fails (h state hat)
  rw [bind_of_failed hfailed]
  trivial

/-- A step that comes to a known value and stays where it is. -/
theorem Runs.known (value : α) {next : α → Parser β}
    (h : Runs outer parser before (.goes before (· = value)))
    (hnext : Runs outer (next value) before outcome) :
    Runs outer (parser >>= next) before outcome :=
  h.bind fun _ hvalue => hvalue ▸ hnext

theorem Runs.done {value : α} (h : good value) :
    Runs outer (pure value) before (.goes before good) :=
  fun _ hat => ⟨hat, h⟩

theorem Runs.assoc {γ : Type} {first : α → Parser γ} {next : γ → Parser β}
    (h : Runs outer (parser >>= fun value => first value >>= next) before outcome) :
    Runs outer ((parser >>= first) >>= next) before outcome := by
  intro state hat
  have hrun := h state hat
  cases hstep : parser state with
  | done value later =>
      rw [bind_of_done hstep] at hrun
      cases hnext : first value later with
      | done value' later' =>
          rw [bind_of_done hnext] at hrun
          rwa [bind_of_done ((bind_of_done hstep).trans hnext)]
      | failed place later' =>
          rw [bind_of_failed hnext] at hrun
          rwa [bind_of_failed ((bind_of_done hstep).trans hnext)]
  | failed place later =>
      rw [bind_of_failed hstep] at hrun
      rwa [bind_of_failed (bind_of_failed hstep)]

/-- A step that changes nothing. -/
theorem Runs.returned {next : α → Parser α} {outcome : Outcome α}
    (h : Runs outer parser before outcome) (hnext : ∀ value, next value = pure value) :
    Runs outer (parser >>= next) before outcome := by
  cases outcome with
  | goes after good => exact h.bind fun value hgood => hnext value ▸ Runs.done hgood
  | fails => exact h.stop

theorem Runs.weaken {better : α → Prop} (h : Runs outer parser before (.goes after better))
    (hgood : ∀ value, better value → good value) :
    Runs outer parser before (.goes after good) := by
  intro state hat
  obtain ⟨value, later, hdone, hlater, hvalue⟩ := Outcome.exists_of_goes (h state hat)
  rw [hdone]
  exact ⟨hlater, hgood value hvalue⟩

/-- Symbols behind the current token may be read as others. -/
theorem Runs.respell {outcome : Outcome α} {more : List Symbol}
    (hspans : ∀ text, Spans before text → Spans more text)
    (h : Runs outer parser (.token sight :: more) outcome) :
    Runs outer parser (.token sight :: before) outcome := by
  intro state hat
  obtain ⟨start, stop, htoken⟩ := hat.token
  exact h state { hat with position := ⟨_, _, start, stop, rfl, htoken, hspans _ hat.spans⟩ }

theorem Runs.within {change : Context → Context} {outcome : Outcome α}
    (h : Runs (change outer) parser before outcome) :
    Runs outer (within change parser) before outcome := by
  intro state hat
  have hrun := h _ hat.within
  unfold Parser.within
  cases outcome with
  | goes after good =>
      obtain ⟨value, later, hdone, hlater, hgood⟩ := Outcome.exists_of_goes hrun
      rw [hdone]
      exact ⟨⟨hlater.dialect, hat.context, hlater.faults, hlater.tokenFaults, hlater.openDefaults,
        hlater.scriptFaults, hlater.isScript, hlater.noArrows, hlater.position⟩, hgood⟩
  | fails =>
      obtain ⟨place, later, hfailed⟩ := Outcome.exists_of_fails hrun
      rw [hfailed]
      trivial

theorem Runs.pos {c : Prop} [Decidable c] {first other : Parser β} (hc : c)
    (h : Runs outer first before outcome) :
    Runs outer (if c then first else other) before outcome := by
  rwa [if_pos hc]

theorem Runs.neg {c : Prop} [Decidable c] {first other : Parser β} (hc : ¬ c)
    (h : Runs outer other before outcome) :
    Runs outer (if c then first else other) before outcome := by
  rwa [if_neg hc]

/-! ### Looking around -/

theorem Runs.look {look : ReaderState → α} {next : α → Parser β}
    (h : ∀ state, At outer before state → Runs outer (next (look state)) before outcome) :
    Runs outer ((fun state => .done (look state) state : Parser α) >>= next) before outcome :=
  fun state hat => h state hat state hat

theorem Runs.token {next : Token → Parser β}
    (h : ∀ start stop, Runs outer (next (sight.token start stop)) (.token sight :: after) outcome) :
    Runs outer (Parser.token >>= next) (.token sight :: after) outcome :=
  .look fun state hat => by
    obtain ⟨start, stop, htoken⟩ := hat.token
    rw [htoken]
    exact h start stop

theorem Runs.here {next : Nat → Parser β} (h : ∀ place, Runs outer (next place) before outcome) :
    Runs outer (Parser.here >>= next) before outcome :=
  .look fun _ _ => h _

theorem Runs.lastStop {next : Nat → Parser β}
    (h : ∀ place, Runs outer (next place) before outcome) :
    Runs outer (Parser.lastStop >>= next) before outcome :=
  .look fun _ _ => h _

theorem Runs.context {next : Context → Parser β} (h : Runs outer (next outer) before outcome) :
    Runs outer (Parser.context >>= next) before outcome :=
  .look fun _ hat => by rwa [hat.context]

theorem Runs.dialect {next : Dialect → Parser β} (h : Runs outer (next .plain) before outcome) :
    Runs outer (Parser.dialect >>= next) before outcome :=
  .look fun _ hat => by rwa [hat.dialect]

theorem Runs.atSign {sign : Sign} {next : Bool → Parser β}
    (h : Runs outer (next ((sight.token 0 0).isSign sign)) (.token sight :: after) outcome) :
    Runs outer (Parser.atSign sign >>= next) (.token sight :: after) outcome :=
  .look fun state hat => by
    obtain ⟨start, stop, htoken⟩ := hat.token
    rw [htoken]
    exact h

theorem Runs.atWord {word : Word} {next : Bool → Parser β}
    (h : Runs outer (next ((sight.token 0 0).isWord word)) (.token sight :: after) outcome) :
    Runs outer (Parser.atWord word >>= next) (.token sight :: after) outcome :=
  .look fun state hat => by
    obtain ⟨start, stop, htoken⟩ := hat.token
    rw [htoken]
    exact h

/-! ### Going on -/

theorem runs_skip {sight' : Sight} :
    Runs outer skip (.token sight :: .token sight' :: after)
      (.goes (.token sight' :: after) fun _ => True) := by
  intro state hat
  obtain ⟨rest, hscans, hspans⟩ := hat.spans
  obtain ⟨start, hfaults, hrest, htoken⟩ := hscans (gapAfter state) state.cursor.offset
  refine ⟨⟨hat.dialect, hat.context, hat.faults, ?_, hat.openDefaults, hat.scriptFaults,
    hat.isScript, fun place hplace => ?_, sight', after, start, _, rfl, htoken, hrest ▸ hspans⟩,
    trivial⟩
  · change (scanLexeme (gapAfter state) state.cursor).faults.foldl _ state.tokenFaults = []
    rw [hfaults, List.foldl_nil, hat.tokenFaults]
  · have hstart := start_le_scanLexeme (gapAfter state) state.cursor
    have hstop := (sound_scanLexeme (gapAfter state) state.cursor).1
    exact (hat.noArrows place hplace).trans_le (hstart.trans hstop)

theorem Runs.skip {sight' : Sight} {next : Unit → Parser β}
    (h : ∀ value, Runs outer (next value) (.token sight' :: after) outcome) :
    Runs outer (Parser.skip >>= next) (.token sight :: .token sight' :: after) outcome :=
  runs_skip.bind fun value _ => h value

theorem runs_advance {sight' : Sight} :
    Runs outer advance (.token sight :: .token sight' :: after)
      (.goes (.token sight' :: after) fun _ => True) :=
  .token fun _ _ => runs_skip

theorem Runs.advance {sight' : Sight} {next : Unit → Parser β}
    (h : ∀ value, Runs outer (next value) (.token sight' :: after) outcome) :
    Runs outer (Parser.advance >>= next) (.token sight :: .token sight' :: after) outcome :=
  runs_advance.bind fun value _ => h value

theorem Runs.eat {sight' : Sight} {sign : Sign} {next : Bool → Parser β}
    (hsign : (sight.token 0 0).isSign sign = true)
    (h : Runs outer (next true) (.token sight' :: after) outcome) :
    Runs outer (Parser.eat sign >>= next) (.token sight :: .token sight' :: after) outcome := by
  have heat : Runs outer (Parser.eat sign) (.token sight :: .token sight' :: after)
      (.goes (.token sight' :: after) (· = true)) :=
    .atSign <| .pos hsign <| .advance fun _ => .done rfl
  exact heat.bind fun _ hvalue => hvalue ▸ h

theorem Runs.notEat {sign : Sign} {next : Bool → Parser β}
    (hsign : (sight.token 0 0).isSign sign = false)
    (h : Runs outer (next false) (.token sight :: after) outcome) :
    Runs outer (Parser.eat sign >>= next) (.token sight :: after) outcome :=
  .known false (.atSign <| .neg (by simp [hsign]) <| .done rfl) h

theorem Runs.notEatWord {word : Word} {next : Bool → Parser β}
    (hword : (sight.token 0 0).isWord word = false)
    (h : Runs outer (next false) (.token sight :: after) outcome) :
    Runs outer (Parser.eatWord word >>= next) (.token sight :: after) outcome :=
  .known false (.atWord <| .neg (by simp [hword]) <| .done rfl) h

theorem Runs.expect {sight' : Sight} {sign : Sign} {next : Unit → Parser β}
    (hsign : (sight.token 0 0).isSign sign = true)
    (h : ∀ value, Runs outer (next value) (.token sight' :: after) outcome) :
    Runs outer (Parser.expect sign >>= next) (.token sight :: .token sight' :: after) outcome := by
  have hexpect : Runs outer (Parser.expect sign) (.token sight :: .token sight' :: after)
      (.goes (.token sight' :: after) fun _ => True) := .atSign <| .pos hsign runs_advance
  exact hexpect.bind fun value _ => h value

theorem Runs.expectWord {sight' : Sight} {word : Word} {next : Unit → Parser β}
    (hword : (sight.token 0 0).isWord word = true)
    (h : ∀ value, Runs outer (next value) (.token sight' :: after) outcome) :
    Runs outer (Parser.expectWord word >>= next) (.token sight :: .token sight' :: after)
      outcome := by
  have hexpect : Runs outer (Parser.expectWord word) (.token sight :: .token sight' :: after)
      (.goes (.token sight' :: after) fun _ => True) := .atWord <| .pos hword runs_advance
  exact hexpect.bind fun value _ => h value

/-! ### Nodes -/

/-- The value of a reader is a tree, apart from places. -/
def Outcome.tree (after : List Symbol) (node : Node) : Outcome Node :=
  .goes after fun value => value.unplaced = node

theorem runs_finish {kind : Kind} {start : Nat} {children : List Node} {node : Node}
    (h : Node.of kind.unplaced (children.map Node.unplaced) = node) :
    Runs outer (finish kind start children) before (.tree before node) :=
  fun _ hat => ⟨hat, (Node.unplaced_mk ..).trans h⟩

theorem runs_leaf {sight' : Sight} {kind : Kind} :
    Runs outer (leaf kind) (.token sight :: .token sight' :: after)
      (.tree (.token sight' :: after) (.of kind.unplaced [])) :=
  .token fun _ _ => .skip fun _ => .done (Node.unplaced_mk ..)

end Rules

end Parser

end Bundler.Script
