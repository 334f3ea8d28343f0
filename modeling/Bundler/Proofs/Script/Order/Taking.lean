import Bundler.Proofs.Script.Order.Place
import Bundler.Proofs.Script.Order.Scanning
import Bundler.Script.Reader.State

/-! How readers keep places in order. A reader that goes on from places in ascending order comes to
places in ascending order, unless it notes a fault. -/

namespace Bundler.Script

/-- What has places that count. -/
class Placed (α : Type) where
  places : α → List Nat

export Placed (places)

section Placed

variable {α β : Type}

/-- Anything but a tree has no places. -/
instance (priority := low) : Placed α := ⟨fun _ => []⟩

instance : Placed Node := ⟨Node.starts⟩

instance : Placed (List Node) := ⟨Node.startsAll⟩

instance [Placed α] : Placed (Option α) := ⟨fun value => (value.map places).getD []⟩

instance [Placed α] [Placed β] : Placed (α × β) := ⟨fun pair => places pair.1 ++ places pair.2⟩

@[simp] theorem places_node (node : Node) : places node = node.starts := rfl

@[simp] theorem places_nodes (nodes : List Node) : places nodes = Node.startsAll nodes := rfl

@[simp] theorem places_none [Placed α] : places (none : Option α) = [] := rfl

@[simp] theorem places_some [Placed α] (value : α) : places (some value) = places value := rfl

@[simp] theorem places_pair [Placed α] [Placed β] (first : α) (second : β) :
    places (first, second) = places first ++ places second := rfl

@[simp] theorem places_nat (value : Nat) : places value = [] := rfl

@[simp] theorem places_bool (value : Bool) : places value = [] := rfl

@[simp] theorem places_unit (value : Unit) : places value = [] := rfl

@[simp] theorem places_word (value : String) : places value = [] := rfl

@[simp] theorem places_place (value : Option Nat) : places value = [] := by cases value <;> rfl

end Placed

namespace ReaderState

/-- The current token does not end before it begins, and a sign ends behind that. -/
structure Sound (state : ReaderState) : Prop where
  le : state.token.start ≤ state.cursor.offset
  lt : ∀ sign, state.token.kind = .sign sign → state.token.start < state.cursor.offset

/-- A reader has come past places in ascending order, unless it has noted a fault. -/
structure Passed (state : ReaderState) (place : Nat) (starts : List Nat) : Prop where
  sound : state.Sound
  ascends : state.faults = [] → Ascends place starts state.token.start

/-- A reader has passed nothing from where it is. -/
theorem Sound.passed {state : ReaderState} (h : state.Sound) : state.Passed state.token.start [] :=
  ⟨h, fun _ => Nat.le_refl _⟩

end ReaderState

namespace Parser

variable {α β : Type} {place : Nat} {before : List Nat}

/-- From some places a reader comes to others. No fault is taken back. -/
def Takes (place : Nat) (before : List Nat) (parser : Parser α) (after : α → List Nat) : Prop :=
  ∀ ⦃state value later⦄, state.Passed place before → parser state = .done value later →
    later.Passed place (after value) ∧ (later.faults = [] → state.faults = [])

/-- A reader goes forward, if it moves at all. -/
def Quiet (parser : Parser α) : Prop :=
  ∀ ⦃state value later⦄, state.Sound → parser state = .done value later →
    later.Sound ∧ (later.faults = [] → state.faults = [] ∧ state.token.start ≤ later.token.start)

/-- A reader adds the places in what it reads. -/
def Reads [Placed α] (parser : Parser α) : Prop :=
  ∀ ⦃place before⦄, Takes place before parser fun value => before ++ places value

/-- What a reader gives is of some kind. -/
def Yields (parser : Parser α) (good : α → Prop) : Prop :=
  ∀ ⦃state value later⦄, parser state = .done value later → good value

section Rules

variable {parser : Parser α} {next : α → Parser β} {after : β → List Nat}

theorem bind_eq_done {state later : ReaderState} {value : β} :
    (parser >>= next) state = .done value later ↔
      ∃ first middle,
        parser state = .done first middle ∧ next first middle = .done value later := by
  simp only [bind]
  cases parser state <;> simp

theorem pure_eq_done {state later : ReaderState} {given value : α} :
    (pure given : Parser α) state = .done value later ↔ given = value ∧ state = later := by
  change Reading.done given state = _ ↔ _
  rw [Reading.done.injEq]

theorem Yields.bind {good : α → Prop} {fine : β → Prop} (h : Yields parser good)
    (hnext : ∀ value, good value → Yields (next value) fine) : Yields (parser >>= next) fine := by
  intro state value later hdone
  obtain ⟨first, middle, hfirst, hlast⟩ := bind_eq_done.mp hdone
  exact hnext first (h hfirst) hlast

theorem Yields.skip {fine : β → Prop} (hnext : ∀ value, Yields (next value) fine) :
    Yields (parser >>= next) fine := by
  intro state value later hdone
  obtain ⟨first, middle, -, hlast⟩ := bind_eq_done.mp hdone
  exact hnext first hlast

theorem Yields.done {value : α} {good : α → Prop} (h : good value) :
    Yields (pure value) good := by
  intro state other later hdone
  obtain ⟨rfl, -⟩ := pure_eq_done.mp hdone
  exact h

theorem Quiet.bind (h : Quiet parser) (hnext : ∀ value, Quiet (next value)) :
    Quiet (parser >>= next) := by
  intro state value later hsound hdone
  obtain ⟨first, middle, hfirst, hlast⟩ := bind_eq_done.mp hdone
  obtain ⟨hmiddle, hgo⟩ := h hsound hfirst
  obtain ⟨hlater, hgo'⟩ := hnext first hmiddle hlast
  refine ⟨hlater, fun hnone => ?_⟩
  obtain ⟨hnone, hle⟩ := hgo' hnone
  exact ⟨(hgo hnone).1, Nat.le_trans (hgo hnone).2 hle⟩

theorem Quiet.done (value : α) : Quiet (pure value) := by
  intro state other later hsound hdone
  obtain ⟨-, rfl⟩ := pure_eq_done.mp hdone
  exact ⟨hsound, fun hnone => ⟨hnone, Nat.le_refl _⟩⟩

theorem Quiet.ite {c : Prop} [Decidable c] {other : Parser α} (h : Quiet parser)
    (h' : Quiet other) : Quiet (if c then parser else other) := by
  split
  · exact h
  · exact h'

/-- A reader may be left out of a quiet one. -/
theorem Quiet.when {c : Prop} [Decidable c] {parser : Parser Unit} {next : Unit → Parser β}
    (h : Quiet parser) (hnext : ∀ value, Quiet (next value)) :
    Quiet (if c then parser >>= next else next ()) :=
  .ite (h.bind hnext) (hnext ())

theorem Quiet.takes (h : Quiet parser) : Takes place before parser fun _ => before := by
  intro state value later hpassed hdone
  obtain ⟨hsound, hgo⟩ := h hpassed.sound hdone
  exact ⟨⟨hsound, fun hnone => (hpassed.ascends (hgo hnone).1).extend (hgo hnone).2⟩,
    fun hnone => (hgo hnone).1⟩

theorem Takes.bind {middle : α → List Nat} (h : Takes place before parser middle)
    (hnext : ∀ value, Takes place (middle value) (next value) after) :
    Takes place before (parser >>= next) after := by
  intro state value later hpassed hdone
  obtain ⟨first, between, hfirst, hlast⟩ := bind_eq_done.mp hdone
  obtain ⟨hbetween, hnone⟩ := h hpassed hfirst
  obtain ⟨hlater, hnone'⟩ := hnext first hbetween hlast
  exact ⟨hlater, hnone ∘ hnone'⟩

/-- Goes on after a quiet reader. -/
theorem Takes.step (h : Quiet parser) (hnext : ∀ value, Takes place before (next value) after) :
    Takes place before (parser >>= next) after :=
  h.takes.bind hnext

/-- Goes on after a quiet reader with what is known of its result. -/
theorem Takes.knowing {good : α → Prop} (h : Quiet parser) (hgood : Yields parser good)
    (hnext : ∀ value, good value → Takes place before (next value) after) :
    Takes place before (parser >>= next) after := by
  intro state value later hpassed hdone
  obtain ⟨first, middle, hfirst, hlast⟩ := bind_eq_done.mp hdone
  obtain ⟨hmiddle, hnone⟩ := h.takes hpassed hfirst
  obtain ⟨hlater, hnone'⟩ := hnext first (hgood hfirst) hmiddle hlast
  exact ⟨hlater, hnone ∘ hnone'⟩

/-- Goes on after something was read. -/
theorem Takes.read [Placed α] (h : Reads parser)
    (hnext : ∀ value, Takes place (before ++ places value) (next value) after) :
    Takes place before (parser >>= next) after :=
  h.bind hnext

/-- Goes on after a pair was read. -/
theorem Takes.both {γ : Type} [Placed α] [Placed γ] {parser : Parser (α × γ)}
    {next : α × γ → Parser β} (h : Reads parser)
    (hnext : ∀ first second, Takes place (before ++ (places first ++ places second))
      (next (first, second)) after) :
    Takes place before (parser >>= next) after :=
  h.bind fun pair => hnext pair.1 pair.2

/-- Goes on after a quiet reader that may be left out. -/
theorem Takes.when {c : Prop} [Decidable c] {parser : Parser Unit} {next : Unit → Parser β}
    (h : Quiet parser) (hnext : ∀ value, Takes place before (next value) after) :
    Takes place before (if c then parser >>= next else next ()) after := by
  split
  · exact .step h hnext
  · exact hnext ()

theorem Takes.ite {c : Prop} [Decidable c] {parser other : Parser β}
    (h : Takes place before parser after) (h' : Takes place before other after) :
    Takes place before (if c then parser else other) after := by
  split
  · exact h
  · exact h'

/-- Goes on after one of two quiet readers. -/
theorem Takes.pick {c : Prop} [Decidable c] {other : Parser α} (h : Quiet parser)
    (h' : Quiet other) (hnext : ∀ value, Takes place before (next value) after) :
    Takes place before (if c then parser >>= next else other >>= next) after :=
  .ite (.step h hnext) (.step h' hnext)

/-- Goes on after one of two readers. -/
theorem Takes.either [Placed α] {c : Prop} [Decidable c] {other : Parser α} (h : Reads parser)
    (h' : Reads other)
    (hnext : ∀ value, Takes place (before ++ places value) (next value) after) :
    Takes place before (if c then parser >>= next else other >>= next) after :=
  .ite (.read h hnext) (.read h' hnext)

theorem Takes.weaken {parser : Parser β} {more : List Nat} {after' : β → List Nat}
    (h : Takes place before parser after) (hbefore : before.Sublist more)
    (hafter : ∀ value, (after' value).Sublist (after value)) :
    Takes place more parser after' := by
  intro state value later hpassed hdone
  have hless : state.Passed place before :=
    ⟨hpassed.sound, fun hnone => (hpassed.ascends hnone).sublist hbefore⟩
  obtain ⟨hlater, hnone⟩ := h hless hdone
  exact ⟨⟨hlater.sound, fun hnone => (hlater.ascends hnone).sublist (hafter value)⟩, hnone⟩

theorem Takes.done {value : β} (h : (after value).Sublist before) :
    Takes place before (pure value) after := by
  intro state other later hpassed hdone
  obtain ⟨rfl, rfl⟩ := pure_eq_done.mp hdone
  exact ⟨⟨hpassed.sound, fun hnone => (hpassed.ascends hnone).sublist h⟩, id⟩

/-- A reader that reads something goes forward. -/
theorem Reads.quiet [Placed α] (h : Reads parser) : Quiet parser := by
  intro state value later hsound hdone
  obtain ⟨hlater, hnone⟩ := h hsound.passed hdone
  exact ⟨hlater.sound, fun hfaults => ⟨hnone hfaults, (hlater.ascends hfaults).le⟩⟩

theorem Reads.takes [Placed α] (h : Reads parser) :
    Takes place before parser fun value => before ++ places value :=
  @h place before

theorem Reads.map [Placed α] [Placed β] (h : Reads parser) {f : α → β}
    (hf : ∀ value, (places (f value)).Sublist (places value)) : Reads (f <$> parser) := by
  intro place before
  change Takes place before (parser >>= fun value => pure (f value)) _
  exact .read h fun value => .done ((hf value).append_left before)

theorem Reads.some [Placed α] (h : Reads parser) : Reads (Option.some <$> parser) :=
  h.map fun _ => .refl _

/-- A reader that knows where it is may begin to count there. -/
theorem Takes.from_here {next : Nat → Parser β} {read : β → List Nat}
    (h : ∀ start, Takes start [] (next start) read) :
    Takes place before (here >>= next) fun value => before ++ read value := by
  intro state value later hpassed hdone
  obtain ⟨start, middle, hhere, hlast⟩ := bind_eq_done.mp hdone
  obtain ⟨rfl, rfl⟩ := Reading.done.inj hhere
  obtain ⟨hlater, hnone⟩ := h _ hpassed.sound.passed hlast
  exact ⟨⟨hlater.sound, fun hfaults =>
    (hpassed.ascends (hnone hfaults)).append (hlater.ascends hfaults)⟩, hnone⟩

end Rules

/-! ### The smallest readers -/

theorem quiet_modify {change : ReaderState → ReaderState}
    (htoken : ∀ state, (change state).token = state.token)
    (hcursor : ∀ state, (change state).cursor = state.cursor)
    (hfaults : ∀ state, (change state).faults = [] → state.faults = []) :
    Quiet (modify change) := by
  intro state value later hsound hdone
  obtain ⟨-, rfl⟩ := Reading.done.inj hdone
  refine ⟨⟨?_, ?_⟩, fun hnone => ⟨hfaults state hnone, ?_⟩⟩
  · rw [htoken, hcursor]
    exact hsound.le
  · rw [htoken, hcursor]
    exact hsound.lt
  · exact Nat.le_of_eq (congrArg Token.start (htoken state)).symm

/-- A reader that looks at the state and leaves it as it is. -/
theorem quiet_of_look {look : ReaderState → α} {parser : Parser α}
    (h : ∀ state, parser state = .done (look state) state) : Quiet parser := by
  intro state value later hsound hdone
  rw [h] at hdone
  obtain ⟨-, rfl⟩ := Reading.done.inj hdone
  exact ⟨hsound, fun hnone => ⟨hnone, Nat.le_refl _⟩⟩

theorem quiet_token : Quiet token := quiet_of_look fun _ => rfl

theorem quiet_here : Quiet here := quiet_of_look fun _ => rfl

theorem quiet_lastStop : Quiet lastStop := quiet_of_look fun _ => rfl

theorem quiet_context : Quiet context := quiet_of_look fun _ => rfl

theorem quiet_dialect : Quiet dialect := quiet_of_look fun _ => rfl

theorem quiet_get : Quiet get := quiet_of_look fun _ => rfl

theorem quiet_atSign (sign : Sign) : Quiet (atSign sign) := quiet_of_look fun _ => rfl

theorem quiet_atWord (word : Word) : Quiet (atWord word) := quiet_of_look fun _ => rfl

theorem quiet_foresee (parser : Parser Bool) : Quiet (foresee parser) := by
  intro state value later hsound hdone
  unfold foresee at hdone
  split at hdone <;> obtain ⟨-, rfl⟩ := Reading.done.inj hdone <;>
    exact ⟨hsound, fun hnone => ⟨hnone, Nat.le_refl _⟩⟩

theorem quiet_fault (place : Nat) : Quiet (fault place) :=
  quiet_modify (fun _ => rfl) (fun _ => rfl) fun _ hnone => by cases hnone

theorem quiet_scriptFault (place : Nat) : Quiet (scriptFault place) :=
  quiet_modify (fun _ => rfl) (fun _ => rfl) fun _ => id

theorem takes_failAt (stop : Nat) {after : α → List Nat} :
    Takes place before (failAt stop) after := by
  intro state value later _ hdone
  cases hdone

theorem Takes.fail {next : α → Parser β} {after : β → List Nat} (stop : Nat) :
    Takes place before (failAt stop >>= next) after := by
  intro state value later _ hdone
  cases hdone

theorem takes_unexpected {after : α → List Nat} : Takes place before unexpected after := by
  intro state value later _ hdone
  unfold unexpected at hdone
  split at hdone <;> cases hdone

theorem yields_failAt (stop : Nat) {good : α → Prop} : Yields (failAt stop) good := by
  intro state value later hdone
  cases hdone

theorem yields_unexpected {good : α → Prop} : Yields unexpected good := by
  intro state value later hdone
  unfold unexpected at hdone
  split at hdone <;> cases hdone

/-- Once a fault is noted nothing has to be in order. -/
theorem Takes.spoil {next : Unit → Parser α} {after : α → List Nat} (stop : Nat)
    (hnext : ∀ value, Quiet (next value)) : Takes place before (fault stop >>= next) after := by
  intro state value later hpassed hdone
  obtain ⟨_, noted, hfault, hlast⟩ := bind_eq_done.mp hdone
  obtain ⟨hnoted, -⟩ := quiet_fault stop hpassed.sound hfault
  obtain ⟨hsound, hgo⟩ := hnext _ hnoted hlast
  have hsome : later.faults ≠ [] := fun hnone => by
    have hnoted := (hgo hnone).1
    obtain ⟨-, rfl⟩ := Reading.done.inj hfault
    cases hnoted
  exact ⟨⟨hsound, fun hnone => absurd hnone hsome⟩, fun hnone => absurd hnone hsome⟩

end Parser

end Bundler.Script
