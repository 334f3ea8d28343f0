import Bundler.Event

/-!
# Reports and actions

A report is a result together with the events that led to it. An action also changes a state,
and the state it leaves is kept when it fails.
-/

namespace Bundler

/-- A result or an error, and the events before it. -/
structure Report (ε α : Type) where
  events : List Event
  result : Except ε α

namespace Report

variable {ε ε' α β : Type}

/-- A result without events. -/
def ok (value : α) : Report ε α := ⟨[], .ok value⟩

/-- An error without events. -/
def fail (error : ε) : Report ε α := ⟨[], .error error⟩

def log (event : Event) : Report ε Unit := ⟨[event], .ok ()⟩

/-- A result or an error without events. -/
def ofExcept (result : Except ε α) : Report ε α := ⟨[], result⟩

def andThen (first : Report ε α) (next : α → Report ε β) : Report ε β :=
  match first.result with
  | .ok value => ⟨first.events ++ (next value).events, (next value).result⟩
  | .error error => ⟨first.events, .error error⟩

instance : Monad (Report ε) where
  pure := ok
  bind := andThen

def mapError (wrap : ε → ε') (report : Report ε α) : Report ε' α :=
  ⟨report.events,
    match report.result with
    | .ok value => .ok value
    | .error error => .error (wrap error)⟩

end Report

/-- What an action leaves: a state, the events on the way, and a result or an error. -/
structure Outcome (σ ε α : Type) where
  state : σ
  events : List Event
  result : Except ε α

/-- A computation that changes a state and reports events. -/
def Action (σ ε α : Type) : Type := σ → Outcome σ ε α

namespace Action

variable {σ ε α β : Type}

/-- A result without any effect. -/
def ok (value : α) : Action σ ε α := fun state => ⟨state, [], .ok value⟩

/-- An error without any effect. -/
def fail (error : ε) : Action σ ε α := fun state => ⟨state, [], .error error⟩

/-- Goes on with a result, from the state it left. -/
def andThen (first : Action σ ε α) (next : α → Action σ ε β) : Action σ ε β := fun state =>
  let before := first state
  match before.result with
  | .ok value =>
    let after := next value before.state
    ⟨after.state, before.events ++ after.events, after.result⟩
  | .error error => ⟨before.state, before.events, .error error⟩

instance : Monad (Action σ ε) where
  pure := ok
  bind := andThen

def get : Action σ ε σ := fun state => ⟨state, [], .ok state⟩

def modify (change : σ → σ) : Action σ ε Unit := fun state => ⟨change state, [], .ok ()⟩

def log (event : Event) : Action σ ε Unit := fun state => ⟨state, [event], .ok ()⟩

/-- A report, which leaves the state as it is. -/
def ofReport (report : Report ε α) : Action σ ε α := fun state =>
  ⟨state, report.events, report.result⟩

def ofExcept (result : Except ε α) : Action σ ε α := fun state => ⟨state, [], result⟩

def mapError {ε' : Type} (wrap : ε → ε') (action : Action σ ε α) : Action σ ε' α := fun state =>
  let outcome := action state
  ⟨outcome.state, outcome.events,
    match outcome.result with
    | .ok value => .ok value
    | .error error => .error (wrap error)⟩

def focus {τ : Type} (part : τ → σ) (update : τ → σ → τ) (action : Action σ ε α) :
    Action τ ε α := fun state =>
  let outcome := action (part state)
  ⟨update state outcome.state, outcome.events, outcome.result⟩

end Action

end Bundler
