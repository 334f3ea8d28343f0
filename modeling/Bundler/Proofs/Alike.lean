import Bundler.Proofs.Report
import Bundler.Proofs.Table
import Mathlib.Data.List.Forall2

/-! Results that correspond to each other: either both are errors, whatever these say, or neither
is and the values are related. Sequences correspond if their parts do. -/

namespace Bundler

variable {ε ε' σ τ α β γ δ : Type} {rel : α → β → Prop} {rel' : γ → δ → Prop}

/-- Both are errors, or both are values, and these are related. -/
inductive Alike (rel : α → β → Prop) : Except ε α → Except ε β → Prop where
  | ok {value : α} {other : β} (h : rel value other) : Alike rel (.ok value) (.ok other)
  | error (error error' : ε) : Alike rel (.error error) (.error error')

namespace Alike

variable {first : Except ε α} {second : Except ε β}

/-- A result corresponds to itself. -/
theorem refl (result : Except ε α) : Alike Eq result result := by
  cases result with
  | ok value => exact .ok rfl
  | error error => exact .error error error

theorem isOk_eq (h : Alike rel first second) : first.isOk = second.isOk := by
  cases h with
  | ok => rfl
  | error => rfl

theorem rel_of_ok {value : α} {other : β} (h : Alike rel first second)
    (hfirst : first = .ok value) (hsecond : second = .ok other) : rel value other := by
  cases h with
  | ok h =>
      obtain rfl := Except.ok.inj hfirst
      obtain rfl := Except.ok.inj hsecond
      exact h
  | error => cases hfirst

theorem bind {next : α → Except ε γ} {next' : β → Except ε δ} (h : Alike rel first second)
    (hnext : ∀ value other, first = .ok value → second = .ok other → rel value other →
      Alike rel' (next value) (next' other)) :
    Alike rel' (first >>= next) (second >>= next') := by
  cases h with
  | ok h => exact hnext _ _ rfl rfl h
  | error error error' => exact .error error error'

theorem imp {weaker : α → β → Prop} (h : Alike rel first second)
    (hvalue : ∀ value other, rel value other → weaker value other) :
    Alike weaker first second := by
  cases h with
  | ok h => exact .ok (hvalue _ _ h)
  | error error error' => exact .error error error'

theorem map {f : α → γ} {f' : β → δ} (h : Alike rel first second)
    (hvalue : ∀ value other, rel value other → rel' (f value) (f' other)) :
    Alike rel' (first.map f) (second.map f') := by
  cases h with
  | ok h => exact .ok (hvalue _ _ h)
  | error error error' => exact .error error error'

theorem mapError {wrap wrap' : ε → ε'} (h : Alike rel first second) :
    Alike rel (first.mapError wrap) (second.mapError wrap') := by
  cases h with
  | ok h => exact .ok h
  | error error error' => exact .error (wrap error) (wrap' error')

end Alike

namespace Report

theorem alike_log (event event' : Event) :
    Alike (ε := ε) Eq (log event).result (log event').result :=
  .ok rfl

theorem alike_ofExcept {result : Except ε α} {result' : Except ε β} (h : Alike rel result result') :
    Alike rel (ofExcept result).result (ofExcept result').result :=
  h

theorem alike_mapError {report : Report ε α} {report' : Report ε β} {wrap wrap' : ε → ε'}
    (h : Alike rel report.result report'.result) :
    Alike rel (report.mapError wrap).result (report'.mapError wrap').result := by
  unfold mapError
  obtain ⟨events, result⟩ := report
  obtain ⟨events', result'⟩ := report'
  cases h with
  | ok h => exact .ok h
  | error error error' => exact .error _ _

theorem alike_bind {first : Report ε α} {second : Report ε β} {next : α → Report ε γ}
    {next' : β → Report ε δ} (h : Alike rel first.result second.result)
    (hnext : ∀ value other, first.result = .ok value → second.result = .ok other →
      rel value other → Alike rel' (next value).result (next' other).result) :
    Alike rel' (first >>= next).result (second >>= next').result := by
  rw [bind_result, bind_result]
  exact h.bind hnext

end Report

/-- The states are related, and the results correspond. -/
structure Outcome.Alike (states : σ → τ → Prop) (values : α → β → Prop) (outcome : Outcome σ ε α)
    (other : Outcome τ ε β) : Prop where
  state : states outcome.state other.state
  result : Bundler.Alike values outcome.result other.result

namespace Action

variable {states : σ → τ → Prop} {state : σ} {state' : τ}

theorem alike_ok {value : α} (h : states state state') :
    Outcome.Alike (ε := ε) states Eq (ok value state) (ok value state') :=
  ⟨h, .ok rfl⟩

theorem alike_ofReport {report : Report ε α} {report' : Report ε β} (h : states state state')
    (hresult : Alike rel report.result report'.result) :
    Outcome.Alike states rel (ofReport report state) (ofReport report' state') :=
  ⟨h, hresult⟩

theorem alike_ofExcept {result : Except ε α} {result' : Except ε β} (h : states state state')
    (hresult : Alike rel result result') :
    Outcome.Alike states rel (ofExcept result state) (ofExcept result' state') :=
  ⟨h, hresult⟩

theorem alike_log (event event' : Event) (h : states state state') :
    Outcome.Alike (ε := ε) states Eq (log event state) (log event' state') :=
  ⟨h, .ok rfl⟩

theorem alike_bind {first : Action σ ε α} {second : Action τ ε β} {next : α → Action σ ε γ}
    {next' : β → Action τ ε δ}
    (h : Outcome.Alike states rel (first state) (second state'))
    (hnext : ∀ value other, (first state).result = .ok value → (second state').result = .ok other →
      rel value other →
        Outcome.Alike states rel' (next value (first state).state)
          (next' other (second state').state)) :
    Outcome.Alike states rel' ((first >>= next) state) ((second >>= next') state') := by
  cases hfirst : (first state).result with
  | error error =>
      obtain ⟨hstate, hresult⟩ := h
      rw [hfirst] at hresult
      cases hsecond : (second state').result with
      | ok other =>
          rw [hsecond] at hresult
          cases hresult
      | error error' =>
          obtain ⟨hs, hr⟩ := bind_of_error next hfirst
          obtain ⟨hs', hr'⟩ := bind_of_error next' hsecond
          exact ⟨by rwa [hs, hs'], by rw [hr, hr']; exact .error error error'⟩
  | ok value =>
      cases hsecond : (second state').result with
      | error error =>
          have hresult := h.result
          rw [hfirst, hsecond] at hresult
          cases hresult
      | ok other =>
          obtain ⟨hs, hr⟩ := bind_of_ok next hfirst
          obtain ⟨hs', hr'⟩ := bind_of_ok next' hsecond
          have hlater := hnext value other hfirst hsecond (h.result.rel_of_ok hfirst hsecond)
          exact ⟨by rw [hs, hs']; exact hlater.state, by rw [hr, hr']; exact hlater.result⟩

/-- Actions that look at their states go on from these. -/
theorem alike_bind_get {next : σ → Action σ ε γ} {next' : τ → Action τ ε δ}
    (h : Outcome.Alike states rel' (next state state) (next' state' state')) :
    Outcome.Alike states rel' ((get >>= next) state) ((get >>= next') state') :=
  ⟨h.state, h.result⟩

theorem alike_map {f : α → γ} {f' : β → δ} {action : Action σ ε α} {other : Action τ ε β}
    (h : Outcome.Alike states rel (action state) (other state'))
    (hvalue : ∀ value value', rel value value' → rel' (f value) (f' value')) :
    Outcome.Alike states rel' ((f <$> action) state) ((f' <$> other) state') :=
  alike_bind h fun value value' _ _ hrel => ⟨h.state, .ok (hvalue value value' hrel)⟩

end Action

namespace Table

/-- Tables of the same names in the same order, with related values. -/
def Alike (rel : α → β → Prop) (table : Table α) (other : Table β) : Prop :=
  List.Forall₂ (fun entry entry' => entry.1 = entry'.1 ∧ rel entry.2 entry'.2) table.entries
    other.entries

variable {table : Table α} {other : Table β} {value : α} {value' : β}

theorem alike_empty : (empty : Table α).Alike rel (empty : Table β) :=
  .nil

theorem Alike.keys_eq (h : table.Alike rel other) : table.keys = other.keys := by
  have hnames : ∀ {entries : List (String × α)} {entries' : List (String × β)},
      List.Forall₂ (fun entry entry' => entry.1 = entry'.1 ∧ rel entry.2 entry'.2) entries
        entries' → names entries = names entries' := by
    intro entries entries' h
    induction h with
    | nil => rfl
    | cons hfirst _ ih => exact congrArg₂ List.cons hfirst.1 ih
  exact hnames h

theorem Alike.insert (h : table.Alike rel other) (key : String) (hvalue : rel value value') :
    (table.insert key value).Alike rel (other.insert key value') := by
  have hput : ∀ {entries : List (String × α)} {entries' : List (String × β)},
      List.Forall₂ (fun entry entry' => entry.1 = entry'.1 ∧ rel entry.2 entry'.2) entries
        entries' →
      List.Forall₂ (fun entry entry' => entry.1 = entry'.1 ∧ rel entry.2 entry'.2)
        (put key value entries) (put key value' entries') := by
    intro entries entries' h
    induction h with
    | nil => exact .cons ⟨rfl, hvalue⟩ .nil
    | @cons first first' rest rest' hfirst hrest ih =>
        obtain ⟨name, held⟩ := first
        obtain ⟨name', held'⟩ := first'
        obtain ⟨rfl, hheld⟩ : name = name' ∧ rel held held' := hfirst
        rw [put, put]
        by_cases hname : name = key
        · rw [if_pos hname, if_pos hname]
          exact .cons ⟨rfl, hvalue⟩ hrest
        · rw [if_neg hname, if_neg hname]
          exact .cons ⟨rfl, hheld⟩ ih
  exact hput h

end Table

end Bundler
