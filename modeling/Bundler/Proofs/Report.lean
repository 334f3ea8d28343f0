import Bundler.Report

/-! Sequences of results, reports and actions. A sequence succeeds only if both of its parts do,
and its second part starts from the state that the first one leaves. -/

namespace Bundler

theorem mapError_eq_ok {ε ε' α : Type} {wrap : ε → ε'} {result : Except ε α} {value : α}
    (h : result.mapError wrap = .ok value) : result = .ok value := by
  cases result with
  | error error => cases h
  | ok other => exact congrArg Except.ok (Except.ok.inj h)

theorem mapError_eq_error_iff {ε ε' α : Type} {wrap : ε → ε'} {result : Except ε α} {error : ε'} :
    result.mapError wrap = .error error ↔
      ∃ reason, result = .error reason ∧ error = wrap reason := by
  cases result with
  | error reason =>
      change Except.error (wrap reason) = .error error ↔ _
      simp [eq_comm]
  | ok value =>
      change Except.ok value = .error error ↔ _
      simp

theorem exists_eq_ok {ε α : Type} {result : Except ε α} (h : result.isOk = true) :
    ∃ value, result = .ok value := by
  cases result with
  | error error => cases h
  | ok value => exact ⟨value, rfl⟩

theorem bind_eq_ok_iff {ε α β : Type} {first : Except ε α} {next : α → Except ε β} {value : β} :
    (first >>= next) = .ok value ↔ ∃ middle, first = .ok middle ∧ next middle = .ok value := by
  cases first <;> simp [bind, Except.bind]

theorem bind_eq_error_iff {ε α β : Type} {first : Except ε α} {next : α → Except ε β} {error : ε} :
    (first >>= next) = .error error ↔
      first = .error error ∨ ∃ middle, first = .ok middle ∧ next middle = .error error := by
  cases first <;> simp [bind, Except.bind]

namespace Report

variable {ε α β : Type}

theorem bind_eq_ok {first : Report ε α} {next : α → Report ε β} {value : β}
    (h : (first >>= next).result = .ok value) :
    ∃ middle, first.result = .ok middle ∧ (next middle).result = .ok value := by
  change (first.andThen next).result = .ok value at h
  unfold andThen at h
  cases hf : first.result with
  | error error => simp [hf] at h
  | ok middle => exact ⟨middle, rfl, by simpa [hf] using h⟩

theorem bind_result (first : Report ε α) (next : α → Report ε β) :
    (first >>= next).result = first.result >>= fun value => (next value).result := by
  change (first.andThen next).result = _
  unfold andThen
  cases first.result <;> rfl

theorem bind_of_ok {first : Report ε α} (next : α → Report ε β) {value : α}
    (h : first.result = .ok value) :
    (first >>= next) = ⟨first.events ++ (next value).events, (next value).result⟩ := by
  change first.andThen next = _
  simp [andThen, h]

theorem bind_of_error {first : Report ε α} (next : α → Report ε β) {error : ε}
    (h : first.result = .error error) : (first >>= next) = ⟨first.events, .error error⟩ := by
  change first.andThen next = _
  simp [andThen, h]

theorem bind_ok (report : Report ε α) : (report >>= ok) = report := by
  change report.andThen ok = report
  obtain ⟨events, result⟩ := report
  cases result <;> simp [andThen, ok]

theorem bind_assoc {γ : Type} (first : Report ε α) (next : α → Report ε β) (last : β → Report ε γ) :
    first >>= next >>= last = first >>= fun value => next value >>= last := by
  change (first.andThen next).andThen last = first.andThen fun value => (next value).andThen last
  simp only [andThen]
  cases first.result with
  | error error => rfl
  | ok value => cases hnext : (next value).result <;> simp [hnext, List.append_assoc]

/-- What comes second matters only for the values that come from what is first. -/
theorem bind_congr {first : Report ε α} {next other : α → Report ε β}
    (h : ∀ value, first.result = .ok value → next value = other value) :
    (first >>= next) = (first >>= other) := by
  change first.andThen next = first.andThen other
  unfold andThen
  cases hfirst : first.result with
  | error error => rfl
  | ok value => simp only [h value hfirst]

end Report

namespace Action

variable {σ ε α β : Type} {first : Action σ ε α} {next : α → Action σ ε β} {state : σ}

@[simp] theorem ofReport_result (report : Report ε α) (state : σ) :
    (ofReport report state).result = report.result := rfl

theorem bind_of_ok (next : α → Action σ ε β) {middle : α}
    (h : (first state).result = .ok middle) :
    ((first >>= next) state).state = (next middle (first state).state).state ∧
      ((first >>= next) state).result = (next middle (first state).state).result := by
  change (first.andThen next state).state = _ ∧ (first.andThen next state).result = _
  simp [andThen, h]

theorem bind_of_error (next : α → Action σ ε β) {error : ε}
    (h : (first state).result = .error error) :
    ((first >>= next) state).state = (first state).state ∧
      ((first >>= next) state).result = .error error := by
  change (first.andThen next state).state = _ ∧ (first.andThen next state).result = _
  simp [andThen, h]

theorem bind_eq_ok {value : β} (h : ((first >>= next) state).result = .ok value) :
    ∃ middle, (first state).result = .ok middle ∧
      (next middle (first state).state).result = .ok value ∧
      ((first >>= next) state).state = (next middle (first state).state).state := by
  cases hf : (first state).result with
  | error error => simp [(bind_of_error next hf).2] at h
  | ok middle =>
      obtain ⟨hs, hr⟩ := bind_of_ok next hf
      exact ⟨middle, rfl, hr ▸ h, hs⟩

theorem bind_eq_error_iff {error : ε} :
    ((first >>= next) state).result = .error error ↔ (first state).result = .error error ∨
      ∃ middle, (first state).result = .ok middle ∧
        (next middle (first state).state).result = .error error := by
  cases hf : (first state).result with
  | error other => simp [(bind_of_error next hf).2]
  | ok middle => simp [(bind_of_ok next hf).2]

theorem map_state (f : α → β) (action : Action σ ε α) (state : σ) :
    ((f <$> action) state).state = (action state).state := by
  change (action.andThen (fun value => Action.ok (f value)) state).state = _
  simp only [andThen]
  cases (action state).result <;> rfl

theorem map_result (f : α → β) (action : Action σ ε α) (state : σ) :
    ((f <$> action) state).result = (action state).result.map f := by
  change (action.andThen (fun value => Action.ok (f value)) state).result = _
  simp only [andThen]
  cases (action state).result <;> rfl

theorem bind_congr {first' : Action σ ε α} {next' : α → Action σ ε β}
    (hfirst : first' state = first state)
    (hnext : ∀ value, (first state).result = .ok value →
      next' value (first state).state = next value (first state).state) :
    (first' >>= next') state = (first >>= next) state := by
  change first'.andThen next' state = first.andThen next state
  unfold andThen
  rw [hfirst]
  dsimp only
  cases hresult : (first state).result with
  | error error => simp only
  | ok value => simp only [hnext value hresult]

/-- The events of a sequence are those of its first part, and then those of its second. -/
theorem mem_events_bind {event : Event} (h : event ∈ ((first >>= next) state).events) :
    event ∈ (first state).events ∨ ∃ middle, (first state).result = .ok middle ∧
      event ∈ (next middle (first state).state).events := by
  change event ∈ (first.andThen next state).events at h
  unfold andThen at h
  cases hf : (first state).result with
  | error error =>
      simp only [hf] at h
      exact .inl h
  | ok middle =>
      simp only [hf] at h
      exact (List.mem_append.mp h).imp_right fun hlater => ⟨middle, rfl, hlater⟩

/-- What both parts of a sequence do to the state, the sequence does, failing or not. -/
theorem rel_bind (rel : σ → σ → Prop) (trans : ∀ {a b c}, rel a b → rel b c → rel a c)
    (hfirst : rel state (first state).state)
    (hnext : ∀ middle, rel (first state).state (next middle (first state).state).state) :
    rel state ((first >>= next) state).state := by
  cases hf : (first state).result with
  | error error => rwa [(bind_of_error next hf).1]
  | ok middle =>
      rw [(bind_of_ok next hf).1]
      exact trans hfirst (hnext middle)

/-! ### Calls one after the other -/

variable {κ : Type}

/-- Calls one after the other, up to the first that fails. -/
def each (run : κ → Action σ ε Unit) : List κ → Action σ ε Unit
  | [] => ok ()
  | call :: rest => do
      run call
      each run rest

/-- What every call does to the state, calls one after the other do, failing or not. -/
theorem rel_each (rel : σ → σ → Prop) (refl : ∀ state, rel state state)
    (trans : ∀ {a b c}, rel a b → rel b c → rel a c) {run : κ → Action σ ε Unit} {calls : List κ}
    (h : ∀ call ∈ calls, ∀ state, rel state (run call state).state) (state : σ) :
    rel state (each run calls state).state := by
  induction calls generalizing state with
  | nil => exact refl state
  | cons call rest ih =>
      obtain ⟨hfirst, hrest⟩ := List.forall_mem_cons.mp h
      exact rel_bind rel trans (hfirst state) fun _ => ih hrest _

/-- Calls fail at the first one that fails. -/
theorem each_eq_error_iff {run : κ → Action σ ε Unit} {calls : List κ} {start : σ} {error : ε} :
    (each run calls start).result = .error error ↔ ∃ earlier call later,
      calls = earlier ++ call :: later ∧ (each run earlier start).result = .ok () ∧
        (run call (each run earlier start).state).result = .error error := by
  induction calls generalizing start with
  | nil => simp [each, ok]
  | cons first rest ih =>
      rw [each, bind_eq_error_iff]
      constructor
      · rintro (hfirst | ⟨_, hok, hrest⟩)
        · exact ⟨[], first, rest, rfl, rfl, hfirst⟩
        · obtain ⟨earlier, call, later, rfl, hearlier, hcall⟩ := ih.mp hrest
          obtain ⟨hstate, hresult⟩ := bind_of_ok (fun _ => each run earlier) hok
          refine ⟨first :: earlier, call, later, rfl, hresult.trans hearlier, ?_⟩
          rw [each, hstate]
          exact hcall
      · rintro ⟨earlier, call, later, hcalls, hearlier, hcall⟩
        cases earlier with
        | nil =>
            obtain ⟨rfl, rfl⟩ := List.cons.inj hcalls
            exact .inl hcall
        | cons other earlier =>
            obtain ⟨rfl, rfl⟩ := List.cons.inj hcalls
            obtain ⟨_, hok, hrest, hstate⟩ := bind_eq_ok hearlier
            rw [each, hstate] at hcall
            exact .inr ⟨_, hok, ih.mpr ⟨earlier, call, later, rfl, hrest, hcall⟩⟩

theorem each_append_eq_error {run : κ → Action σ ε Unit} {earlier : List κ} {start : σ} {error : ε}
    (later : List κ) (h : (each run earlier start).result = .error error) :
    (each run (earlier ++ later) start).result = .error error := by
  obtain ⟨before, call, after, rfl, hbefore, hcall⟩ := each_eq_error_iff.mp h
  exact each_eq_error_iff.mpr ⟨before, call, after ++ later, by simp, hbefore, hcall⟩

/-- Calls that fail leave the state that the failed one leaves. -/
theorem each_state_of_error {run : κ → Action σ ε Unit} {earlier : List κ} {call : κ} {start : σ}
    {error : ε} (later : List κ) (hearlier : (each run earlier start).result = .ok ())
    (hcall : (run call (each run earlier start).state).result = .error error) :
    (each run (earlier ++ call :: later) start).state =
      (run call (each run earlier start).state).state := by
  induction earlier generalizing start with
  | nil => exact (bind_of_error _ hcall).1
  | cons first rest ih =>
      obtain ⟨_, hok, hrest, hstate⟩ := bind_eq_ok hearlier
      rw [each, hstate] at hcall
      rw [List.cons_append, each, (bind_of_ok _ hok).1, ih hrest hcall, each, hstate]

/-- The state that calls leave, each starting from what the one before left, failed or not. -/
def stateAfter (run : κ → Action σ ε α) (start : σ) (calls : List κ) : σ :=
  calls.foldl (fun state call => (run call state).state) start

/-- One of the calls failed and left a state of a certain kind. -/
def FailedWith (run : κ → Action σ ε α) (start : σ) (kind : κ → σ → Prop) (calls : List κ) : Prop :=
  ∃ earlier failed later error, calls = earlier ++ failed :: later ∧
    (run failed (stateAfter run start earlier)).result = .error error ∧
    kind failed (stateAfter run start (earlier ++ [failed]))

variable {run : κ → Action σ ε α} {start : σ} {kind : κ → σ → Prop}

@[simp] theorem stateAfter_snoc (calls : List κ) (call : κ) :
    stateAfter run start (calls ++ [call]) = (run call (stateAfter run start calls)).state := by
  simp [stateAfter]

theorem FailedWith.snoc {calls : List κ} (h : FailedWith run start kind calls) (call : κ) :
    FailedWith run start kind (calls ++ [call]) := by
  obtain ⟨earlier, failed, later, error, rfl, herr, hkind⟩ := h
  exact ⟨earlier, failed, later ++ [call], error, by simp, herr, hkind⟩

theorem failedWith_last {calls : List κ} {call : κ} {error : ε}
    (herr : (run call (stateAfter run start calls)).result = .error error)
    (hkind : kind call (run call (stateAfter run start calls)).state) :
    FailedWith run start kind (calls ++ [call]) :=
  ⟨calls, call, [], error, rfl, herr, by rwa [stateAfter_snoc]⟩

end Action

end Bundler
