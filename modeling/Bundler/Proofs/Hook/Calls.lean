import Bundler.Build
import Bundler.Proofs.Report

/-! The calls of taps. A logged action is an action that lists the calls it makes, each with all
that the tap is given. The calls of a hook follow the order of its taps, up to the first tap that
fails. -/

namespace Bundler

/-- One call of a tap. Taps for asset paths are numbered in their order of registration. -/
inductive TapCall where
  | run (tap : Tap RunTap) (setup : Setup)
  | compilation (tap : Tap CompilationTap) (params : CompilationParams) (seen : Compilation)
  | assetPath (tap : Tap AssetPathTap) (number : Nat) (data : AssetPathData) (given : String)
  | emit (tap : Tap EmitTap) (seen : Compilation) (disk : Disk)
  | done (tap : Tap DoneTap) (stats : Stats) (disk : Disk)

/-- What a run plans to call: a tap, and for an asset path also the chunk that it is for. -/
inductive TapSlot where
  | run (tap : Tap RunTap)
  | compilation (tap : Tap CompilationTap)
  | assetPath (chunk : String) (tap : Tap AssetPathTap) (number : Nat)
  | emit (tap : Tap EmitTap)
  | done (tap : Tap DoneTap)

namespace TapCall

def slot : TapCall → TapSlot
  | run tap _ => .run tap
  | compilation tap _ _ => .compilation tap
  | assetPath tap number data _ => .assetPath data.chunk tap number
  | emit tap _ _ => .emit tap
  | done tap _ _ => .done tap

def kind : TapCall → HookKind
  | run _ _ => .run
  | compilation _ _ _ => .compilation
  | assetPath _ _ _ _ => .assetPath
  | emit _ _ _ => .emit
  | done _ _ _ => .done

def tapName : TapCall → String
  | run tap _ => tap.name
  | compilation tap _ _ => tap.name
  | assetPath tap _ _ _ => tap.name
  | emit tap _ _ => tap.name
  | done tap _ _ => tap.name

/-- Whether the tap fails on what it is given. -/
def result : TapCall → Except Cause Unit
  | run tap setup => (tap.call setup).result
  | compilation tap params seen => (tap.call params seen).result
  | assetPath tap _ data given => (tap.call data given).result.map fun _ => ()
  | emit tap seen _ => (tap.call seen).result
  | done tap stats _ => (tap.call stats).result

/-- The error of a build that a failing tap ends. -/
def failure (call : TapCall) (cause : Cause) : BuildError :=
  .tapFailed call.kind.name call.tapName cause.render

end TapCall

/-- An action that lists the calls of taps that it makes. -/
def Logged (σ ε α : Type) : Type := σ → List TapCall × Outcome σ ε α

namespace Logged

variable {σ ε α β : Type}

/-- An action that calls no tap. -/
def ofAction (action : Action σ ε α) : Logged σ ε α := fun state => ([], action state)

def andThen (first : Logged σ ε α) (next : α → Logged σ ε β) : Logged σ ε β := fun state =>
  let before := first state
  match before.2.result with
  | .ok value =>
    let after := next value before.2.state
    (before.1 ++ after.1,
      ⟨after.2.state, before.2.events ++ after.2.events, after.2.result⟩)
  | .error error => (before.1, ⟨before.2.state, before.2.events, .error error⟩)

instance : Monad (Logged σ ε) where
  pure value := ofAction (Action.ok value)
  bind := andThen

/-- The action of one call. -/
def calling (mark : σ → TapCall) (action : Action σ ε α) : Logged σ ε α :=
  fun state => ([mark state], action state)

/-- The action without its list of calls. -/
def action (logged : Logged σ ε α) : Action σ ε α := fun state => (logged state).2

@[simp] theorem action_ofAction (action : Action σ ε α) : (ofAction action).action = action := rfl

@[simp] theorem action_bind (first : Logged σ ε α) (next : α → Logged σ ε β) :
    (first >>= next).action = first.action >>= fun value => (next value).action := by
  funext state
  change (first.andThen next state).2 = Action.andThen _ _ state
  unfold andThen Action.andThen action
  cases h : (first state).2.result with
  | error error => simp only [h]
  | ok value => simp only [h]

variable {first : Logged σ ε α} {next : α → Logged σ ε β} {state : σ}

theorem calls_bind_of_ok (next : α → Logged σ ε β) {value : α}
    (h : (first state).2.result = .ok value) :
    ((first >>= next) state).1 = (first state).1 ++ (next value (first state).2.state).1 ∧
      ((first >>= next) state).2.result = (next value (first state).2.state).2.result := by
  change (first.andThen next state).1 = _ ∧ (first.andThen next state).2.result = _
  simp [andThen, h]

theorem calls_bind_of_error (next : α → Logged σ ε β) {error : ε}
    (h : (first state).2.result = .error error) :
    ((first >>= next) state).1 = (first state).1 ∧
      ((first >>= next) state).2.result = .error error := by
  change (first.andThen next state).1 = _ ∧ (first.andThen next state).2.result = _
  simp [andThen, h]

theorem mem_calls_bind {call : TapCall} (h : call ∈ ((first >>= next) state).1) :
    call ∈ (first state).1 ∨ ∃ value, (first state).2.result = .ok value ∧
      call ∈ (next value (first state).2.state).1 := by
  cases hfirst : (first state).2.result with
  | error error =>
      rw [(calls_bind_of_error next hfirst).1] at h
      exact .inl h
  | ok value =>
      rw [(calls_bind_of_ok next hfirst).1] at h
      exact (List.mem_append.mp h).imp_right fun hcall => ⟨value, rfl, hcall⟩

end Logged

/-! ### Calls that follow a plan -/

/-- The calls are the first ones of a plan, and all of them if nothing fails. A tap that fails is
the last one that is called, and the error tells its hook and its name. -/
structure Follows {α : Type} (plan : List TapSlot) (calls : List TapCall)
    (result : Except BuildError α) : Prop where
  planned : calls.map TapCall.slot <+: plan
  whole : ∀ value, result = .ok value → calls.map TapCall.slot = plan
  last : ∀ earlier call later cause, calls = earlier ++ call :: later →
    call.result = .error cause → later = [] ∧ result = .error (call.failure cause)

namespace Follows

variable {σ α β : Type} {plan plan' : List TapSlot} {calls : List TapCall}

/-- Nothing is called. -/
theorem nothing (result : Except BuildError α) : Follows [] [] result :=
  ⟨ List.nil_prefix, fun _ _ => rfl, fun _ _ _ _ h => by simp at h⟩

/-- A call that fails is not among those of a part that succeeds. -/
theorem ok_of_mem {value : α} (h : Follows plan calls (.ok value)) {call : TapCall}
    (hcall : call ∈ calls) : call.result = .ok () := by
  cases hresult : call.result with
  | ok => rfl
  | error cause =>
      obtain ⟨earlier, later, hsplit⟩ := List.append_of_mem hcall
      cases (h.last earlier call later cause hsplit hresult).2

theorem bind {first : Logged σ BuildError α} {next : α → Logged σ BuildError β} {state : σ}
    (hfirst : Follows plan (first state).1 (first state).2.result)
    (hnext : ∀ value, (first state).2.result = .ok value →
      Follows plan' (next value (first state).2.state).1
        (next value (first state).2.state).2.result) :
    Follows (plan ++ plan') ((first >>= next) state).1 ((first >>= next) state).2.result := by
  cases hresult : (first state).2.result with
  | error error =>
      obtain ⟨hcalls, herror⟩ := Logged.calls_bind_of_error next hresult
      rw [hcalls, herror]
      rw [hresult] at hfirst
      refine ⟨hfirst.planned.trans (List.prefix_append _ _), fun _ hok => (nomatch hok), ?_⟩
      intro earlier call later cause hsplit hfails
      obtain ⟨hlater, hfailure⟩ := hfirst.last earlier call later cause hsplit hfails
      exact ⟨hlater, by rw [Except.error.inj hfailure]⟩
  | ok value =>
      obtain ⟨hcalls, hrest⟩ := Logged.calls_bind_of_ok next hresult
      have hnext := hnext value hresult
      rw [hresult] at hfirst
      rw [hcalls, hrest]
      refine ⟨?_, fun last hok => ?_, ?_⟩
      · rw [List.map_append, hfirst.whole value rfl]
        exact (List.prefix_append_right_inj plan).mpr hnext.planned
      · rw [List.map_append, hfirst.whole value rfl, hnext.whole last hok]
      · intro earlier call later cause hsplit hfails
        rcases List.append_eq_append_iff.mp hsplit with
          ⟨middle, hearlier, hafter⟩ | ⟨middle, hbefore, hlater⟩
        · exact hnext.last middle call later cause hafter hfails
        · cases middle with
          | nil => exact hnext.last [] call later cause hlater.symm hfails
          | cons other middle =>
              -- the call would be one of the first part, which succeeds
              obtain ⟨rfl, -⟩ := List.cons.inj hlater
              rw [hfirst.ok_of_mem (by rw [hbefore]; simp)] at hfails
              cases hfails

/-- Only the error of a result matters, and whether there is one. -/
theorem of_result {result : Except BuildError α} {other : Except BuildError β}
    (h : Follows plan calls result) (hok : ∀ value, other = .ok value → ∃ value, result = .ok value)
    (herror : ∀ error, result = .error error → other = .error error) :
    Follows plan calls other := by
  refine ⟨h.planned, fun value hvalue => ?_, fun earlier call later cause hsplit hfails => ?_⟩
  · obtain ⟨value, hresult⟩ := hok value hvalue
    exact h.whole value hresult
  · obtain ⟨hlater, hfailure⟩ := h.last earlier call later cause hsplit hfails
    exact ⟨hlater, herror _ hfailure⟩

end Follows

/-! ### The calls of a hook -/

namespace Hook

variable {F σ : Type} {kind : HookKind} {run : F → Action σ Cause Unit}
variable {mark : Nat → Tap F → σ → TapCall} {slot : Nat → Tap F → TapSlot}

/-- Calls taps as `callTaps` does, and lists the calls. -/
def callTapsLogged (kind : HookKind) (run : F → Action σ Cause Unit)
    (mark : Nat → Tap F → σ → TapCall) : Nat → List (Tap F) → Logged σ BuildError Unit
  | _, [] => Logged.ofAction (Action.ok ())
  | number, tap :: rest => do
      Logged.calling (mark number tap) (callTap kind run tap)
      callTapsLogged kind run mark (number + 1) rest

theorem action_callTapsLogged (number : Nat) (taps : List (Tap F)) :
    (callTapsLogged kind run mark number taps).action = callTaps kind run taps := by
  induction taps generalizing number with
  | nil => rfl
  | cons tap rest ih =>
      rw [callTapsLogged, Logged.action_bind, callTaps, ih]
      rfl

/-- A mark tells a call of a tap as it is made. -/
structure Marks (kind : HookKind) (run : F → Action σ Cause Unit)
    (mark : Nat → Tap F → σ → TapCall) (slot : Nat → Tap F → TapSlot) : Prop where
  slot : ∀ number tap state, (mark number tap state).slot = slot number tap
  kind : ∀ number tap state, (mark number tap state).kind = kind
  tapName : ∀ number tap state, (mark number tap state).tapName = tap.name
  result : ∀ number tap state, (mark number tap state).result = (run tap.call state).result

theorem callTap_result (tap : Tap F) (state : σ) :
    (callTap kind run tap state).result =
      ((run tap.call state).result).mapError fun cause =>
        .tapFailed kind.name tap.name cause.render := by
  change (Action.andThen _ _ state).result = _
  simp only [Action.andThen, Action.log, Action.mapError]
  cases (run tap.call state).result <;> rfl

theorem follows_callTapsLogged (h : Marks kind run mark slot) (number : Nat) (taps : List (Tap F))
    (state : σ) :
    Follows ((taps.zipIdx number).map fun tap => slot tap.2 tap.1)
      (callTapsLogged kind run mark number taps state).1
      (callTapsLogged kind run mark number taps state).2.result := by
  induction taps generalizing number state with
  | nil => exact .nothing _
  | cons tap rest ih =>
      rw [List.zipIdx_cons, List.map_cons, ← List.singleton_append, callTapsLogged]
      refine Follows.bind ?_ fun _ _ => ih _ _
      have hslot : [mark number tap state].map TapCall.slot = [slot number tap] := by simp [h.slot]
      refine ⟨hslot ▸ List.prefix_rfl, fun _ _ => hslot, ?_⟩
      · intro earlier call later cause hsplit hfails
        rcases earlier with _ | ⟨_, _ | ⟨_, _⟩⟩
        · obtain ⟨rfl, rfl⟩ := List.cons.inj hsplit
          refine ⟨rfl, ?_⟩
          rw [h.result] at hfails
          change (callTap kind run tap state).result = _
          rw [callTap_result, hfails, TapCall.failure, h.kind, h.tapName]
          rfl
        · cases hsplit
        · cases hsplit

/-- A tap is given the state that the taps before it leave, when none of these fails. -/
theorem exists_of_mem_callTapsLogged {number : Nat} {taps : List (Tap F)} {state : σ}
    {call : TapCall} (h : call ∈ (callTapsLogged kind run mark number taps state).1) :
    ∃ earlier tap later, taps = earlier ++ tap :: later ∧
      (callTaps kind run earlier state).result = .ok () ∧
      call = mark (number + earlier.length) tap (callTaps kind run earlier state).state := by
  induction taps generalizing number state with
  | nil => cases h
  | cons first rest ih =>
      rw [callTapsLogged] at h
      rcases Logged.mem_calls_bind h with hfirst | ⟨_, hok, hrest⟩
      · exact ⟨[], first, rest, rfl, rfl, List.mem_singleton.mp hfirst⟩
      · obtain ⟨earlier, tap, later, rfl, hearlier, rfl⟩ := ih hrest
        obtain ⟨hstate, hresult⟩ := Action.bind_of_ok (fun _ => callTaps kind run earlier) hok
        refine ⟨first :: earlier, tap, later, rfl, hresult.trans hearlier, ?_⟩
        rw [List.length_cons, callTaps, hstate, Nat.add_right_comm, Nat.add_assoc]
        rfl

/-! ### Taps that look on, and taps that hand on -/

variable {α : Type}

theorem map_zipIdx_fst {β : Type} (slot : α → β) (taps : List α) :
    (taps.zipIdx.map fun tap => slot tap.1) = taps.map slot := by
  have htaps := congrArg (List.map slot) (List.zipIdx_map_fst 0 taps)
  rwa [List.map_map] at htaps

/-- Calls taps that only look on as `observe` does, and lists the calls. -/
def observeLogged (hook : Hook F) (run : F → Report Cause Unit) (mark : Tap F → TapCall) :
    Logged σ BuildError Unit := fun state =>
  let logged := callTapsLogged hook.kind (fun tap => Action.ofReport (run tap))
    (fun _ tap _ => mark tap) 0 hook.taps ()
  (logged.1, ⟨state, logged.2.events, logged.2.result⟩)

@[simp] theorem action_observeLogged (hook : Hook F) (run : F → Report Cause Unit)
    (mark : Tap F → TapCall) :
    (hook.observeLogged run mark : Logged σ BuildError Unit).action =
      Action.ofReport (hook.observe run) := by
  funext state
  have hcalls := congrFun (@action_callTapsLogged F Unit hook.kind
    (fun tap => Action.ofReport (run tap)) (fun _ tap _ => mark tap) 0 hook.taps) ()
  exact congrArg (fun outcome : Outcome Unit BuildError Unit =>
    (⟨state, outcome.events, outcome.result⟩ : Outcome σ BuildError Unit)) hcalls

theorem exists_of_mem_observeLogged {hook : Hook F} {run : F → Report Cause Unit}
    {mark : Tap F → TapCall} {state : σ} {call : TapCall}
    (h : call ∈ ((hook.observeLogged run mark : Logged σ BuildError Unit) state).1) :
    ∃ tap ∈ hook.taps, call = mark tap := by
  change call ∈ (callTapsLogged hook.kind (fun tap => Action.ofReport (run tap))
    (fun _ tap _ => mark tap) 0 hook.taps ()).1 at h
  obtain ⟨earlier, tap, later, htaps, -, hcall⟩ := exists_of_mem_callTapsLogged h
  exact ⟨tap, by simp [htaps], hcall⟩

/-- Hands a value to a tap, and keeps what the tap makes of it. -/
def handOn (run : F → α → Report Cause α) (tap : F) : Action α Cause Unit := do
  let here ← Action.get
  let next ← Action.ofReport (run tap here)
  Action.modify fun _ => next

/-- What taps make of a value, each of what the one before it made. -/
def handed (run : F → α → Report Cause α) (taps : List (Tap F)) (value : α) : Except Cause α :=
  taps.foldlM (fun here tap => (run tap.call here).result) value

theorem handOn_result (run : F → α → Report Cause α) (tap : F) (here : α) :
    (handOn run tap here).result = (run tap here).result.map fun _ => () := by
  change (Action.andThen _ _ here).result = _
  simp only [Action.andThen]
  change (Action.andThen _ _ here).result = _
  simp only [Action.andThen, Action.ofReport, Action.modify]
  cases (run tap here).result <;> rfl

theorem handOn_state {run : F → α → Report Cause α} {tap : F} {here next : α}
    (h : (run tap here).result = .ok next) : (handOn run tap here).state = next := by
  change (Action.andThen _ _ here).state = _
  simp only [Action.andThen]
  change (Action.andThen _ _ here).state = _
  simp only [Action.andThen, Action.ofReport, Action.modify, h]

theorem handed_of_callTaps {kind : HookKind} {run : F → α → Report Cause α} {taps : List (Tap F)}
    {value : α} (h : (callTaps kind (handOn run) taps value).result = .ok ()) :
    handed run taps value = .ok (callTaps kind (handOn run) taps value).state := by
  induction taps generalizing value with
  | nil => rfl
  | cons tap rest ih =>
      obtain ⟨_, hfirst, hrest, hstate⟩ := Action.bind_eq_ok h
      rw [callTap_result, handOn_result] at hfirst
      cases hnext : (run tap.call value).result with
      | error cause =>
          rw [hnext] at hfirst
          cases hfirst
      | ok next =>
          have hthere : (callTap kind (handOn run) tap value).state = next := handOn_state hnext
          rw [hthere] at hrest hstate
          rw [callTaps, hstate, ← ih hrest, handed, List.foldlM_cons, hnext]
          rfl

/-- Computes an asset path as `assetPath` does, and lists the calls. -/
def assetPathLogged (hook : Hook AssetPathTap) (data : AssetPathData) (path : String) :
    Logged σ BuildError String := fun state =>
  let logged := callTapsLogged hook.kind (handOn fun tap here => tap data here)
    (fun number tap here => .assetPath tap number data here) 0 hook.taps path
  (logged.1, ⟨state, logged.2.events,
    match logged.2.result with
    | .ok () => .ok logged.2.state
    | .error error => .error error⟩)

@[simp] theorem action_assetPathLogged (hook : Hook AssetPathTap) (data : AssetPathData)
    (path : String) : (hook.assetPathLogged data path : Logged σ BuildError String).action =
      Action.ofReport (hook.assetPath data path) := by
  funext state
  have hcalls := congrFun (@action_callTapsLogged AssetPathTap String hook.kind
    (handOn fun tap here => tap data here)
    (fun number tap here => .assetPath tap number data here) 0 hook.taps) path
  exact congrArg (fun outcome : Outcome String BuildError Unit =>
    (⟨state, outcome.events,
      match outcome.result with
      | .ok () => .ok outcome.state
      | .error error => .error error⟩ : Outcome σ BuildError String)) hcalls

/-- The value that a tap of an asset path is given is what the taps before it made of the first. -/
theorem handed_of_mem_assetPathLogged {hook : Hook AssetPathTap} {data : AssetPathData}
    {path : String} {state : σ} {call : TapCall}
    (h : call ∈ ((hook.assetPathLogged data path : Logged σ BuildError String) state).1) :
    ∃ tap number given, call = .assetPath tap number data given ∧ hook.taps[number]? = some tap ∧
      handed (fun tap here => tap data here) (hook.taps.take number) path = .ok given := by
  obtain ⟨earlier, tap, later, htaps, hok, rfl⟩ := exists_of_mem_callTapsLogged h
  refine ⟨tap, _, _, rfl, ?_, ?_⟩
  · rw [htaps]
    simp
  · rw [htaps, Nat.zero_add, List.take_left]
    exact handed_of_callTaps hok

theorem handed_of_assetPath {hook : Hook AssetPathTap} {data : AssetPathData} {path last : String}
    (h : (hook.assetPath data path).result = .ok last) :
    handed (fun tap here => tap data here) hook.taps path = .ok last := by
  change (match (callTaps hook.kind (handOn _) hook.taps path).result with
    | .ok () => Except.ok (callTaps hook.kind (handOn _) hook.taps path).state
    | .error error => .error error) = _ at h
  split at h
  · next hok => rw [handed_of_callTaps hok, Except.ok.inj h]
  · cases h

theorem callTaps_eq_each (kind : HookKind) (run : F → Action σ Cause Unit) (taps : List (Tap F)) :
    callTaps kind run taps = Action.each (callTap kind run) taps := by
  induction taps with
  | nil => rfl
  | cons tap rest ih => rw [callTaps, Action.each, ih]

theorem rel_callTaps {rel : σ → σ → Prop} (refl : ∀ state, rel state state)
    (trans : ∀ {a b c}, rel a b → rel b c → rel a c) (kind : HookKind)
    (run : F → Action σ Cause Unit) {taps : List (Tap F)}
    (h : ∀ tap ∈ taps, ∀ state, rel state (run tap.call state).state) (state : σ) :
    rel state (callTaps kind run taps state).state := by
  rw [callTaps_eq_each]
  refine Action.rel_each rel refl trans ?_ state
  exact h

theorem callTaps_of_handed {run : F → α → Report Cause α} {taps : List (Tap F)} {value last : α}
    (kind : HookKind) (h : handed run taps value = .ok last) :
    (callTaps kind (handOn run) taps value).result = .ok () ∧
      (callTaps kind (handOn run) taps value).state = last := by
  induction taps generalizing value with
  | nil => exact ⟨rfl, Except.ok.inj h⟩
  | cons tap rest ih =>
      rw [handed, List.foldlM_cons, bind_eq_ok_iff] at h
      obtain ⟨next, hnext, hrest⟩ := h
      have hfirst : (callTap kind (handOn run) tap value).result = .ok () := by
        rw [callTap_result, handOn_result, hnext]
        rfl
      obtain ⟨hstate, hresult⟩ :=
        Action.bind_of_ok (fun _ => callTaps kind (handOn run) rest) hfirst
      rw [callTaps, hstate, hresult, show (callTap kind (handOn run) tap value).state = next from
        handOn_state hnext]
      exact ih hrest

/-- Calls that hand on fail at the first tap that makes nothing of what it is given. -/
theorem callTaps_handOn_eq_error_iff {kind : HookKind} {run : F → α → Report Cause α}
    {taps : List (Tap F)} {value : α} {error : BuildError} :
    (callTaps kind (handOn run) taps value).result = .error error ↔
      ∃ earlier tap later here cause, taps = earlier ++ tap :: later ∧
        handed run earlier value = .ok here ∧ (run tap.call here).result = .error cause ∧
          error = .tapFailed kind.name tap.name cause.render := by
  have hcall : ∀ {tap : Tap F} {here : α},
      (callTap kind (handOn run) tap here).result = .error error ↔ ∃ cause,
        (run tap.call here).result = .error cause ∧
          error = .tapFailed kind.name tap.name cause.render := by
    intro tap here
    rw [callTap_result, handOn_result, mapError_eq_error_iff]
    cases (run tap.call here).result with
    | error cause => simp [Except.map]
    | ok next => simp [Except.map]
  rw [callTaps_eq_each, Action.each_eq_error_iff]
  simp only [← callTaps_eq_each, hcall]
  constructor
  · rintro ⟨earlier, tap, later, rfl, hearlier, cause, hcause, rfl⟩
    exact ⟨earlier, tap, later, _, cause, rfl, handed_of_callTaps hearlier, hcause, rfl⟩
  · rintro ⟨earlier, tap, later, here, cause, rfl, hearlier, hcause, rfl⟩
    obtain ⟨hok, rfl⟩ := callTaps_of_handed kind hearlier
    exact ⟨earlier, tap, later, rfl, hok, cause, hcause, rfl⟩

theorem assetPath_eq_ok_iff {hook : Hook AssetPathTap} {data : AssetPathData}
    {path last : String} : (hook.assetPath data path).result = .ok last ↔
      handed (fun tap here => tap data here) hook.taps path = .ok last := by
  refine ⟨handed_of_assetPath, fun h => ?_⟩
  obtain ⟨hok, hstate⟩ := callTaps_of_handed hook.kind h
  change (match (callTaps hook.kind (handOn _) hook.taps path).result with
    | .ok () => Except.ok (callTaps hook.kind (handOn _) hook.taps path).state
    | .error error => .error error) = _
  rw [hok, hstate]

theorem assetPath_eq_error_iff {hook : Hook AssetPathTap} {data : AssetPathData} {path : String}
    {error : BuildError} : (hook.assetPath data path).result = .error error ↔
      ∃ earlier tap later here cause, hook.taps = earlier ++ tap :: later ∧
        handed (fun tap here => tap data here) earlier path = .ok here ∧
          (tap.call data here).result = .error cause ∧
          error = .tapFailed hook.kind.name tap.name cause.render := by
  rw [← callTaps_handOn_eq_error_iff]
  change (match (callTaps hook.kind (handOn _) hook.taps path).result with
    | .ok () => Except.ok (callTaps hook.kind (handOn _) hook.taps path).state
    | .error error => .error error) = _ ↔ _
  cases (callTaps hook.kind (handOn fun tap here => tap data here) hook.taps path).result with
  | ok => simp
  | error other => simp

/-- The calls for the asset path of a chunk, in order. -/
def assetSlots (hook : Hook AssetPathTap) (chunk : String) : List TapSlot :=
  hook.taps.zipIdx.map fun tap => .assetPath chunk tap.1 tap.2

theorem follows_assetPathLogged {hook : Hook AssetPathTap} (hkind : hook.kind = .assetPath)
    (data : AssetPathData) (path : String) (state : σ) :
    Follows (hook.assetSlots data.chunk)
      ((hook.assetPathLogged data path : Logged σ BuildError String) state).1
      ((hook.assetPathLogged data path : Logged σ BuildError String) state).2.result := by
  have hmarks : Marks .assetPath (handOn fun (tap : AssetPathTap) here => tap data here)
      (fun number tap here => .assetPath tap number data here)
      fun number tap => .assetPath data.chunk tap number :=
    ⟨fun _ _ _ => rfl, fun _ _ _ => rfl, fun _ _ _ => rfl, fun _ tap here =>
      (handOn_result (fun (tap : AssetPathTap) here => tap data here) tap.call here).symm⟩
  have hcalls := follows_callTapsLogged hmarks 0 hook.taps path
  rw [← hkind] at hcalls
  refine hcalls.of_result (fun last hlast => ?_) fun error herror => ?_
  · change (match (callTapsLogged hook.kind _ _ 0 hook.taps path).2.result with
      | .ok () => _
      | .error error => _) = _ at hlast
    split at hlast
    · next hok => exact ⟨_, hok⟩
    · cases hlast
  · change (match (callTapsLogged hook.kind _ _ 0 hook.taps path).2.result with
      | .ok () => _
      | .error error => _) = _
    rw [herror]

theorem follows_observeLogged {hook : Hook F} {run : F → Report Cause Unit}
    {mark : Tap F → TapCall} {slot : Tap F → TapSlot}
    (h : Marks hook.kind (fun tap => Action.ofReport (run tap)) (fun _ tap (_ : Unit) => mark tap)
      fun _ => slot) (state : σ) :
    Follows (hook.taps.map slot) ((hook.observeLogged run mark : Logged σ BuildError Unit) state).1
      ((hook.observeLogged run mark : Logged σ BuildError Unit) state).2.result := by
  have hcalls := follows_callTapsLogged h 0 hook.taps ()
  rwa [map_zipIdx_fst] at hcalls

end Hook

end Bundler
