import Bundler.Loader
import Bundler.Proofs.Report

/-! Loaders one after the other. The loaders of all rules that apply to a file run from the last one
to the first, each on what the one before it made of the text, up to the first that is not there or
fails. So the loaders of some rules and others are those of the others and then those of the
some. -/

namespace Bundler.Loader

variable {registry : LoaderRegistry} {context : LoaderContext}

/-! ### Sequences of loaders -/

theorem runAll_append (first second : List String) (source : String) :
    runAll registry context (first ++ second) source =
      runAll registry context first source >>= runAll registry context second := by
  induction first generalizing source with
  | nil => rfl
  | cons name rest ih =>
      rw [List.cons_append, runAll, runAll, Report.bind_assoc]
      exact Report.bind_congr fun next _ => ih next

theorem runAll_singleton (name source : String) :
    runAll registry context [name] source = runNamed registry context name source :=
  Report.bind_ok _

/-- Loaders that run from the last one to the first are put together from the first one on. -/
theorem runAll_reverse (names : List String) (source : String) :
    runAll registry context names.reverse source =
      names.foldr (fun name later => later >=> runNamed registry context name) Report.ok
        source := by
  induction names generalizing source with
  | nil => rfl
  | cons name rest ih =>
      rw [List.reverse_cons, runAll_append, ih, List.foldr_cons]
      exact Report.bind_congr fun next _ => runAll_singleton name next

theorem matching_append (first second : List Rule) (resource : String) :
    matching (first ++ second) resource = matching first resource ++ matching second resource := by
  rw [matching, List.filter_append, List.flatMap_append]
  rfl

/-- The rules behind others come first. -/
theorem apply_append (first second : List Rule) (source : String) :
    apply (first ++ second) registry context source =
      apply second registry context source >>= apply first registry context := by
  rw [apply, matching_append, List.reverse_append, runAll_append]
  rfl

/-! ### The calls of a run -/

/-- A call of a loader that succeeds, with the text that it is given and the one that it makes. -/
structure Call where
  loader : String
  input : String
  output : String

/-- What a call says, its own line first. -/
def Call.events (registry : LoaderRegistry) (context : LoaderContext) (call : Call) : List Event :=
  (runNamed registry context call.loader call.input).events

/-- Calls of loaders in the given order that turn one text into another, each loader being called
once, on the text that the one before it made. -/
structure Passes (registry : LoaderRegistry) (context : LoaderContext) (names : List String)
    (source text : String) (calls : List Call) : Prop where
  names_eq : calls.map Call.loader = names
  linked : calls.map Call.input ++ [text] = source :: calls.map Call.output
  succeeds : ∀ call ∈ calls, ∃ loader, registry.get? call.loader = some loader ∧
    (loader call.input context).result = .ok call.output

/-- A loader that is not there, or fails on the text that it is given, and what it says then. -/
inductive Stops (registry : LoaderRegistry) (context : LoaderContext) (name text : String) :
    List Event → BuildError → Prop where
  | unregistered (h : registry.get? name = none) :
      Stops registry context name text [] (.unknownLoader name)
  | failed {loader : Loader} {cause : Cause} (h : registry.get? name = some loader)
      (hfails : (loader text context).result = .error cause) :
      Stops registry context name text
        (.loaderCalled name context.resource :: (loader text context).events)
        (.loaderFailed name context.resource cause.render)

variable {name source text : String} {names : List String} {calls : List Call}
variable {events : List Event} {error : BuildError}

theorem runNamed_of_get? {loader : Loader} (h : registry.get? name = some loader) :
    runNamed registry context name source =
      ⟨.loaderCalled name context.resource :: (loader source context).events,
        ((loader source context).mapError fun cause =>
          BuildError.loaderFailed name context.resource cause.render).result⟩ := by
  rw [runNamed, h]
  rfl

theorem runNamed_eq_ok_iff :
    (runNamed registry context name source).result = .ok text ↔
      ∃ loader, registry.get? name = some loader ∧ (loader source context).result = .ok text := by
  cases h : registry.get? name with
  | none => simp [runNamed, h, Report.fail]
  | some loader =>
      rw [runNamed_of_get? h, Report.mapError]
      cases hresult : (loader source context).result <;> simp [hresult]

theorem Stops.runNamed_eq (h : Stops registry context name text events error) :
    runNamed registry context name text = ⟨events, .error error⟩ := by
  cases h with
  | unregistered h =>
      rw [runNamed, h]
      rfl
  | failed h hfails =>
      rw [runNamed_of_get? h, Report.mapError, hfails]

theorem runNamed_stops (h : (runNamed registry context name text).result = .error error) :
    ∃ events, Stops registry context name text events error := by
  cases hfound : registry.get? name with
  | none =>
      rw [runNamed, hfound] at h
      obtain rfl := Except.error.inj h
      exact ⟨_, .unregistered hfound⟩
  | some loader =>
      rw [runNamed_of_get? hfound, Report.mapError] at h
      cases hresult : (loader text context).result with
      | ok value => simp [hresult] at h
      | error cause =>
          simp only [hresult] at h
          obtain rfl := Except.error.inj h
          exact ⟨_, .failed hfound hresult⟩

theorem passes_nil (source : String) : Passes registry context [] source source [] :=
  ⟨rfl, rfl, by simp⟩

theorem passes_cons_iff : Passes registry context (name :: names) source text calls ↔
    ∃ next later, calls = ⟨name, source, next⟩ :: later ∧
      (runNamed registry context name source).result = .ok next ∧
      Passes registry context names next text later := by
  constructor
  · rintro ⟨hnames, hlinked, hsucceeds⟩
    obtain ⟨⟨_, input, output⟩, later, rfl, rfl, rfl⟩ := List.map_eq_cons_iff.mp hnames
    obtain ⟨rfl, hlater⟩ := List.cons.inj hlinked
    obtain ⟨hfirst, hrest⟩ := List.forall_mem_cons.mp hsucceeds
    exact ⟨output, later, rfl, runNamed_eq_ok_iff.mpr hfirst, rfl, hlater, hrest⟩
  · rintro ⟨next, later, rfl, hfirst, hnames, hlinked, hsucceeds⟩
    refine ⟨by rw [List.map_cons, hnames], ?_,
      List.forall_mem_cons.mpr ⟨runNamed_eq_ok_iff.mp hfirst, hsucceeds⟩⟩
    rw [List.map_cons, List.cons_append, hlinked, List.map_cons]

/-- What a run reports in which every loader succeeds. -/
theorem Passes.runAll_eq (h : Passes registry context names source text calls) :
    runAll registry context names source =
      ⟨calls.flatMap (Call.events registry context), .ok text⟩ := by
  induction names generalizing source calls with
  | nil =>
      obtain rfl := List.map_eq_nil_iff.mp h.names_eq
      obtain ⟨rfl, -⟩ := List.cons.inj h.linked
      rfl
  | cons name rest ih =>
      obtain ⟨next, later, rfl, hfirst, hlater⟩ := passes_cons_iff.mp h
      rw [runAll, Report.bind_of_ok _ hfirst, ih hlater, List.flatMap_cons]
      rfl

theorem runAll_passes (h : (runAll registry context names source).result = .ok text) :
    ∃ calls, Passes registry context names source text calls := by
  induction names generalizing source with
  | nil =>
      obtain rfl := Except.ok.inj h
      exact ⟨[], passes_nil source⟩
  | cons name rest ih =>
      obtain ⟨next, hfirst, hrest⟩ := Report.bind_eq_ok h
      obtain ⟨later, hlater⟩ := ih hrest
      exact ⟨_, passes_cons_iff.mpr ⟨next, later, rfl, hfirst, hlater⟩⟩

/-- Loaders succeed one after the other exactly if each of them is called and succeeds. -/
theorem runAll_eq_ok_iff :
    runAll registry context names source = ⟨events, .ok text⟩ ↔ ∃ calls,
      Passes registry context names source text calls ∧
        events = calls.flatMap (Call.events registry context) := by
  constructor
  · intro h
    obtain ⟨calls, hcalls⟩ := runAll_passes (congrArg Report.result h)
    exact ⟨calls, hcalls, congrArg Report.events (h.symm.trans hcalls.runAll_eq)⟩
  · rintro ⟨calls, hcalls, rfl⟩
    exact hcalls.runAll_eq

theorem runAll_stops (h : (runAll registry context names source).result = .error error) :
    ∃ earlier name later calls text last, names = earlier ++ name :: later ∧
      Passes registry context earlier source text calls ∧
      Stops registry context name text last error := by
  induction names generalizing source with
  | nil => cases h
  | cons first rest ih =>
      cases hfirst : (runNamed registry context first source).result with
      | error reason =>
          rw [runAll, Report.bind_of_error _ hfirst] at h
          obtain rfl := Except.error.inj h
          obtain ⟨last, hstops⟩ := runNamed_stops hfirst
          exact ⟨[], first, rest, [], source, last, rfl, passes_nil source, hstops⟩
      | ok next =>
          rw [runAll, Report.bind_of_ok _ hfirst] at h
          obtain ⟨earlier, name, later, calls, text, last, rfl, hcalls, hstops⟩ := ih h
          exact ⟨first :: earlier, name, later, _, text, last, rfl,
            passes_cons_iff.mpr ⟨next, calls, rfl, hfirst, hcalls⟩, hstops⟩

/-- What a run reports that a loader stops, whatever stands behind that loader. -/
theorem Passes.runAll_eq_of_stops (h : Passes registry context names source text calls)
    (hstops : Stops registry context name text events error) (later : List String) :
    runAll registry context (names ++ name :: later) source =
      ⟨calls.flatMap (Call.events registry context) ++ events, .error error⟩ := by
  have hlater : runAll registry context (name :: later) text = ⟨events, .error error⟩ := by
    rw [runAll, hstops.runNamed_eq]
    exact Report.bind_of_error _ rfl
  rw [runAll_append, h.runAll_eq, Report.bind_of_ok _ rfl, hlater]

/-- A run fails at the first loader that is not there or fails, and those behind it are not
called. -/
theorem runAll_eq_error_iff :
    runAll registry context names source = ⟨events, .error error⟩ ↔
      ∃ earlier name later calls text last, names = earlier ++ name :: later ∧
        Passes registry context earlier source text calls ∧
        Stops registry context name text last error ∧
        events = calls.flatMap (Call.events registry context) ++ last := by
  constructor
  · intro h
    obtain ⟨earlier, name, later, calls, text, last, rfl, hcalls, hstops⟩ :=
      runAll_stops (congrArg Report.result h)
    exact ⟨earlier, name, later, calls, text, last, rfl, hcalls, hstops,
      congrArg Report.events (h.symm.trans (hcalls.runAll_eq_of_stops hstops later))⟩
  · rintro ⟨earlier, name, later, calls, text, last, rfl, hcalls, hstops, rfl⟩
    exact hcalls.runAll_eq_of_stops hstops later

/-! ### Rules that were accepted -/

variable {rules : List Rule}

theorem get?_ne_none (h : registry.contains name = true) : registry.get? name ≠ none := by
  intro hnone
  obtain ⟨entry, hentry, rfl⟩ := List.mem_map.mp (List.contains_iff_mem.mp h)
  exact bne_iff_ne.mp (List.lookup_eq_none_iff.mp hnone entry hentry) rfl

/-- Accepted rules name registered loaders only. -/
theorem contains_of_validate (h : registry.validate rules = .ok ()) {rule : Rule}
    (hrule : rule ∈ rules) (hname : name ∈ rule.loaders) : registry.contains name = true := by
  unfold LoaderRegistry.validate at h
  split at h
  · cases h
  · next hnone =>
      simpa using List.find?_eq_none.mp hnone name (List.mem_flatMap.mpr ⟨rule, hrule, hname⟩)

theorem contains_of_mem_matching (h : registry.validate rules = .ok ()) {resource : String}
    (hname : name ∈ matching rules resource) : registry.contains name = true := by
  obtain ⟨rule, hrule, hloader⟩ := List.mem_flatMap.mp hname
  exact contains_of_validate h (List.mem_filter.mp hrule).1 hloader

/-- What a registered loader fails with is never reported as a loader that is not there. -/
theorem Stops.get?_eq_none {other : String}
    (h : Stops registry context name text events (.unknownLoader other)) :
    registry.get? name = none := by
  cases h with
  | unregistered h => exact h

/-! ### Rules -/

/-- What rules and other rules behind them do to a text is what the other rules do to it and then
what the rules do to the outcome. All loaders of the rules that apply to a file, in the order of the
rules and in the order of each rule, compose from the last one to the first, and each of them is
called once, on the text that the one behind it made. A run fails as the last of them does that is
not registered or fails on the text that comes to it, and none in front of that one is called.
Rules that were accepted never lead to a loader that is not registered. -/
theorem apply_composes (registry : LoaderRegistry) (context : LoaderContext) :
    (∀ first second source, apply (first ++ second) registry context source =
      apply second registry context source >>= apply first registry context) ∧
    (∀ rules source, apply rules registry context source =
      ((rules.filter fun rule => rule.appliesTo context.resource).flatMap Rule.loaders).foldr
        (fun name later => later >=> runNamed registry context name) Report.ok source) ∧
    (∀ rules source text events, apply rules registry context source = ⟨events, .ok text⟩ ↔
      ∃ calls, Passes registry context (matching rules context.resource).reverse source text calls ∧
        events = calls.flatMap (Call.events registry context)) ∧
    (∀ rules source error events, apply rules registry context source = ⟨events, .error error⟩ ↔
      ∃ left name right calls text last,
        matching rules context.resource = left ++ name :: right ∧
        Passes registry context right.reverse source text calls ∧
        Stops registry context name text last error ∧
        events = calls.flatMap (Call.events registry context) ++ last) ∧
    ∀ rules, registry.validate rules = .ok () → ∀ source name,
      (apply rules registry context source).result ≠ .error (.unknownLoader name) := by
  refine ⟨apply_append, fun rules => runAll_reverse _, fun rules source text events =>
    runAll_eq_ok_iff, fun rules source error events => runAll_eq_error_iff.trans ⟨?_, ?_⟩,
    fun rules hvalid source name hunknown => ?_⟩
  · rintro ⟨earlier, name, later, calls, text, last, hnames, hcalls, hstops, rfl⟩
    refine ⟨later.reverse, name, earlier.reverse, calls, text, last, ?_, ?_, hstops, rfl⟩
    · simpa using congrArg List.reverse hnames
    · rwa [List.reverse_reverse]
  · rintro ⟨left, name, right, calls, text, last, hnames, hcalls, hstops, rfl⟩
    exact ⟨right.reverse, name, left.reverse, calls, text, last, by simp [hnames], hcalls, hstops,
      rfl⟩
  · obtain ⟨earlier, stopped, later, _, _, _, hnames, -, hstops⟩ := runAll_stops hunknown
    have hmem : stopped ∈ matching rules context.resource := by
      rw [← List.mem_reverse, hnames]
      simp
    exact get?_ne_none (contains_of_mem_matching hvalid hmem) hstops.get?_eq_none

set_option maxRecDepth 100000 in
/-- A loader stands in two rules, with a rule between them that does not apply, and fails where it
comes second. -/
theorem apply_composes_failing :
    let wrap : Loader := fun source _ =>
      if source.toList.contains '(' then .fail (.ofMessage "twice") else .ok ("(" ++ source ++ ")")
    let mark : Loader := fun source _ => .ok (source ++ "!")
    let registry := (LoaderRegistry.empty.register "wrap" wrap).register "mark" mark
    let context : LoaderContext := ⟨⟨"/r/a.js"⟩, ⟨"/r"⟩, "main"⟩
    let front : Rule := ⟨"js", .literal ['j', 's'], ["mark", "wrap", "mark"]⟩
    let middle : Rule := ⟨"css", .literal ['c', 's', 's'], ["mark"]⟩
    let back : Rule := ⟨"a", .literal ['a'], ["wrap"]⟩
    registry.validate [front, middle, back] = .ok () ∧
      apply [front, middle, back] registry context "x" =
        apply [back] registry context "x" >>= apply [front, middle] registry context ∧
      apply [front, middle, back] registry context "x" =
        ⟨[.loaderCalled "wrap" "/r/a.js", .loaderCalled "mark" "/r/a.js",
          .loaderCalled "wrap" "/r/a.js"], .error (.loaderFailed "wrap" "/r/a.js" "twice")⟩ ∧
      ∀ source name, (apply [front, middle, back] registry context source).result ≠
        .error (.unknownLoader name) := by
  intro wrap mark registry context front middle back
  obtain ⟨happend, -, -, hfails, hknown⟩ := apply_composes registry context
  have hvalid : registry.validate [front, middle, back] = .ok () := rfl
  have hresource : context.resource = "/r/a.js" := by decide +kernel
  have hfirst : (wrap "x" context).result = .ok "(x)" := by rfl
  have hsecond : (wrap "(x)!" context).result = .error (.ofMessage "twice") := by rfl
  have hpasses : Passes registry context ["wrap", "mark"] "x" "(x)!"
      [⟨"wrap", "x", "(x)"⟩, ⟨"mark", "(x)", "(x)!"⟩] := by
    refine ⟨rfl, rfl, ?_⟩
    simp only [List.forall_mem_cons]
    exact ⟨⟨wrap, rfl, hfirst⟩, ⟨mark, rfl, rfl⟩, by simp⟩
  have hstops : Stops registry context "wrap" "(x)!" [.loaderCalled "wrap" "/r/a.js"]
      (.loaderFailed "wrap" "/r/a.js" "twice") := by
    rw [← hresource]
    exact .failed rfl hsecond
  have hmatching : matching [front, middle, back] context.resource =
      ["mark"] ++ "wrap" :: ["mark", "wrap"] := by decide +kernel
  refine ⟨hvalid, happend [front, middle] [back] "x", (hfails _ _ _ _).mpr ⟨["mark"], "wrap",
    ["mark", "wrap"], _, _, _, hmatching, hpasses, hstops, ?_⟩, hknown _ hvalid⟩
  rw [← hresource]
  rfl

end Bundler.Loader
