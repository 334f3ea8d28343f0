import Bundler.Proofs.Module.Supply

/-! The stack of visits carries out a recursion: a module that is there gains an owner; any other
is built and added, and then its dependencies are visited, one after the other, each with all that
it requires. The first error ends everything. -/

namespace Bundler

namespace Outcome

variable {σ ε : Type}

/-- The outcome with earlier events. -/
def withEarlier (events : List Event) (outcome : Outcome σ ε Unit) : Outcome σ ε Unit :=
  { outcome with events := events ++ outcome.events }

/-- Goes on from the state that an outcome leaves, unless it is an error. -/
def proceed (first : Option (Outcome σ ε Unit)) (next : σ → Option (Outcome σ ε Unit)) :
    Option (Outcome σ ε Unit) :=
  first.bind fun before =>
    match before.result with
    | .error _ => some before
    | .ok () => (next before.state).map (withEarlier before.events)

variable {first : Option (Outcome σ ε Unit)} {next last : σ → Option (Outcome σ ε Unit)}

theorem map_withEarlier_nil (outcome : Option (Outcome σ ε Unit)) :
    outcome.map (withEarlier []) = outcome :=
  congrFun Option.map_id outcome

theorem withEarlier_append (earlier events : List Event) (outcome : Outcome σ ε Unit) :
    outcome.withEarlier (earlier ++ events) = (outcome.withEarlier events).withEarlier earlier := by
  simp [withEarlier]

@[simp] theorem proceed_ok (state : σ) (events : List Event) (value : Unit) :
    proceed (some ⟨state, events, .ok value⟩) next = (next state).map (withEarlier events) := rfl

@[simp] theorem proceed_error (state : σ) (events : List Event) (error : ε) :
    proceed (some ⟨state, events, .error error⟩) next = some ⟨state, events, .error error⟩ := rfl

theorem proceed_withEarlier (events : List Event) :
    proceed (first.map (withEarlier events)) next =
      (proceed first next).map (withEarlier events) := by
  cases first with
  | none => rfl
  | some before =>
      obtain ⟨state, old, error | value⟩ := before
      · rfl
      · rw [proceed_ok, Option.map_some, withEarlier, proceed_ok, Option.map_map]
        exact congrArg (Option.map · (next state)) (funext (withEarlier_append events old))

/-- A sequence of parts that give outcomes keeps its outcome where both parts keep theirs. -/
theorem proceed_mono {first' : Option (Outcome σ ε Unit)} {next' : σ → Option (Outcome σ ε Unit)}
    {outcome : Outcome σ ε Unit}
    (hfirst : ∀ {before}, first = some before → first' = some before)
    (hnext : ∀ {state after}, next state = some after → next' state = some after)
    (h : proceed first next = some outcome) : proceed first' next' = some outcome := by
  cases hf : first with
  | none =>
      rw [hf] at h
      cases h
  | some before =>
      rw [hf] at h
      rw [hfirst hf]
      obtain ⟨state, events, error | value⟩ := before
      · exact h
      · rw [proceed_ok] at h ⊢
        obtain ⟨after, hafter, rfl⟩ := Option.map_eq_some_iff.mp h
        rw [hnext hafter, Option.map_some]

theorem proceed_assoc :
    proceed (proceed first next) last = proceed first fun state => proceed (next state) last := by
  cases first with
  | none => rfl
  | some before =>
      obtain ⟨state, events, error | value⟩ := before
      · rfl
      · rw [proceed_ok, proceed_ok, proceed_withEarlier]

end Outcome

namespace Workshop

open Outcome

/-- Visits files one after the other, each in a given way, up to the first error. -/
def visitEach (step : Visit → Graph → Option (Outcome Graph BuildError Unit)) :
    List Visit → Graph → Option (Outcome Graph BuildError Unit)
  | [], graph => some ⟨graph, [], .ok ()⟩
  | first :: rest, graph => proceed (step first graph) (visitEach step rest)

/-- Visits a file and, unless its module is there, all that it requires. There is no outcome if
more visits than the given number are open at a time. -/
def visit (shop : Workshop) (entry : String) :
    Nat → Visit → Graph → Option (Outcome Graph BuildError Unit)
  | 0, _, _ => none
  | depth + 1, target, graph =>
      if graph.contains target.id then some ⟨graph.addOwner target.id entry, [], .ok ()⟩
      else
        let built := shop.buildModule entry target
        match built.result with
        | .error error => some ⟨graph, built.events, .error error⟩
        | .ok (module, dependencies) =>
            (visitEach (shop.visit entry depth) dependencies (graph.insert module)).map
              (withEarlier built.events)

/-- Visits the file of an entry; gives the id of its module. -/
def visitEntry (shop : Workshop) (entry : String) (path : Path) (graph : Graph) :
    Option (Outcome Graph BuildError String) := do
  let id := shop.resolver.moduleId path
  let outcome ← shop.visit entry shop.visitBound ⟨id, path⟩ graph
  return ⟨outcome.state, outcome.events, outcome.result.map fun _ => id⟩

variable {shop : Workshop} {entry : String} {target : Visit} {graph : Graph} {depth : Nat}
variable {step deeper : Visit → Graph → Option (Outcome Graph BuildError Unit)}
  {outcome : Outcome Graph BuildError Unit}

theorem visitEach_append (visits rest : List Visit) :
    visitEach step (visits ++ rest) graph =
      proceed (visitEach step visits graph) (visitEach step rest) := by
  induction visits generalizing graph with
  | nil => rw [visitEach, proceed_ok, map_withEarlier_nil, List.nil_append]
  | cons first visits ih =>
      rw [List.cons_append, visitEach, visitEach, proceed_assoc]
      exact congrArg (proceed _) (funext fun state => ih)

theorem visit_of_mem (h : target.id ∈ graph.ids) :
    shop.visit entry (depth + 1) target graph =
      some ⟨graph.addOwner target.id entry, [], .ok ()⟩ := by
  rw [visit, if_pos (Graph.contains_iff.mpr h)]

theorem visit_of_error {error : BuildError} (h : target.id ∉ graph.ids)
    (hb : (shop.buildModule entry target).result = .error error) :
    shop.visit entry (depth + 1) target graph =
      some ⟨graph, (shop.buildModule entry target).events, .error error⟩ := by
  rw [visit, if_neg (mt Graph.contains_iff.mp h)]
  simp only [hb]

theorem visit_of_ok {module : Module} {dependencies : List Visit} (h : target.id ∉ graph.ids)
    (hb : (shop.buildModule entry target).result = .ok (module, dependencies)) :
    shop.visit entry (depth + 1) target graph =
      (visitEach (shop.visit entry depth) dependencies (graph.insert module)).map
        (withEarlier (shop.buildModule entry target).events) := by
  rw [visit, if_neg (mt Graph.contains_iff.mp h)]
  simp only [hb]

/-! ### Depths that suffice -/

theorem visitEach_mono
    (h : ∀ {target graph outcome}, step target graph = some outcome →
      deeper target graph = some outcome) {visits : List Visit}
    (hsome : visitEach step visits graph = some outcome) :
    visitEach deeper visits graph = some outcome := by
  induction visits generalizing graph outcome with
  | nil => exact hsome
  | cons first rest ih =>
      rw [visitEach] at hsome ⊢
      exact proceed_mono h ih hsome

/-- Where some depth suffices, one more makes no difference. -/
theorem visit_succ (h : shop.visit entry depth target graph = some outcome) :
    shop.visit entry (depth + 1) target graph = some outcome := by
  induction depth generalizing target graph outcome with
  | zero => cases h
  | succ depth ih =>
      by_cases hid : target.id ∈ graph.ids
      · rw [visit_of_mem hid] at h ⊢
        exact h
      · cases hb : (shop.buildModule entry target).result with
        | error error =>
            rw [visit_of_error hid hb] at h ⊢
            exact h
        | ok built =>
            obtain ⟨module, dependencies⟩ := built
            rw [visit_of_ok hid hb] at h ⊢
            obtain ⟨inner, hinner, rfl⟩ := Option.map_eq_some_iff.mp h
            rw [visitEach_mono ih hinner, Option.map_some]

/-- What a run of the stack leaves, the recursion over the visits on the stack leaves as well. The
dependencies that a build puts on top are those of the innermost visit that is still open. -/
theorem Run.visitEach_eq {fuel : Nat} {stack log : List Visit}
    (h : shop.Run entry fuel stack graph log outcome) :
    visitEach (shop.visit entry fuel) stack graph = some outcome := by
  induction h with
  | done => rw [visitEach]
  | again hid _ ih =>
      rw [visitEach, visit_of_mem hid, proceed_ok, visitEach_mono visit_succ ih]
      rfl
  | fail hid hbuilt => rw [visitEach, visit_of_error hid hbuilt, proceed_error]
  | build hid hbuilt _ ih =>
      rw [visitEach_append] at ih
      have hdeeper := proceed_mono id (visitEach_mono visit_succ) ih
      rw [visitEach, visit_of_ok hid hbuilt, proceed_withEarlier, hdeeper]
      rfl

/-- The build of an entry is the recursion: it ends, and from any graph it leaves the same graph
and events, and the same id or the same error. -/
theorem visitEntry_eq_buildEntry (shop : Workshop) (entry : String) (path : Path) (graph : Graph) :
    shop.visitEntry entry path graph = some (shop.buildEntry entry path graph) := by
  obtain ⟨outcome, ho⟩ := visitFrom_visitBound_isSome shop entry path graph
  obtain ⟨_, hends⟩ := exists_run ho
  have hall := hends.visitEach_eq
  rw [visitEach] at hall
  have hvisit : shop.visit entry shop.visitBound ⟨shop.resolver.moduleId path, path⟩ graph =
      some outcome := by
    cases hv : shop.visit entry shop.visitBound ⟨shop.resolver.moduleId path, path⟩ graph with
    | none => simp [hv, proceed] at hall
    | some only =>
        obtain ⟨state, events, error | value⟩ := only
        · rwa [hv] at hall
        · rw [hv, proceed_ok, visitEach] at hall
          simpa [withEarlier] using hall
  rw [visitEntry, buildEntry, ho]
  simp only [hvisit]
  rfl

end Workshop

end Bundler
