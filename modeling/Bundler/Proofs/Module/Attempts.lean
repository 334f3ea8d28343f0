import Bundler.Proofs.Module.Failures
import Bundler.Proofs.Module.Supply

/-! The tries to build modules, over any number of builds of one graph. A run that lists its tries
is the run itself; once a try has succeeded, its id is never tried again, and the entry it was made
for stays the first owner of the module. -/

namespace Bundler

namespace Loader

variable {registry : LoaderRegistry} {context : LoaderContext} {names : List String}
variable {source : String}

/-- Runs loaders as `runAll` does, and lists those that are called, a failing one included. -/
def runLogged (registry : LoaderRegistry) (context : LoaderContext) :
    List String → String → List String × Report BuildError String
  | [], source => ([], .ok source)
  | name :: rest, source =>
      let first := runNamed registry context name source
      match first.result with
      | .error error =>
          ((registry.get? name).toList.map fun _ => name, ⟨first.events, .error error⟩)
      | .ok next =>
          let later := runLogged registry context rest next
          (name :: later.1, ⟨first.events ++ later.2.events, later.2.result⟩)

theorem runLogged_snd : (runLogged registry context names source).2 =
    runAll registry context names source := by
  induction names generalizing source with
  | nil => rfl
  | cons name rest ih =>
      rw [runLogged, runAll]
      cases h : (runNamed registry context name source).result with
      | error error => rw [Report.bind_of_error _ h]
      | ok next => rw [Report.bind_of_ok _ h, ← ih]

/-- Loaders run in the given order, up to the first that fails. -/
theorem runLogged_isPrefix : (runLogged registry context names source).1 <+: names := by
  induction names generalizing source with
  | nil => exact List.prefix_rfl
  | cons name rest ih =>
      rw [runLogged]
      cases h : (runNamed registry context name source).result with
      | error error =>
          dsimp only
          cases registry.get? name with
          | none => exact List.nil_prefix
          | some loader => exact List.prefix_append [name] rest
      | ok next => exact (List.prefix_cons_inj name).mpr ih

/-- Where no loader fails, each of the given ones runs once. -/
theorem runLogged_eq_of_ok {text : String}
    (h : (runLogged registry context names source).2.result = .ok text) :
    (runLogged registry context names source).1 = names := by
  rw [runLogged_snd] at h
  induction names generalizing source with
  | nil => rfl
  | cons name rest ih =>
      obtain ⟨next, hnext, hrest⟩ := Report.bind_eq_ok h
      rw [runLogged]
      simp only [hnext]
      rw [ih hrest]

end Loader

namespace Workshop

variable {shop : Workshop} {entry : String}

/-- One try to build a module. -/
structure Attempt where
  shop : Workshop
  entry : String
  visit : Visit

namespace Attempt

/-- What building the module gives. -/
def outcome (attempt : Attempt) : Report BuildError (Module × List Visit) :=
  attempt.shop.buildModule attempt.entry attempt.visit

def succeeds (attempt : Attempt) : Bool := attempt.outcome.result.isOk

/-- What the loaders are told. -/
def context (attempt : Attempt) : LoaderContext :=
  ⟨attempt.visit.path, attempt.shop.resolver.root, attempt.entry⟩

/-- The loaders that the rules have for the file, in the order in which they are to run. -/
def chain (attempt : Attempt) : List String :=
  (Loader.matching attempt.shop.rules attempt.context.resource).reverse

/-- The loaders that run, none if the file cannot be read. -/
def loadersRun (attempt : Attempt) : List String :=
  match attempt.shop.disk.readText attempt.visit.path with
  | .error _ => []
  | .ok source =>
      (Loader.runLogged attempt.shop.loaders attempt.context attempt.chain source).1

variable {attempt : Attempt}

theorem loadersRun_isPrefix : attempt.loadersRun <+: attempt.chain := by
  unfold loadersRun
  split
  · exact List.nil_prefix
  · exact Loader.runLogged_isPrefix

theorem loadersRun_eq_chain (h : attempt.succeeds = true) :
    attempt.loadersRun = attempt.chain := by
  obtain ⟨⟨built, dependencies⟩, hbuilt⟩ := exists_eq_ok h
  obtain ⟨source, loaded, _, hsource, hloaded, -⟩ := buildModule_inversion hbuilt
  unfold loadersRun
  rw [hsource]
  exact Loader.runLogged_eq_of_ok (by rwa [Loader.runLogged_snd])

/-- A module is what a try made of its file. Its first owner is the entry of the try. -/
def Made (attempt : Attempt) (module : Module) : Prop :=
  ∃ built dependencies others, attempt.outcome.result = .ok (built, dependencies) ∧
    built.id = attempt.visit.id ∧ built.path = attempt.visit.path ∧
    module = { built with owners := attempt.entry :: others }

theorem made_of_ok {module : Module} {dependencies : List Visit}
    (h : attempt.outcome.result = .ok (module, dependencies)) : attempt.Made module := by
  obtain ⟨_, _, _, -, -, -, rfl, -⟩ := buildModule_inversion h
  exact ⟨_, dependencies, [], h, rfl, rfl, rfl⟩

theorem Made.addOwner {module : Module} (h : attempt.Made module) (entry : String) :
    attempt.Made (module.addOwner entry) := by
  obtain ⟨built, dependencies, others, hbuilt, hid, hpath, rfl⟩ := h
  unfold Module.addOwner
  split
  · exact ⟨built, dependencies, others, hbuilt, hid, hpath, rfl⟩
  · exact ⟨built, dependencies, others ++ [entry], hbuilt, hid, hpath, rfl⟩

theorem Made.id_eq {module : Module} (h : attempt.Made module) :
    attempt.visit.id = module.id := by
  obtain ⟨built, _, _, -, hid, -, rfl⟩ := h
  exact hid.symm

end Attempt

/-! ### A run with its tries -/

/-- Works off a stack of visits as `visitFrom` does, and lists those for which it tries to build a
module. -/
def visitFromLogged (shop : Workshop) (entry : String) :
    Nat → List Visit → Graph → Option (List Visit × Outcome Graph BuildError Unit)
  | _, [], graph => some ([], ⟨graph, [], .ok ()⟩)
  | 0, _ :: _, _ => none
  | fuel + 1, visit :: rest, graph =>
      if graph.contains visit.id then
        visitFromLogged shop entry fuel rest (graph.addOwner visit.id entry)
      else
        let built := shop.buildModule entry visit
        match built.result with
        | .error error => some ([visit], ⟨graph, built.events, .error error⟩)
        | .ok (module, dependencies) =>
            (visitFromLogged shop entry fuel (dependencies ++ rest) (graph.insert module)).map
              fun later =>
                (visit :: later.1, { later.2 with events := built.events ++ later.2.events })

section Step

variable {fuel : Nat} {visit : Visit} {rest : List Visit} {graph : Graph}

theorem visitFromLogged_of_mem (h : visit.id ∈ graph.ids) :
    shop.visitFromLogged entry (fuel + 1) (visit :: rest) graph =
      shop.visitFromLogged entry fuel rest (graph.addOwner visit.id entry) := by
  rw [visitFromLogged, if_pos (Graph.contains_iff.mpr h)]

theorem visitFromLogged_of_error {error : BuildError} (h : visit.id ∉ graph.ids)
    (hb : (shop.buildModule entry visit).result = .error error) :
    shop.visitFromLogged entry (fuel + 1) (visit :: rest) graph =
      some ([visit], ⟨graph, (shop.buildModule entry visit).events, .error error⟩) := by
  rw [visitFromLogged, if_neg (mt Graph.contains_iff.mp h)]
  simp only [hb]

theorem visitFromLogged_of_ok {module : Module} {dependencies : List Visit}
    (h : visit.id ∉ graph.ids)
    (hb : (shop.buildModule entry visit).result = .ok (module, dependencies)) :
    shop.visitFromLogged entry (fuel + 1) (visit :: rest) graph =
      (shop.visitFromLogged entry fuel (dependencies ++ rest) (graph.insert module)).map
        fun later => (visit :: later.1,
          { later.2 with events := (shop.buildModule entry visit).events ++ later.2.events }) := by
  rw [visitFromLogged, if_neg (mt Graph.contains_iff.mp h)]
  simp only [hb]

end Step

/-- Without its list the run is the run that lists nothing. -/
theorem map_snd_visitFromLogged {fuel : Nat} {stack : List Visit} {graph : Graph} :
    (shop.visitFromLogged entry fuel stack graph).map Prod.snd =
      shop.visitFrom entry fuel stack graph := by
  induction fuel generalizing stack graph with
  | zero => cases stack <;> rfl
  | succ fuel ih =>
      cases stack with
      | nil => rfl
      | cons visit rest =>
          by_cases hid : visit.id ∈ graph.ids
          · rw [visitFromLogged_of_mem hid, visitFrom_of_mem hid, ih]
          · cases hb : (shop.buildModule entry visit).result with
            | error error => rw [visitFromLogged_of_error hid hb, visitFrom_of_error hid hb]; rfl
            | ok built =>
                obtain ⟨module, dependencies⟩ := built
                rw [visitFromLogged_of_ok hid hb, visitFrom_of_ok hid hb, ← ih, Option.map_map,
                  Option.map_map]
                rfl

theorem Run.visitFromLogged_eq {fuel : Nat} {stack log : List Visit} {graph : Graph}
    {outcome : Outcome Graph BuildError Unit}
    (h : shop.Run entry fuel stack graph log outcome) :
    shop.visitFromLogged entry fuel stack graph = some (log, outcome) := by
  induction h with
  | done => rw [visitFromLogged]
  | again hid _ ih => rw [visitFromLogged_of_mem hid, ih]
  | fail hid hbuilt => rw [visitFromLogged_of_error hid hbuilt]
  | build hid hbuilt _ ih => rw [visitFromLogged_of_ok hid hbuilt, ih, Option.map_some]

/-! ### What tries leave -/

/-- The tries up to some moment, and the graph at that moment: its modules are what the tries that
succeeded made, in order, and no id was tried again after one of them. -/
structure Recorded (tries : List Attempt) (graph : Graph) : Prop where
  made : List.Forall₂ Attempt.Made (tries.filter Attempt.succeeds) graph.modules
  once : tries.Pairwise fun earlier later =>
    earlier.succeeds = true → earlier.visit.id ≠ later.visit.id

namespace Recorded

variable {tries : List Attempt} {graph : Graph}

theorem ids_eq (h : Recorded tries graph) :
    (tries.filter Attempt.succeeds).map (fun attempt => attempt.visit.id) = graph.ids := by
  rw [Graph.ids, ← List.forall₂_eq_eq_eq, List.forall₂_map_left_iff, List.forall₂_map_right_iff]
  exact h.made.imp fun _ _ hmade => hmade.id_eq

theorem mem_ids (h : Recorded tries graph) {attempt : Attempt} (ha : attempt ∈ tries)
    (hok : attempt.succeeds = true) : attempt.visit.id ∈ graph.ids := by
  rw [← h.ids_eq]
  exact List.mem_map_of_mem (List.mem_filter.mpr ⟨ha, hok⟩)

theorem addOwner (h : Recorded tries graph) (id entry : String) :
    Recorded tries (graph.addOwner id entry) := by
  classical
  refine ⟨?_, h.once⟩
  rw [Graph.addOwner_eq_tagAll, Graph.tagAll, List.forall₂_map_right_iff]
  refine h.made.imp fun attempt module hmade => ?_
  split
  · exact hmade.addOwner entry
  · exact hmade

/-- One more try, at an id that the graph does not have. -/
theorem once_snoc (h : Recorded tries graph) {attempt : Attempt}
    (hid : attempt.visit.id ∉ graph.ids) : (tries ++ [attempt]).Pairwise fun earlier later =>
      earlier.succeeds = true → earlier.visit.id ≠ later.visit.id := by
  refine List.pairwise_append.mpr ⟨h.once, List.pairwise_singleton _ _, ?_⟩
  intro earlier he later hl hok hsame
  obtain rfl := List.mem_singleton.mp hl
  exact hid (hsame ▸ h.mem_ids he hok)

theorem fail (h : Recorded tries graph) (attempt : Attempt) {error : BuildError}
    (hid : attempt.visit.id ∉ graph.ids) (hb : attempt.outcome.result = .error error) :
    Recorded (tries ++ [attempt]) graph := by
  refine ⟨?_, h.once_snoc hid⟩
  have hfails : attempt.succeeds = false := by rw [Attempt.succeeds, hb]; rfl
  simpa [hfails] using h.made

theorem insert (h : Recorded tries graph) (attempt : Attempt) {module : Module}
    {dependencies : List Visit} (hid : attempt.visit.id ∉ graph.ids)
    (hb : attempt.outcome.result = .ok (module, dependencies)) :
    Recorded (tries ++ [attempt]) (graph.insert module) := by
  have hok : attempt.succeeds = true := by rw [Attempt.succeeds, hb]; rfl
  have hmade := Attempt.made_of_ok hb
  refine ⟨?_, h.once_snoc hid⟩
  rw [Graph.modules_insert (hmade.id_eq ▸ hid), List.filter_append]
  simpa [hok] using List.rel_append h.made (.cons hmade .nil)

end Recorded

/-- A run of the stack goes on with the record, and its events are those of its tries. All of them
succeed, up to the last one if the run fails. -/
theorem Run.recorded {fuel : Nat} {stack log : List Visit} {graph : Graph}
    {outcome : Outcome Graph BuildError Unit} {tries : List Attempt}
    (h : shop.Run entry fuel stack graph log outcome) (hrecord : Recorded tries graph) :
    let more := log.map (Attempt.mk shop entry)
    Recorded (tries ++ more) outcome.state ∧
      outcome.events = more.flatMap (fun attempt => attempt.outcome.events) ∧
      match outcome.result with
      | .ok () => ∀ attempt ∈ more, attempt.succeeds = true
      | .error error => ∃ front last, more = front ++ [last] ∧
          (∀ attempt ∈ front, attempt.succeeds = true) ∧ last.outcome.result = .error error := by
  induction h generalizing tries with
  | done => exact ⟨by simpa using hrecord, rfl, by simp⟩
  | again hid _ ih => exact ih (hrecord.addOwner _ _)
  | @fail fuel visit rest graph error hid hbuilt =>
      let attempt : Attempt := ⟨shop, entry, visit⟩
      exact ⟨hrecord.fail attempt hid hbuilt, by simp [Attempt.outcome],
        [], attempt, rfl, by simp, hbuilt⟩
  | @build fuel visit rest dependencies log graph module outcome hid hbuilt _ ih =>
      let attempt : Attempt := ⟨shop, entry, visit⟩
      obtain ⟨hafter, hevents, hresult⟩ := ih (hrecord.insert attempt hid hbuilt)
      have hok : attempt.succeeds = true := by
        rw [Attempt.succeeds, Attempt.outcome, hbuilt]; rfl
      refine ⟨by simpa [attempt] using hafter, by simp [hevents, Attempt.outcome], ?_⟩
      dsimp only
      split at hresult
      · exact List.forall_mem_cons.mpr ⟨hok, hresult⟩
      · obtain ⟨front, last, hmore, hfront, hlast⟩ := hresult
        exact ⟨attempt :: front, last, by simp [hmore, attempt],
          List.forall_mem_cons.mpr ⟨hok, hfront⟩, hlast⟩

/-- Every try is made under the id of its path. -/
theorem Run.id_of_mem_log {fuel : Nat} {stack log : List Visit} {graph : Graph}
    {outcome : Outcome Graph BuildError Unit} (h : shop.Run entry fuel stack graph log outcome)
    (hstack : ∀ visit ∈ stack, visit.id = shop.resolver.moduleId visit.path) :
    ∀ visit ∈ log, visit.id = shop.resolver.moduleId visit.path := by
  induction h with
  | done => simp
  | again _ _ ih => exact ih (List.forall_mem_cons.mp hstack).2
  | fail => simpa using (List.forall_mem_cons.mp hstack).1
  | build _ hbuilt _ ih =>
      obtain ⟨hvisit, hrest⟩ := List.forall_mem_cons.mp hstack
      refine List.forall_mem_cons.mpr ⟨hvisit, ih (List.forall_mem_append.mpr ⟨?_, hrest⟩)⟩
      exact fun other ho => ((isFile_of_buildModule hbuilt).2.2 other ho).1

/-! ### Calls with their tries -/

namespace Call

variable {call : Call} {graph : Graph}

/-- Carries out a build as `run` does, and lists the tries to build a module. -/
def runLogged (call : Call) (graph : Graph) : List Attempt × Outcome Graph BuildError String :=
  let id := call.shop.resolver.moduleId call.path
  let logged := call.shop.visitFromLogged call.entry call.shop.visitBound [⟨id, call.path⟩] graph
  ((logged.elim [] Prod.fst).map (Attempt.mk call.shop call.entry),
    finish id call.path graph (logged.map Prod.snd))

theorem runLogged_snd (call : Call) (graph : Graph) :
    (call.runLogged graph).2 = call.run graph := by
  rw [runLogged, map_snd_visitFromLogged]
  rfl

/-- The tries of a call, in order. -/
def attempts (call : Call) (graph : Graph) : List Attempt :=
  (call.runLogged graph).1

/-- The tries of calls one after the other, each on the graph that the one before left. -/
def history (graph : Graph) : List Call → List Attempt
  | [] => []
  | call :: rest => call.attempts graph ++ history (call.run graph).state rest

theorem history_snoc (graph : Graph) (calls : List Call) (call : Call) :
    history graph (calls ++ [call]) =
      history graph calls ++ call.attempts (Action.stateAfter run graph calls) := by
  induction calls generalizing graph with
  | nil => simp [history, Action.stateAfter]
  | cons first rest ih =>
      rw [List.cons_append, history, ih, history, List.append_assoc]
      rfl

/-- What the tries of a call are to the call. They are all that it does, they are made for its entry
and under the ids of their paths, and the call fails exactly with its last try. -/
structure Tries (call : Call) (graph : Graph) : Prop where
  erased : (call.runLogged graph).2 = call.run graph
  events : (call.run graph).events =
    (call.attempts graph).flatMap fun attempt => attempt.outcome.events
  own : ∀ attempt ∈ call.attempts graph, attempt.shop = call.shop ∧ attempt.entry = call.entry ∧
    attempt.visit.id = call.shop.resolver.moduleId attempt.visit.path
  ok : ∀ id, (call.run graph).result = .ok id →
    ∀ attempt ∈ call.attempts graph, attempt.succeeds = true
  error : ∀ error, (call.run graph).result = .error error → ∃ front last,
    call.attempts graph = front ++ [last] ∧ (∀ attempt ∈ front, attempt.succeeds = true) ∧
      last.outcome.result = .error error

/-- A call is a run that ends within the bound, and its tries are those that the run lists. -/
theorem exists_log (call : Call) (graph : Graph) :
    let root : Visit := ⟨call.shop.resolver.moduleId call.path, call.path⟩
    ∃ log outcome,
      call.shop.Run call.entry call.shop.visitBound [root] graph log outcome ∧
      call.attempts graph = log.map (Attempt.mk call.shop call.entry) ∧
      call.run graph = finish root.id call.path graph (some outcome) := by
  intro root
  obtain ⟨outcome, hsome⟩ := visitFrom_visitBound_isSome call.shop call.entry call.path graph
  obtain ⟨log, hends⟩ := exists_run hsome
  have hlogged := hends.visitFromLogged_eq
  refine ⟨log, outcome, hends, ?_, ?_⟩
  · rw [attempts, runLogged, hlogged]
    rfl
  · rw [← runLogged_snd, runLogged, hlogged]
    rfl

/-- The tries of a call go on with the record. -/
theorem tries_attempts (call : Call) {tries : List Attempt} (h : Recorded tries graph) :
    call.Tries graph ∧ Recorded (tries ++ call.attempts graph) (call.run graph).state := by
  obtain ⟨log, outcome, hends, hattempts, hrun⟩ := exists_log call graph
  obtain ⟨hrecorded, hevents, hresult⟩ := hends.recorded h
  have hids := hends.id_of_mem_log (by simp)
  rw [hattempts, hrun]
  refine ⟨⟨runLogged_snd call graph, by rw [hattempts, hrun]; exact hevents, ?_, ?_, ?_⟩, hrecorded⟩
  · rw [hattempts]
    intro attempt ha
    obtain ⟨visit, hv, rfl⟩ := List.mem_map.mp ha
    exact ⟨rfl, rfl, hids visit hv⟩
  · intro built hok
    rw [hattempts]
    cases hr : outcome.result with
    | error error =>
        rw [hrun, finish, hr] at hok
        cases hok
    | ok =>
        rw [hr] at hresult
        exact hresult
  · intro error herror
    rw [hattempts]
    cases hr : outcome.result with
    | ok =>
        rw [hrun, finish, hr] at herror
        cases herror
    | error other =>
        rw [hr] at hresult
        rw [hrun, finish, hr] at herror
        obtain rfl := Except.error.inj herror
        exact hresult

/-- Any sequence of calls. -/
theorem recorded_history (calls : List Call) :
    Recorded (history .empty calls) (Action.stateAfter run .empty calls) := by
  induction calls using List.reverseRecOn with
  | nil => exact ⟨.nil, .nil⟩
  | append_singleton calls call ih =>
      rw [history_snoc, Action.stateAfter_snoc]
      exact (tries_attempts call ih).2

theorem exists_of_mem_history {calls : List Call} {attempt : Attempt}
    (h : attempt ∈ history graph calls) : ∃ earlier call later, calls = earlier ++ call :: later ∧
      attempt ∈ call.attempts (Action.stateAfter run graph earlier) := by
  induction calls generalizing graph with
  | nil => cases h
  | cons first rest ih =>
      rcases List.mem_append.mp h with h | h
      · exact ⟨[], first, rest, rfl, h⟩
      · obtain ⟨earlier, call, later, rfl, hmem⟩ := ih h
        exact ⟨first :: earlier, call, later, rfl, hmem⟩

/-- Calls with one root have no two tries that succeed for one file. -/
theorem nodup_paths {root : Path} {calls : List Call}
    (hroot : ∀ call ∈ calls, call.shop.resolver.root = root) :
    (((history .empty calls).filter Attempt.succeeds).map
      fun attempt => attempt.visit.path.normalize).Nodup := by
  let idOf (path : Path) : String := "./" ++ (Path.relative root.normalize path).unixText
  have hids := (recorded_history calls).ids_eq
  refine List.Nodup.of_map idOf ?_
  rw [List.map_map]
  have hsame : ((history .empty calls).filter Attempt.succeeds).map
      (idOf ∘ fun attempt => attempt.visit.path.normalize) =
        (Action.stateAfter run .empty calls).ids := by
    rw [← hids]
    apply List.map_congr_left
    intro attempt ha
    obtain ⟨earlier, call, later, rfl, hmem⟩ := exists_of_mem_history (List.mem_filter.mp ha).1
    obtain ⟨-, -, hid⟩ := (tries_attempts call (recorded_history earlier)).1.own attempt hmem
    rw [hid, Resolver.moduleId, hroot call (by simp)]
    rfl
  rw [hsame]
  exact (Action.stateAfter run .empty calls).nodup

end Call

end Workshop

end Bundler
