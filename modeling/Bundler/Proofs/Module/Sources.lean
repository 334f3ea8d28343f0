import Bundler.Proofs.Module.Attempts
import Bundler.Proofs.Script.Specifiers

/-! What a build looks at on the disk: the files of the modules that it builds, and what their
specifiers denote. On a disk where all this is the same, the build is the same, whatever else has
changed. -/

namespace Bundler

namespace Workshop

/-- The same workshop for another disk. -/
def on (shop : Workshop) (disk : Disk) : Workshop := { shop with disk := disk }

variable {shop : Workshop} {entry : String} {after : Disk}

namespace Attempt

/-- The same try on another disk. -/
def on (attempt : Attempt) (disk : Disk) : Attempt := { attempt with shop := attempt.shop.on disk }

/-- The directory that the specifiers in the file are relative to. -/
def base (attempt : Attempt) : Path :=
  attempt.visit.path.parent?.getD attempt.shop.resolver.root

/-- The specifiers that the file requires modules by, once it has been read and loaded. -/
def specifiers (attempt : Attempt) : List String :=
  match attempt.shop.disk.readText attempt.visit.path with
  | .error _ => []
  | .ok source =>
    match (Loader.apply attempt.shop.rules attempt.shop.loaders attempt.context source).result with
    | .error _ => []
    | .ok loaded => Script.specifiersOf attempt.visit.path loaded

variable {attempt : Attempt}

theorem specifiers_eq {source loaded : String}
    (hsource : attempt.shop.disk.readText attempt.visit.path = .ok source)
    (hloaded : (Loader.apply attempt.shop.rules attempt.shop.loaders attempt.context
      source).result = .ok loaded) :
    attempt.specifiers = Script.specifiersOf attempt.visit.path loaded := by
  unfold specifiers
  simp only [hsource, hloaded]

/-- A module is built in the same way on disks that hold the same text and the same files. -/
theorem outcome_on
    (hread : after.readText attempt.visit.path = attempt.shop.disk.readText attempt.visit.path)
    (hresolve : ∀ specifier ∈ attempt.specifiers,
      attempt.shop.resolver.resolve after attempt.base specifier =
        attempt.shop.resolver.resolve attempt.shop.disk attempt.base specifier) :
    (attempt.on after).outcome = attempt.outcome := by
  unfold outcome buildModule
  dsimp only [on, Workshop.on]
  rw [hread]
  refine Report.bind_congr fun source hsource => Report.bind_congr fun loaded hloaded => ?_
  rw [specifiers_eq (mapError_eq_ok hsource) hloaded] at hresolve
  rw [Script.rewrite_congr attempt.visit.id hresolve]

end Attempt

/-! ### Builds on another disk -/

/-- A run that succeeds goes the same way wherever all that it builds is built alike. -/
theorem Run.on {fuel : Nat} {stack log : List Visit} {graph : Graph}
    {outcome : Outcome Graph BuildError Unit}
    (h : shop.Run entry fuel stack graph log outcome) (hok : outcome.result = .ok ())
    (hsame : ∀ visit ∈ log, (shop.buildModule entry visit).result.isOk = true →
      (shop.on after).buildModule entry visit = shop.buildModule entry visit) :
    (shop.on after).Run entry fuel stack graph log outcome := by
  induction h with
  | done => exact .done
  | again hid _ ih => exact .again hid (ih hok hsame)
  | fail => cases hok
  | build hid hbuilt _ ih =>
      obtain ⟨hvisit, hlater⟩ := List.forall_mem_cons.mp hsame
      have hthere := hvisit (by rw [hbuilt]; rfl)
      rw [← hthere] at hbuilt ⊢
      exact .build hid hbuilt (ih hok hlater)

/-- The tries of the builds of some entries, one after the other. -/
def attempts (shop : Workshop) (entries : List (String × Path)) (graph : Graph) : List Attempt :=
  Call.history graph (entries.map fun entry => ⟨shop, entry.1, entry.2⟩)

theorem shop_of_mem_attempts {entries : List (String × Path)} {graph : Graph} {attempt : Attempt}
    (h : attempt ∈ shop.attempts entries graph) : attempt.shop = shop := by
  obtain ⟨earlier, call, later, hcalls, hmem⟩ := Call.exists_of_mem_history h
  obtain ⟨_, -, hcall⟩ := List.mem_map.mp (hcalls ▸ List.mem_append_right earlier
    List.mem_cons_self)
  obtain ⟨_, _, -, hattempts, -⟩ := Call.exists_log call (Action.stateAfter Call.run graph earlier)
  rw [hattempts] at hmem
  obtain ⟨_, -, rfl⟩ := List.mem_map.mp hmem
  rw [← hcall]

/-- An entry that can be built is built in the same way wherever its modules are. -/
theorem buildEntry_on {path : Path} {graph : Graph} {id : String}
    (hok : (shop.buildEntry entry path graph).result = .ok id)
    (hsame : ∀ attempt ∈ Call.attempts ⟨shop, entry, path⟩ graph, attempt.succeeds = true →
      (attempt.on after).outcome = attempt.outcome) :
    (shop.on after).buildEntry entry path graph = shop.buildEntry entry path graph := by
  obtain ⟨log, outcome, hends, hattempts, hrun⟩ := Call.exists_log ⟨shop, entry, path⟩ graph
  obtain ⟨outcome', houtcome'⟩ := visitFrom_visitBound_isSome (shop.on after) entry path graph
  obtain ⟨_, hends'⟩ := exists_run houtcome'
  have hended : outcome.result = .ok () := by
    change (Call.run ⟨shop, entry, path⟩ graph).result = .ok id at hok
    rw [hrun, finish] at hok
    cases hresult : outcome.result with
    | error error =>
        rw [hresult] at hok
        cases hok
    | ok => rfl
  have hthere := hends.on hended fun visit hvisit hbuilt =>
    hsame ⟨shop, entry, visit⟩ (hattempts ▸ List.mem_map_of_mem hvisit) hbuilt
  change _ = Call.run ⟨shop, entry, path⟩ graph
  -- the bounds may differ, but both suffice
  rw [hrun, buildEntry, houtcome', hends'.outcome_eq hthere]
  rfl

end Workshop

namespace Compilation

variable {shop : Workshop} {after : Disk} {state : Compilation}

/-- Entries that can be built are built in the same way wherever their modules are. -/
theorem buildEntries_on {entries : List (String × Path)}
    (hok : (buildEntries shop entries state).result = .ok ())
    (hsame : ∀ attempt ∈ shop.attempts entries state.graph, attempt.succeeds = true →
      (attempt.on after).outcome = attempt.outcome) :
    buildEntries (shop.on after) entries state = buildEntries shop entries state := by
  induction entries generalizing state with
  | nil => rfl
  | cons first rest ih =>
      obtain ⟨entry, path⟩ := first
      obtain ⟨hfirst, hrest⟩ := List.forall_mem_append.mp hsame
      cases hbuilt : (shop.buildEntry entry path state.graph).result with
      | error error =>
          rw [buildEntries, (Action.bind_of_error _ (buildEntry_of_error hbuilt).1).2] at hok
          cases hok
      | ok id =>
          obtain ⟨hresult, hstate⟩ := buildEntry_of_ok hbuilt
          have hentry : buildEntry (shop.on after) entry path state =
              buildEntry shop entry path state := by
            refine Action.bind_congr ?_ fun _ _ => rfl
            unfold Action.focus
            rw [Workshop.buildEntry_on hbuilt hfirst]
          rw [buildEntries, (Action.bind_of_ok _ hresult).2] at hok
          rw [buildEntries, buildEntries]
          refine Action.bind_congr hentry fun _ _ => ih hok ?_
          rw [hstate]
          exact hrest

variable {disk : Disk} {loaders : LoaderRegistry}

/-- The tries of a whole compilation. -/
def attempts (state : Compilation) (disk : Disk) (loaders : LoaderRegistry) :
    List Workshop.Attempt :=
  (state.workshop disk loaders).attempts state.options.entries.entries state.graph

/-- A compilation that succeeds is the same on every disk that holds what it looks at. -/
theorem buildModules_on (hok : (buildModules disk loaders state).result = .ok ())
    (hsame : ∀ attempt ∈ state.attempts disk loaders, attempt.succeeds = true →
      (attempt.on after).outcome = attempt.outcome) :
    buildModules after loaders state = buildModules disk loaders state := by
  have hentries : (buildEntries (state.workshop disk loaders) state.options.entries.entries
      state).result = .ok () := by
    cases hr : (buildEntries (state.workshop disk loaders) state.options.entries.entries
        state).result with
    | error error =>
        rw [(buildModules_of_error hr).1] at hok
        cases hok
    | ok => rfl
  unfold buildModules
  refine Action.bind_congr rfl fun current hcurrent => ?_
  obtain rfl := Except.ok.inj hcurrent
  exact Action.bind_congr (buildEntries_on hentries hsame) fun _ _ => rfl

end Compilation

end Bundler
