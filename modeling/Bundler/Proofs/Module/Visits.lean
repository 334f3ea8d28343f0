import Bundler.Module.Build
import Bundler.Proofs.Graph.Reachability
import Bundler.Proofs.Report

/-! Working off a stack of visits, step by step. Whatever is still missing from the modules of the
entry is on the stack, or was missing before the first step. -/

namespace Bundler

namespace Graph

/-- A module of an entry requires an id that the entry does not own. -/
structure Gap (graph : Graph) (entry id dependency : String) : Prop where
  owned : graph.Owns entry id
  required : graph.DependsOn id dependency
  missing : ¬ graph.Owns entry dependency

end Graph

namespace Workshop

variable {shop : Workshop} {entry : String}

/-- All that a successful build does: the file is read, loaded and rewritten, and what it requires
is to be visited next. -/
theorem buildModule_inversion {visit : Visit} {module : Module} {dependencies : List Visit}
    (h : (shop.buildModule entry visit).result = .ok (module, dependencies)) :
    ∃ source loaded rewritten, shop.disk.readText visit.path = .ok source ∧
      (Loader.apply shop.rules shop.loaders ⟨visit.path, shop.resolver.root, entry⟩
        source).result = .ok loaded ∧
      (Script.rewrite shop.disk shop.resolver loaded visit.path visit.id).result =
        .ok rewritten ∧
      module = ⟨visit.id, visit.path, [entry], rewritten.dependencies.keys, source,
        rewritten.code⟩ ∧
      dependencies = rewritten.dependencies.entries.map fun dependency =>
        ⟨dependency.1, dependency.2⟩ := by
  obtain ⟨source, hsource, h⟩ := Report.bind_eq_ok h
  obtain ⟨loaded, hloaded, h⟩ := Report.bind_eq_ok h
  obtain ⟨rewritten, hrewritten, h⟩ := Report.bind_eq_ok h
  obtain ⟨_, -, h⟩ := Report.bind_eq_ok h
  obtain ⟨rfl, rfl⟩ := Prod.mk.inj (Except.ok.inj h)
  exact ⟨source, loaded, rewritten, mapError_eq_ok hsource, hloaded, hrewritten, rfl, rfl⟩

/-- What a successful build makes of a file: a module of the entry alone, whose dependencies are
the files to visit next. -/
theorem buildModule_eq_ok {visit : Visit} {module : Module} {dependencies : List Visit}
    (h : (shop.buildModule entry visit).result = .ok (module, dependencies)) :
    module.id = visit.id ∧ module.owners = [entry] ∧
      module.dependencies = dependencies.map Visit.id := by
  obtain ⟨_, _, rewritten, -, -, -, rfl, rfl⟩ := buildModule_inversion h
  simp [Table.keys, Table.names, Function.comp_def]

section Step

variable {fuel : Nat} {visit : Visit} {rest : List Visit} {graph : Graph}

theorem visitFrom_of_mem (h : visit.id ∈ graph.ids) :
    shop.visitFrom entry (fuel + 1) (visit :: rest) graph =
      shop.visitFrom entry fuel rest (graph.addOwner visit.id entry) := by
  rw [visitFrom, if_pos (Graph.contains_iff.mpr h)]

theorem visitFrom_of_error {error : BuildError} (h : visit.id ∉ graph.ids)
    (hb : (shop.buildModule entry visit).result = .error error) :
    shop.visitFrom entry (fuel + 1) (visit :: rest) graph =
      some ⟨graph, (shop.buildModule entry visit).events, .error error⟩ := by
  rw [visitFrom, if_neg (mt Graph.contains_iff.mp h)]
  simp only [hb]

theorem visitFrom_of_ok {module : Module} {dependencies : List Visit} (h : visit.id ∉ graph.ids)
    (hb : (shop.buildModule entry visit).result = .ok (module, dependencies)) :
    shop.visitFrom entry (fuel + 1) (visit :: rest) graph =
      (shop.visitFrom entry fuel (dependencies ++ rest) (graph.insert module)).map fun outcome =>
        { outcome with events := (shop.buildModule entry visit).events ++ outcome.events } := by
  rw [visitFrom, if_neg (mt Graph.contains_iff.mp h)]
  simp only [hb]

end Step

/-- A run of the stack that ends within a number of steps. It lists the visits for which it tries to
build a module, and fails with the first one that cannot be built. -/
inductive Run (shop : Workshop) (entry : String) :
    Nat → List Visit → Graph → List Visit → Outcome Graph BuildError Unit → Prop where
  | done {fuel : Nat} {graph : Graph} : Run shop entry fuel [] graph [] ⟨graph, [], .ok ()⟩
  | again {fuel : Nat} {visit : Visit} {rest log : List Visit} {graph : Graph}
      {outcome : Outcome Graph BuildError Unit} (hid : visit.id ∈ graph.ids)
      (hrest : Run shop entry fuel rest (graph.addOwner visit.id entry) log outcome) :
      Run shop entry (fuel + 1) (visit :: rest) graph log outcome
  | fail {fuel : Nat} {visit : Visit} {rest : List Visit} {graph : Graph} {error : BuildError}
      (hid : visit.id ∉ graph.ids)
      (hbuilt : (shop.buildModule entry visit).result = .error error) :
      Run shop entry (fuel + 1) (visit :: rest) graph [visit]
        ⟨graph, (shop.buildModule entry visit).events, .error error⟩
  | build {fuel : Nat} {visit : Visit} {rest dependencies log : List Visit} {graph : Graph}
      {module : Module} {outcome : Outcome Graph BuildError Unit} (hid : visit.id ∉ graph.ids)
      (hbuilt : (shop.buildModule entry visit).result = .ok (module, dependencies))
      (hrest : Run shop entry fuel (dependencies ++ rest) (graph.insert module) log outcome) :
      Run shop entry (fuel + 1) (visit :: rest) graph (visit :: log)
        { outcome with events := (shop.buildModule entry visit).events ++ outcome.events }

section Run

variable {fuel : Nat} {stack log : List Visit} {graph : Graph}
  {outcome : Outcome Graph BuildError Unit}

theorem Run.visitFrom_eq (h : shop.Run entry fuel stack graph log outcome) :
    shop.visitFrom entry fuel stack graph = some outcome := by
  induction h with
  | done => rw [visitFrom]
  | again hid _ ih => rw [visitFrom_of_mem hid, ih]
  | fail hid hbuilt => rw [visitFrom_of_error hid hbuilt]
  | build hid hbuilt _ ih => rw [visitFrom_of_ok hid hbuilt, ih, Option.map_some]

theorem exists_run (h : shop.visitFrom entry fuel stack graph = some outcome) :
    ∃ log, shop.Run entry fuel stack graph log outcome := by
  induction fuel generalizing stack graph outcome with
  | zero =>
      cases stack with
      | nil =>
          obtain rfl := Option.some.inj h
          exact ⟨[], .done⟩
      | cons visit rest => simp [visitFrom] at h
  | succ fuel ih =>
      cases stack with
      | nil =>
          obtain rfl := Option.some.inj h
          exact ⟨[], .done⟩
      | cons visit rest =>
          by_cases hid : visit.id ∈ graph.ids
          · rw [visitFrom_of_mem hid] at h
            obtain ⟨log, hrest⟩ := ih h
            exact ⟨log, .again hid hrest⟩
          · cases hb : (shop.buildModule entry visit).result with
            | error error =>
                rw [visitFrom_of_error hid hb] at h
                obtain rfl := Option.some.inj h
                exact ⟨[visit], .fail hid hb⟩
            | ok built =>
                obtain ⟨module, dependencies⟩ := built
                rw [visitFrom_of_ok hid hb] at h
                obtain ⟨inner, hinner, rfl⟩ := Option.map_eq_some_iff.mp h
                obtain ⟨log, hrest⟩ := ih hinner
                exact ⟨visit :: log, .build hid hb hrest⟩

/-- More steps than are needed make no difference. -/
theorem Run.mono (h : shop.Run entry fuel stack graph log outcome) {more : Nat}
    (hle : fuel ≤ more) : shop.Run entry more stack graph log outcome := by
  induction h generalizing more with
  | done => exact .done
  | again hid _ ih =>
      obtain ⟨more, rfl⟩ := Nat.exists_eq_add_of_le' (Nat.le_trans (Nat.succ_pos _) hle)
      exact .again hid (ih (Nat.le_of_succ_le_succ hle))
  | fail hid hbuilt =>
      obtain ⟨more, rfl⟩ := Nat.exists_eq_add_of_le' (Nat.le_trans (Nat.succ_pos _) hle)
      exact .fail hid hbuilt
  | build hid hbuilt _ ih =>
      obtain ⟨more, rfl⟩ := Nat.exists_eq_add_of_le' (Nat.le_trans (Nat.succ_pos _) hle)
      exact .build hid hbuilt (ih (Nat.le_of_succ_le_succ hle))

/-- Two runs from the same stack and graph come to the same, however many steps each may take. -/
theorem Run.outcome_eq {fuel' : Nat} {log' : List Visit} {outcome' : Outcome Graph BuildError Unit}
    (h : shop.Run entry fuel stack graph log outcome)
    (h' : shop.Run entry fuel' stack graph log' outcome') : outcome = outcome' := by
  have hmore := (h.mono (Nat.le_max_left fuel fuel')).visitFrom_eq
  have hmore' := (h'.mono (Nat.le_max_right fuel fuel')).visitFrom_eq
  exact Option.some.inj (hmore.symm.trans hmore')

end Run

/-- Any number of steps that do not fail, from a stack and a graph to others: a module that is
there gains the owner, and any other is built. -/
inductive Steps (shop : Workshop) (entry : String) :
    List Visit → Graph → List Visit → Graph → Prop where
  | done {stack : List Visit} {graph : Graph} : Steps shop entry stack graph stack graph
  | again {visit : Visit} {rest stack : List Visit} {graph after : Graph}
      (hid : visit.id ∈ graph.ids)
      (hrest : Steps shop entry rest (graph.addOwner visit.id entry) stack after) :
      Steps shop entry (visit :: rest) graph stack after
  | build {visit : Visit} {rest dependencies stack : List Visit} {graph after : Graph}
      {module : Module} (hid : visit.id ∉ graph.ids)
      (hbuilt : (shop.buildModule entry visit).result = .ok (module, dependencies))
      (hrest : Steps shop entry (dependencies ++ rest) (graph.insert module) stack after) :
      Steps shop entry (visit :: rest) graph stack after

/-- A finished run has either emptied the stack or failed to build the module on top of it. -/
theorem visitFrom_steps {fuel : Nat} {stack : List Visit} {graph : Graph}
    {outcome : Outcome Graph BuildError Unit}
    (h : shop.visitFrom entry fuel stack graph = some outcome) :
    (outcome.result = .ok () ∧ shop.Steps entry stack graph [] outcome.state) ∨
      ∃ visit rest error, outcome.result = .error error ∧
        shop.Steps entry stack graph (visit :: rest) outcome.state ∧
        visit.id ∉ outcome.state.ids ∧
        (shop.buildModule entry visit).result = .error error := by
  obtain ⟨log, hrun⟩ := exists_run h
  clear h
  induction hrun with
  | done => exact .inl ⟨rfl, .done⟩
  | again hid _ ih =>
      rcases ih with ⟨hok, hrun⟩ | ⟨visit, rest, error, herr, hrun, hlast⟩
      · exact .inl ⟨hok, .again hid hrun⟩
      · exact .inr ⟨visit, rest, error, herr, .again hid hrun, hlast⟩
  | @fail fuel visit rest graph error hid hbuilt =>
      exact .inr ⟨visit, rest, error, rfl, .done, hid, hbuilt⟩
  | build hid hbuilt _ ih =>
      rcases ih with ⟨hok, hrun⟩ | ⟨visit, rest, error, herr, hrun, hlast⟩
      · exact .inl ⟨hok, .build hid hbuilt hrun⟩
      · exact .inr ⟨visit, rest, error, herr, .build hid hbuilt hrun, hlast⟩

/-! ### What every step keeps -/

/-- How far the visits on behalf of an entry have come. Whatever the entry owns beyond the first
graph is reached from the root, and a gap is about to be visited or was there before. -/
structure Progress (entry root : String) (start : Graph) (stack : List Visit) (graph : Graph) :
    Prop where
  grows : Graph.Grows entry start graph
  started : root ∈ stack.map Visit.id ∨ graph.Owns entry root
  pending : ∀ {visit : Visit}, visit ∈ stack → graph.Reaches root visit.id
  reached : ∀ {id : String}, graph.Owns entry id → start.Owns entry id ∨ graph.Reaches root id
  gaps : ∀ {id dependency : String}, graph.Gap entry id dependency →
    dependency ∈ stack.map Visit.id ∨ start.Gap entry id dependency ∨
      (start.DependsOn id dependency ∧ dependency ∉ start.ids)

theorem Progress.init (entry : String) (visit : Visit) (start : Graph) :
    Progress entry visit.id start [visit] start where
  grows := .refl entry start
  started := .inl (by simp)
  pending := by
    intro other ho
    obtain rfl := List.mem_singleton.mp ho
    exact .refl
  reached := .inl
  gaps := fun hgap => .inr (.inl hgap)

/-- A module that is there hands the owner on to all it reaches without one. Only a dependency
that was missing from the first graph can stay without the owner. -/
theorem Progress.again {root : String} {start graph : Graph} {visit : Visit} {rest : List Visit}
    (h : Progress entry root start (visit :: rest) graph) (hid : visit.id ∈ graph.ids) :
    Progress entry root start rest (graph.addOwner visit.id entry) := by
  have hgrows := Graph.grows_addOwner graph visit.id entry
  have hself := Graph.owns_addOwner_self entry hid
  refine ⟨h.grows.trans hgrows, ?_, ?_, ?_, ?_⟩
  · rcases h.started with hroot | hroot
    · rcases List.mem_cons.mp hroot with rfl | hroot
      · exact .inr hself
      · exact .inl hroot
    · exact .inr (hgrows.owns hroot)
  · intro other ho
    exact hgrows.reaches (h.pending (List.mem_cons_of_mem visit ho))
  · intro id ho
    rcases Graph.owns_addOwner_iff.mp ho with ho | hway
    · exact (h.reached ho).imp_right hgrows.reaches
    · exact .inr (hgrows.reaches ((h.pending List.mem_cons_self).trans hway.reaches))
  · rintro id dependency ⟨howned, hreq, hmiss⟩
    have hreq' := Graph.dependsOn_addOwner_iff.mp hreq
    have hmiss' : ¬ graph.Owns entry dependency := fun ho => hmiss (hgrows.owns ho)
    rcases Graph.owns_addOwner_iff.mp howned with ho | hway
    · rcases h.gaps ⟨ho, hreq', hmiss'⟩ with hstack | hstart
      · rcases List.mem_cons.mp hstack with rfl | hstack
        · exact absurd hself hmiss
        · exact .inl hstack
      · exact .inr hstart
    · -- the module was in the first graph, since every later one has the owner from the start
      have habsent : dependency ∉ graph.ids := fun hdep =>
        hmiss (Graph.owns_addOwner_of_dependsOn hway hreq' hdep)
      have hold : id ∈ start.ids := by
        by_contra hnew
        obtain ⟨module, hm⟩ := Graph.mem_ids_iff.mp hway.last.1
        have howners := h.grows.added (Graph.get?_eq_none_iff.mpr hnew) hm
        exact hway.last.2 ⟨module, hm, by simp [howners]⟩
      exact .inr (.inr ⟨(h.grows.dependsOn_iff hold).mp hreq',
        fun hdep => habsent (h.grows.mem_ids hdep)⟩)

/-- A new module comes with its owner, and puts all its dependencies onto the stack. -/
theorem Progress.build {root : String} {start graph : Graph} {visit : Visit}
    {rest dependencies : List Visit} {module : Module}
    (h : Progress entry root start (visit :: rest) graph) (hid : visit.id ∉ graph.ids)
    (hbuilt : (shop.buildModule entry visit).result = .ok (module, dependencies)) :
    Progress entry root start (dependencies ++ rest) (graph.insert module) := by
  obtain ⟨hname, howners, hdeps⟩ := buildModule_eq_ok hbuilt
  have habsent : module.id ∉ graph.ids := by rwa [hname]
  have hgrows := Graph.grows_insert entry habsent howners
  have hget : (graph.insert module).get? visit.id = some module := by
    rw [← hname, Graph.get?_insert_self habsent]
  have hself : (graph.insert module).Owns entry visit.id := ⟨module, hget, by simp [howners]⟩
  have htop : (graph.insert module).Reaches root visit.id :=
    hgrows.reaches (h.pending List.mem_cons_self)
  have hother : ∀ {id : String}, id ≠ visit.id →
      (graph.insert module).get? id = graph.get? id := by
    intro id hne
    exact Graph.get?_insert_of_ne habsent (by rwa [hname])
  refine ⟨h.grows.trans hgrows, ?_, ?_, ?_, ?_⟩
  · rcases h.started with hroot | hroot
    · rcases List.mem_cons.mp hroot with rfl | hroot
      · exact .inr hself
      · exact .inl (by simp [List.mem_map.mp hroot])
    · exact .inr (hgrows.owns hroot)
  · intro other ho
    rcases List.mem_append.mp ho with ho | ho
    · exact htop.tail ⟨module, hget, hdeps ▸ List.mem_map_of_mem ho⟩
    · exact hgrows.reaches (h.pending (List.mem_cons_of_mem visit ho))
  · intro id ho
    by_cases hne : id = visit.id
    · exact .inr (hne ▸ htop)
    · have ho' : graph.Owns entry id := by rwa [Graph.Owns, hother hne] at ho
      exact (h.reached ho').imp_right hgrows.reaches
  · rintro id dependency ⟨howned, hreq, hmiss⟩
    have hne' : dependency ≠ visit.id := by
      rintro rfl
      exact hmiss hself
    by_cases hne : id = visit.id
    · subst hne
      obtain ⟨other, ho, hdep⟩ := hreq
      obtain rfl := Option.some.inj (hget.symm.trans ho)
      rw [hdeps] at hdep
      exact .inl (by rw [List.map_append]; exact List.mem_append_left _ hdep)
    · have hgap : graph.Gap entry id dependency :=
        ⟨by rwa [Graph.Owns, hother hne] at howned, by rwa [Graph.DependsOn, hother hne] at hreq,
          fun ho => hmiss (hgrows.owns ho)⟩
      rcases h.gaps hgap with hstack | hstart
      · have hrest := (List.mem_cons.mp hstack).resolve_left hne'
        exact .inl (by rw [List.map_append]; exact List.mem_append_right _ hrest)
      · exact .inr hstart

theorem Progress.steps {root : String} {start graph after : Graph} {stack rest : List Visit}
    (h : Progress entry root start stack graph) (hrun : shop.Steps entry stack graph rest after) :
    Progress entry root start rest after := by
  induction hrun with
  | done => exact h
  | again hid _ ih => exact ih (h.again hid)
  | build hid hbuilt _ ih => exact ih (h.build hid hbuilt)

/-- A property of every module that is built for a visit of a certain kind, which more owners do not
change, holds of all modules that there are after any number of steps. -/
theorem Steps.forall_modules (awaited : Visit → Prop) {holds : Module → Prop}
    {graph after : Graph} {stack rest : List Visit} (hrun : shop.Steps entry stack graph rest after)
    (howner : ∀ {module : Module}, holds module → holds (module.addOwner entry))
    (hbuilt : ∀ {visit : Visit} {module : Module} {dependencies : List Visit}, awaited visit →
      (shop.buildModule entry visit).result = .ok (module, dependencies) →
      holds module ∧ ∀ dependency ∈ dependencies, awaited dependency)
    (hstack : ∀ visit ∈ stack, awaited visit)
    (h : ∀ module ∈ graph.modules, holds module) : ∀ module ∈ after.modules, holds module := by
  induction hrun with
  | done => exact h
  | again _ _ ih =>
      exact ih (List.forall_mem_cons.mp hstack).2 (Graph.forall_modules_addOwner howner h)
  | @build visit rest dependencies stack graph after module hid hb _ ih =>
      obtain ⟨hvisit, hrest⟩ := List.forall_mem_cons.mp hstack
      obtain ⟨hmodule, hdeps⟩ := hbuilt hvisit hb
      refine ih ?_ ?_
      · intro other ho
        rcases List.mem_append.mp ho with ho | ho
        · exact hdeps other ho
        · exact hrest other ho
      · intro other ho
        have habsent : module.id ∉ graph.ids := by rwa [(buildModule_eq_ok hb).1]
        rw [Graph.modules_insert habsent] at ho
        rcases List.mem_append.mp ho with ho | ho
        · exact h other ho
        · exact List.mem_singleton.mp ho ▸ hmodule

/-- Visits of a certain kind, which call for none of another kind, leave no other on the stack. -/
theorem Steps.forall_stack (awaited : Visit → Prop) {graph after : Graph} {stack rest : List Visit}
    (hrun : shop.Steps entry stack graph rest after)
    (hbuilt : ∀ {visit : Visit} {module : Module} {dependencies : List Visit}, awaited visit →
      (shop.buildModule entry visit).result = .ok (module, dependencies) →
      ∀ dependency ∈ dependencies, awaited dependency)
    (hstack : ∀ visit ∈ stack, awaited visit) : ∀ visit ∈ rest, awaited visit := by
  induction hrun with
  | done => exact hstack
  | again _ _ ih => exact ih (List.forall_mem_cons.mp hstack).2
  | build _ hb _ ih =>
      obtain ⟨hvisit, hrest⟩ := List.forall_mem_cons.mp hstack
      refine ih fun other ho => ?_
      rcases List.mem_append.mp ho with ho | ho
      · exact hbuilt hvisit hb other ho
      · exact hrest other ho

/-! ### The build of an entry -/

variable {path : Path} {graph : Graph}

/-- The build of an entry takes some steps from its own file, none if the steps do not suffice;
it succeeds only once nothing is left to visit. -/
theorem buildEntry_steps (shop : Workshop) (entry : String) (path : Path) (graph : Graph) :
    ∃ stack, shop.Steps entry [⟨shop.resolver.moduleId path, path⟩] graph
        stack (shop.buildEntry entry path graph).state ∧
      ∀ id, (shop.buildEntry entry path graph).result = .ok id →
        id = shop.resolver.moduleId path ∧ stack = [] := by
  rw [buildEntry]
  cases hv : shop.visitFrom entry shop.visitBound [⟨shop.resolver.moduleId path, path⟩] graph with
  | none => exact ⟨_, .done, fun id hid => by cases hid⟩
  | some outcome =>
      rw [finish]
      rcases visitFrom_steps hv with ⟨hok, hrun⟩ | ⟨visit, rest, error, herr, hrun, -⟩
      · rw [hok]
        exact ⟨[], hrun, fun id hid => ⟨(Except.ok.inj hid).symm, rfl⟩⟩
      · rw [herr]
        exact ⟨visit :: rest, hrun, fun id hid => by cases hid⟩

theorem grows_buildEntry (shop : Workshop) (entry : String) (path : Path) (graph : Graph) :
    Graph.Grows entry graph (shop.buildEntry entry path graph).state := by
  obtain ⟨stack, hrun, -⟩ := buildEntry_steps shop entry path graph
  exact ((Progress.init entry ⟨shop.resolver.moduleId path, path⟩ graph).steps hrun).grows

/-- After a successful build nothing is left to visit. -/
theorem buildEntry_eq_ok {id : String}
    (h : (shop.buildEntry entry path graph).result = .ok id) :
    id = shop.resolver.moduleId path ∧
      Progress entry id graph [] (shop.buildEntry entry path graph).state := by
  obtain ⟨stack, hrun, hok⟩ := buildEntry_steps shop entry path graph
  obtain ⟨rfl, rfl⟩ := hok id h
  exact ⟨rfl, (Progress.init entry ⟨shop.resolver.moduleId path, path⟩ graph).steps hrun⟩

end Workshop

end Bundler
