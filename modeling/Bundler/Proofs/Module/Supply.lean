import Bundler.Proofs.Disk.Reading
import Bundler.Proofs.Module.Visits
import Bundler.Proofs.Path.Normal
import Bundler.Proofs.Script.Dependencies
import Mathlib.Data.List.Perm.Subperm
import Mathlib.Data.List.Dedup
import Mathlib.Data.List.ProdSigma

/-! Visits end. An id that is built or required is that of a file, and a file has no more ids than
there are lengths of the way up that its path can begin with. So there are finitely many ids, each
is built at most once, and each build puts each of them onto the stack at most once. -/

namespace Bundler

/-! ### The ids of files -/

namespace Path

/-- The components that lead to a place: from the root, or some steps upwards from another place
and then down. -/
def formOf (base place : Place) : Option Nat → List Component
  | none => .root :: place.map .name
  | some ups => climb ups (place.drop (base.length - ups))

/-- A normal form is known from the place it leads to and the steps upwards that it begins with. -/
theorem exists_formOf (base : Place) (path : Path) :
    ∃ rank, normalComponents path.components = formOf base (path.place base) rank ∧
      ∀ ups ∈ rank, ups ≤ path.text.toList.length := by
  cases h : path.isAbsolute with
  | true =>
      obtain ⟨names, -, hnormal, hplace⟩ := exists_names_of_absolute h
      exact ⟨none, by rw [hnormal, hplace, formOf], by simp⟩
  | false =>
      obtain ⟨ups, names, -, hnormal, hplace, hups⟩ := exists_climb_of_relative h
      refine ⟨some ups, ?_, by simpa using hups⟩
      have hlength : (base.take (base.length - ups)).length = base.length - ups := by
        rw [List.length_take]
        omega
      rw [hnormal, hplace, formOf, Place.climb, List.drop_left' hlength]

end Path

namespace Workshop

variable {shop : Workshop} {entry : String}

/-- The steps upwards that the path of a file can begin with, none for an absolute path. -/
def ranks : List (Option Nat) :=
  none :: (List.range (FileTree.maxPath + 1)).map some

/-- The id of a place that is reached in a certain way. -/
def idOf (shop : Workshop) (place : Place) (rank : Option Nat) : String :=
  "./" ++ (Path.relative shop.resolver.root.normalize
    (Path.ofComponents (Path.formOf shop.disk.workingDirectory place rank))).unixText

/-- All ids that a file can have. -/
def possibleIds (shop : Workshop) : List String :=
  (ranks ×ˢ shop.disk.tree.entries).map fun choice => shop.idOf choice.2.1 choice.1

theorem length_possibleIds_le (shop : Workshop) :
    shop.possibleIds.length ≤ shop.moduleBound := by
  have hranks : ranks.length = 2 + FileTree.maxPath := by
    rw [ranks, List.length_cons, List.length_map, List.length_range]
    omega
  calc
    shop.possibleIds.length = (2 + FileTree.maxPath) * shop.disk.tree.entries.length := by
      rw [possibleIds, List.length_map, List.length_product, hranks]
    _ ≤ (2 + FileTree.maxPath) * (2 + shop.disk.tree.entries.length) :=
      Nat.mul_le_mul_left _ (Nat.le_add_left _ _)
    _ ≤ shop.moduleBound := Nat.le_mul_of_pos_right _ (by omega)

theorem moduleId_mem_possibleIds {path : Path} (h : shop.disk.isFile path = true) :
    shop.resolver.moduleId path ∈ shop.possibleIds := by
  obtain ⟨hsize, bytes, hfound⟩ := Disk.exists_file_of_isFile h
  obtain ⟨rank, hform, hups⟩ := Path.exists_formOf shop.disk.workingDirectory path
  have hlength : path.text.toList.length ≤ FileTree.maxPath :=
    Nat.le_trans (length_le_utf8ByteSize path.text) hsize
  have hrank : rank ∈ ranks := by
    cases rank with
    | none => exact List.mem_cons_self
    | some ups =>
        have hle := Nat.le_trans (hups ups rfl) hlength
        refine List.mem_cons_of_mem _ (List.mem_map_of_mem ?_)
        exact List.mem_range.mpr (Nat.lt_succ_of_le hle)
  have hchoice := List.pair_mem_product.mpr ⟨hrank, FileTree.mem_entries_of_find? hfound⟩
  refine List.mem_map.mpr ⟨_, hchoice, ?_⟩
  rw [idOf, ← hform]
  rfl

/-- Distinct ids of files are no more than there can be modules. -/
theorem length_le_moduleBound {ids : List String} (hnodup : ids.Nodup)
    (hids : ∀ id ∈ ids, id ∈ shop.possibleIds) : ids.length ≤ shop.moduleBound :=
  Nat.le_trans (List.subperm_of_subset hnodup hids).length_le shop.length_possibleIds_le

/-! ### What is built and what is required -/

/-- Only a file is built, and it requires files again, under distinct ids that are theirs. -/
theorem isFile_of_buildModule {visit : Visit} {module : Module} {dependencies : List Visit}
    (h : (shop.buildModule entry visit).result = .ok (module, dependencies)) :
    shop.disk.isFile visit.path = true ∧ (dependencies.map Visit.id).Nodup ∧
      ∀ dependency ∈ dependencies, dependency.id = shop.resolver.moduleId dependency.path ∧
        ∃ specifier, (shop.resolver.resolve shop.disk
          (visit.path.parent?.getD shop.resolver.root) specifier).result = .ok dependency.path := by
  obtain ⟨source, loaded, rewritten, hsource, -, hrewritten, -, rfl⟩ := buildModule_inversion h
  obtain ⟨program, tree, -, -, -, htable⟩ := Script.rewrite_eq_ok hrewritten
  let requirer : Script.Requirer := ⟨shop.disk, shop.resolver, loaded.toList, visit.id,
    visit.path.parent?.getD shop.resolver.root⟩
  refine ⟨Disk.isFile_of_readText hsource, ?_, ?_⟩
  · rw [List.map_map]
    exact rewritten.dependencies.nodup
  · intro dependency hdependency
    obtain ⟨entry, hentry, rfl⟩ := List.mem_map.mp hdependency
    rw [htable] at hentry
    exact Script.Requirer.recorded_rewrite requirer program.tree entry hentry

/-- A module has no more dependencies than there can be modules. -/
theorem length_dependencies_le {visit : Visit} {module : Module} {dependencies : List Visit}
    (h : (shop.buildModule entry visit).result = .ok (module, dependencies)) :
    dependencies.length ≤ shop.moduleBound := by
  obtain ⟨-, hnodup, hdeps⟩ := isFile_of_buildModule h
  rw [← List.length_map Visit.id]
  refine length_le_moduleBound hnodup fun id hid => ?_
  obtain ⟨dependency, hd, rfl⟩ := List.mem_map.mp hid
  obtain ⟨hown, specifier, hr⟩ := hdeps dependency hd
  rw [hown]
  exact moduleId_mem_possibleIds (Resolver.resolve_eq_ok hr).2

/-! ### Steps that suffice -/

/-- The ids of files that a graph has no module of yet. -/
def missing (shop : Workshop) (graph : Graph) : List String :=
  shop.possibleIds.dedup.filter fun id => id ∉ graph.ids

theorem mem_missing_iff {graph : Graph} {id : String} :
    id ∈ shop.missing graph ↔ id ∈ shop.possibleIds ∧ id ∉ graph.ids := by
  simp [missing]

theorem nodup_missing (shop : Workshop) (graph : Graph) : (shop.missing graph).Nodup :=
  (List.nodup_dedup _).filter _

theorem missing_addOwner (shop : Workshop) (graph : Graph) (id entry : String) :
    shop.missing (graph.addOwner id entry) = shop.missing graph := by
  rw [missing, Graph.addOwner_eq_tagAll, Graph.ids_tagAll, missing]

/-- A module that is built is missing no more. -/
theorem length_missing_build {graph : Graph} {visit : Visit} {module : Module}
    {dependencies : List Visit} (hid : visit.id ∉ graph.ids)
    (hvisit : visit.id = shop.resolver.moduleId visit.path)
    (h : (shop.buildModule entry visit).result = .ok (module, dependencies)) :
    (shop.missing (graph.insert module)).length < (shop.missing graph).length := by
  have hname : module.id = visit.id := (buildModule_eq_ok h).1
  have habsent : module.id ∉ graph.ids := by rwa [hname]
  have hpossible : module.id ∈ shop.possibleIds := by
    rw [hname, hvisit]
    exact moduleId_mem_possibleIds (isFile_of_buildModule h).1
  have hids : (graph.insert module).ids = graph.ids ++ [module.id] := by
    rw [Graph.ids, Graph.modules_insert habsent, List.map_append]
    rfl
  have hnodup : (module.id :: shop.missing (graph.insert module)).Nodup := by
    refine List.nodup_cons.mpr ⟨?_, shop.nodup_missing _⟩
    simp [mem_missing_iff, hids]
  refine (List.subperm_of_subset hnodup ?_).length_le
  intro id hid
  rcases List.mem_cons.mp hid with rfl | hid
  · exact mem_missing_iff.mpr ⟨hpossible, habsent⟩
  · obtain ⟨hin, hout⟩ := mem_missing_iff.mp hid
    rw [hids] at hout
    exact mem_missing_iff.mpr ⟨hin, fun hold => hout (List.mem_append_left _ hold)⟩

/-- Visits to ids of their paths are worked off within as many steps as there are visits on the
stack, and dependencies of the modules that are still to be built. -/
theorem visitFrom_isSome {fuel : Nat} {stack : List Visit} {graph : Graph}
    (hstack : ∀ visit ∈ stack, visit.id = shop.resolver.moduleId visit.path)
    (hfuel : stack.length + (shop.missing graph).length * shop.moduleBound ≤ fuel) :
    ∃ outcome, shop.visitFrom entry fuel stack graph = some outcome := by
  induction fuel generalizing stack graph with
  | zero =>
      have hnil : stack = [] := List.length_eq_zero_iff.mp (by omega)
      subst hnil
      exact ⟨_, rfl⟩
  | succ fuel ih =>
      cases stack with
      | nil => exact ⟨_, rfl⟩
      | cons visit rest =>
          obtain ⟨hvisit, hrest⟩ := List.forall_mem_cons.mp hstack
          rw [List.length_cons] at hfuel
          by_cases hid : visit.id ∈ graph.ids
          · rw [visitFrom_of_mem hid]
            exact ih hrest (by rw [missing_addOwner]; omega)
          · cases hb : (shop.buildModule entry visit).result with
            | error error => exact ⟨_, visitFrom_of_error hid hb⟩
            | ok built =>
                obtain ⟨module, dependencies⟩ := built
                have hfew := length_dependencies_le hb
                have hless := length_missing_build hid hvisit hb
                -- a module is paid for with all the dependencies that it can have
                have hpaid := Nat.mul_le_mul_right shop.moduleBound hless
                rw [Nat.succ_mul] at hpaid
                have hnext : ∀ other ∈ dependencies ++ rest,
                    other.id = shop.resolver.moduleId other.path := by
                  intro other ho
                  rcases List.mem_append.mp ho with ho | ho
                  · exact ((isFile_of_buildModule hb).2.2 other ho).1
                  · exact hrest other ho
                have henough : (dependencies ++ rest).length +
                    (shop.missing (graph.insert module)).length * shop.moduleBound ≤ fuel := by
                  rw [List.length_append]
                  omega
                obtain ⟨outcome, ho⟩ := ih hnext henough
                exact ⟨_, by rw [visitFrom_of_ok hid hb, ho, Option.map_some]⟩

/-- The bound on visits suffices, whatever graph they start from. -/
theorem visitFrom_visitBound_isSome (shop : Workshop) (entry : String) (path : Path)
    (graph : Graph) : ∃ outcome, shop.visitFrom entry shop.visitBound
      [⟨shop.resolver.moduleId path, path⟩] graph = some outcome := by
  have hmissing : (shop.missing graph).length ≤ shop.moduleBound :=
    length_le_moduleBound (shop.nodup_missing graph) fun id hid => (mem_missing_iff.mp hid).1
  refine visitFrom_isSome (by simp) ?_
  calc
    1 + (shop.missing graph).length * shop.moduleBound
      ≤ 1 + shop.moduleBound * (1 + shop.moduleBound) := by
        refine Nat.add_le_add_left (Nat.mul_le_mul hmissing ?_) 1
        omega
    _ = shop.visitBound := rfl

/-! ### Builds that fail -/

/-- A run of the stack ends at the first module that cannot be built. -/
theorem Steps.exists_run_of_error {stack rest : List Visit} {graph after : Graph} {visit : Visit}
    {error : BuildError} (hsteps : shop.Steps entry stack graph (visit :: rest) after)
    (hid : visit.id ∉ after.ids) (hb : (shop.buildModule entry visit).result = .error error) :
    ∃ fuel log outcome, shop.Run entry fuel stack graph log outcome ∧
      outcome.result = .error error := by
  generalize hlast : visit :: rest = last at hsteps
  induction hsteps with
  | done =>
      subst hlast
      exact ⟨1, [visit], _, .fail hid hb, rfl⟩
  | again hthere _ ih =>
      obtain ⟨fuel, log, outcome, hrun, herror⟩ := ih hid hlast
      exact ⟨fuel + 1, log, outcome, .again hthere hrun, herror⟩
  | build hnew hbuilt _ ih =>
      obtain ⟨fuel, log, outcome, hrun, herror⟩ := ih hid hlast
      exact ⟨fuel + 1, _, _, .build hnew hbuilt hrun, herror⟩

/-- The build of an entry fails exactly if it gets to a module that cannot be built. -/
theorem buildEntry_eq_error_iff {path : Path} {graph : Graph} {error : BuildError} :
    (shop.buildEntry entry path graph).result = .error error ↔ ∃ visit rest after,
      shop.Steps entry [⟨shop.resolver.moduleId path, path⟩] graph (visit :: rest) after ∧
        visit.id ∉ after.ids ∧ (shop.buildModule entry visit).result = .error error := by
  obtain ⟨outcome, ho⟩ := visitFrom_visitBound_isSome shop entry path graph
  have hresult : (shop.buildEntry entry path graph).result = .error error ↔
      outcome.result = .error error := by
    rw [buildEntry, ho, finish]
    cases outcome.result with
    | error other => simp [Except.map]
    | ok => simp [Except.map]
  rw [hresult]
  constructor
  · intro herror
    rcases visitFrom_steps ho with ⟨hok, -⟩ | ⟨visit, rest, other, hother, hrun, hid, hb⟩
    · rw [hok] at herror
      cases herror
    · obtain rfl := Except.error.inj (hother.symm.trans herror)
      exact ⟨visit, rest, outcome.state, hrun, hid, hb⟩
  · rintro ⟨visit, rest, after, hsteps, hid, hb⟩
    obtain ⟨_, hrun⟩ := exists_run ho
    obtain ⟨_, _, other, hrun', herror⟩ := hsteps.exists_run_of_error hid hb
    rw [hrun.outcome_eq hrun']
    exact herror

end Workshop

end Bundler
