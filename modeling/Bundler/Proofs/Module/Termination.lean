import Bundler.Proofs.Module.Attempts
import Bundler.Proofs.Module.Identity
import Bundler.Proofs.Path.Rooted

/-! Visits end without a bound on them. With an absolute root, whatever paths lead to a file, its id
is that of the place where it stands. So a file is built at most once, and what its module requires
is no more than there are files. -/

namespace Bundler

namespace Disk

/-- The places at which there are files, each once. -/
def files (disk : Disk) : List Place :=
  (disk.tree.entries.map Prod.fst).dedup.filter fun place =>
    match disk.tree.find? place with
    | some (.file _) => true
    | _ => false

theorem mem_files_iff {disk : Disk} {place : Place} :
    place ∈ disk.files ↔ ∃ bytes, disk.tree.find? place = some (.file bytes) := by
  rw [files, List.mem_filter, List.mem_dedup]
  constructor
  · rintro ⟨-, h⟩
    split at h
    · next bytes hfound => exact ⟨bytes, hfound⟩
    · cases h
  · rintro ⟨bytes, hfound⟩
    exact ⟨List.mem_map_of_mem (FileTree.mem_entries_of_find? hfound), by simp [hfound]⟩

end Disk

namespace Workshop

variable {shop : Workshop} {entry : String}

/-- The id of the file at a place. -/
def idAt (shop : Workshop) (place : Place) : String :=
  shop.resolver.moduleId (.rooted place)

/-- The files that a graph has no module of. -/
def unbuilt (shop : Workshop) (graph : Graph) : List Place :=
  shop.disk.files.filter fun place => shop.idAt place ∉ graph.ids

theorem mem_unbuilt_iff {graph : Graph} {place : Place} :
    place ∈ shop.unbuilt graph ↔ place ∈ shop.disk.files ∧ shop.idAt place ∉ graph.ids := by
  simp [unbuilt]

theorem nodup_unbuilt (shop : Workshop) (graph : Graph) : (shop.unbuilt graph).Nodup :=
  ((List.nodup_dedup _).filter _).filter _

/-- A visit under the id of its path, which is absolute. -/
structure IsPlaced (shop : Workshop) (visit : Visit) : Prop where
  id : visit.id = shop.resolver.moduleId visit.path
  absolute : visit.path.isAbsolute = true

/-- However it is spelled, the path of a file gives the id of the place where the file stands. -/
theorem IsPlaced.exists_place {visit : Visit} (h : shop.IsPlaced visit)
    (hfile : shop.disk.isFile visit.path = true) :
    ∃ place ∈ shop.disk.files, visit.id = shop.idAt place := by
  obtain ⟨names, hnames, hnormal, hplace⟩ := Path.exists_rooted h.absolute
  obtain ⟨-, bytes, hfound⟩ := Disk.exists_file_of_isFile hfile
  rw [hplace] at hfound
  refine ⟨names, Disk.mem_files_iff.mpr ⟨bytes, hfound⟩, ?_⟩
  rw [h.id, idAt, Resolver.moduleId, Resolver.moduleId, Path.moduleId, Path.moduleId, hnormal,
    Path.normalize_rooted hnames]

theorem isPlaced_of_buildModule (hroot : shop.resolver.root.isAbsolute = true) {visit : Visit}
    {module : Module} {dependencies : List Visit} (hvisit : shop.IsPlaced visit)
    (h : (shop.buildModule entry visit).result = .ok (module, dependencies)) :
    ∀ dependency ∈ dependencies, shop.IsPlaced dependency := by
  obtain ⟨-, hdeps⟩ := placed_buildModule hroot hvisit.id hvisit.absolute h
  exact fun dependency hd => ⟨(hdeps dependency hd).1, (hdeps dependency hd).2⟩

/-- A module requires no more modules than there are files. -/
theorem length_dependencies_le_files (hroot : shop.resolver.root.isAbsolute = true)
    {visit : Visit} {module : Module} {dependencies : List Visit} (hvisit : shop.IsPlaced visit)
    (h : (shop.buildModule entry visit).result = .ok (module, dependencies)) :
    dependencies.length ≤ shop.disk.files.length := by
  obtain ⟨-, hnodup, hfound⟩ := isFile_of_buildModule h
  rw [← List.length_map Visit.id, ← List.length_map shop.idAt]
  refine (List.subperm_of_subset hnodup fun id hid => ?_).length_le
  obtain ⟨dependency, hd, rfl⟩ := List.mem_map.mp hid
  obtain ⟨-, specifier, hresolved⟩ := hfound dependency hd
  obtain ⟨place, hplace, hsame⟩ :=
    (isPlaced_of_buildModule hroot hvisit h dependency hd).exists_place
      (Resolver.resolve_eq_ok hresolved).2
  rw [hsame]
  exact List.mem_map_of_mem hplace

/-! ### Steps until the end -/

/-- How visits end that nothing bounds: after some steps, when a module was tried to be built for
some visits. Files that had no module have one now, in the order of the tries, and only the last try
can have failed. -/
structure Ends (shop : Workshop) (entry : String) (stack : List Visit) (graph : Graph) (steps : Nat)
    (tries : List Visit) (built : List Place) (outcome : Outcome Graph BuildError Unit) : Prop where
  run : ∀ fuel, shop.visitFromLogged entry fuel stack graph =
    if steps ≤ fuel then some (tries, outcome) else none
  placed : ∀ visit ∈ tries, shop.IsPlaced visit
  tried : built.map shop.idAt <+: tries.map Visit.id
  failed : tries.length = built.length + if outcome.result.isOk then 0 else 1
  ids : outcome.state.ids = graph.ids ++ built.map shop.idAt
  nodup : built.Nodup
  unbuilt : ∀ place ∈ built, place ∈ shop.unbuilt graph

section Step

variable {visit : Visit} {rest dependencies tries : List Visit} {graph : Graph} {steps : Nat}
  {built : List Place} {outcome : Outcome Graph BuildError Unit} {module : Module} {place : Place}

theorem ends_nil (shop : Workshop) (entry : String) (graph : Graph) :
    shop.Ends entry [] graph 0 [] [] ⟨graph, [], .ok ()⟩ where
  run := by rintro (_ | fuel) <;> rfl
  placed := by simp
  tried := List.nil_prefix
  failed := rfl
  ids := by simp
  nodup := .nil
  unbuilt := by simp

/-- A module that is there is not built. -/
theorem Ends.again (hid : visit.id ∈ graph.ids)
    (h : shop.Ends entry rest (graph.addOwner visit.id entry) steps tries built outcome) :
    shop.Ends entry (visit :: rest) graph (steps + 1) tries built outcome where
  run := by
    rintro (_ | fuel)
    · rfl
    · rw [visitFromLogged_of_mem hid, h.run]
      simp
  placed := h.placed
  tried := h.tried
  failed := h.failed
  ids := by rw [h.ids, Graph.addOwner_eq_tagAll, Graph.ids_tagAll]
  nodup := h.nodup
  unbuilt := by
    intro place hplace
    have hfree := mem_unbuilt_iff.mp (h.unbuilt place hplace)
    rw [Graph.addOwner_eq_tagAll, Graph.ids_tagAll] at hfree
    exact mem_unbuilt_iff.mpr hfree

/-- A module that cannot be built is the last one. -/
theorem ends_fail (rest : List Visit) {error : BuildError} (hvisit : shop.IsPlaced visit)
    (hid : visit.id ∉ graph.ids) (hb : (shop.buildModule entry visit).result = .error error) :
    shop.Ends entry (visit :: rest) graph 1 [visit] []
      ⟨graph, (shop.buildModule entry visit).events, .error error⟩ where
  run := by
    rintro (_ | fuel)
    · rfl
    · rw [visitFromLogged_of_error hid hb]
      simp
  placed := by simpa using hvisit
  tried := List.nil_prefix
  failed := rfl
  ids := by simp
  nodup := .nil
  unbuilt := by simp

/-- A module that is built takes its file away from those that are unbuilt. -/
theorem Ends.build (hvisit : shop.IsPlaced visit) (hid : visit.id ∉ graph.ids)
    (hb : (shop.buildModule entry visit).result = .ok (module, dependencies))
    (hplace : place ∈ shop.disk.files) (hsame : visit.id = shop.idAt place)
    (h : shop.Ends entry (dependencies ++ rest) (graph.insert module) steps tries built outcome) :
    shop.Ends entry (visit :: rest) graph (steps + 1) (visit :: tries) (place :: built)
      { outcome with events := (shop.buildModule entry visit).events ++ outcome.events } := by
  have hname : module.id = visit.id := (buildModule_eq_ok hb).1
  have hids : (graph.insert module).ids = graph.ids ++ [shop.idAt place] := by
    rw [Graph.ids, Graph.modules_insert (by rwa [hname]), List.map_append, ← hsame, ← hname]
    rfl
  have hfresh : ∀ other ∈ built, other ∈ shop.unbuilt graph ∧ other ≠ place := by
    intro other ho
    obtain ⟨hfile, hfree⟩ := mem_unbuilt_iff.mp (h.unbuilt other ho)
    rw [hids, List.mem_append, not_or, List.mem_singleton] at hfree
    exact ⟨mem_unbuilt_iff.mpr ⟨hfile, hfree.1⟩, fun heq => hfree.2 (heq ▸ rfl)⟩
  refine ⟨?_, ?_, ?_, ?_, ?_, ?_, ?_⟩
  · rintro (_ | fuel)
    · rfl
    · rw [visitFromLogged_of_ok hid hb, h.run]
      by_cases hfuel : steps ≤ fuel
      · simp [hfuel]
      · simp [hfuel]
  · exact List.forall_mem_cons.mpr ⟨hvisit, h.placed⟩
  · rw [List.map_cons, List.map_cons, hsame]
    exact (List.prefix_cons_inj _).mpr h.tried
  · rw [List.length_cons, List.length_cons, h.failed, Nat.add_right_comm]
  · change outcome.state.ids = _
    rw [h.ids, hids, List.map_cons, List.append_assoc]
    rfl
  · exact List.nodup_cons.mpr ⟨fun hmem => (hfresh place hmem).2 rfl, h.nodup⟩
  · refine List.forall_mem_cons.mpr ⟨?_, fun other ho => (hfresh other ho).1⟩
    exact mem_unbuilt_iff.mpr ⟨hplace, hsame ▸ hid⟩

/-- A file that is built is unbuilt no more, whatever else it shares its id with. -/
theorem length_unbuilt_insert (hid : visit.id ∉ graph.ids) (hname : module.id = visit.id)
    (hplace : place ∈ shop.disk.files) (hsame : visit.id = shop.idAt place) :
    (shop.unbuilt (graph.insert module)).length < (shop.unbuilt graph).length := by
  have hids : (graph.insert module).ids = graph.ids ++ [shop.idAt place] := by
    rw [Graph.ids, Graph.modules_insert (by rwa [hname]), List.map_append, ← hsame, ← hname]
    rfl
  have hnodup : (place :: shop.unbuilt (graph.insert module)).Nodup := by
    refine List.nodup_cons.mpr ⟨?_, shop.nodup_unbuilt _⟩
    simp [mem_unbuilt_iff, hids]
  refine (List.subperm_of_subset hnodup ?_).length_le
  refine List.cons_subset.mpr ⟨mem_unbuilt_iff.mpr ⟨hplace, hsame ▸ hid⟩, fun other ho => ?_⟩
  obtain ⟨hfile, hfree⟩ := mem_unbuilt_iff.mp ho
  rw [hids] at hfree
  exact mem_unbuilt_iff.mpr ⟨hfile, fun hold => hfree (List.mem_append_left _ hold)⟩

end Step

/-- Visits end. A file that is built pays for all that its module can put onto the stack. -/
theorem exists_ends (hroot : shop.resolver.root.isAbsolute = true) {stack : List Visit}
    {graph : Graph} (hstack : ∀ visit ∈ stack, shop.IsPlaced visit) :
    ∃ steps tries built outcome, shop.Ends entry stack graph steps tries built outcome ∧
      steps ≤ stack.length + (shop.unbuilt graph).length * shop.disk.files.length := by
  induction hleft : stack.length + (shop.unbuilt graph).length * shop.disk.files.length
    using Nat.strongRecOn generalizing stack graph with
  | ind left ih =>
      subst hleft
      cases stack with
      | nil => exact ⟨0, [], [], _, ends_nil shop entry graph, Nat.zero_le _⟩
      | cons visit rest =>
          obtain ⟨hvisit, hrest⟩ := List.forall_mem_cons.mp hstack
          rw [List.length_cons] at ih ⊢
          by_cases hid : visit.id ∈ graph.ids
          · have hsame : shop.unbuilt (graph.addOwner visit.id entry) = shop.unbuilt graph := by
              rw [unbuilt, Graph.addOwner_eq_tagAll, Graph.ids_tagAll, unbuilt]
            obtain ⟨steps, tries, built, outcome, hends, hsteps⟩ :=
              ih _ (by rw [hsame]; omega) hrest rfl
            rw [hsame] at hsteps
            exact ⟨_, _, _, _, hends.again hid, by omega⟩
          · cases hb : (shop.buildModule entry visit).result with
            | error error => exact ⟨1, _, _, _, ends_fail rest hvisit hid hb, by omega⟩
            | ok made =>
                obtain ⟨module, dependencies⟩ := made
                obtain ⟨place, hplace, hsame⟩ :=
                  hvisit.exists_place (isFile_of_buildModule hb).1
                have hfew := length_dependencies_le_files hroot hvisit hb
                have hless := length_unbuilt_insert hid (buildModule_eq_ok hb).1 hplace hsame
                have hpaid := Nat.mul_le_mul_right shop.disk.files.length hless
                rw [Nat.succ_mul] at hpaid
                have hnext : ∀ other ∈ dependencies ++ rest, shop.IsPlaced other := by
                  intro other ho
                  rcases List.mem_append.mp ho with ho | ho
                  · exact isPlaced_of_buildModule hroot hvisit hb other ho
                  · exact hrest other ho
                have hlength : (dependencies ++ rest).length = dependencies.length + rest.length :=
                  List.length_append
                obtain ⟨steps, tries, built, outcome, hends, hsteps⟩ := @ih
                  ((dependencies ++ rest).length +
                    (shop.unbuilt (graph.insert module)).length * shop.disk.files.length)
                  (by rw [hlength]; omega) _ _ hnext rfl
                exact ⟨_, _, _, _, hends.build hvisit hid hb hplace hsame, by omega⟩

/-- With an absolute root and path the build of an entry ends on every disk, from every graph, and
without a bound on its steps. It takes no more steps than one, and one for each file and each file
that the graph had no module of. What it adds are the modules of different files of that kind, in
order, a module requires no more modules than there are files, and besides those that it adds it
tries to build at most one module, the last, and only if it fails. -/
theorem buildEntry_ends {path : Path} (graph : Graph)
    (hroot : shop.resolver.root.isAbsolute = true) (hpath : path.isAbsolute = true) :
    let root : Visit := ⟨shop.resolver.moduleId path, path⟩
    ∃ steps tries built outcome,
      (shop.Ends entry [root] graph steps tries built outcome ∧
        (∀ fuel, shop.visitFrom entry fuel [root] graph =
          if steps ≤ fuel then some outcome else none) ∧
        shop.buildEntry entry path graph =
          ⟨outcome.state, outcome.events, outcome.result.map fun _ => root.id⟩) ∧
      steps ≤ 1 + (shop.unbuilt graph).length * shop.disk.files.length ∧
      built.length ≤ (shop.unbuilt graph).length ∧
      ∀ visit ∈ tries, ∀ module dependencies,
        (shop.buildModule entry visit).result = .ok (module, dependencies) →
          dependencies.length ≤ shop.disk.files.length := by
  intro root
  have hstack : ∀ visit ∈ [root], shop.IsPlaced visit := by
    intro visit hv
    obtain rfl := List.mem_singleton.mp hv
    exact ⟨rfl, hpath⟩
  obtain ⟨steps, tries, built, outcome, hends, hsteps⟩ := exists_ends hroot hstack
  have hrun : ∀ fuel, shop.visitFrom entry fuel [root] graph =
      if steps ≤ fuel then some outcome else none := by
    intro fuel
    rw [← map_snd_visitFromLogged, hends.run]
    split <;> rfl
  refine ⟨steps, tries, built, outcome, ⟨hends, hrun, ?_⟩, hsteps, ?_, ?_⟩
  · -- the bound that the build goes by is one of those that suffice
    obtain ⟨other, ho⟩ := visitFrom_visitBound_isSome shop entry path graph
    have hsame := ho
    rw [hrun] at hsame
    split at hsame
    · obtain rfl := Option.some.inj hsame
      rw [buildEntry, ho]
      rfl
    · cases hsame
  · exact (List.subperm_of_subset hends.nodup hends.unbuilt).length_le
  · intro visit hv module dependencies hb
    exact length_dependencies_le_files hroot (hends.placed visit hv) hb

set_option maxRecDepth 100000 in
/-- Files that require each other and themselves, under several spellings, by way of a loader
too. -/
theorem buildEntry_ends_circle :
    let wrap : Loader := fun source _ => .ok (source ++ "require('./x/../a.js');")
    let rule : Rule := ⟨"js", .literal ['j', 's'], ["wrap"]⟩
    let shop : Workshop := ⟨⟨⟨[(["r"], .directory), (["r", "x"], .directory),
      (["r", "a.js"], .file "require('./b'); require('/r/a');".toUTF8),
      (["r", "b.js"], .file "require('./../r/b.js');".toUTF8),
      (["r", "c.js"], .file "".toUTF8)]⟩, []⟩,
      .ofRoot ⟨"/r"⟩ [".js"], [rule], LoaderRegistry.empty.register "wrap" wrap⟩
    shop.resolver.root.isAbsolute = true ∧ (Path.mk "/r/x/../b.js").isAbsolute = true ∧
      (shop.buildEntry "main" ⟨"/r/x/../b.js"⟩ .empty).state.ids = ["./b.js", "./a.js"] ∧
      ∃ steps outcome, steps ≤ 1 + 3 * 3 ∧
        ∀ fuel, shop.visitFrom "main" fuel [⟨"./b.js", ⟨"/r/x/../b.js"⟩⟩] .empty =
          if steps ≤ fuel then some outcome else none := by
  intro wrap rule shop
  have hroot : shop.resolver.root.isAbsolute = true := by decide +kernel
  have hpath : (Path.mk "/r/x/../b.js").isAbsolute = true := by decide
  obtain ⟨steps, -, -, outcome, ⟨-, hrun, -⟩, hsteps, -⟩ :=
    @buildEntry_ends shop "main" _ .empty hroot hpath
  have hid : shop.resolver.moduleId ⟨"/r/x/../b.js"⟩ = "./b.js" := by decide +kernel
  rw [hid] at hrun
  refine ⟨hroot, hpath, by decide +kernel, steps, outcome, ?_, hrun⟩
  have hfiles : (shop.unbuilt .empty).length = 3 ∧ shop.disk.files.length = 3 := by decide +kernel
  rwa [hfiles.1, hfiles.2] at hsteps

end Workshop

end Bundler
