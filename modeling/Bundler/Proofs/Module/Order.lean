import Bundler.Proofs.Build.Failing
import Bundler.Proofs.Module.Identity
import Bundler.Proofs.Path.Rooted

/-! The order of entries. Which files an entry needs, and what is made of each, is settled by the
files alone. So in whatever order entries are built, the same modules are made, or some file that
they need cannot be built. -/

namespace Bundler

namespace Loader

/-- What a loader makes of a text is the same for all entries. -/
def IgnoresEntry (loader : Loader) : Prop :=
  ∀ (source : String) (context : LoaderContext) (entry : String),
    (loader source { context with entry := entry }).result = (loader source context).result

theorem ignoresEntry_stripMark : stripMark.IgnoresEntry := fun _ _ _ => rfl

theorem ignoresEntry_json : json.IgnoresEntry := fun _ _ _ => rfl

variable {registry : LoaderRegistry}

theorem runNamed_entry
    (hloaders : ∀ name loader, registry.get? name = some loader → loader.IgnoresEntry)
    (context : LoaderContext) (entry name source : String) :
    (runNamed registry { context with entry := entry } name source).result =
      (runNamed registry context name source).result := by
  unfold runNamed
  cases hfound : registry.get? name with
  | none => rfl
  | some loader =>
      simp only [Report.bind_result, Report.mapError, hloaders name loader hfound source context]
      rfl

theorem runAll_entry
    (hloaders : ∀ name loader, registry.get? name = some loader → loader.IgnoresEntry)
    (context : LoaderContext) (entry : String) (names : List String) (source : String) :
    (runAll registry { context with entry := entry } names source).result =
      (runAll registry context names source).result := by
  induction names generalizing source with
  | nil => rfl
  | cons name rest ih =>
      simp only [runAll, Report.bind_result, runNamed_entry hloaders, ih]

end Loader

namespace LoaderRegistry

theorem ignoresEntry_builtin {name : String} {loader : Loader}
    (h : builtin.get? name = some loader) : loader.IgnoresEntry := by
  have hloaders : builtin.loaders = [("json", Loader.json), ("strip-bom", Loader.stripMark)] := by
    have hsorted : ¬ "strip-bom" < "json" ∧ "json" < "strip-bom" := by decide
    simp [builtin, register, registerIn, empty, hsorted]
  obtain ⟨before, after, hsplit, -⟩ := List.lookup_eq_some_iff.mp h
  have hmem : (name, loader) ∈ builtin.loaders := by
    rw [hsplit]
    simp
  rw [hloaders] at hmem
  rcases List.mem_cons.mp hmem with hjson | hmem
  · obtain ⟨-, rfl⟩ := Prod.mk.inj hjson
    exact Loader.ignoresEntry_json
  · obtain ⟨-, rfl⟩ := Prod.mk.inj (List.mem_singleton.mp hmem)
    exact Loader.ignoresEntry_stripMark

end LoaderRegistry

namespace Options

/-- Options keep their entries under proper paths, whatever paths they are given without
backslashes. -/
theorem isProper_withEntry {options : Options} (hcontext : options.context.isAbsolute = true)
    (h : ∀ entry ∈ options.entries.entries, entry.2.IsProper) (name : String) {path : Path}
    (hplain : '\\' ∉ (options.absolute path).text.toList) :
    ∀ entry ∈ (options.withEntry name path).entries.entries, entry.2.IsProper := by
  intro entry he
  rcases Table.mem_entries_insert he with hold | rfl
  · exact h entry hold
  · exact Path.isProper_normalize (Path.isAbsolute_join path hcontext) hplain

end Options

namespace Resolver

variable {resolver : Resolver} {disk : Disk} {base path : Path} {specifier : String}

/-- Where no name of a file has a backslash, and no extension has a slash, files are found under
proper paths. -/
theorem isProper_of_resolve (hbase : base.isAbsolute = true)
    (hextensions : ∀ extension ∈ resolver.extensions, '/' ∉ extension.toList)
    (hfiles : ∀ place bytes, disk.tree.find? place = some (.file bytes) →
      ∀ name ∈ place, '\\' ∉ name.toList)
    (h : (resolver.resolve disk base specifier).result = .ok path) : path.IsProper := by
  obtain ⟨hcandidate, hfile⟩ := resolve_eq_ok h
  obtain ⟨extension, hextension, rfl⟩ := List.mem_map.mp hcandidate
  obtain ⟨names, hnames, hnormal, -⟩ :=
    Path.exists_rooted (Path.isAbsolute_join ⟨specifier⟩ hbase)
  have hslash : '/' ∉ extension.toList := by
    rcases List.mem_cons.mp hextension with rfl | hextension
    · exact List.not_mem_nil
    · exact hextensions extension hextension
  rw [hnormal] at hfile ⊢
  obtain ⟨names', hnames', hpath⟩ := Path.exists_rooted_of_isFile hnames hslash hfile
  rw [hpath] at hfile ⊢
  -- the names in the path are those that lead to the place of the file
  obtain ⟨-, bytes, hfound⟩ := Disk.exists_file_of_isFile hfile
  rw [Path.place_rooted hnames'] at hfound
  refine ⟨Path.isAbsolute_rooted hnames', Path.normalize_rooted hnames', ?_⟩
  rw [Path.mem_text_rooted hnames' (by decide)]
  rintro ⟨name, hname, hback⟩
  exact hfiles names' bytes hfound name hname hback

end Resolver

/-- Two modules are of one file and text, and have the same owners in some order. -/
structure Module.Alike (module other : Module) : Prop where
  id : module.id = other.id
  path : module.path = other.path
  dependencies : module.dependencies = other.dependencies
  rawSource : module.rawSource = other.rawSource
  code : module.code = other.code
  owners : module.owners.Perm other.owners

namespace Workshop

variable {shop : Workshop} {entry : String} {path file : Path} {module : Module}
  {dependencies : List Visit} {entries : List (String × Path)} {graph : Graph}

/-! ### What files make and need -/

/-- Files have an id each, and what loaders make of them is the same for all entries. -/
structure Regular (shop : Workshop) : Prop where
  root : shop.resolver.root.isAbsolute = true
  extensions : ∀ extension ∈ shop.resolver.extensions, '/' ∉ extension.toList
  files : ∀ place bytes, shop.disk.tree.find? place = some (.file bytes) →
    ∀ name ∈ place, '\\' ∉ name.toList
  loaders : ∀ name loader, shop.loaders.get? name = some loader → loader.IgnoresEntry

/-- The visit that a file is due. -/
def visitOf (shop : Workshop) (path : Path) : Visit := ⟨shop.resolver.moduleId path, path⟩

/-- The file at a path makes a module, its owner apart, that calls for some visits. -/
def Makes (shop : Workshop) (path : Path) (module : Module) (dependencies : List Visit) : Prop :=
  ∃ entry, (shop.buildModule entry (shop.visitOf path)).result =
    .ok ({ module with owners := [entry] }, dependencies)

/-- The file at a path makes a module that requires the file at another one. -/
def Needs (shop : Workshop) (path file : Path) : Prop :=
  ∃ module dependencies, shop.Makes path module dependencies ∧ shop.visitOf file ∈ dependencies

/-- A file needs another one, directly or through others. -/
def Leads (shop : Workshop) : Path → Path → Prop :=
  Relation.ReflTransGen shop.Needs

/-- Some entry needs a file. -/
def Reached (shop : Workshop) (entries : List (String × Path)) (file : Path) : Prop :=
  ∃ entry ∈ entries, shop.Leads entry.2 file

/-- The entry that a module is built for becomes its owner, and makes no other difference. -/
theorem buildModule_entry (h : shop.Regular) (entry other : String) (visit : Visit) :
    (shop.buildModule other visit).result = (shop.buildModule entry visit).result.map
      fun built => ({ built.1 with owners := [other] }, built.2) := by
  have hload : ∀ source, (Loader.apply shop.rules shop.loaders
      ⟨visit.path, shop.resolver.root, other⟩ source).result = (Loader.apply shop.rules shop.loaders
        ⟨visit.path, shop.resolver.root, entry⟩ source).result :=
    Loader.runAll_entry h.loaders ⟨visit.path, shop.resolver.root, entry⟩ other _
  change _ = _ <$> _
  simp only [buildModule, Report.bind_result, hload, map_bind]
  rfl

theorem Makes.of_buildModule {visit : Visit}
    (h : (shop.buildModule entry visit).result = .ok (module, dependencies))
    (hvisit : visit = shop.visitOf visit.path) :
    module.path = visit.path ∧ shop.Makes visit.path module dependencies := by
  obtain ⟨_, _, _, -, -, -, rfl, -⟩ := buildModule_inversion h
  exact ⟨rfl, entry, hvisit ▸ h⟩

theorem Makes.buildModule (h : shop.Makes path module dependencies) (hregular : shop.Regular)
    (entry : String) : (shop.buildModule entry (shop.visitOf path)).result =
      .ok ({ module with owners := [entry] }, dependencies) := by
  obtain ⟨other, h⟩ := h
  rw [buildModule_entry hregular other, h]
  rfl

/-- A file makes one module, whatever owners it gets. -/
theorem Makes.unique (h : shop.Makes path module dependencies) (hregular : shop.Regular)
    {module' : Module} {dependencies' : List Visit}
    (h' : shop.Makes path module' dependencies') : dependencies = dependencies' ∧
      { module with owners := module'.owners } = module' := by
  have hsame := (h.buildModule hregular "").symm.trans (h'.buildModule hregular "")
  obtain ⟨hmodule, rfl⟩ := Prod.mk.inj (Except.ok.inj hsame)
  refine ⟨rfl, ?_⟩
  cases module
  cases module'
  simp_all

theorem Makes.dependencies_eq (h : shop.Makes path module dependencies) :
    module.dependencies = dependencies.map Visit.id := by
  obtain ⟨entry, h⟩ := h
  exact (buildModule_eq_ok h).2.2

/-- What a file calls for are visits that are due to proper files. -/
theorem Makes.isProper (h : shop.Makes path module dependencies) (hregular : shop.Regular)
    (hpath : path.IsProper) : ∀ dependency ∈ dependencies,
      dependency = shop.visitOf dependency.path ∧ dependency.path.IsProper := by
  obtain ⟨entry, h⟩ := h
  obtain ⟨-, -, hfiles⟩ := isFile_of_buildModule h
  have hbase := Path.isAbsolute_parent?_getD hregular.root hpath.absolute
  intro dependency hd
  obtain ⟨hid, specifier, hresolved⟩ := hfiles dependency hd
  refine ⟨?_, Resolver.isProper_of_resolve hbase hregular.extensions hregular.files hresolved⟩
  rw [visitOf, ← hid]

theorem Leads.isProper (h : shop.Leads path file) (hregular : shop.Regular)
    (hpath : path.IsProper) : file.IsProper := by
  induction h with
  | refl => exact hpath
  | tail _ hneeds ih =>
      obtain ⟨module, dependencies, hmakes, hd⟩ := hneeds
      exact (hmakes.isProper hregular ih _ hd).2

/-! ### What is built -/

/-- A module is what its file makes, and the file is one that some entry needs. -/
structure Faithful (shop : Workshop) (entries : List (String × Path)) (module : Module) :
    Prop where
  id : module.id = shop.resolver.moduleId module.path
  proper : module.path.IsProper
  reached : shop.Reached entries module.path
  makes : ∃ dependencies, shop.Makes module.path module dependencies

/-- A visit is due to a file that some entry needs. -/
structure Due (shop : Workshop) (entries : List (String × Path)) (visit : Visit) : Prop where
  own : visit = shop.visitOf visit.path
  proper : visit.path.IsProper
  reached : shop.Reached entries visit.path

theorem Faithful.addOwner (h : shop.Faithful entries module) (entry : String) :
    shop.Faithful entries (module.addOwner entry) := by
  unfold Module.addOwner
  split
  · exact h
  · exact ⟨h.id, h.proper, h.reached, h.makes⟩

/-- One step: a visit that is due gives a faithful module, and calls for visits that are due. -/
theorem Due.buildModule {visit : Visit} (h : shop.Due entries visit) (hregular : shop.Regular)
    (hb : (shop.buildModule entry visit).result = .ok (module, dependencies)) :
    shop.Faithful entries module ∧ ∀ dependency ∈ dependencies, shop.Due entries dependency := by
  obtain ⟨hpath, hmakes⟩ := Makes.of_buildModule hb h.own
  have hid : module.id = shop.resolver.moduleId visit.path := by
    rw [(buildModule_eq_ok hb).1, h.own]
    rfl
  refine ⟨⟨hpath ▸ hid, hpath ▸ h.proper, hpath ▸ h.reached, dependencies, hpath ▸ hmakes⟩, ?_⟩
  intro dependency hd
  obtain ⟨hown, hproper⟩ := hmakes.isProper hregular h.proper dependency hd
  obtain ⟨first, hfirst, hleads⟩ := h.reached
  exact ⟨hown, hproper, first, hfirst, hleads.tail ⟨module, dependencies, hmakes, hown ▸ hd⟩⟩

theorem due_of_entry (hproper : ∀ entry ∈ entries, entry.2.IsProper) {name : String}
    (h : (name, path) ∈ entries) :
    ∀ visit ∈ [(⟨shop.resolver.moduleId path, path⟩ : Visit)], shop.Due entries visit := by
  intro visit hv
  obtain rfl := List.mem_singleton.mp hv
  exact ⟨rfl, hproper _ h, (name, path), h, .refl⟩

/-- A whole build keeps modules faithful. -/
theorem faithful_buildEntry (hregular : shop.Regular)
    (hproper : ∀ entry ∈ entries, entry.2.IsProper) (he : (entry, path) ∈ entries)
    (h : ∀ module ∈ graph.modules, shop.Faithful entries module) :
    ∀ module ∈ (shop.buildEntry entry path graph).state.modules, shop.Faithful entries module := by
  obtain ⟨stack, hrun, -⟩ := buildEntry_steps shop entry path graph
  exact hrun.forall_modules (shop.Due entries) (fun hm => hm.addOwner entry)
    (fun hv hb => hv.buildModule hregular hb) (due_of_entry hproper he) h

/-- A build that fails gets to a file that some entry needs and that makes no module. -/
theorem exists_of_buildEntry_error (hregular : shop.Regular)
    (hproper : ∀ entry ∈ entries, entry.2.IsProper) (he : (entry, path) ∈ entries)
    {error : BuildError} (h : (shop.buildEntry entry path graph).result = .error error) :
    ∃ file, shop.Reached entries file ∧
      ∀ module dependencies, ¬ shop.Makes file module dependencies := by
  obtain ⟨visit, rest, after, hrun, -, hb⟩ := buildEntry_eq_error_iff.mp h
  have hdue : shop.Due entries visit :=
    hrun.forall_stack (shop.Due entries) (fun hv hb => (hv.buildModule hregular hb).2)
      (due_of_entry hproper he) visit List.mem_cons_self
  refine ⟨visit.path, hdue.reached, fun module dependencies hmakes => ?_⟩
  have hok := hmakes.buildModule hregular entry
  rw [← hdue.own, hb] at hok
  cases hok

/-! ### Ways between files and ways between ids -/

section Ways

variable (hfaithful : ∀ module ∈ graph.modules, shop.Faithful entries module)
include hfaithful

/-- The module under the id of a proper file is that of the file. -/
theorem path_of_get? (hregular : shop.Regular) (hpath : path.IsProper)
    (hm : graph.get? (shop.resolver.moduleId path) = some module) : module.path = path := by
  obtain ⟨hmem, hid⟩ := Graph.get?_eq_some_iff.mp hm
  have hmodule := hfaithful module hmem
  exact (Path.moduleId_inj hregular.root hmodule.proper hpath).mp (hmodule.id.symm.trans hid)

/-- What a file needs is what its module depends on. -/
theorem dependsOn_moduleId_iff (hregular : shop.Regular) (hpath : path.IsProper)
    (hid : shop.resolver.moduleId path ∈ graph.ids) {dependency : String} :
    graph.DependsOn (shop.resolver.moduleId path) dependency ↔
      ∃ file, shop.Needs path file ∧ dependency = shop.resolver.moduleId file := by
  obtain ⟨module, hm⟩ := Graph.mem_ids_iff.mp hid
  have hsame := path_of_get? hfaithful hregular hpath hm
  obtain ⟨dependencies, hmakes⟩ := (hfaithful module (Graph.get?_eq_some_iff.mp hm).1).makes
  rw [hsame] at hmakes
  constructor
  · rintro ⟨other, ho, hd⟩
    obtain rfl := Option.some.inj (hm.symm.trans ho)
    rw [hmakes.dependencies_eq] at hd
    obtain ⟨visit, hv, rfl⟩ := List.mem_map.mp hd
    have hown := (hmakes.isProper hregular hpath visit hv).1
    exact ⟨visit.path, ⟨module, dependencies, hmakes, hown ▸ hv⟩, congrArg Visit.id hown⟩
  · rintro ⟨file, ⟨other, dependencies', hmakes', hd⟩, rfl⟩
    obtain ⟨rfl, -⟩ := hmakes.unique hregular hmakes'
    exact ⟨module, hm, hmakes.dependencies_eq ▸ List.mem_map_of_mem hd⟩

theorem reaches_moduleId_iff (hregular : shop.Regular) (hpath : path.IsProper)
    (hid : shop.resolver.moduleId path ∈ graph.ids) (hclosed : graph.Closed) {id : String} :
    graph.Reaches (shop.resolver.moduleId path) id ↔
      ∃ file, shop.Leads path file ∧ id = shop.resolver.moduleId file := by
  constructor
  · intro h
    induction h with
    | refl => exact ⟨path, .refl, rfl⟩
    | tail hway hdep ih =>
        obtain ⟨file, hleads, rfl⟩ := ih
        obtain ⟨next, hneeds, rfl⟩ := (dependsOn_moduleId_iff hfaithful hregular
          (hleads.isProper hregular hpath) hdep.mem_ids).mp hdep
        exact ⟨next, hleads.tail hneeds, rfl⟩
  · rintro ⟨file, hleads, rfl⟩
    induction hleads with
    | refl => exact .refl
    | @tail file next hleads hneeds ih =>
        refine ih.tail ((dependsOn_moduleId_iff hfaithful hregular
          (Leads.isProper hleads hregular hpath) ?_).mpr ⟨next, hneeds, rfl⟩)
        exact hclosed.mem_of_reaches hid ih

end Ways

end Workshop

namespace Compilation

open Workshop

variable {disk : Disk} {loaders : LoaderRegistry} {shop : Workshop} {state other : Compilation}
  {entries entries' : List (String × Path)}

theorem Exact.closed (h : state.Exact) : state.graph.Closed := by
  intro id dependency hdep
  obtain ⟨entry, he, hreaches⟩ := (h.present id).mp hdep.mem_ids
  exact (h.present dependency).mpr ⟨entry, he, hreaches.tail hdep⟩

theorem Exact.names (h : state.Exact) : state.chunks.map Chunk.name = state.entries.keys := by
  rw [Table.keys, Table.names, ← List.forall₂_eq_eq_eq, List.forall₂_map_left_iff,
    List.forall₂_map_right_iff]
  exact h.chunks.flip.imp fun _ _ hchunk => hchunk.name

/-- A compilation of some entries that has succeeded: its modules are faithful, and they and its
chunks are exactly what the ids of the entries reach. -/
structure Charted (shop : Workshop) (entries : List (String × Path)) (state : Compilation) :
    Prop where
  regular : shop.Regular
  proper : ∀ entry ∈ entries, entry.2.IsProper
  faithful : ∀ module ∈ state.graph.modules, shop.Faithful entries module
  table : state.entries.entries =
    entries.map fun entry => (entry.1, shop.resolver.moduleId entry.2)
  exact : state.Exact

namespace Charted

variable (h : Charted shop entries state) {name id : String} {path : Path}
include h

theorem mem_entries (he : (name, path) ∈ entries) :
    (name, shop.resolver.moduleId path) ∈ state.entries.entries := by
  rw [h.table]
  exact List.mem_map_of_mem he

/-- An entry reaches the ids of the files that it needs. -/
theorem reaches_iff (he : (name, path) ∈ entries) :
    state.graph.Reaches (shop.resolver.moduleId path) id ↔
      ∃ file, shop.Leads path file ∧ id = shop.resolver.moduleId file := by
  have hid : shop.resolver.moduleId path ∈ state.graph.ids :=
    (h.exact.present _).mpr ⟨_, h.mem_entries he, .refl⟩
  exact reaches_moduleId_iff h.faithful h.regular (h.proper _ he) hid h.exact.closed

theorem mem_ids_iff :
    id ∈ state.graph.ids ↔
      ∃ file, shop.Reached entries file ∧ id = shop.resolver.moduleId file := by
  constructor
  · intro hid
    obtain ⟨module, hm, rfl⟩ := List.mem_map.mp hid
    exact ⟨module.path, (h.faithful module hm).reached, (h.faithful module hm).id⟩
  · rintro ⟨file, ⟨⟨name, path⟩, he, hleads⟩, rfl⟩
    have hway := (h.reaches_iff he).mpr ⟨file, hleads, rfl⟩
    exact (h.exact.present _).mpr ⟨_, h.mem_entries he, hway⟩

/-- A module is owned by the entries that need its file. -/
theorem mem_owners_iff {module : Module} (hm : module ∈ state.graph.modules) :
    name ∈ module.owners ↔ ∃ path, (name, path) ∈ entries ∧ shop.Leads path module.path := by
  classical
  have hmodule := h.faithful module hm
  rw [h.exact.owners module hm]
  constructor
  · intro hname
    obtain ⟨_, hfilter, rfl⟩ := List.mem_map.mp hname
    obtain ⟨hmem, hway⟩ := List.mem_filter.mp hfilter
    rw [h.table] at hmem
    obtain ⟨⟨name, path⟩, he, rfl⟩ := List.mem_map.mp hmem
    obtain ⟨file, hleads, hid⟩ := (h.reaches_iff he).mp (of_decide_eq_true hway)
    have hfile := hleads.isProper h.regular (h.proper _ he)
    rw [hmodule.id] at hid
    obtain rfl := (Path.moduleId_inj h.regular.root hmodule.proper hfile).mp hid
    exact ⟨path, he, hleads⟩
  · rintro ⟨path, he, hleads⟩
    have hway := (h.reaches_iff he).mpr ⟨module.path, hleads, hmodule.id⟩
    exact List.mem_map.mpr
      ⟨_, List.mem_filter.mpr ⟨h.mem_entries he, decide_eq_true hway⟩, rfl⟩

theorem names : state.chunks.map Chunk.name = entries.map Prod.fst := by
  rw [h.exact.names, Table.keys, Table.names, h.table, List.map_map]
  rfl

/-- A chunk is that of an entry, and holds the modules of the files that the entry needs. -/
theorem exists_entry {chunk : Chunk} (hc : chunk ∈ state.chunks) :
    ∃ path, (chunk.name, path) ∈ entries ∧
      chunk.entryModule.id = shop.resolver.moduleId path ∧ chunk.ids.Nodup ∧
      ∀ id, id ∈ chunk.ids ↔ ∃ file, shop.Leads path file ∧ id = shop.resolver.moduleId file := by
  classical
  obtain ⟨_, hmem, hchunk⟩ := h.exact.isChunkOf hc
  rw [h.table] at hmem
  obtain ⟨⟨name, path⟩, he, rfl⟩ := List.mem_map.mp hmem
  have hids : chunk.ids.Sublist state.graph.ids := by
    rw [Chunk.ids, hchunk.modules]
    exact List.filter_sublist.map _
  refine ⟨path, hchunk.name ▸ he, (Graph.get?_eq_some_iff.mp hchunk.entryModule).2,
    state.graph.nodup.sublist hids, fun id => ?_⟩
  rw [← h.reaches_iff he, Chunk.ids, hchunk.modules]
  constructor
  · intro hid
    obtain ⟨module, hfilter, rfl⟩ := List.mem_map.mp hid
    exact of_decide_eq_true (List.mem_filter.mp hfilter).2
  · intro hway
    have hid : id ∈ state.graph.ids := (h.exact.present id).mpr ⟨_, h.mem_entries he, hway⟩
    obtain ⟨module, hm, rfl⟩ := List.mem_map.mp hid
    exact List.mem_map_of_mem (List.mem_filter.mpr ⟨hm, decide_eq_true hway⟩)

end Charted

theorem faithful_buildModules (hfresh : state.Fresh)
    (hregular : (state.workshop disk loaders).Regular)
    (hproper : ∀ entry ∈ state.options.entries.entries, entry.2.IsProper) :
    ∀ module ∈ (buildModules disk loaders state).state.graph.modules,
      (state.workshop disk loaders).Faithful state.options.entries.entries module := by
  rw [graph_buildModules]
  apply buildEntries_induction fun graph => ∀ module ∈ graph.modules,
    (state.workshop disk loaders).Faithful state.options.entries.entries module
  · intro entry path graph he h
    exact faithful_buildEntry hregular hproper he h
  · rw [hfresh.graph]
    intro module hm
    cases hm

theorem charted_buildModules (hfresh : state.Fresh)
    (hregular : (state.workshop disk loaders).Regular)
    (hproper : ∀ entry ∈ state.options.entries.entries, entry.2.IsProper)
    (h : (buildModules disk loaders state).result = .ok ()) :
    Charted (state.workshop disk loaders) state.options.entries.entries
      (buildModules disk loaders state).state := by
  obtain ⟨htable, hexact⟩ := exact_of_fresh hfresh h
  exact ⟨hregular, hproper, faithful_buildModules hfresh hregular hproper, htable, hexact⟩

/-- A compilation succeeds exactly if every file that its entries need makes a module. -/
theorem buildModules_eq_ok_iff (hfresh : state.Fresh)
    (hregular : (state.workshop disk loaders).Regular)
    (hproper : ∀ entry ∈ state.options.entries.entries, entry.2.IsProper) :
    (buildModules disk loaders state).result = .ok () ↔
      ∀ file, (state.workshop disk loaders).Reached state.options.entries.entries file →
        ∃ module dependencies, (state.workshop disk loaders).Makes file module dependencies := by
  constructor
  · intro h file hreached
    have hchart := charted_buildModules hfresh hregular hproper h
    obtain ⟨module, hm⟩ := Graph.mem_ids_iff.mp (hchart.mem_ids_iff.mpr ⟨file, hreached, rfl⟩)
    obtain ⟨entry, he, hleads⟩ := hreached
    have hpath := path_of_get? hchart.faithful hregular
      (hleads.isProper hregular (hproper entry he)) hm
    obtain ⟨dependencies, hmakes⟩ :=
      (hchart.faithful module (Graph.get?_eq_some_iff.mp hm).1).makes
    exact ⟨module, dependencies, hpath ▸ hmakes⟩
  · intro h
    cases hr : (buildModules disk loaders state).result with
    | ok => rfl
    | error error =>
        obtain ⟨earlier, entry, path, later, hentries, -, herror⟩ :=
          buildModules_eq_error_iff.mp hr
        have he : (entry, path) ∈ state.options.entries.entries := by simp [hentries]
        obtain ⟨file, hreached, hnone⟩ := exists_of_buildEntry_error hregular hproper he herror
        obtain ⟨module, dependencies, hmakes⟩ := h file hreached
        exact absurd hmakes (hnone module dependencies)

/-! ### Two orders -/

/-- The same modules in some order, the same names of chunks in some order, and under each name the
same modules in some order. -/
structure Alike (state other : Compilation) : Prop where
  ids : state.graph.ids.Perm other.graph.ids
  modules : ∀ {id : String} {module module' : Module}, state.graph.get? id = some module →
    other.graph.get? id = some module' → module.Alike module'
  names : (state.chunks.map Chunk.name).Perm (other.chunks.map Chunk.name)
  chunks : ∀ chunk ∈ state.chunks, ∀ chunk' ∈ other.chunks, chunk.name = chunk'.name →
    chunk.entryModule.id = chunk'.entryModule.id ∧ chunk.ids.Perm chunk'.ids

theorem reached_iff_of_perm (hperm : entries.Perm entries') {file : Path} :
    shop.Reached entries file ↔ shop.Reached entries' file := by
  simp only [Reached, hperm.mem_iff]

theorem Charted.alike (h : Charted shop entries state) (h' : Charted shop entries' other)
    (hperm : entries.Perm entries') (hnames : (entries.map Prod.fst).Nodup) :
    state.Alike other where
  ids := by
    refine (List.perm_ext_iff_of_nodup state.graph.nodup other.graph.nodup).mpr fun id => ?_
    change id ∈ state.graph.ids ↔ id ∈ other.graph.ids
    rw [h.mem_ids_iff, h'.mem_ids_iff]
    simp only [reached_iff_of_perm hperm]
  modules := by
    intro id module module' hm hm'
    obtain ⟨hmem, rfl⟩ := Graph.get?_eq_some_iff.mp hm
    obtain ⟨hmem', hid⟩ := Graph.get?_eq_some_iff.mp hm'
    have hmodule := h.faithful module hmem
    have hmodule' := h'.faithful module' hmem'
    rw [hmodule.id, hmodule'.id] at hid
    have hpath := (Path.moduleId_inj h.regular.root hmodule'.proper hmodule.proper).mp hid
    obtain ⟨dependencies, hmakes⟩ := hmodule.makes
    obtain ⟨dependencies', hmakes'⟩ := hmodule'.makes
    have howners : module.owners.Perm module'.owners := by
      refine (List.perm_ext_iff_of_nodup (h.exact.owners_nodup module hmem)
        (h'.exact.owners_nodup module' hmem')).mpr fun name => ?_
      rw [h.mem_owners_iff hmem, h'.mem_owners_iff hmem', hpath]
      simp only [hperm.mem_iff]
    -- both are made of the same file, and differ in their owners at most
    obtain ⟨-, hsame⟩ := hmakes.unique h.regular (hpath ▸ hmakes')
    generalize module'.owners = owners at hsame howners
    subst hsame
    exact ⟨rfl, rfl, rfl, rfl, rfl, howners⟩
  names := by
    rw [h.names, h'.names]
    exact hperm.map Prod.fst
  chunks := by
    intro chunk hc chunk' hc' hname
    obtain ⟨path, he, hentry, hnodup, hids⟩ := h.exists_entry hc
    obtain ⟨path', he', hentry', hnodup', hids'⟩ := h'.exists_entry hc'
    have hsame : (chunk.name, path) = (chunk'.name, path') :=
      List.inj_on_of_nodup_map hnames he (hperm.mem_iff.mpr he') hname
    obtain ⟨-, rfl⟩ := Prod.mk.inj hsame
    refine ⟨hentry.trans hentry'.symm,
      (List.perm_ext_iff_of_nodup hnodup hnodup').mpr fun id => ?_⟩
    rw [hids, hids']

/-- In whatever order entries are built, the build succeeds or not. Where it does, the same modules
are made, each of the same text and with the same owners in some order, and each entry has a chunk
of the same modules. The paths of entries are proper, as options keep them. -/
theorem buildModules_order (disk : Disk) (loaders : LoaderRegistry) (options : Options)
    (entries : Table Path) (hperm : options.entries.entries.Perm entries.entries)
    (hcontext : options.context.isAbsolute = true)
    (hentries : ∀ entry ∈ options.entries.entries, entry.2.IsProper)
    (hextensions : ∀ extension ∈ options.extensions, '/' ∉ extension.toList)
    (hfiles : ∀ place bytes, disk.tree.find? place = some (.file bytes) →
      ∀ name ∈ place, '\\' ∉ name.toList)
    (hloaders : ∀ name loader, loaders.get? name = some loader → loader.IgnoresEntry) :
    let first := buildModules disk loaders (ofOptions options)
    let second := buildModules disk loaders (ofOptions { options with entries := entries })
    (first.result = .ok () ↔ second.result = .ok ()) ∧ (first.result = .ok () →
      first.state.chunks.map Chunk.name = options.entries.keys ∧
        first.state.Alike second.state) := by
  intro first second
  have hregular : ((ofOptions options).workshop disk loaders).Regular :=
    ⟨Path.isAbsolute_normalize hcontext, hextensions, hfiles, hloaders⟩
  have hentries' : ∀ entry ∈ entries.entries, entry.2.IsProper :=
    fun entry he => hentries entry (hperm.mem_iff.mpr he)
  have hiff : first.result = .ok () ↔ second.result = .ok () := by
    refine (buildModules_eq_ok_iff (fresh_ofOptions options) hregular hentries).trans ?_
    refine Iff.trans ?_ (buildModules_eq_ok_iff
      (fresh_ofOptions { options with entries := entries }) hregular hentries').symm
    exact forall_congr' fun file => imp_congr_left (reached_iff_of_perm hperm)
  refine ⟨hiff, fun hok => ?_⟩
  have hchart := charted_buildModules (fresh_ofOptions options) hregular hentries hok
  have hchart' := charted_buildModules (fresh_ofOptions { options with entries := entries })
    hregular hentries' (hiff.mp hok)
  exact ⟨hchart.names, hchart.alike hchart' hperm options.entries.nodup⟩

set_option maxRecDepth 100000 in
theorem buildModules_order_shared :
    let disk : Disk := ⟨⟨[
      (["r"], .directory),
      (["r", "a.js"], .file "require('./s'); exports.a = 1;".toUTF8),
      (["r", "b.js"], .file "exports.b = require('./d.json'); require('./s');".toUTF8),
      (["r", "d.json"], .file "[1, 2]".toUTF8),
      (["r", "s.js"], .file "require('./b');".toUTF8)]⟩, []⟩
    let rules := (Rule.ofText? "\\.json$" ["json"]).toOption.toList
    let plain : Options := { Options.ofContext ⟨"/r"⟩ with rules := rules }
    let options := (plain.withEntry "main" ⟨"a.js"⟩).withEntry "other" ⟨"b.js"⟩
    let entries : Table Path := .ofList [("other", ⟨"/r/b.js"⟩), ("main", ⟨"/r/a.js"⟩)]
    let first := buildModules disk .builtin (ofOptions options)
    let second := buildModules disk .builtin (ofOptions { options with entries := entries })
    options.entries.entries.Perm entries.entries ∧
      first.state.graph.modules.map (fun module => (module.id, module.owners)) =
        [("./a.js", ["main"]), ("./s.js", ["main", "other"]), ("./b.js", ["main", "other"]),
          ("./d.json", ["main", "other"])] ∧
      second.state.graph.modules.map (fun module => (module.id, module.owners)) =
        [("./b.js", ["other", "main"]), ("./d.json", ["other", "main"]),
          ("./s.js", ["other", "main"]), ("./a.js", ["main"])] ∧
      second.result = .ok () ∧ first.state.Alike second.state := by
  intro disk rules plain options entries first second
  have hperm : options.entries.entries.Perm entries.entries := by decide +kernel
  have hok : first.result = .ok () := by decide +kernel
  have hentries : ∀ entry ∈ options.entries.entries, entry.2.IsProper := by
    have hplain : ∀ entry ∈ plain.entries.entries, entry.2.IsProper :=
      fun _ he => absurd he List.not_mem_nil
    have hmain := Options.isProper_withEntry (by decide +kernel) hplain "main"
      (show '\\' ∉ (plain.absolute ⟨"a.js"⟩).text.toList by decide +kernel)
    exact Options.isProper_withEntry (by decide +kernel) hmain "other" (by decide +kernel)
  have hfiles : ∀ place bytes, disk.tree.find? place = some (.file bytes) →
      ∀ name ∈ place, '\\' ∉ name.toList := by
    have hall : ∀ place ∈ disk.tree.entries.map Prod.fst, ∀ name ∈ place, '\\' ∉ name.toList := by
      decide
    intro place bytes hfound
    exact hall place (List.mem_map_of_mem (FileTree.mem_entries_of_find? hfound))
  obtain ⟨hiff, halike⟩ := buildModules_order disk .builtin options entries hperm
    (by decide +kernel) hentries (by decide +kernel) hfiles
    fun _ _ => LoaderRegistry.ignoresEntry_builtin
  exact ⟨hperm, by decide +kernel, by decide +kernel, hiff.mp hok, (halike hok).2⟩

end Compilation

end Bundler
