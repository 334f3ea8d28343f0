import Bundler.Proofs.Module.Entries
import Bundler.Proofs.Table

/-! The modules and chunks of a whole compilation. Each chunk holds exactly what its entry reaches,
in the order of the graph. -/

namespace Bundler

namespace Compilation

variable {shop : Workshop} {state : Compilation}

/-! ### Building entries -/

theorem buildEntry_of_ok {entry id : String} {path : Path}
    (h : (shop.buildEntry entry path state.graph).result = .ok id) :
    (buildEntry shop entry path state).result = .ok () ∧
      (buildEntry shop entry path state).state =
        { state with
          graph := (shop.buildEntry entry path state.graph).state
          entries := state.entries.insert entry id } := by
  have hfocus : (Action.focus Compilation.graph (fun state graph => { state with graph := graph })
      (shop.buildEntry entry path) state).result = .ok id := h
  obtain ⟨hstate, hresult⟩ := Action.bind_of_ok _ hfocus
  exact ⟨hresult, hstate⟩

theorem buildEntry_of_error {entry : String} {path : Path} {error : BuildError}
    (h : (shop.buildEntry entry path state.graph).result = .error error) :
    (buildEntry shop entry path state).result = .error error ∧
      (buildEntry shop entry path state).state =
        { state with graph := (shop.buildEntry entry path state.graph).state } := by
  have hfocus : (Action.focus Compilation.graph (fun state graph => { state with graph := graph })
      (shop.buildEntry entry path) state).result = .error error := h
  obtain ⟨hstate, hresult⟩ := Action.bind_of_error _ hfocus
  exact ⟨hresult, hstate⟩

/-- What every build of an entry preserves, the build of several entries preserves. -/
theorem buildEntries_induction (holds : Graph → Prop) (entries : List (String × Path))
    (hstep : ∀ entry path graph, (entry, path) ∈ entries → holds graph →
      holds (shop.buildEntry entry path graph).state)
    (h : holds state.graph) : holds (buildEntries shop entries state).state.graph := by
  induction entries generalizing state with
  | nil => exact h
  | cons first rest ih =>
      obtain ⟨entry, path⟩ := first
      have hfirst := hstep entry path state.graph List.mem_cons_self h
      have hrest : ∀ entry path graph, (entry, path) ∈ rest → holds graph →
          holds (shop.buildEntry entry path graph).state :=
        fun entry path graph he => hstep entry path graph (List.mem_cons_of_mem _ he)
      rw [buildEntries]
      cases hr : (shop.buildEntry entry path state.graph).result with
      | error error =>
          obtain ⟨hresult, hstate⟩ := buildEntry_of_error hr
          rw [(Action.bind_of_error _ hresult).1, hstate]
          exact hfirst
      | ok id =>
          obtain ⟨hresult, hstate⟩ := buildEntry_of_ok hr
          rw [(Action.bind_of_ok _ hresult).1, hstate]
          exact ih hrest hfirst

/-- Entries under new names, built in order on top of a graph of earlier ones. -/
theorem buildEntries_covers {entries : List (String × Path)}
    (hcovers : state.graph.Covers state.entries.entries)
    (hnames : (state.entries.keys ++ entries.map Prod.fst).Nodup)
    (h : (buildEntries shop entries state).result = .ok ()) :
    ∃ graph table, (buildEntries shop entries state).state =
        { state with graph := graph, entries := table } ∧
      table.entries = state.entries.entries ++
        entries.map (fun entry => (entry.1, shop.resolver.moduleId entry.2)) ∧
      graph.Covers table.entries := by
  induction entries generalizing state with
  | nil => exact ⟨state.graph, state.entries, rfl, by simp, hcovers⟩
  | cons first rest ih =>
      obtain ⟨entry, path⟩ := first
      cases hid : (shop.buildEntry entry path state.graph).result with
      | error error =>
          rw [buildEntries, (Action.bind_of_error _ (buildEntry_of_error hid).1).2] at h
          cases h
      | ok id =>
          obtain ⟨hfirst, hmiddle⟩ := buildEntry_of_ok hid
          obtain ⟨hstate, hresult⟩ :=
            Action.bind_of_ok (fun _ => buildEntries shop rest) hfirst
          obtain ⟨rfl, hprogress⟩ := Workshop.buildEntry_eq_ok hid
          have hnew : entry ∉ state.entries.keys := by
            intro hmem
            exact List.disjoint_of_nodup_append hnames hmem (by simp)
          have hentries := Table.entries_insert_of_not_mem (shop.resolver.moduleId path) hnew
          have hnext := hprogress.covers hcovers hnew
          rw [buildEntries, hstate, hmiddle]
          rw [buildEntries, hresult, hmiddle] at h
          obtain ⟨graph, table, hafter, htable, hgraph⟩ := ih (by rwa [hentries]) (by
            simpa [Table.keys, Table.names, hentries] using hnames) h
          refine ⟨graph, table, hafter, ?_, hgraph⟩
          rw [htable, hentries, List.append_assoc]
          rfl

/-! ### Making chunks -/

/-- The chunk of an entry whose module is there. -/
def chunkOf? (graph : Graph) (entry : String × String) : Option Chunk :=
  (graph.get? entry.2).map fun module => .ofModules entry.1 module graph.modules

theorem assembleChunks_cons (entry : String × String) (rest : List (String × String))
    (state : Compilation) :
    ∃ events, assembleChunks (entry :: rest) state =
      let next := assembleChunks rest
        { state with chunks := state.chunks ++ (chunkOf? state.graph entry).toList }
      ⟨next.state, events ++ next.events, next.result⟩ := by
  obtain ⟨name, id⟩ := entry
  cases hm : state.graph.get? id with
  | none =>
      refine ⟨[], ?_⟩
      simp [assembleChunks, chunkOf?, bind, Action.andThen, Action.get, Action.ok, hm]
  | some module =>
      refine ⟨[.chunkAssembled name (Chunk.owned name state.graph.modules).length], ?_⟩
      simp [assembleChunks, chunkOf?, bind, Action.andThen, Action.get, Action.ofReport,
        Action.modify, Chunk.assemble, Chunk.ofModules, hm]

/-- Making chunks does not fail, and passes over entries whose module is not there. -/
theorem assembleChunks_eq (entries : List (String × String)) (state : Compilation) :
    (assembleChunks entries state).result = .ok () ∧
      (assembleChunks entries state).state =
        { state with chunks := state.chunks ++ entries.filterMap (chunkOf? state.graph) } := by
  induction entries generalizing state with
  | nil => exact ⟨rfl, by rw [List.filterMap_nil, List.append_nil]; rfl⟩
  | cons entry rest ih =>
      obtain ⟨events, hstep⟩ := assembleChunks_cons entry rest state
      obtain ⟨hresult, hstate⟩ :=
        ih { state with chunks := state.chunks ++ (chunkOf? state.graph entry).toList }
      have hchunks : (entry :: rest).filterMap (chunkOf? state.graph) =
          (chunkOf? state.graph entry).toList ++ rest.filterMap (chunkOf? state.graph) := by
        cases hc : chunkOf? state.graph entry <;> simp [hc]
      rw [hstep, hchunks, ← List.append_assoc]
      exact ⟨hresult, hstate⟩

/-! ### Modules and chunks together -/

variable {disk : Disk} {loaders : LoaderRegistry}

theorem buildModules_of_ok
    (h : (buildEntries (state.workshop disk loaders) state.options.entries.entries state).result =
      .ok ()) :
    let built :=
      (buildEntries (state.workshop disk loaders) state.options.entries.entries state).state
    (buildModules disk loaders state).result = .ok () ∧
      (buildModules disk loaders state).state =
        { built with
          chunks := built.chunks ++ built.entries.entries.filterMap (chunkOf? built.graph) } := by
  intro built
  obtain ⟨hresult, hstate⟩ := assembleChunks_eq built.entries.entries built
  obtain ⟨hstate', hresult'⟩ := Action.bind_of_ok
    (fun _ => Action.get >>= fun state : Compilation => assembleChunks state.entries.entries) h
  exact ⟨hresult'.trans hresult, hstate'.trans hstate⟩

theorem buildModules_of_error {error : BuildError}
    (h : (buildEntries (state.workshop disk loaders) state.options.entries.entries state).result =
      .error error) :
    (buildModules disk loaders state).result = .error error ∧
      (buildModules disk loaders state).state =
        (buildEntries (state.workshop disk loaders) state.options.entries.entries state).state := by
  obtain ⟨hstate, hresult⟩ := Action.bind_of_error
    (fun _ => Action.get >>= fun state : Compilation => assembleChunks state.entries.entries) h
  exact ⟨hresult, hstate⟩

theorem buildEntries_eq_each (shop : Workshop) (entries : List (String × Path)) :
    buildEntries shop entries =
      Action.each (fun entry => buildEntry shop entry.1 entry.2) entries := by
  induction entries with
  | nil => rfl
  | cons first rest ih => rw [buildEntries, Action.each, ih]

/-- Building modules changes nothing but the graph, the entries and the chunks. -/
theorem rel_buildModules {rel : Compilation → Compilation → Prop} (refl : ∀ state, rel state state)
    (trans : ∀ {a b c}, rel a b → rel b c → rel a c)
    (h : ∀ state graph entries chunks,
      rel state { state with graph := graph, entries := entries, chunks := chunks })
    (disk : Disk) (loaders : LoaderRegistry) (state : Compilation) :
    rel state (buildModules disk loaders state).state := by
  have hentry : ∀ shop entry path state, rel state (buildEntry shop entry path state).state := by
    intro shop entry path state
    cases hresult : (shop.buildEntry entry path state.graph).result with
    | error error =>
        rw [(buildEntry_of_error hresult).2]
        exact h state _ state.entries state.chunks
    | ok id =>
        rw [(buildEntry_of_ok hresult).2]
        exact h state _ _ state.chunks
  have hentries : ∀ shop entries state, rel state (buildEntries shop entries state).state := by
    intro shop entries state
    rw [buildEntries_eq_each]
    exact Action.rel_each rel refl trans (fun entry _ => hentry shop entry.1 entry.2) state
  cases hresult : (buildEntries (state.workshop disk loaders) state.options.entries.entries
      state).result with
  | error error =>
      rw [(buildModules_of_error hresult).2]
      exact hentries _ _ _
  | ok =>
      rw [(buildModules_of_ok hresult).2]
      exact trans (hentries _ _ _) (h _ _ _ _)

theorem graph_buildModules (disk : Disk) (loaders : LoaderRegistry) (state : Compilation) :
    (buildModules disk loaders state).state.graph =
      (buildEntries (state.workshop disk loaders) state.options.entries.entries
        state).state.graph := by
  cases h : (buildEntries (state.workshop disk loaders) state.options.entries.entries
      state).result with
  | error error => rw [(buildModules_of_error h).2]
  | ok => rw [(buildModules_of_ok h).2]

open Classical in
/-- A chunk is that of an entry: it holds the modules that the entry reaches, as they are in the
graph and in its order, and the module of the entry is one of them. -/
structure IsChunkOf (graph : Graph) (entry : String × String) (chunk : Chunk) : Prop where
  name : chunk.name = entry.1
  entryModule : graph.get? entry.2 = some chunk.entryModule
  entryModule_mem : chunk.entryModule ∈ chunk.modules
  modules : chunk.modules = graph.modules.filter fun module => graph.Reaches entry.2 module.id

open Classical in
/-- The graph of a compilation holds what its entries reach and nothing else, each module is owned
by the entries that reach it, and each entry has one chunk. -/
structure Exact (state : Compilation) : Prop where
  present : ∀ id, id ∈ state.graph.ids ↔
    ∃ entry ∈ state.entries.entries, state.graph.Reaches entry.2 id
  owners : ∀ module ∈ state.graph.modules, module.owners =
    (state.entries.entries.filter fun entry => state.graph.Reaches entry.2 module.id).map Prod.fst
  owners_nodup : ∀ module ∈ state.graph.modules, module.owners.Nodup
  chunks : List.Forall₂ (IsChunkOf state.graph) state.entries.entries state.chunks

theorem Exact.isChunkOf (h : state.Exact) {chunk : Chunk} (hc : chunk ∈ state.chunks) :
    ∃ entry ∈ state.entries.entries, IsChunkOf state.graph entry chunk := by
  have hpart : ∀ {entries : List (String × String)} {chunks : List Chunk},
      List.Forall₂ (IsChunkOf state.graph) entries chunks → chunk ∈ chunks →
        ∃ entry ∈ entries, IsChunkOf state.graph entry chunk := by
    intro entries chunks hall hmem
    induction hall with
    | nil => cases hmem
    | @cons entry first entries chunks hfirst _ ih =>
        rcases List.mem_cons.mp hmem with rfl | hrest
        · exact ⟨entry, List.mem_cons_self, hfirst⟩
        · obtain ⟨other, ho, hother⟩ := ih hrest
          exact ⟨other, List.mem_cons_of_mem entry ho, hother⟩
  exact hpart h.chunks hc

theorem isOwnedBy_iff_of_covers {graph : Graph} {table : Table String}
    (h : graph.Covers table.entries) {entry : String × String} (he : entry ∈ table.entries)
    {module : Module} (hm : module ∈ graph.modules) :
    module.isOwnedBy entry.1 = true ↔ graph.Reaches entry.2 module.id := by
  rw [Module.isOwnedBy_iff, ← Graph.ownersOf_of_mem hm, Graph.mem_ownersOf_iff, h.owns_iff]
  constructor
  · rintro ⟨root, hroot, hr⟩
    have hsame := List.inj_on_of_nodup_map table.nodup hroot he rfl
    rwa [← hsame]
  · intro hr
    exact ⟨entry.2, he, hr⟩

theorem isChunkOf_chunkOf? {graph : Graph} {table : Table String}
    (h : graph.Covers table.entries) {entry : String × String} (he : entry ∈ table.entries) :
    ∃ chunk, chunkOf? graph entry = some chunk ∧ IsChunkOf graph entry chunk := by
  classical
  obtain ⟨module, hm⟩ := Graph.mem_ids_iff.mp (h.root_mem_ids he)
  obtain ⟨hmem, hid⟩ := Graph.get?_eq_some_iff.mp hm
  have howned : module.isOwnedBy entry.1 = true :=
    (isOwnedBy_iff_of_covers h he hmem).mpr (hid ▸ .refl)
  refine ⟨.ofModules entry.1 module graph.modules, by simp [chunkOf?, hm], rfl, hm,
    List.mem_filter.mpr ⟨hmem, howned⟩, ?_⟩
  apply List.filter_congr
  intro other ho
  rw [Bool.eq_iff_iff, isOwnedBy_iff_of_covers h he ho, decide_eq_true_iff]

theorem chunks_of_covers {graph : Graph} {table : Table String} (h : graph.Covers table.entries) :
    List.Forall₂ (IsChunkOf graph) table.entries (table.entries.filterMap (chunkOf? graph)) := by
  have hpart : ∀ part : List (String × String), (∀ entry ∈ part, entry ∈ table.entries) →
      List.Forall₂ (IsChunkOf graph) part (part.filterMap (chunkOf? graph)) := by
    intro part hp
    induction part with
    | nil => exact .nil
    | cons entry rest ih =>
        obtain ⟨chunk, hsome, hchunk⟩ := isChunkOf_chunkOf? h (hp entry List.mem_cons_self)
        rw [List.filterMap_cons_some hsome]
        exact .cons hchunk (ih fun other ho => hp other (List.mem_cons_of_mem entry ho))
  exact hpart table.entries fun _ he => he

/-- Nothing has been built yet. -/
structure Fresh (state : Compilation) : Prop where
  entries : state.entries = .empty
  graph : state.graph = .empty
  chunks : state.chunks = []

theorem exact_of_fresh (hfresh : state.Fresh)
    (h : (buildModules disk loaders state).result = .ok ()) :
    (buildModules disk loaders state).state.entries.entries =
        state.options.entries.entries.map
          (fun entry => (entry.1, state.resolver.moduleId entry.2)) ∧
      (buildModules disk loaders state).state.Exact := by
  classical
  cases hb : (buildEntries (state.workshop disk loaders) state.options.entries.entries
      state).result with
  | error error =>
      rw [(buildModules_of_error hb).1] at h
      cases h
  | ok =>
      have hempty : state.entries.entries = [] := by rw [hfresh.entries]; rfl
      obtain ⟨graph, table, hbuilt, htable, hcovers⟩ :=
        buildEntries_covers (by rw [hfresh.graph, hempty]; exact Graph.covers_empty)
          (by simpa [Table.keys, Table.names, hempty] using state.options.entries.nodup) hb
      rw [hempty, List.nil_append] at htable
      rw [(buildModules_of_ok hb).2, hbuilt]
      have howners : ∀ module ∈ graph.modules, module.owners =
          (table.entries.filter fun entry => graph.Reaches entry.2 module.id).map Prod.fst := by
        intro module hm
        rw [← hcovers.owners, Graph.ownersOf_of_mem hm]
      refine ⟨htable, fun id => hcovers.present, howners, ?_, ?_⟩
      · intro module hm
        rw [howners module hm]
        exact table.nodup.sublist (List.filter_sublist.map Prod.fst)
      · rw [hfresh.chunks]
        exact chunks_of_covers hcovers

theorem fresh_ofOptions (options : Options) : (ofOptions options).Fresh := ⟨rfl, rfl, rfl⟩

/-- Modules and chunks are exactly what the entries reach, whatever the files require: each other in
a circle, modules of several entries, or the file of another entry. -/
theorem buildModules_exact (disk : Disk) (loaders : LoaderRegistry) (options : Options)
    (h : (buildModules disk loaders (ofOptions options)).result = .ok ()) :
    let built := (buildModules disk loaders (ofOptions options)).state
    built.entries.entries = options.entries.entries.map (fun entry =>
        (entry.1, (Resolver.ofRoot options.context options.extensions).moduleId entry.2)) ∧
      built.Exact :=
  exact_of_fresh (fresh_ofOptions options) h

set_option maxRecDepth 100000 in
theorem buildModules_exact_circle :
    let disk : Disk := ⟨⟨[
      (["r"], .directory),
      (["r", "a.js"], .file "require('./b'); require('./c');".toUTF8),
      (["r", "b.js"], .file "require('./a');".toUTF8),
      (["r", "c.js"], .file "exports.x = 1;".toUTF8)]⟩, []⟩
    let options := (((Options.ofContext ⟨"/r"⟩).withEntry "last" ⟨"c.js"⟩).withEntry "first"
      ⟨"a.js"⟩).withEntry "again" ⟨"b.js"⟩
    let outcome := buildModules disk .empty (ofOptions options)
    outcome.result = .ok () ∧ outcome.state.Exact ∧
      outcome.state.graph.modules.map (fun module => (module.id, module.owners)) =
        [("./c.js", ["last", "first", "again"]), ("./a.js", ["first", "again"]),
          ("./b.js", ["first", "again"])] := by
  intro disk options outcome
  have hok : outcome.result = .ok () := by decide +kernel
  exact ⟨hok, (buildModules_exact disk .empty options hok).2, by decide +kernel⟩

end Compilation

end Bundler
