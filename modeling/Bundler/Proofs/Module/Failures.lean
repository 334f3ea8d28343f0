import Bundler.Proofs.Module.Chunks
import Mathlib.Data.List.Induction

/-! Builds after failed builds. A failed build leaves modules whose dependencies were never built,
and later builds take them for finished; no gap has any other origin. -/

namespace Bundler

namespace Graph

variable {graph before after : Graph} {entry : String} {known : String → String → Prop}

/-- Every module has an owner, and every gap of any entry is a known one. -/
structure Accounted (graph : Graph) (known : String → String → Prop) : Prop where
  owned : ∀ {id : String}, id ∈ graph.ids → ∃ entry, graph.Owns entry id
  gaps : ∀ {entry id dependency : String}, graph.Gap entry id dependency → known id dependency

theorem accounted_empty : empty.Accounted known where
  owned := by simp
  gaps := by
    rintro entry id dependency ⟨⟨module, hm, -⟩, -⟩
    simp at hm

theorem Accounted.mono {other : String → String → Prop} (h : graph.Accounted known)
    (hmono : ∀ {id dependency : String}, known id dependency → other id dependency) :
    graph.Accounted other :=
  ⟨h.owned, fun hgap => hmono (h.gaps hgap)⟩

/-- A dependency that is not there is a gap of whoever owns the module. -/
theorem Accounted.known_of_absent (h : graph.Accounted known) {id dependency : String}
    (hdep : graph.DependsOn id dependency) (habsent : dependency ∉ graph.ids) :
    known id dependency := by
  obtain ⟨entry, hown⟩ := h.owned hdep.mem_ids
  exact h.gaps ⟨hown, hdep, fun ho => habsent ho.mem_ids⟩

theorem Accounted.owned_of_grows (h : before.Accounted known) (hgrows : Grows entry before after)
    {id : String} (hid : id ∈ after.ids) : ∃ owner, after.Owns owner id := by
  by_cases hold : id ∈ before.ids
  · obtain ⟨owner, hown⟩ := h.owned hold
    exact ⟨owner, hgrows.owns hown⟩
  · obtain ⟨module, hm⟩ := mem_ids_iff.mp hid
    have howners := hgrows.added (get?_eq_none_iff.mpr hold) hm
    exact ⟨entry, module, hm, by simp [howners]⟩

/-- The gaps of other entries were there before the graph grew. -/
theorem Gap.of_grows (hgrows : Grows entry before after) {other id dependency : String}
    (hne : other ≠ entry) (h : after.Gap other id dependency) :
    before.Gap other id dependency := by
  have hown := (hgrows.owns_iff_of_ne hne).mp h.owned
  exact ⟨hown, (hgrows.dependsOn_iff hown.mem_ids).mp h.required,
    fun ho => h.missing (hgrows.owns ho)⟩

end Graph

namespace Workshop

variable {shop : Workshop} {entry : String} {path : Path} {graph : Graph}
variable {known : String → String → Prop}

/-- A successful build leaves no gap that was not known before. -/
theorem accounted_buildEntry_of_ok (h : graph.Accounted known) {id : String}
    (hok : (shop.buildEntry entry path graph).result = .ok id) :
    (shop.buildEntry entry path graph).state.Accounted known := by
  obtain ⟨-, hprogress⟩ := buildEntry_eq_ok hok
  refine ⟨h.owned_of_grows hprogress.grows, ?_⟩
  intro other id dependency hgap
  by_cases hother : other = entry
  · subst hother
    rcases hprogress.gaps hgap with hstack | hstart | ⟨hdep, habsent⟩
    · simp at hstack
    · exact h.gaps hstart
    · exact h.known_of_absent hdep habsent
  · exact h.gaps (hgap.of_grows hprogress.grows hother)

/-- The gaps that any build adds are gaps of its own entry. -/
theorem accounted_buildEntry (shop : Workshop) (entry : String) (path : Path)
    (h : graph.Accounted known) :
    (shop.buildEntry entry path graph).state.Accounted fun id dependency =>
      known id dependency ∨ (shop.buildEntry entry path graph).state.Gap entry id dependency := by
  have hgrows := grows_buildEntry shop entry path graph
  refine ⟨h.owned_of_grows hgrows, ?_⟩
  intro other id dependency hgap
  by_cases hother : other = entry
  · exact .inr (hother ▸ hgap)
  · exact .inl (h.gaps (hgap.of_grows hgrows hother))

/-! ### A graph that is built again and again -/

/-- The build of an entry, with all that it works with. -/
structure Call where
  shop : Workshop
  entry : String
  path : Path

namespace Call

/-- Carries out a build. -/
def run (call : Call) : Action Graph BuildError String :=
  call.shop.buildEntry call.entry call.path

/-- A gap of its own entry that one of the calls left when it failed. -/
def LeftGap (calls : List Call) (id dependency : String) : Prop :=
  Action.FailedWith run .empty (fun call graph => graph.Gap call.entry id dependency) calls

theorem accounted_stateAfter (calls : List Call) :
    (Action.stateAfter run .empty calls).Accounted (LeftGap calls) := by
  induction calls using List.reverseRecOn with
  | nil => exact Graph.accounted_empty
  | append_singleton calls call ih =>
      rw [Action.stateAfter_snoc]
      cases hr : (call.run (Action.stateAfter run .empty calls)).result with
      | ok id => exact (accounted_buildEntry_of_ok ih hr).mono fun hleft => hleft.snoc call
      | error error =>
          apply (accounted_buildEntry call.shop call.entry call.path ih).mono
          rintro id dependency (hleft | hgap)
          · exact hleft.snoc call
          · exact Action.failedWith_last hr hgap

end Call

end Workshop

namespace Compilation

variable {state : Compilation} {known : String → String → Prop}

/-! ### A compilation that is built again and again -/

/-- Every gap of the graph is a known one, and so is all that a chunk lacks. -/
structure Accounted (state : Compilation) (known : String → String → Prop) : Prop where
  graph : state.graph.Accounted known
  chunks : ∀ {chunk : Chunk}, chunk ∈ state.chunks → ∀ {module : Module}, module ∈ chunk.modules →
    ∀ {dependency : String}, dependency ∈ module.dependencies →
      dependency ∈ chunk.ids ∨ known module.id dependency

theorem Accounted.mono {other : String → String → Prop} (h : state.Accounted known)
    (hmono : ∀ {id dependency : String}, known id dependency → other id dependency) :
    state.Accounted other :=
  ⟨h.graph.mono hmono, fun hc _ hm _ hdep => (h.chunks hc hm hdep).imp_right hmono⟩

theorem chunk_ofModules_accounted {graph : Graph} (h : graph.Accounted known) {name : String}
    {entryModule module : Module}
    (hm : module ∈ (Chunk.ofModules name entryModule graph.modules).modules) {dependency : String}
    (hdep : dependency ∈ module.dependencies) :
    dependency ∈ (Chunk.ofModules name entryModule graph.modules).ids ∨
      known module.id dependency := by
  obtain ⟨hmem, hown⟩ := List.mem_filter.mp hm
  have hget := Graph.get?_of_mem hmem
  by_cases hother : graph.Owns name dependency
  · obtain ⟨other, ho, hname⟩ := hother
    obtain ⟨homem, rfl⟩ := Graph.get?_eq_some_iff.mp ho
    refine .inl (List.mem_map_of_mem (List.mem_filter.mpr ⟨homem, ?_⟩))
    exact (other.isOwnedBy_iff name).mpr hname
  · exact .inr (h.gaps ⟨⟨module, hget, (module.isOwnedBy_iff name).mp hown⟩,
      ⟨module, hget, hdep⟩, hother⟩)

/-- Entries built in order leave the chunks as they are, and new gaps only when they fail. -/
theorem accounted_buildEntries (shop : Workshop) (entries : List (String × Path))
    (h : state.Accounted known) :
    let outcome := buildEntries shop entries state
    outcome.state.Accounted fun id dependency => known id dependency ∨
      (outcome.result ≠ .ok () ∧ ∃ entry, outcome.state.graph.Gap entry id dependency) := by
  induction entries generalizing state with
  | nil => exact ⟨h.graph.mono .inl, fun hc _ hm _ hdep => (h.chunks hc hm hdep).imp_right .inl⟩
  | cons first rest ih =>
      obtain ⟨entry, path⟩ := first
      intro outcome
      cases hr : (shop.buildEntry entry path state.graph).result with
      | error error =>
          obtain ⟨hresult, hstate⟩ := buildEntry_of_error hr
          obtain ⟨hstate', hresult'⟩ :=
            Action.bind_of_error (fun _ => buildEntries shop rest) hresult
          have hgraph := Workshop.accounted_buildEntry shop entry path h.graph
          have hleft : outcome.state =
              { state with graph := (shop.buildEntry entry path state.graph).state } :=
            hstate'.trans hstate
          have hfail : outcome.result ≠ .ok () := by
            rw [show outcome.result = .error error from hresult']
            simp
          rw [hleft]
          refine ⟨hgraph.mono ?_, fun hc _ hm _ hdep => (h.chunks hc hm hdep).imp_right .inl⟩
          rintro id dependency (hknown | hgap)
          · exact .inl hknown
          · exact .inr ⟨hfail, entry, hgap⟩
      | ok id =>
          obtain ⟨hresult, hstate⟩ := buildEntry_of_ok hr
          obtain ⟨hstate', hresult'⟩ :=
            Action.bind_of_ok (fun _ => buildEntries shop rest) hresult
          rw [hstate] at hstate' hresult'
          have hfirst : Accounted (buildEntry shop entry path state).state known := by
            rw [hstate]
            exact ⟨Workshop.accounted_buildEntry_of_ok h.graph hr, h.chunks⟩
          have hrest := ih hfirst
          rw [hstate] at hrest
          simp only [← hstate', ← hresult'] at hrest
          exact hrest

theorem accounted_buildModules (disk : Disk) (loaders : LoaderRegistry)
    (h : state.Accounted known) :
    let outcome := buildModules disk loaders state
    outcome.state.Accounted fun id dependency => known id dependency ∨
      (outcome.result ≠ .ok () ∧ ∃ entry, outcome.state.graph.Gap entry id dependency) := by
  intro outcome
  have hbuilt :=
    accounted_buildEntries (state.workshop disk loaders) state.options.entries.entries h
  cases hr : (buildEntries (state.workshop disk loaders) state.options.entries.entries
      state).result with
  | error error =>
      obtain ⟨hresult, hstate⟩ := buildModules_of_error hr
      simp only [← hstate, hr, ← hresult] at hbuilt
      exact hbuilt
  | ok =>
      obtain ⟨-, hstate⟩ := buildModules_of_ok hr
      have hknown := hbuilt.graph.mono fun hleft => hleft.resolve_right (absurd hr ·.1)
      have houtcome : outcome.state = _ := hstate
      rw [houtcome]
      refine ⟨hknown.mono .inl, ?_⟩
      intro chunk hc module hm dependency hdep
      rcases List.mem_append.mp hc with hc | hc
      · rcases hbuilt.chunks hc hm hdep with hin | hleft
        · exact .inl hin
        · exact .inr (.inl (hleft.resolve_right (absurd hr ·.1)))
      · obtain ⟨entry, -, hchunk⟩ := List.mem_filterMap.mp hc
        obtain ⟨entryModule, -, rfl⟩ := Option.map_eq_some_iff.mp hchunk
        exact (chunk_ofModules_accounted hknown hm hdep).imp_right .inl

/-- Builds a compilation from files and loaders of the moment. -/
def again (supplies : Disk × LoaderRegistry) : Action Compilation BuildError Unit :=
  buildModules supplies.1 supplies.2

/-- A gap of any entry that one of the builds left when it failed. -/
def LeftGap (options : Options) (builds : List (Disk × LoaderRegistry)) (id dependency : String) :
    Prop :=
  Action.FailedWith again (ofOptions options)
    (fun _ state => ∃ entry, state.graph.Gap entry id dependency) builds

theorem accounted_stateAfter (options : Options) (builds : List (Disk × LoaderRegistry)) :
    (Action.stateAfter again (ofOptions options) builds).Accounted (LeftGap options builds) := by
  induction builds using List.reverseRecOn with
  | nil => exact ⟨Graph.accounted_empty, by simp [Action.stateAfter, ofOptions]⟩
  | append_singleton builds supplies ih =>
      rw [Action.stateAfter_snoc]
      have hnext := accounted_buildModules supplies.1 supplies.2 ih
      refine hnext.mono ?_
      rintro id dependency (hleft | ⟨hfail, hgap⟩)
      · exact hleft.snoc supplies
      · cases hr : (again supplies (Action.stateAfter again (ofOptions options) builds)).result with
        | ok => exact absurd hr hfail
        | error error => exact Action.failedWith_last hr hgap

/-! ### What success still means -/

open Workshop in
/-- After a successful build of an entry, its module is there, and it owns whatever one of its
modules requires, unless that was missing when an earlier build failed. After a successful build
of a compilation, a chunk holds whatever one of its modules requires, with the same exception. -/
theorem complete_but_for_failures :
    (∀ (calls : List Call) (call : Call) (id : String),
      (call.run (Action.stateAfter Call.run .empty calls)).result = .ok id →
      let graph := Action.stateAfter Call.run .empty (calls ++ [call])
      id = call.shop.resolver.moduleId call.path ∧ graph.Owns call.entry id ∧
        ∀ module dependency, graph.Owns call.entry module → graph.DependsOn module dependency →
          graph.Owns call.entry dependency ∨ Call.LeftGap calls module dependency) ∧
    (∀ (options : Options) (builds : List (Disk × LoaderRegistry))
      (supplies : Disk × LoaderRegistry),
      (again supplies (Action.stateAfter again (ofOptions options) builds)).result = .ok () →
      ∀ chunk ∈ (Action.stateAfter again (ofOptions options) (builds ++ [supplies])).chunks,
        ∀ module ∈ chunk.modules, ∀ dependency ∈ module.dependencies,
          dependency ∈ chunk.ids ∨ LeftGap options builds module.id dependency) := by
  constructor
  · intro calls call id hok graph
    have haccounted := Call.accounted_stateAfter calls
    obtain ⟨rfl, hprogress⟩ := buildEntry_eq_ok hok
    have hafter : graph = (call.run (Action.stateAfter Call.run .empty calls)).state :=
      Action.stateAfter_snoc calls call
    rw [hafter]
    refine ⟨rfl, hprogress.started.resolve_left (by simp), ?_⟩
    intro module dependency hown hdep
    by_cases hother : (call.run (Action.stateAfter Call.run .empty calls)).state.Owns call.entry
        dependency
    · exact .inl hother
    · exact .inr ((accounted_buildEntry_of_ok haccounted hok).gaps ⟨hown, hdep, hother⟩)
  · intro options builds supplies hok chunk hc module hm dependency hdep
    have hnext := accounted_buildModules supplies.1 supplies.2 (accounted_stateAfter options builds)
    rw [Action.stateAfter_snoc] at hc
    exact (hnext.chunks hc hm hdep).imp_right fun hleft => hleft.resolve_right (absurd hok ·.1)

set_option maxRecDepth 100000 in
open Workshop in
theorem complete_but_for_failures_mended :
    let shop (text : ByteArray) : Workshop := ⟨⟨⟨[(["r"], .directory),
      (["r", "a.js"], .file "require('./b');".toUTF8), (["r", "b.js"], .file text)]⟩, []⟩,
      .ofRoot ⟨"/r"⟩ [".js"], [], .empty⟩
    let broken : Call := ⟨shop ⟨#[255]⟩, "main", ⟨"/r/a.js"⟩⟩
    let mended : Call := ⟨shop "".toUTF8, "main", ⟨"/r/b.js"⟩⟩
    let options := (Options.ofContext ⟨"/r"⟩).withEntry "main" ⟨"a.js"⟩
    let chunks := (Action.stateAfter again (ofOptions options)
      ([] ++ [(mended.shop.disk, .empty)])).chunks
    (Action.stateAfter Call.run .empty ([broken] ++ [mended])).Owns "main" "./b.js" ∧
      chunks.map Chunk.ids = [["./a.js", "./b.js"]] ∧
      ∀ chunk ∈ chunks, ∀ module ∈ chunk.modules, ∀ dependency ∈ module.dependencies,
        dependency ∈ chunk.ids ∨ LeftGap options [] module.id dependency := by
  intro shop broken mended options chunks
  have hcalls := complete_but_for_failures.1 [broken] mended "./b.js" (by decide +kernel)
  have hbuilds := complete_but_for_failures.2 options [] (mended.shop.disk, .empty)
    (by decide +kernel)
  exact ⟨hcalls.2.1, by decide +kernel, hbuilds⟩

set_option maxRecDepth 100000 in
/-- Without the exception this fails: the second of two equal builds succeeds, as the module that
the first one left is there, and what that module requires is missing all the same. -/
theorem incomplete_after_failure :
    let disk : Disk := ⟨⟨[(["r"], .directory),
      (["r", "a.js"], .file "require('./b');".toUTF8), (["r", "b.js"], .file ⟨#[255]⟩)]⟩, []⟩
    let call : Workshop.Call := ⟨⟨disk, .ofRoot ⟨"/r"⟩ [".js"], [], .empty⟩, "main", ⟨"/r/a.js"⟩⟩
    let first := Action.stateAfter Workshop.Call.run .empty [call]
    let second := call.run first
    let options := (Options.ofContext ⟨"/r"⟩).withEntry "main" ⟨"a.js"⟩
    let state := Action.stateAfter again (ofOptions options) [(disk, .empty)]
    let built := again (disk, .empty) state
    (second.result = .ok "./a.js" ∧ second.state.Owns "main" "./a.js" ∧
      second.state.DependsOn "./a.js" "./b.js" ∧ "./b.js" ∉ second.state.ids) ∧
    (built.result = .ok () ∧
      built.state.chunks.map (fun chunk =>
        (chunk.name, chunk.modules.map fun module => (module.id, module.dependencies))) =
        [("main", [("./a.js", ["./b.js"])])]) := by
  decide +kernel

end Compilation

end Bundler
