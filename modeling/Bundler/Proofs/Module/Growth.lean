import Bundler.Proofs.Module.Failures
import Bundler.Proofs.Module.Supply

/-! Graphs only grow. Whatever changes a graph, the modules that it has keep their order and all
that they were built with, and gain owners behind those that they have. With one resolver every
module stays under the id of its file. -/

namespace Bundler

namespace Module

/-- A module as it is built and owned: under the id of its file, by some entries, and with each
owner and each dependency listed once. -/
structure IsSound (resolver : Resolver) (module : Module) : Prop where
  id : module.id = resolver.moduleId module.path
  owned : module.owners ≠ []
  owners : module.owners.Nodup
  dependencies : module.dependencies.Nodup

theorem exists_addOwner_eq (module : Module) (entry : String) :
    ∃ more, module.addOwner entry = { module with owners := module.owners ++ more } := by
  unfold addOwner
  split
  · exact ⟨[], by rw [List.append_nil]⟩
  · exact ⟨[entry], rfl⟩

theorem IsSound.addOwner {resolver : Resolver} {module : Module} (h : module.IsSound resolver)
    (entry : String) : (module.addOwner entry).IsSound resolver := by
  by_cases hmem : entry ∈ module.owners
  · rwa [addOwner_of_mem hmem]
  · have howners : (module.addOwner entry).owners = module.owners ++ [entry] := by
      rw [owners_addOwner, if_neg hmem]
    obtain ⟨more, hsame⟩ := module.exists_addOwner_eq entry
    refine ⟨?_, ?_, ?_, ?_⟩
    · rw [hsame]
      exact h.id
    · simp [howners]
    · rw [howners]
      exact List.nodup_append.mpr ⟨h.owners, List.nodup_singleton entry, by
        rintro owner ho other hother rfl
        exact hmem (List.mem_singleton.mp hother ▸ ho)⟩
    · rw [dependencies_addOwner]
      exact h.dependencies

end Module

namespace Graph

variable {before middle after graph : Graph}

/-- A graph that came from another one: the same modules come first, each with all that it was built
with, and with its owners in front of those that it gained. -/
structure Continues (before after : Graph) : Prop where
  ids : before.ids <+: after.ids
  kept : ∀ {id : String} {module : Module}, before.get? id = some module →
    ∃ more, after.get? id = some { module with owners := module.owners ++ more }

theorem Continues.refl (graph : Graph) : Continues graph graph :=
  ⟨List.prefix_rfl, fun hm => ⟨[], by rw [hm, List.append_nil]⟩⟩

theorem Continues.trans (h : Continues before middle) (h' : Continues middle after) :
    Continues before after := by
  refine ⟨h.ids.trans h'.ids, fun hm => ?_⟩
  obtain ⟨more, hmiddle⟩ := h.kept hm
  obtain ⟨others, hafter⟩ := h'.kept hmiddle
  exact ⟨more ++ others, by rw [hafter, List.append_assoc]⟩

theorem continues_insert {module : Module} (habsent : module.id ∉ graph.ids) :
    Continues graph (graph.insert module) := by
  refine ⟨⟨[module.id], ?_⟩, fun {id other} ho => ?_⟩
  · rw [ids, ids, modules_insert habsent, List.map_append]
    rfl
  · have hne : id ≠ module.id := by
      rintro rfl
      exact habsent (mem_ids_iff.mpr ⟨other, ho⟩)
    exact ⟨[], by rw [get?_insert_of_ne habsent hne, ho, List.append_nil]⟩

theorem continues_addOwner (graph : Graph) (id entry : String) :
    Continues graph (graph.addOwner id entry) := by
  refine ⟨?_, fun {other module} hm => ?_⟩
  · have hids : (graph.addOwner id entry).ids = graph.ids := by rw [addOwner_eq_tagAll, ids_tagAll]
    exact hids ▸ List.prefix_rfl
  · rcases (grows_addOwner graph id entry).kept hm with hk | hk
    · exact ⟨[], by rw [hk, List.append_nil]⟩
    · obtain ⟨more, hsame⟩ := module.exists_addOwner_eq entry
      exact ⟨more, by rw [hk, hsame]⟩

end Graph

namespace Workshop

variable {shop : Workshop} {entry : String} {graph after : Graph} {stack rest : List Visit}

theorem Steps.continues (hrun : shop.Steps entry stack graph rest after) :
    graph.Continues after := by
  induction hrun with
  | done => exact .refl _
  | again _ _ ih => exact (Graph.continues_addOwner _ _ entry).trans ih
  | build hid hbuilt _ ih =>
      exact (Graph.continues_insert ((buildModule_eq_ok hbuilt).1 ▸ hid)).trans ih

theorem isSound_buildModule {visit : Visit} {module : Module} {dependencies : List Visit}
    (hvisit : visit.id = shop.resolver.moduleId visit.path)
    (h : (shop.buildModule entry visit).result = .ok (module, dependencies)) :
    module.IsSound shop.resolver := by
  obtain ⟨-, -, hdeps⟩ := buildModule_eq_ok h
  have hnodup := (isFile_of_buildModule h).2.1
  rw [← hdeps] at hnodup
  obtain ⟨_, _, _, -, -, -, rfl, -⟩ := buildModule_inversion h
  exact ⟨hvisit, List.cons_ne_nil entry [], List.nodup_singleton entry, hnodup⟩

theorem isSound_buildEntry (shop : Workshop) (entry : String) (path : Path)
    (h : ∀ module ∈ graph.modules, module.IsSound shop.resolver) :
    ∀ module ∈ (shop.buildEntry entry path graph).state.modules,
      module.IsSound shop.resolver := by
  obtain ⟨stack, hrun, -⟩ := buildEntry_steps shop entry path graph
  refine hrun.forall_modules (fun visit => visit.id = shop.resolver.moduleId visit.path)
    (fun hm => hm.addOwner entry) (fun hvisit hb => ⟨isSound_buildModule hvisit hb, ?_⟩) (by simp) h
  exact fun dependency hd => ((isFile_of_buildModule hb).2.2 dependency hd).1

/-! ### Any sequence of changes -/

/-- What changes a graph: a build, which may fail, or an owner that is added. -/
inductive Change where
  | build (call : Call)
  | own (id entry : String)

namespace Change

def apply (change : Change) (graph : Graph) : Graph :=
  match change with
  | build call => (call.run graph).state
  | own id entry => graph.addOwner id entry

def applyAll (changes : List Change) (graph : Graph) : Graph :=
  changes.foldl (fun graph change => change.apply graph) graph

/-- A build gives ids in the way of one resolver. -/
def Uses (resolver : Resolver) : Change → Prop
  | build call => call.shop.resolver = resolver
  | own _ _ => True

theorem continues_apply (change : Change) (graph : Graph) :
    graph.Continues (change.apply graph) := by
  cases change with
  | build call =>
      obtain ⟨stack, hrun, -⟩ := buildEntry_steps call.shop call.entry call.path graph
      exact hrun.continues
  | own id entry => exact graph.continues_addOwner id entry

theorem continues_applyAll (changes : List Change) (graph : Graph) :
    graph.Continues (applyAll changes graph) := by
  induction changes generalizing graph with
  | nil => exact .refl graph
  | cons change rest ih => exact (continues_apply change graph).trans (ih _)

theorem isSound_apply {resolver : Resolver} {change : Change} (huses : change.Uses resolver)
    (h : ∀ module ∈ graph.modules, module.IsSound resolver) :
    ∀ module ∈ (change.apply graph).modules, module.IsSound resolver := by
  cases change with
  | build call =>
      obtain rfl : call.shop.resolver = resolver := huses
      exact isSound_buildEntry call.shop call.entry call.path h
  | own id entry => exact Graph.forall_modules_addOwner (fun hm => hm.addOwner entry) h

theorem isSound_applyAll {resolver : Resolver} {changes : List Change}
    (huses : ∀ change ∈ changes, change.Uses resolver)
    (h : ∀ module ∈ graph.modules, module.IsSound resolver) :
    ∀ module ∈ (applyAll changes graph).modules, module.IsSound resolver := by
  induction changes generalizing graph with
  | nil => exact h
  | cons change rest ih =>
      obtain ⟨hfirst, hrest⟩ := List.forall_mem_cons.mp huses
      exact ih hrest (isSound_apply hfirst h)

end Change

/-- Whatever builds with one resolver and added owners make of the empty graph, every module is
found under its own id, which is that of its file and of no other module, has an owner, and lists
each owner and each dependency once. Whatever changes the graph next keeps its ids in front of all
others, and all of its modules but for owners that they gain behind those that they have. -/
theorem graph_only_grows (resolver : Resolver) (changes : List Change)
    (huses : ∀ change ∈ changes, change.Uses resolver) :
    let graph := Change.applyAll changes .empty
    (∀ id module, graph.get? id = some module → module.id = id ∧ module.IsSound resolver) ∧
      graph.ids.Nodup ∧ (∀ change : Change, graph.Continues (change.apply graph)) ∧
      ∀ more : List Change, graph.Continues (Change.applyAll more graph) := by
  intro graph
  refine ⟨fun id module hm => ?_, graph.nodup, fun change => change.continues_apply graph,
    fun more => Change.continues_applyAll more graph⟩
  obtain ⟨hmem, hid⟩ := Graph.get?_eq_some_iff.mp hm
  exact ⟨hid, Change.isSound_applyAll huses (fun _ hnone => absurd hnone List.not_mem_nil)
    module hmem⟩

set_option maxRecDepth 100000 in
/-- A build that fails, an owner for what it left, and a build that succeeds. -/
theorem graph_only_grows_mended :
    let resolver : Resolver := .ofRoot ⟨"/r"⟩ [".js"]
    let shop (text : ByteArray) : Workshop := ⟨⟨⟨[(["r"], .directory),
      (["r", "a.js"], .file "require('./b'); require('./a');".toUTF8),
      (["r", "b.js"], .file text)]⟩, []⟩, resolver, [], .empty⟩
    let changes : List Change := [.build ⟨shop ⟨#[255]⟩, "main", ⟨"/r/a.js"⟩⟩,
      .own "./a.js" "other", .build ⟨shop "".toUTF8, "main", ⟨"/r/b.js"⟩⟩]
    let graph := Change.applyAll changes .empty
    (∀ change ∈ changes, change.Uses resolver) ∧
      graph.modules.map (fun module => (module.id, module.owners, module.dependencies)) =
        [("./a.js", ["main", "other"], ["./b.js", "./a.js"]), ("./b.js", ["main"], [])] ∧
      ∀ id module, graph.get? id = some module → module.id = id ∧ module.IsSound resolver := by
  intro resolver shop changes graph
  have huses : ∀ change ∈ changes, change.Uses resolver := by
    intro change hc
    simp only [changes, List.mem_cons, List.not_mem_nil, or_false] at hc
    rcases hc with rfl | rfl | rfl
    · exact rfl
    · trivial
    · exact rfl
  exact ⟨huses, by decide +kernel, (graph_only_grows resolver changes huses).1⟩

end Workshop

end Bundler
