import Bundler.Proofs.Build.Stages
import Bundler.Proofs.Module.Origin
import Bundler.Proofs.Script.Literal

/-! Bundles that hold all that they ask for. Every call that was redirected names a key of the
registry, and its argument is printed as that name unless a mark in the id is taken for one. -/

namespace Bundler

open Script

/-- A call asks the registry of a chunk for a module: it calls the function of the bundle, the id
in it is a key, and the string that is printed is the id's own exactly if no mark in the id counts
as one. -/
structure Chunk.Finds (chunk : Chunk) (call : Node) (id : String) (lone : Bool) : Prop where
  callee : call.callee?.map Tree.kind = some (.name Bundle.requireName)
  key : Json.quote id ∈ Bundle.keys chunk
  printed : ∃ argument : Node, call.argument? = some argument ∧ ∀ around output,
    (((argument.annotate Layout.ofParts).write around).run output).2.reversed =
      (Quote.text id lone).reverse ++ output.reversed
  literal : StandsFor (Quote.text id false) id
  exact_iff : Quote.text id lone = Quote.text id false ↔ (lone = true → ¬ HasMark id.toList)

/-- The registry has distinct keys that are read as the ids of the modules, the module of the entry
among them, and every call that requires finds one of them. -/
structure Chunk.SelfContained (shop : Workshop) (chunk : Chunk) : Prop where
  keys_nodup : (Bundle.keys chunk).Nodup
  keys_read : ∀ module ∈ chunk.modules, StandsFor (Bundle.key module).toList module.id
  entry_key : Bundle.key chunk.entryModule ∈ Bundle.keys chunk
  calls : ∀ module ∈ chunk.modules, ∃ before after, module.Written shop before after ∧
    ∀ (path : List Nat) (call : Node), before.at? path = some call → call.requires = true →
      ∃ call' id lone, after.at? path = some call' ∧ Redirected call call' id lone ∧
        chunk.Finds call' id lone

theorem jsonQuote_injective : Function.Injective Json.quote := by
  intro value other h
  exact (standsFor_jsonQuote value).unique (h ▸ standsFor_jsonQuote other)

theorem text_eq_iff (id : String) (lone : Bool) :
    Quote.text id lone = Quote.text id false ↔ (lone = true → ¬ HasMark id.toList) := by
  cases lone with
  | false => simp
  | true => simpa using text_true_eq_iff id

namespace Chunk

variable {chunk : Chunk}

theorem key_mem_keys {id : String} (h : id ∈ chunk.ids) : Json.quote id ∈ Bundle.keys chunk := by
  obtain ⟨module, hm, rfl⟩ := List.mem_map.mp h
  exact List.mem_map_of_mem hm

theorem finds_of_redirected {before after : Node} {id : String} {lone : Bool}
    (h : Redirected before after id lone) (hid : id ∈ chunk.ids) : chunk.Finds after id lone := by
  obtain ⟨raw, hargument⟩ := h.argument
  obtain ⟨argument, hsome, hkind⟩ := Option.map_eq_some_iff.mp hargument
  exact ⟨h.callee, key_mem_keys hid, ⟨argument, hsome, reversed_write_string hkind⟩,
    standsFor_text id, text_eq_iff id lone⟩

end Chunk

namespace Compilation

variable {state : Compilation} {entry : String × String} {chunk : Chunk}

theorem mem_ids_of_dependency (hexact : state.Exact)
    (hchunk : IsChunkOf state.graph entry chunk) (he : entry ∈ state.entries.entries)
    {module : Module} (hm : module ∈ chunk.modules) {id : String}
    (hid : id ∈ module.dependencies) : id ∈ chunk.ids := by
  classical
  have hmodules := hchunk.modules
  rw [hmodules, List.mem_filter, decide_eq_true_iff] at hm
  obtain ⟨hmem, hreaches⟩ := hm
  have hnext : state.graph.Reaches entry.2 id :=
    hreaches.tail ⟨module, Graph.get?_of_mem hmem, hid⟩
  obtain ⟨other, ho, rfl⟩ := List.mem_map.mp ((hexact.present id).mpr ⟨entry, he, hnext⟩)
  apply List.mem_map_of_mem
  rw [hmodules, List.mem_filter, decide_eq_true_iff]
  exact ⟨ho, hnext⟩

theorem selfContained_of_exact {shop : Workshop} (hexact : state.Exact)
    (hrewritten : ∀ module ∈ state.graph.modules, module.Rewritten shop)
    (hc : chunk ∈ state.chunks) : chunk.SelfContained shop := by
  classical
  obtain ⟨entry, he, hchunk⟩ := hexact.isChunkOf hc
  have hsub : chunk.modules.Sublist state.graph.modules := by
    rw [hchunk.modules]
    exact List.filter_sublist
  refine ⟨?_, fun module _ => standsFor_jsonQuote module.id,
    List.mem_map_of_mem hchunk.entryModule_mem, ?_⟩
  · have hids : chunk.ids.Nodup := state.graph.nodup.sublist (hsub.map Module.id)
    have hkeys : Bundle.keys chunk = chunk.ids.map Json.quote := by
      simp [Bundle.keys, Chunk.ids, Bundle.key, Function.comp_def]
    rw [hkeys]
    exact hids.map jsonQuote_injective
  · intro module hm
    obtain ⟨before, after, hwritten, hcalls⟩ := hrewritten module (hsub.mem hm)
    refine ⟨before, after, hwritten, ?_⟩
    intro path call hat hcall
    obtain ⟨call', id, lone, hat', hredirected, hid⟩ := hcalls path call hat hcall
    exact ⟨call', id, lone, hat', hredirected,
      Chunk.finds_of_redirected hredirected (mem_ids_of_dependency hexact hchunk he hm hid)⟩

end Compilation

namespace Compiler

variable {compiler : Compiler} {disk : Disk}

/-- Taps that change nothing but hooks and assets leave a fresh compilation fresh. -/
theorem sameBuild_prepared
    (htaps : ∀ tap ∈ compiler.compilation.taps, ∀ params state,
      Compilation.SameBuild state (tap.call params state).state) :
    Compilation.SameBuild (.ofOptions compiler.setup.options) compiler.prepared :=
  Hook.rel_callTaps Compilation.SameBuild.refl Compilation.SameBuild.trans _ _
    (fun tap ht state => htaps tap ht _ state) _

/-- After a successful run each bundle holds all that it asks for, if no tap meddles with modules
and chunks. A call may still print another name than that of its module: a string in which a half of
a surrogate pair was marked is printed as one with marks, also if the id put into it has none. -/
theorem build_self_contained {stats : Stats}
    (htaps : ∀ tap ∈ compiler.compilation.taps, ∀ params state,
      Compilation.SameBuild state (tap.call params state).state)
    (hemit : ∀ tap ∈ compiler.emit.taps, ∀ state,
      Compilation.SameBuild state (tap.call state).state)
    (h : (compiler.build disk).result = .ok stats) :
    let options := compiler.setup.options
    ∀ chunk ∈ stats.chunks, chunk.SelfContained
      ⟨disk, .ofRoot options.context options.extensions, options.rules,
        compiler.setup.loaders⟩ := by
  intro options chunk hc
  obtain ⟨compilation, hcompile, -, rfl, -⟩ := build_eq_ok h
  obtain ⟨hbuilt, -, hcompilation⟩ := compile_eq_ok hcompile
  have hprepared := sameBuild_prepared htaps
  have hfresh : compiler.prepared.Fresh :=
    ⟨hprepared.entries, hprepared.graph, hprepared.chunks⟩
  have hemitted : Compilation.SameBuild
      (Compilation.buildModules disk compiler.setup.loaders compiler.prepared).state
      compilation := by
    rw [hcompilation]
    exact (Compilation.sameBuild_createAssets _).trans
      (Hook.rel_callTaps Compilation.SameBuild.refl Compilation.SameBuild.trans _ _ hemit _)
  have hwritten := Site.sameAssets_writeAssets ⟨compilation, disk⟩
  have hchunks : (Site.writeAssets ⟨compilation, disk⟩).state.compilation.chunks =
      (Compilation.buildModules disk compiler.setup.loaders compiler.prepared).state.chunks := by
    rw [hwritten]
    exact hemitted.chunks
  have hshop : compiler.prepared.workshop disk compiler.setup.loaders =
      ⟨disk, .ofRoot options.context options.extensions, options.rules,
        compiler.setup.loaders⟩ := by
    simp only [Compilation.workshop, hprepared.options, hprepared.resolver]
    rfl
  rw [← hshop]
  exact Compilation.selfContained_of_exact (Compilation.exact_of_fresh hfresh hbuilt).2
    (Compilation.rewritten_buildModules disk compiler.setup.loaders hfresh) (hchunks ▸ hc)

set_option maxRecDepth 100000 in
theorem build_self_contained_pair :
    let disk : Disk := ⟨⟨[(["r"], .directory), (["r", "a.js"], .file "require('./b');".toUTF8),
      (["r", "b.js"], .file "require('./a');".toUTF8)]⟩, []⟩
    let options := (Options.ofContext ⟨"/r"⟩).withEntry "main" ⟨"a.js"⟩
    let compiler : Compiler :=
      ⟨⟨options, .empty⟩, .ofKind .run, .ofKind .compilation, .ofKind .emit, .ofKind .done⟩
    ∃ stats, (compiler.build disk).result = .ok stats ∧
      stats.chunks.map Bundle.keys = [["\"./a.js\"", "\"./b.js\""]] ∧
      ∀ chunk ∈ stats.chunks, chunk.SelfContained ⟨disk, .ofRoot ⟨"/r"⟩ [".js"], [], .empty⟩ := by
  intro disk options compiler
  have hok : (compiler.build disk).result.isOk = true := by decide +kernel
  have hkeys : ((compiler.build disk).result.map fun stats =>
      stats.chunks.map Bundle.keys).toOption = some [["\"./a.js\"", "\"./b.js\""]] := by
    decide +kernel
  obtain ⟨stats, h⟩ := exists_eq_ok hok
  rw [h] at hkeys
  exact ⟨stats, h, Option.some.inj hkeys,
    build_self_contained (by simp [compiler, Hook.ofKind]) (by simp [compiler, Hook.ofKind]) h⟩

end Compiler

end Bundler
