import Bundler.Proofs.Module.Chunks
import Bundler.Proofs.Script.Dependencies

/-! Where the code of a module comes from. It is the printed program of the loaded file, in which
every call that requires names one of the dependencies that the module records. -/

namespace Bundler

/-- How the code of a module came about: its file was read, the loaders that apply were run on
behalf of the first owner, and the program that the loaded text holds was rewritten and printed. -/
def Module.Written (shop : Workshop) (module : Module) (before after : Script.Node) : Prop :=
  ∃ entry loaded comments, module.owners.head? = some entry ∧
    shop.disk.readText module.path = .ok module.rawSource ∧
    (Loader.apply shop.rules shop.loaders ⟨module.path, shop.resolver.root, entry⟩
      module.rawSource).result = .ok loaded ∧
    Script.Program.read (.ofPath module.path) loaded.toList = .ok ⟨before, comments⟩ ∧
    module.code =
      Script.Program.render ⟨after, comments⟩ (Script.Dialect.ofPath module.path).markup

/-- The code of a module is that of its file with every call that requires redirected to one of the
recorded dependencies. -/
def Module.Rewritten (shop : Workshop) (module : Module) : Prop :=
  ∃ before after, module.Written shop before after ∧
    ∀ (path : List Nat) (call : Script.Node), before.at? path = some call → call.requires = true →
      ∃ call' id lone, after.at? path = some call' ∧ Script.Redirected call call' id lone ∧
        id ∈ module.dependencies

namespace Workshop

variable {shop : Workshop} {entry : String}

theorem rewritten_buildModule {visit : Visit} {module : Module} {dependencies : List Visit}
    (h : (shop.buildModule entry visit).result = .ok (module, dependencies)) :
    module.Rewritten shop := by
  obtain ⟨source, loaded, rewritten, hsource, hloaded, hrewritten, rfl, -⟩ :=
    buildModule_inversion h
  obtain ⟨program, tree, hread, htree, hcode, htable⟩ := Script.rewrite_eq_ok hrewritten
  refine ⟨program.tree, tree, ⟨entry, loaded, program.comments, rfl,
    hsource, hloaded, hread, hcode⟩, ?_⟩
  intro path call hat hcall
  obtain ⟨call', id, lone, hat', hredirected, hid⟩ :=
    Script.Requirer.exists_redirected htree hat hcall
  exact ⟨call', id, lone, hat', hredirected, by rwa [htable]⟩

theorem rewritten_addOwner {module : Module} (h : module.Rewritten shop) (entry : String) :
    (module.addOwner entry).Rewritten shop := by
  obtain ⟨before, after, ⟨owner, loaded, comments, howner, hrest⟩, hcalls⟩ := h
  unfold Module.addOwner
  split
  · exact ⟨before, after, ⟨owner, loaded, comments, howner, hrest⟩, hcalls⟩
  · refine ⟨before, after, ⟨owner, loaded, comments, ?_, hrest⟩, hcalls⟩
    simp [howner]

theorem rewritten_buildEntry {path : Path} {graph : Graph}
    (h : ∀ module ∈ graph.modules, module.Rewritten shop) :
    ∀ module ∈ (shop.buildEntry entry path graph).state.modules, module.Rewritten shop := by
  obtain ⟨stack, hrun, -⟩ := buildEntry_steps shop entry path graph
  exact hrun.forall_modules (fun _ => True) (fun hm => rewritten_addOwner hm entry)
    (fun _ hb => ⟨rewritten_buildModule hb, fun _ _ => trivial⟩) (fun _ _ => trivial) h

end Workshop

namespace Compilation

variable {shop : Workshop} {state : Compilation}

/-- Every module of a compilation that began without modules is rewritten from its file. -/
theorem rewritten_buildModules (disk : Disk) (loaders : LoaderRegistry) (hfresh : state.Fresh) :
    ∀ module ∈ (buildModules disk loaders state).state.graph.modules,
      module.Rewritten (state.workshop disk loaders) := by
  rw [graph_buildModules]
  apply buildEntries_induction fun graph =>
    ∀ module ∈ graph.modules, module.Rewritten (state.workshop disk loaders)
  · intro entry path graph _ h
    exact Workshop.rewritten_buildEntry h
  · rw [hfresh.graph]
    intro module hm
    cases hm

end Compilation

end Bundler
