import Bundler.Proofs.Module.Failures
import Bundler.Proofs.Module.Supply
import Bundler.Proofs.Path.Identity
import Bundler.Proofs.Path.Parent

/-! Files and the modules made of them. A dependency is recorded under the id of the file that was
found, and a module has the id of its own file. So a file is given the module of another one only if
the ways to the two differ in nothing but backslashes in place of slashes. -/

namespace Bundler

namespace Resolver

variable {resolver : Resolver} {disk : Disk} {base path : Path} {specifier : String}

theorem isAbsolute_of_resolve (hbase : base.isAbsolute = true)
    (h : (resolver.resolve disk base specifier).result = .ok path) : path.isAbsolute = true := by
  obtain ⟨extension, -, rfl⟩ := List.mem_map.mp (resolve_eq_ok h).1
  have hjoined := Path.isAbsolute_normalize (Path.isAbsolute_join ⟨specifier⟩ hbase)
  rw [Path.isAbsolute, beq_iff_eq] at hjoined ⊢
  rw [String.toList_append, List.head?_append, hjoined, Option.some_or]

end Resolver

namespace Workshop

variable {shop : Workshop} {entry : String} {root path : Path} {graph : Graph}
variable {found other : Path → Path → Prop}

/-- Some specifier in the file at one path denotes the file at the other. -/
def Finds (shop : Workshop) (path file : Path) : Prop :=
  ∃ specifier, (shop.resolver.resolve shop.disk
    (path.parent?.getD shop.resolver.root) specifier).result = .ok file

/-- A module has the id of its file, and so have its dependencies, whose files were found from
there. -/
structure Placed (root : Path) (found : Path → Path → Prop) (module : Module) : Prop where
  absolute : module.path.isAbsolute = true
  id : module.id = root.moduleId module.path
  dependencies : ∀ dependency ∈ module.dependencies, ∃ file, found module.path file ∧
    file.isAbsolute = true ∧ dependency = root.moduleId file

theorem Placed.mono {module : Module} (h : Placed root found module)
    (hmono : ∀ {path file : Path}, found path file → other path file) :
    Placed root other module where
  absolute := h.absolute
  id := h.id
  dependencies := by
    intro dependency hd
    obtain ⟨file, hfound, hfile⟩ := h.dependencies dependency hd
    exact ⟨file, hmono hfound, hfile⟩

theorem Placed.addOwner {module : Module} (h : Placed root found module) (entry : String) :
    Placed root found (module.addOwner entry) := by
  unfold Module.addOwner
  split
  · exact h
  · exact ⟨h.absolute, h.id, h.dependencies⟩

/-- One step: what a file requires is found under absolute paths again. -/
theorem placed_buildModule {visit : Visit} {module : Module} {dependencies : List Visit}
    (hroot : shop.resolver.root.isAbsolute = true)
    (hid : visit.id = shop.resolver.moduleId visit.path) (hpath : visit.path.isAbsolute = true)
    (h : (shop.buildModule entry visit).result = .ok (module, dependencies)) :
    Placed shop.resolver.root shop.Finds module ∧ ∀ dependency ∈ dependencies,
      dependency.id = shop.resolver.moduleId dependency.path ∧
        dependency.path.isAbsolute = true := by
  have hsame : module.path = visit.path := by
    obtain ⟨_, _, _, -, -, -, rfl, -⟩ := buildModule_inversion h
    rfl
  obtain ⟨hname, -, hdeps⟩ := buildModule_eq_ok h
  obtain ⟨-, -, hfiles⟩ := isFile_of_buildModule h
  have hbase := Path.isAbsolute_parent?_getD hroot hpath
  have habsolute : ∀ dependency ∈ dependencies, dependency.path.isAbsolute = true := by
    intro dependency hd
    obtain ⟨-, specifier, hresolved⟩ := hfiles dependency hd
    exact Resolver.isAbsolute_of_resolve hbase hresolved
  refine ⟨⟨by rwa [hsame], ?_, ?_⟩, fun dependency hd =>
    ⟨(hfiles dependency hd).1, habsolute dependency hd⟩⟩
  · rw [hname, hid, hsame]
    rfl
  · rw [hdeps, hsame]
    intro id hmem
    obtain ⟨dependency, hd, rfl⟩ := List.mem_map.mp hmem
    obtain ⟨hown, hfound⟩ := hfiles dependency hd
    exact ⟨dependency.path, hfound, habsolute dependency hd, hown⟩

/-- A whole build. -/
theorem placed_buildEntry (hroot : shop.resolver.root.isAbsolute = true)
    (hpath : path.isAbsolute = true) (hfinds : ∀ {path file : Path}, shop.Finds path file →
      found path file)
    (h : ∀ module ∈ graph.modules, Placed shop.resolver.root found module) :
    ∀ module ∈ (shop.buildEntry entry path graph).state.modules,
      Placed shop.resolver.root found module := by
  obtain ⟨stack, hrun, -⟩ := buildEntry_steps shop entry path graph
  let awaited (visit : Visit) : Prop :=
    visit.id = shop.resolver.moduleId visit.path ∧ visit.path.isAbsolute = true
  refine hrun.forall_modules awaited (fun hm => hm.addOwner entry) ?_ ?_ h
  · rintro visit module dependencies ⟨hid, habsolute⟩ hb
    obtain ⟨hplaced, hdeps⟩ := placed_buildModule hroot hid habsolute hb
    exact ⟨hplaced.mono hfinds, hdeps⟩
  · intro visit hv
    obtain rfl := List.mem_singleton.mp hv
    exact ⟨rfl, hpath⟩

/-- Any sequence of builds with the same root. -/
theorem placed_stateAfter (hroot : root.isAbsolute = true) (calls : List Call)
    (hcalls : ∀ call ∈ calls, call.shop.resolver.root = root ∧ call.path.isAbsolute = true) :
    ∀ module ∈ (Action.stateAfter Call.run .empty calls).modules,
      Placed root (fun path file => ∃ call ∈ calls, call.shop.Finds path file) module := by
  induction calls using List.reverseRecOn with
  | nil => exact fun _ hm => absurd hm List.not_mem_nil
  | append_singleton calls call ih =>
      rw [Action.stateAfter_snoc]
      obtain ⟨rfl, hpath⟩ := hcalls call (by simp)
      refine placed_buildEntry hroot hpath (fun hfound => ⟨call, by simp, hfound⟩) ?_
      intro module hm
      refine (ih (fun earlier he => hcalls earlier (by simp [he])) module hm).mono ?_
      rintro path file ⟨earlier, he, hfound⟩
      exact ⟨earlier, by simp [he], hfound⟩

/-- The ids of two files are the same exactly if the ways to them differ in nothing but backslashes
in place of slashes, and the ways are the same exactly if the normal forms are. So in any number of
builds with the same root, a dependency is the module of the very file that was found, or of one
whose way differs from that file's in this manner only. -/
theorem moduleId_separates {root : Path} (hroot : root.isAbsolute = true) :
    (∀ path other : Path, path.isAbsolute = true → other.isAbsolute = true →
      (root.moduleId path = root.moduleId other ↔
        List.Forall₂ Path.AlikeInId (root.way path) (root.way other)) ∧
      (root.way path = root.way other ↔ path.normalize = other.normalize) ∧
      ('\\' ∉ root.way path → '\\' ∉ root.way other →
        (root.moduleId path = root.moduleId other ↔ path.normalize = other.normalize))) ∧
    ∀ calls : List Call,
      (∀ call ∈ calls, call.shop.resolver.root = root ∧ call.path.isAbsolute = true) →
      let graph := Action.stateAfter Call.run .empty calls
      ∀ module ∈ graph.modules, ∀ dependency ∈ module.dependencies, ∃ file,
        (∃ call ∈ calls, call.shop.Finds module.path file) ∧ dependency = root.moduleId file ∧
        ∀ target ∈ graph.modules, target.id = dependency →
          List.Forall₂ Path.AlikeInId (root.way target.path) (root.way file) ∧
          ('\\' ∉ root.way target.path → '\\' ∉ root.way file →
            target.path.normalize = file.normalize) := by
  constructor
  · intro path other hpath hother
    refine ⟨Path.moduleId_eq_iff, ?_, Path.moduleId_eq_iff_of_not_mem hroot hpath hother⟩
    rw [← Path.relative_eq_iff hroot hpath hother, Path.way, Path.way, String.toList_inj,
      Path.text_inj]
  · intro calls hcalls graph module hm dependency hd
    have hplaced := placed_stateAfter hroot calls hcalls
    obtain ⟨file, hfound, hfile, rfl⟩ := (hplaced module hm).dependencies dependency hd
    refine ⟨file, hfound, rfl, ?_⟩
    intro target ht hid
    have hsame : root.moduleId target.path = root.moduleId file :=
      (hplaced target ht).id.symm.trans hid
    exact ⟨Path.moduleId_eq_iff.mp hsame, fun hplain hplain' =>
      (Path.moduleId_eq_iff_of_not_mem hroot (hplaced target ht).absolute hfile hplain hplain').mp
        hsame⟩

set_option maxRecDepth 100000 in
theorem moduleId_separates_required :
    let root : Path := ⟨"/r"⟩
    let disk : Disk := ⟨⟨[(["r"], .directory),
      (["r", "a.js"], .file "require('./b');".toUTF8), (["r", "b.js"], .file "".toUTF8)]⟩, []⟩
    let call : Call := ⟨⟨disk, ⟨root, [".js"]⟩, [], .empty⟩, "main", ⟨"/r/a.js"⟩⟩
    let graph := Action.stateAfter Call.run .empty [call]
    root.moduleId ⟨"/r/./b.js"⟩ = root.moduleId ⟨"/r/b.js"⟩ ∧
      graph.modules.map (fun module => (module.id, module.dependencies)) =
        [("./a.js", ["./b.js"]), ("./b.js", [])] ∧
      ∀ module ∈ graph.modules, ∀ dependency ∈ module.dependencies, ∃ file,
        (∃ found ∈ [call], found.shop.Finds module.path file) ∧ dependency = root.moduleId file ∧
        ∀ target ∈ graph.modules, target.id = dependency →
          List.Forall₂ Path.AlikeInId (root.way target.path) (root.way file) ∧
          ('\\' ∉ root.way target.path → '\\' ∉ root.way file →
            target.path.normalize = file.normalize) := by
  intro root disk call graph
  obtain ⟨hpaths, hbuilds⟩ := moduleId_separates (show root.isAbsolute = true by decide)
  obtain ⟨-, -, hplain⟩ := hpaths ⟨"/r/./b.js"⟩ ⟨"/r/b.js"⟩ (by decide) (by decide)
  refine ⟨(hplain (by decide +kernel) (by decide +kernel)).mpr (by decide +kernel),
    by decide +kernel, hbuilds [call] fun other ho => ?_⟩
  obtain rfl := List.mem_singleton.mp ho
  exact ⟨rfl, by decide⟩

set_option maxRecDepth 100000 in
/-- A backslash makes a difference: the files at two paths of different normal forms have the same
id, and the second one that is required never becomes a module. -/
theorem moduleId_confuses_backslash :
    let root : Path := ⟨"/r"⟩
    let disk : Disk := ⟨⟨[(["r"], .directory), (["r", "x"], .directory),
      (["r", "a.js"], .file "require('./x\\\\y'); require('./x/y');".toUTF8),
      (["r", "x\\y.js"], .file "1;".toUTF8), (["r", "x", "y.js"], .file "2;".toUTF8)]⟩, []⟩
    let call : Call := ⟨⟨disk, ⟨root, [".js"]⟩, [], .empty⟩, "main", ⟨"/r/a.js"⟩⟩
    let outcome := call.run .empty
    let first : Path := ⟨"/r/x\\y.js"⟩
    let second : Path := ⟨"/r/x/y.js"⟩
    (root.isAbsolute = true ∧ first.isAbsolute = true ∧ second.isAbsolute = true) ∧
      root.moduleId first = root.moduleId second ∧ first.normalize ≠ second.normalize ∧
      outcome.result = .ok "./a.js" ∧
      outcome.state.modules.map (fun module => (module.id, module.path.text)) =
        [("./a.js", "/r/a.js"), ("./x/y.js", first.text)] := by
  decide +kernel

end Workshop

end Bundler
