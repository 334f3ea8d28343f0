import Bundler.Proofs.Hook.Calls

/-! The stages of a run, one after the other, and what each of them leaves as it is. -/

namespace Bundler

namespace Compilation

/-- Nothing has changed but hooks and assets. -/
structure SameBuild (before after : Compilation) : Prop where
  options : after.options = before.options
  resolver : after.resolver = before.resolver
  entries : after.entries = before.entries
  graph : after.graph = before.graph
  chunks : after.chunks = before.chunks
  files : after.files = before.files

theorem SameBuild.refl (state : Compilation) : SameBuild state state :=
  ⟨rfl, rfl, rfl, rfl, rfl, rfl⟩

theorem SameBuild.trans {first second third : Compilation} (h : SameBuild first second)
    (h' : SameBuild second third) : SameBuild first third :=
  ⟨h'.options.trans h.options, h'.resolver.trans h.resolver, h'.entries.trans h.entries,
    h'.graph.trans h.graph, h'.chunks.trans h.chunks, h'.files.trans h.files⟩

theorem sameBuild_createAsset (chunk : Chunk) (state : Compilation) :
    SameBuild state (createAsset chunk state).state := by
  rw [createAsset]
  refine Action.rel_bind SameBuild SameBuild.trans (.refl state) fun current => ?_
  refine Action.rel_bind SameBuild SameBuild.trans (.refl _) fun path => ?_
  refine Action.rel_bind SameBuild SameBuild.trans (.refl _) fun _ => ?_
  cases current.holder? path with
  | some other => exact .refl _
  | none => exact ⟨rfl, rfl, rfl, rfl, rfl, rfl⟩

theorem createAssetsOf_eq_each (chunks : List Chunk) :
    createAssetsOf chunks = Action.each createAsset chunks := by
  induction chunks with
  | nil => rfl
  | cons first rest ih => rw [createAssetsOf, Action.each, ih]

theorem sameBuild_createAssetsOf (chunks : List Chunk) (state : Compilation) :
    SameBuild state (createAssetsOf chunks state).state := by
  rw [createAssetsOf_eq_each]
  exact Action.rel_each SameBuild .refl .trans (fun chunk _ => sameBuild_createAsset chunk) state

theorem sameBuild_createAssets (state : Compilation) :
    SameBuild state (createAssets state).state := by
  rw [createAssets]
  exact Action.rel_bind SameBuild SameBuild.trans (.refl state)
    fun current => sameBuild_createAssetsOf current.chunks _

end Compilation

namespace Site

/-- Nothing about the compilation has changed but the list of its files. -/
def SameAssets (before after : Site) : Prop :=
  after.compilation = { before.compilation with files := after.compilation.files }

theorem SameAssets.refl (site : Site) : SameAssets site site := rfl

theorem SameAssets.trans {first second third : Site} (h : SameAssets first second)
    (h' : SameAssets second third) : SameAssets first third := by
  rw [SameAssets] at h h' ⊢
  rw [h', h]

theorem sameAssets_makeParent (target : Path) (site : Site) :
    SameAssets site (makeParent target site).state := by
  unfold makeParent
  cases target.parent? with
  | none => exact .refl site
  | some parent => exact .refl site

theorem sameAssets_writeAsset (directory : Path) (name source : String) (site : Site) :
    SameAssets site (writeAsset directory name source site).state := by
  rw [writeAsset]
  refine Action.rel_bind SameAssets SameAssets.trans (sameAssets_makeParent _ site) fun _ => ?_
  refine Action.rel_bind SameAssets SameAssets.trans ?_ fun _ => rfl
  unfold writeFile
  split
  · exact rfl
  · exact .refl _

theorem writeAll_eq_each (directory : Path) (assets : List (String × String)) :
    writeAll directory assets =
      Action.each (fun asset => writeAsset directory asset.1 asset.2) assets := by
  induction assets with
  | nil => rfl
  | cons first rest ih => rw [writeAll, Action.each, ih]

theorem sameAssets_writeAll (directory : Path) (assets : List (String × String)) (site : Site) :
    SameAssets site (writeAll directory assets site).state := by
  rw [writeAll_eq_each]
  exact Action.rel_each SameAssets .refl .trans
    (fun asset _ => sameAssets_writeAsset directory asset.1 asset.2) site

theorem sameAssets_writeAssets (site : Site) : SameAssets site (writeAssets site).state := by
  rw [writeAssets]
  refine Action.rel_bind SameAssets SameAssets.trans (.refl site) fun current => ?_
  refine Action.rel_bind SameAssets SameAssets.trans (.refl site) fun _ => ?_
  refine Action.rel_bind SameAssets SameAssets.trans ?_ fun _ => sameAssets_writeAll _ _ _
  exact .refl _

/-- A name that is refused stops the writing before it begins. -/
theorem writeAssets_state_of_error {site : Site} {error : BuildError}
    (h : checkNames site.compilation.assets.keys = .error error) :
    (writeAssets site).state = site := by
  have hnames : (Action.ofExcept (checkNames site.compilation.assets.keys) site).result =
      .error error := h
  exact (Action.bind_of_error _ hnames).1

/-- Once all names have been checked, the output directory is made and the assets are written. -/
theorem writeAssets_of_checked {site : Site}
    (h : checkNames site.compilation.assets.keys = .ok ()) :
    let output := site.compilation.options.outputPath
    let rest : Action Site BuildError Unit := do
      makeDirectories output
      writeAll output site.compilation.assets.entries
    (writeAssets site).state = (rest site).state ∧
      (writeAssets site).result = (rest site).result := by
  intro output rest
  have hnames : (Action.ofExcept (checkNames site.compilation.assets.keys) site).result =
      .ok () := h
  exact Action.bind_of_ok (fun _ => rest) hnames

end Site

namespace Compiler

variable {compiler : Compiler} {disk : Disk}

/-- The compilation that the taps of the hook of compilations leave. -/
def prepared (compiler : Compiler) : Compilation :=
  let options := compiler.setup.options
  (compiler.compilation.callAll (fun tap => tap ⟨options.context, options.outputPath⟩)
    (Compilation.ofOptions options)).state

/-- A successful compilation: the modules were built, an asset was made of every chunk, and the
last taps were called. -/
theorem compile_eq_ok {compilation : Compilation}
    (h : (compiler.compile disk).result = .ok compilation) :
    let outcome := Compilation.buildModules disk compiler.setup.loaders compiler.prepared
    outcome.result = .ok () ∧ (Compilation.createAssets outcome.state).result = .ok () ∧
      compilation = (compiler.emit.callAll (fun tap => tap)
        (Compilation.createAssets outcome.state).state).state := by
  have hstages : (compiler.stages disk (.ofOptions compiler.setup.options)).result = .ok () ∧
      (compiler.stages disk (.ofOptions compiler.setup.options)).state = compilation := by
    rw [compile] at h
    cases hr : (compiler.stages disk (.ofOptions compiler.setup.options)).result with
    | error error =>
        simp only [hr] at h
        cases h
    | ok =>
        simp only [hr] at h
        exact ⟨rfl, Except.ok.inj h⟩
  obtain ⟨hok, rfl⟩ := hstages
  rw [stages] at hok ⊢
  obtain ⟨_, -, hok, hlog⟩ := Action.bind_eq_ok hok
  obtain ⟨_, -, hok, hrun⟩ := Action.bind_eq_ok hok
  obtain ⟨_, -, hok, htaps⟩ := Action.bind_eq_ok hok
  obtain ⟨_, hbuilt, hok, hbuild⟩ := Action.bind_eq_ok hok
  obtain ⟨_, hcreated, -, hcreate⟩ := Action.bind_eq_ok hok
  exact ⟨hbuilt, hcreated,
    hlog.trans (hrun.trans (htaps.trans (hbuild.trans hcreate)))⟩

theorem write_eq_ok {compilation written : Compilation}
    (h : (write compilation disk).result = .ok written) :
    (Site.writeAssets ⟨compilation, disk⟩).result = .ok () ∧
      written = (Site.writeAssets ⟨compilation, disk⟩).state.compilation := by
  unfold write at h
  cases hr : (Site.writeAssets ⟨compilation, disk⟩).result with
  | error error =>
      simp only [hr] at h
      cases h
  | ok =>
      simp only [hr] at h
      exact ⟨rfl, (Except.ok.inj h).symm⟩

/-- Nothing is written by a run whose compilation fails. -/
theorem build_state_of_error {error : BuildError}
    (h : (compiler.compile disk).result = .error error) : (compiler.build disk).state = disk := by
  have hcompile : (Action.ofReport (compiler.compile disk) disk).result = .error error := h
  exact (Action.bind_of_error _ hcompile).1

/-- What a run writes, it writes from its compilation; the last taps only look on. -/
theorem build_state_of_ok {compilation : Compilation}
    (h : (compiler.compile disk).result = .ok compilation) :
    (compiler.build disk).state = (write compilation disk).state := by
  have hcompile : (Action.ofReport (compiler.compile disk) disk).result = .ok compilation := h
  let finish (written : Compilation) : Action Disk BuildError Stats := do
    let stats := Stats.ofCompilation written
    Action.ofReport (compiler.done.observe fun tap => tap stats)
    Action.log (.buildFinished stats.modules.length stats.chunks.length stats.files.length)
    return stats
  have hfinish : ∀ written here, (finish written here).state = here := by
    intro written here
    refine Action.rel_bind (fun before after => after = before) (fun h h' => h'.trans h) rfl ?_
    intro _
    rfl
  have hbuild : (compiler.build disk).state = ((write compilation >>= finish) disk).state :=
    (Action.bind_of_ok (fun compilation => write compilation >>= finish) hcompile).1
  rw [hbuild]
  cases hr : (write compilation disk).result with
  | error error => rw [(Action.bind_of_error _ hr).1]
  | ok written => rw [(Action.bind_of_ok _ hr).1, hfinish]

theorem build_eq_ok {stats : Stats} (h : (compiler.build disk).result = .ok stats) :
    ∃ compilation, (compiler.compile disk).result = .ok compilation ∧
      let outcome := Site.writeAssets ⟨compilation, disk⟩
      outcome.result = .ok () ∧ stats = .ofCompilation outcome.state.compilation ∧
        (compiler.build disk).state = outcome.state.disk := by
  rw [build] at h ⊢
  obtain ⟨_, hget, h, hstart⟩ := Action.bind_eq_ok h
  obtain rfl := Except.ok.inj hget
  obtain ⟨compilation, hcompile, h, hcompiled⟩ := Action.bind_eq_ok h
  rw [Action.ofReport_result] at hcompile
  obtain ⟨written, hwrite, h, hwritten⟩ := Action.bind_eq_ok h
  obtain ⟨_, -, h, hdone⟩ := Action.bind_eq_ok h
  obtain ⟨_, -, h, hlog⟩ := Action.bind_eq_ok h
  obtain rfl := Except.ok.inj h
  obtain ⟨hok, rfl⟩ := write_eq_ok hwrite
  exact ⟨compilation, hcompile, hok, rfl,
    hstart.trans (hcompiled.trans (hwritten.trans (hdone.trans hlog)))⟩

end Compiler

end Bundler
