import Bundler.Proofs.Build.Stages
import Bundler.Proofs.Module.Chunks
import Bundler.Proofs.Module.Supply

/-! Builds that fail. All that can fail before the first directory is made leaves the disk as it
is; whatever fails later is an error of the disk itself or a tap that is called at the end. -/

namespace Bundler

namespace AssetName

theorem check_eq_error_iff {name : String} {error : BuildError} :
    check name = .error error ↔
      ∃ problem, problem? name = some problem ∧ error = .invalidAsset name problem.message := by
  unfold check
  cases problem? name with
  | none => simp
  | some problem => simp [eq_comm]

theorem check_eq_ok_iff {name : String} : check name = .ok () ↔ problem? name = none := by
  unfold check
  cases problem? name with
  | none => simp
  | some problem => simp

end AssetName

namespace Compilation

variable {shop : Workshop} {state : Compilation} {error : BuildError}

/-- Modules fail at the first entry whose build fails. -/
theorem buildModules_eq_error_iff {disk : Disk} {loaders : LoaderRegistry} :
    (buildModules disk loaders state).result = .error error ↔
      ∃ earlier entry path later,
        state.options.entries.entries = earlier ++ (entry, path) :: later ∧
        (buildEntries (state.workshop disk loaders) earlier state).result = .ok () ∧
        ((state.workshop disk loaders).buildEntry entry path
          (buildEntries (state.workshop disk loaders) earlier state).state.graph).result =
            .error error := by
  have hentries : (buildModules disk loaders state).result = .error error ↔
      (buildEntries (state.workshop disk loaders) state.options.entries.entries state).result =
        .error error := by
    cases hr : (buildEntries (state.workshop disk loaders) state.options.entries.entries
        state).result with
    | error other => rw [(buildModules_of_error hr).1]
    | ok => rw [(buildModules_of_ok hr).1]
  have hentry : ∀ {entry : String} {path : Path} {here : Compilation},
      (buildEntry (state.workshop disk loaders) entry path here).result = .error error ↔
        ((state.workshop disk loaders).buildEntry entry path here.graph).result = .error error := by
    intro entry path here
    cases hr : ((state.workshop disk loaders).buildEntry entry path here.graph).result with
    | error other => rw [(buildEntry_of_error hr).1, Except.error.injEq, Except.error.injEq]
    | ok id => simp [(buildEntry_of_ok hr).1]
  rw [hentries, buildEntries_eq_each, Action.each_eq_error_iff]
  simp only [← buildEntries_eq_each, hentry, Prod.exists]

/-- Assets fail at the first chunk of which none can be made. -/
theorem createAssets_eq_error_iff :
    (createAssets state).result = .error error ↔ ∃ earlier chunk later,
      state.chunks = earlier ++ chunk :: later ∧
        (createAssetsOf earlier state).result = .ok () ∧
        (createAsset chunk (createAssetsOf earlier state).state).result = .error error := by
  have hchunks : (createAssets state).result = .error error ↔
      (createAssetsOf state.chunks state).result = .error error := by
    rw [createAssets, Action.bind_eq_error_iff]
    constructor
    · rintro (hget | ⟨_, hget, h⟩)
      · cases hget
      · obtain rfl := Except.ok.inj hget
        exact h
    · exact fun h => .inr ⟨state, rfl, h⟩
  rw [hchunks, createAssetsOf_eq_each, Action.each_eq_error_iff]
  simp only [← createAssetsOf_eq_each]

end Compilation

namespace Site

variable {site : Site} {error : BuildError}

theorem checkNames_eq_error_iff {names : List String} :
    checkNames names = .error error ↔ ∃ earlier bad later problem,
      names = earlier ++ bad :: later ∧ (∀ name ∈ earlier, AssetName.problem? name = none) ∧
        AssetName.problem? bad = some problem ∧
        error = .invalidAsset bad problem.message := by
  induction names with
  | nil => simp [checkNames]
  | cons first rest ih =>
      rw [checkNames, bind_eq_error_iff]
      constructor
      · rintro (hfirst | ⟨_, hfirst, hrest⟩)
        · obtain ⟨problem, hproblem, herror⟩ := AssetName.check_eq_error_iff.mp hfirst
          exact ⟨[], first, rest, problem, rfl, by simp, hproblem, herror⟩
        · obtain ⟨earlier, bad, later, problem, rfl, hearlier, hbad⟩ := ih.mp hrest
          refine ⟨first :: earlier, bad, later, problem, rfl, ?_, hbad⟩
          exact List.forall_mem_cons.mpr ⟨AssetName.check_eq_ok_iff.mp hfirst, hearlier⟩
      · rintro ⟨earlier, bad, later, problem, hnames, hearlier, hproblem, herror⟩
        cases earlier with
        | nil =>
            obtain ⟨rfl, rfl⟩ := List.cons.inj hnames
            exact .inl (AssetName.check_eq_error_iff.mpr ⟨problem, hproblem, herror⟩)
        | cons other earlier =>
            obtain ⟨rfl, rfl⟩ := List.cons.inj hnames
            obtain ⟨hfirst, hearlier⟩ := List.forall_mem_cons.mp hearlier
            exact .inr ⟨(), AssetName.check_eq_ok_iff.mpr hfirst,
              ih.mpr ⟨earlier, bad, later, problem, rfl, hearlier, hproblem, herror⟩⟩

theorem checkNames_eq_ok_iff {names : List String} :
    checkNames names = .ok () ↔ ∀ name ∈ names, AssetName.problem? name = none := by
  induction names with
  | nil => simp [checkNames]
  | cons first rest ih =>
      rw [checkNames, bind_eq_ok_iff, List.forall_mem_cons, ← ih, ← AssetName.check_eq_ok_iff]
      exact ⟨fun ⟨_, h⟩ => h, fun h => ⟨(), h⟩⟩

theorem makeDirectories_eq_error_iff {path : Path} :
    (makeDirectories path site).result = .error error ↔
      ∃ reason, (site.disk.makeDirectories path).2 = .error reason ∧ error = .ofFile path reason :=
  mapError_eq_error_iff

theorem writeFile_eq_error_iff {path : Path} {text : String} :
    (writeFile path text site).result = .error error ↔
      ∃ reason, site.disk.writeText path text = .error reason ∧ error = .ofFile path reason := by
  unfold writeFile
  cases site.disk.writeText path text with
  | error reason => simp [eq_comm]
  | ok disk => simp

/-- The disk refuses the directory or the file of an asset. -/
inductive Refuses (site : Site) (target : Path) (source : String) : BuildError → Prop where
  | directory {parent : Path} {reason : FileError} (habove : target.parent? = some parent)
      (h : (site.disk.makeDirectories parent).2 = .error reason) :
      Refuses site target source (.ofFile parent reason)
  | file {reason : FileError} (hparent : (makeParent target site).result = .ok ())
      (h : (makeParent target site).state.disk.writeText target source = .error reason) :
      Refuses site target source (.ofFile target reason)

theorem writeAsset_eq_error_iff {directory : Path} {name source : String} :
    (writeAsset directory name source site).result = .error error ↔
      site.Refuses (directory.join ⟨name⟩) source error := by
  have hparent : ∀ {target : Path}, (makeParent target site).result = .error error ↔
      ∃ parent, target.parent? = some parent ∧
        (makeDirectories parent site).result = .error error := by
    intro target
    unfold makeParent
    cases target.parent? with
    | none => simp [Action.ok]
    | some parent => simp
  rw [writeAsset]
  simp only [Action.bind_eq_error_iff, hparent, makeDirectories_eq_error_iff,
    writeFile_eq_error_iff]
  constructor
  · rintro (⟨parent, habove, reason, h, rfl⟩ | ⟨_, hok, ⟨reason, h, rfl⟩ | ⟨_, -, hlast⟩⟩)
    · exact .directory habove h
    · exact .file hok h
    · simp [Action.log, record, Action.modify] at hlast
  · rintro (⟨habove, h⟩ | ⟨hok, h⟩)
    · exact .inl ⟨_, habove, _, h, rfl⟩
    · exact .inr ⟨(), hok, .inl ⟨_, h, rfl⟩⟩

theorem writeAssets_eq_error_iff :
    let output := site.compilation.options.outputPath
    let assets := site.compilation.assets
    (writeAssets site).result = .error error ↔ checkNames assets.keys = .error error ∨
      checkNames assets.keys = .ok () ∧ ((makeDirectories output site).result = .error error ∨
        (makeDirectories output site).result = .ok () ∧
          (writeAll output assets.entries (makeDirectories output site).state).result =
            .error error) := by
  intro output assets
  rw [writeAssets]
  simp only [Action.bind_eq_error_iff]
  constructor
  · rintro (hget | ⟨_, hget, hrest⟩)
    · cases hget
    obtain rfl := Except.ok.inj hget
    rcases hrest with hnames | ⟨_, hnames, hmake | ⟨_, hmake, hwrite⟩⟩
    · exact .inl hnames
    · exact .inr ⟨hnames, .inl hmake⟩
    · exact .inr ⟨hnames, .inr ⟨hmake, hwrite⟩⟩
  · rintro (hnames | ⟨hnames, hmake | ⟨hmake, hwrite⟩⟩)
    · exact .inr ⟨site, rfl, .inl hnames⟩
    · exact .inr ⟨site, rfl, .inr ⟨(), hnames, .inl hmake⟩⟩
    · exact .inr ⟨site, rfl, .inr ⟨(), hnames, .inr ⟨(), hmake, hwrite⟩⟩⟩

end Site

namespace Compiler

variable {compiler : Compiler} {disk : Disk} {error : BuildError}

/-! ### Stages of a run -/

/-- Calls the taps on a fresh compilation. -/
def prepare (compiler : Compiler) : Action Compilation BuildError Unit :=
  let options := compiler.setup.options
  compiler.compilation.callAll fun tap => tap ⟨options.context, options.outputPath⟩

/-- The taps that are called before any file is read succeed. -/
structure Prepares (compiler : Compiler) : Prop where
  run : (compiler.run.observe fun tap => tap compiler.setup).result = .ok ()
  compilation : (compiler.prepare (.ofOptions compiler.setup.options)).result = .ok ()

/-- What the modules of a run are built from. -/
def workshop (compiler : Compiler) (disk : Disk) : Workshop :=
  compiler.prepared.workshop disk compiler.setup.loaders

/-- The compilation after its modules were built. -/
def withModules (compiler : Compiler) (disk : Disk) : Outcome Compilation BuildError Unit :=
  Compilation.buildModules disk compiler.setup.loaders compiler.prepared

/-- The compilation after an asset was made of every chunk. -/
def withAssets (compiler : Compiler) (disk : Disk) : Outcome Compilation BuildError Unit :=
  Compilation.createAssets (compiler.withModules disk).state

/-- A stage before the writing fails: taps that are called at the start, the first module that
cannot be built, the first chunk that no asset can be made of, or taps that are called before assets
are written. -/
inductive StageFails (compiler : Compiler) (disk : Disk) : BuildError → Prop where
  | run {error : BuildError}
      (h : (compiler.run.observe fun tap => tap compiler.setup).result = .error error) :
      StageFails compiler disk error
  | compilation {error : BuildError}
      (hrun : (compiler.run.observe fun tap => tap compiler.setup).result = .ok ())
      (h : (compiler.prepare (.ofOptions compiler.setup.options)).result = .error error) :
      StageFails compiler disk error
  | module {earlier later : List (String × Path)} {entry : String} {path : Path} {visit : Visit}
      {rest : List Visit} {after : Graph} {error : BuildError} (hprepared : compiler.Prepares)
      (hentries : compiler.prepared.options.entries.entries = earlier ++ (entry, path) :: later)
      (hearlier : (Compilation.buildEntries (compiler.workshop disk) earlier
        compiler.prepared).result = .ok ())
      (hsteps : (compiler.workshop disk).Steps entry
        [⟨(compiler.workshop disk).resolver.moduleId path, path⟩]
        (Compilation.buildEntries (compiler.workshop disk) earlier compiler.prepared).state.graph
        (visit :: rest) after)
      (hnew : visit.id ∉ after.ids)
      (h : ((compiler.workshop disk).buildModule entry visit).result = .error error) :
      StageFails compiler disk error
  | asset {earlier later : List Chunk} {chunk : Chunk} {error : BuildError}
      (hprepared : compiler.Prepares) (hmodules : (compiler.withModules disk).result = .ok ())
      (hchunks : (compiler.withModules disk).state.chunks = earlier ++ chunk :: later)
      (hearlier : (Compilation.createAssetsOf earlier (compiler.withModules disk).state).result =
        .ok ())
      (h : (Compilation.createAsset chunk
        (Compilation.createAssetsOf earlier (compiler.withModules disk).state).state).result =
          .error error) :
      StageFails compiler disk error
  | emit {error : BuildError} (hprepared : compiler.Prepares)
      (hmodules : (compiler.withModules disk).result = .ok ())
      (hassets : (compiler.withAssets disk).result = .ok ())
      (h : (compiler.emit.callAll (fun tap => tap) (compiler.withAssets disk).state).result =
        .error error) :
      StageFails compiler disk error

/-- Modules fail at the first one, in the order of visits, that cannot be built. -/
theorem withModules_eq_error_iff :
    (compiler.withModules disk).result = .error error ↔
      ∃ earlier entry path later visit rest after,
        compiler.prepared.options.entries.entries = earlier ++ (entry, path) :: later ∧
        (Compilation.buildEntries (compiler.workshop disk) earlier compiler.prepared).result =
          .ok () ∧
        (compiler.workshop disk).Steps entry
          [⟨(compiler.workshop disk).resolver.moduleId path, path⟩]
          (Compilation.buildEntries (compiler.workshop disk) earlier compiler.prepared).state.graph
          (visit :: rest) after ∧
        visit.id ∉ after.ids ∧
        ((compiler.workshop disk).buildModule entry visit).result = .error error := by
  rw [withModules, Compilation.buildModules_eq_error_iff]
  simp only [Workshop.buildEntry_eq_error_iff]
  constructor
  · rintro ⟨earlier, entry, path, later, hentries, hearlier, visit, rest, after, hfails⟩
    exact ⟨earlier, entry, path, later, visit, rest, after, hentries, hearlier, hfails⟩
  · rintro ⟨earlier, entry, path, later, visit, rest, after, hentries, hearlier, hfails⟩
    exact ⟨earlier, entry, path, later, hentries, hearlier, visit, rest, after, hfails⟩

theorem compile_eq_error_iff :
    (compiler.compile disk).result = .error error ↔ compiler.StageFails disk error := by
  have hstages : (compiler.compile disk).result = .error error ↔
      (compiler.stages disk (.ofOptions compiler.setup.options)).result = .error error := by
    rw [compile]
    cases hr : (compiler.stages disk (.ofOptions compiler.setup.options)).result with
    | error other => simp
    | ok => simp
  rw [hstages, stages]
  simp only [Action.bind_eq_error_iff]
  constructor
  · rintro (hlog | ⟨_, -, hrun | ⟨_, hrun, hprepare | ⟨_, hprepare, hmodules | ⟨_, hmodules,
      hassets | ⟨_, hassets, hemit⟩⟩⟩⟩⟩)
    · cases hlog
    · exact .run hrun
    · exact .compilation hrun hprepare
    · obtain ⟨_, _, _, _, _, _, _, hentries, hearlier, hsteps, hnew, hb⟩ :=
        withModules_eq_error_iff.mp hmodules
      exact .module ⟨hrun, hprepare⟩ hentries hearlier hsteps hnew hb
    · obtain ⟨_, _, _, hchunks, hearlier, hasset⟩ :=
        Compilation.createAssets_eq_error_iff.mp hassets
      exact .asset ⟨hrun, hprepare⟩ hmodules hchunks hearlier hasset
    · exact .emit ⟨hrun, hprepare⟩ hmodules hassets hemit
  · intro hfails
    refine .inr ⟨(), rfl, ?_⟩
    cases hfails with
    | run hrun => exact .inl hrun
    | compilation hrun hprepare => exact .inr ⟨(), hrun, .inl hprepare⟩
    | module hprepared hentries hearlier hsteps hnew hb =>
        have hmodules : (compiler.withModules disk).result = .error error :=
          withModules_eq_error_iff.mpr ⟨_, _, _, _, _, _, _, hentries, hearlier, hsteps, hnew, hb⟩
        exact .inr ⟨(), hprepared.run, .inr ⟨(), hprepared.compilation, .inl hmodules⟩⟩
    | asset hprepared hmodules hchunks hearlier hasset =>
        have hassets : (compiler.withAssets disk).result = .error error :=
          Compilation.createAssets_eq_error_iff.mpr ⟨_, _, _, hchunks, hearlier, hasset⟩
        exact .inr ⟨(), hprepared.run, .inr ⟨(), hprepared.compilation, .inr ⟨(), hmodules,
          .inl hassets⟩⟩⟩
    | emit hprepared hmodules hassets hemit =>
        exact .inr ⟨(), hprepared.run, .inr ⟨(), hprepared.compilation, .inr ⟨(), hmodules,
          .inr ⟨(), hassets, hemit⟩⟩⟩⟩

theorem write_eq_error_iff {compilation : Compilation} :
    (write compilation disk).result = .error error ↔
      (Site.writeAssets ⟨compilation, disk⟩).result = .error error := by
  unfold write
  cases hr : (Site.writeAssets ⟨compilation, disk⟩).result with
  | error other => simp [hr]
  | ok => simp [hr]

/-- A run ends with the error of a stage, of writing or of a tap that is called at the end. -/
theorem build_eq_error_iff :
    (compiler.build disk).result = .error error ↔ (compiler.compile disk).result = .error error ∨
      ∃ compilation, (compiler.compile disk).result = .ok compilation ∧
        ((write compilation disk).result = .error error ∨
          ∃ written, (write compilation disk).result = .ok written ∧
            (compiler.done.observe fun tap => tap (.ofCompilation written)).result =
              .error error) := by
  rw [build]
  simp only [Action.bind_eq_error_iff]
  constructor
  · rintro (hget | ⟨_, hget, hcompile | ⟨compilation, hcompile, hwrite | ⟨written, hwrite,
      hdone | ⟨_, -, hlog | ⟨_, -, hlast⟩⟩⟩⟩⟩)
    · cases hget
    · obtain rfl := Except.ok.inj hget
      exact .inl hcompile
    · obtain rfl := Except.ok.inj hget
      exact .inr ⟨compilation, hcompile, .inl hwrite⟩
    · obtain rfl := Except.ok.inj hget
      exact .inr ⟨compilation, hcompile, .inr ⟨written, hwrite, hdone⟩⟩
    · cases hlog
    · cases hlast
  · rintro (hcompile | ⟨compilation, hcompile, hwrite | ⟨written, hwrite, hdone⟩⟩)
    · exact .inr ⟨disk, rfl, .inl hcompile⟩
    · exact .inr ⟨disk, rfl, .inr ⟨compilation, hcompile, .inl hwrite⟩⟩
    · exact .inr ⟨disk, rfl, .inr ⟨compilation, hcompile, .inr ⟨written, hwrite, .inl hdone⟩⟩⟩

/-! ### What a run that fails leaves -/

/-- A run fails before anything is written: in a stage, or at the first asset whose name is
refused. -/
inductive FailsEarly (compiler : Compiler) (disk : Disk) : BuildError → Prop where
  | stage {error : BuildError} (h : compiler.StageFails disk error) :
      FailsEarly compiler disk error
  | name {compilation : Compilation} {earlier later : List String} {bad : String}
      {problem : AssetNameProblem} (hcompile : (compiler.compile disk).result = .ok compilation)
      (hnames : compilation.assets.keys = earlier ++ bad :: later)
      (hearlier : ∀ name ∈ earlier, AssetName.problem? name = none)
      (h : AssetName.problem? bad = some problem) :
      FailsEarly compiler disk (.invalidAsset bad problem.message)

/-- A run fails later: the disk refuses the output directory, or the directory or the file of an
asset, or a tap that is called at the end fails. -/
inductive FailsLate (compiler : Compiler) (disk : Disk) : BuildError → Prop where
  | output {compilation : Compilation} {reason : FileError}
      (hcompile : (compiler.compile disk).result = .ok compilation)
      (hnames : ∀ name ∈ compilation.assets.keys, AssetName.problem? name = none)
      (h : (disk.makeDirectories compilation.options.outputPath).2 = .error reason) :
      FailsLate compiler disk (.ofFile compilation.options.outputPath reason)
  | asset {compilation : Compilation} {earlier later : List (String × String)}
      {name source : String} {error : BuildError}
      (hcompile : (compiler.compile disk).result = .ok compilation)
      (hnames : ∀ name ∈ compilation.assets.keys, AssetName.problem? name = none)
      (hmade : (Site.makeDirectories compilation.options.outputPath
        ⟨compilation, disk⟩).result = .ok ())
      (hassets : compilation.assets.entries = earlier ++ (name, source) :: later)
      (hearlier : (Site.writeAll compilation.options.outputPath earlier
        (Site.makeDirectories compilation.options.outputPath ⟨compilation, disk⟩).state).result =
          .ok ())
      (h : (Site.writeAll compilation.options.outputPath earlier
        (Site.makeDirectories compilation.options.outputPath
          ⟨compilation, disk⟩).state).state.Refuses
            (compilation.options.outputPath.join ⟨name⟩) source error) :
      FailsLate compiler disk error
  | done {compilation written : Compilation} {error : BuildError}
      (hcompile : (compiler.compile disk).result = .ok compilation)
      (hwrite : (write compilation disk).result = .ok written)
      (h : (compiler.done.observe fun tap => tap (.ofCompilation written)).result =
        .error error) :
      FailsLate compiler disk error

/-- A run that fails early never gets to the disk. -/
theorem build_of_failsEarly (h : compiler.FailsEarly disk error) :
    (compiler.build disk).result = .error error ∧ (compiler.build disk).state = disk := by
  cases h with
  | stage h =>
      have hcompile := compile_eq_error_iff.mpr h
      exact ⟨build_eq_error_iff.mpr (.inl hcompile), build_state_of_error hcompile⟩
  | @name compilation earlier later bad problem hcompile hnames hearlier h =>
      have hcheck : Site.checkNames compilation.assets.keys =
          .error (.invalidAsset bad problem.message) :=
        Site.checkNames_eq_error_iff.mpr ⟨earlier, bad, later, problem, hnames, hearlier, h, rfl⟩
      have hwrite : (write compilation disk).result = .error (.invalidAsset bad problem.message) :=
        write_eq_error_iff.mpr (Site.writeAssets_eq_error_iff.mpr (.inl hcheck))
      refine ⟨build_eq_error_iff.mpr (.inr ⟨compilation, hcompile, .inl hwrite⟩), ?_⟩
      rw [build_state_of_ok hcompile]
      have hstate : (Site.writeAssets ⟨compilation, disk⟩).state = ⟨compilation, disk⟩ :=
        Site.writeAssets_state_of_error hcheck
      exact congrArg Site.disk hstate

/-- A run fails early or late, and in no other way. -/
theorem build_eq_error (h : (compiler.build disk).result = .error error) :
    compiler.FailsEarly disk error ∨ compiler.FailsLate disk error := by
  rcases build_eq_error_iff.mp h with hcompile | ⟨compilation, hcompile, hwrite | ⟨written, hwrite,
    hdone⟩⟩
  · exact .inl (.stage (compile_eq_error_iff.mp hcompile))
  · rcases Site.writeAssets_eq_error_iff.mp (write_eq_error_iff.mp hwrite) with hcheck |
      ⟨hcheck, hmake | ⟨hmake, hassets⟩⟩
    · obtain ⟨earlier, bad, later, problem, hnames, hearlier, hbad, rfl⟩ :=
        Site.checkNames_eq_error_iff.mp hcheck
      exact .inl (.name hcompile hnames hearlier hbad)
    · obtain ⟨reason, hreason, rfl⟩ := Site.makeDirectories_eq_error_iff.mp hmake
      exact .inr (.output hcompile (Site.checkNames_eq_ok_iff.mp hcheck) hreason)
    · rw [Site.writeAll_eq_each, Action.each_eq_error_iff] at hassets
      obtain ⟨earlier, ⟨name, source⟩, later, hsplit, hearlier, hasset⟩ := hassets
      rw [← Site.writeAll_eq_each] at hearlier hasset
      exact .inr (.asset hcompile (Site.checkNames_eq_ok_iff.mp hcheck) hmake hsplit hearlier
        (Site.writeAsset_eq_error_iff.mp hasset))
  · exact .inr (.done hcompile hwrite hdone)

/-- A run that fails leaves the disk as it was, unless the disk itself refused what was to be
written or a tap that is called at the end failed. -/
theorem failed_build_leaves_disk (compiler : Compiler) (disk : Disk) :
    (∀ error, (compiler.build disk).result = .error error → ¬ compiler.FailsLate disk error →
      compiler.FailsEarly disk error ∧ (compiler.build disk).state = disk) ∧
    (∀ error, compiler.FailsEarly disk error →
      (compiler.build disk).result = .error error ∧ (compiler.build disk).state = disk) ∧
    (∀ compilation, (compiler.compile disk).result = .ok compilation →
      ∀ name ∈ compilation.assets.keys, AssetName.problem? name ≠ none →
        ∃ error, compiler.FailsEarly disk error) := by
  refine ⟨?_, fun error => build_of_failsEarly, ?_⟩
  · intro error h hlate
    have hearly := (build_eq_error h).resolve_right hlate
    exact ⟨hearly, (build_of_failsEarly hearly).2⟩
  · intro compilation hcompile name hname hproblem
    cases hcheck : Site.checkNames compilation.assets.keys with
    | ok => exact absurd (Site.checkNames_eq_ok_iff.mp hcheck name hname) hproblem
    | error error =>
        obtain ⟨earlier, bad, later, problem, hnames, hearlier, hbad, -⟩ :=
          Site.checkNames_eq_error_iff.mp hcheck
        exact ⟨_, .name hcompile hnames hearlier hbad⟩

set_option maxRecDepth 100000 in
theorem failed_build_leaves_disk_escape :
    let disk : Disk :=
      ⟨⟨[(["r"], .directory), (["r", "a.js"], .file "exports.x = 1;".toUTF8)]⟩, []⟩
    let options := (Options.ofContext ⟨"/r"⟩).withEntry "main" ⟨"a.js"⟩
    let notes : Tap EmitTap := ⟨"notes", do
      Compilation.emit "notes.txt" "built"
      Compilation.emit "notes/../../escape.txt" "built"
      Compilation.emit "more.txt" "built"⟩
    let compiler : Compiler :=
      ⟨⟨options, .empty⟩, .ofKind .run, .ofKind .compilation, ⟨.emit, [notes]⟩, .ofKind .done⟩
    (compiler.build disk).result = .error
        (.invalidAsset "notes/../../escape.txt" AssetNameProblem.leavesDirectory.message) ∧
      (compiler.build disk).state = disk := by
  intro disk options notes compiler
  have hok : (compiler.compile disk).result.isOk = true := by decide +kernel
  have hkeys : ((compiler.compile disk).result.map fun compilation =>
      compilation.assets.keys).toOption =
        some (["main.js", "notes.txt"] ++ "notes/../../escape.txt" :: ["more.txt"]) := by
    decide +kernel
  obtain ⟨compilation, hcompile⟩ := exists_eq_ok hok
  rw [hcompile] at hkeys
  have hearlier : ∀ name ∈ ["main.js", "notes.txt"], AssetName.problem? name = none := by
    decide +kernel
  exact (failed_build_leaves_disk compiler disk).2.1 _
    (.name hcompile (Option.some.inj hkeys) hearlier (by decide +kernel))

end Compiler

end Bundler
