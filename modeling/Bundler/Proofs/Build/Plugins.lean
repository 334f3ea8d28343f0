import Bundler.Plugin
import Bundler.Proofs.Build.LifeCycle
import Bundler.Proofs.Build.Saving
import Bundler.Proofs.Disk.Reordering
import Bundler.Proofs.Json.Reading

/-! Built-in plugins work together. Each of them keeps to a hook of its own, so that only the order
of the prefixes among themselves matters. -/

namespace Bundler

namespace Action

variable {σ ε α β : Type} {first : Action σ ε α} {next : α → Action σ ε β} {state middle after : σ}
  {found : α} {value : β}

/-- An action succeeds with a value and leaves a state. -/
structure Leaves (action : Action σ ε α) (state : σ) (value : α) (after : σ) : Prop where
  result : (action state).result = .ok value
  state : (action state).state = after

theorem Leaves.bind (h : first.Leaves state found middle)
    (h' : (next found).Leaves middle value after) : (first >>= next).Leaves state value after := by
  obtain ⟨hresult, rfl⟩ := h
  obtain ⟨hstate, hnext⟩ := bind_of_ok next hresult
  exact ⟨hnext.trans h'.result, hstate.trans h'.state⟩

theorem leaves_log (event : Event) (state : σ) :
    (log event : Action σ ε Unit).Leaves state () state :=
  ⟨rfl, rfl⟩

theorem leaves_ofReport {report : Report ε α} (h : report.result = .ok found) (state : σ) :
    (ofReport report).Leaves state found state :=
  ⟨h, rfl⟩

end Action

namespace Hook

variable {F σ : Type} {run : F → Action σ Cause Unit} {state middle after : σ}

theorem leaves_callTap {kind : HookKind} {tap : Tap F} (h : (run tap.call).Leaves state () after) :
    (callTap kind run tap).Leaves state () after := by
  obtain ⟨hresult, rfl⟩ := h
  refine Action.Leaves.bind (Action.leaves_log _ _) ⟨?_, rfl⟩
  simp only [Action.mapError, hresult]

theorem leaves_callTaps_append {kind : HookKind} {taps others : List (Tap F)}
    (h : (callTaps kind run taps).Leaves state () middle)
    (h' : (callTaps kind run others).Leaves middle () after) :
    (callTaps kind run (taps ++ others)).Leaves state () after := by
  induction taps generalizing state with
  | nil =>
      obtain ⟨-, rfl⟩ := h
      exact h'
  | cons tap rest ih =>
      obtain ⟨_, hfirst, hrest, hstate⟩ := Action.bind_eq_ok h.result
      exact Action.Leaves.bind ⟨hfirst, rfl⟩ (ih ⟨hrest, hstate.symm.trans h.state⟩)

/-- A tap that is added is called last. -/
theorem leaves_callAll_add {hook : Hook F} {tap : Tap F}
    (h : (hook.callAll run).Leaves state () middle)
    (h' : (run tap.call).Leaves middle () after) :
    ((hook.add tap).callAll run).Leaves state () after :=
  leaves_callTaps_append h ((leaves_callTap h').bind ⟨rfl, rfl⟩)

end Hook

namespace Compilation

variable {state : Compilation} {chunk : Chunk} {chunks : List Chunk}

/-! ### The asset paths of chunks -/

/-- The names of chunks with asset paths that taps make of the template's names. -/
def Lists (state : Compilation) (name : String → String) (chunks : List Chunk) : Prop :=
  state.chunkAssets.entries = chunks.map fun chunk => (chunk.name, name chunk.name)

/-- One step. -/
theorem lists_createAsset {name : String → String} (h : state.Lists name chunks)
    (hname : ∀ chunk, state.handedName state.assetPath.taps chunk = .ok (name chunk))
    (hkeys : chunk.name ∉ state.chunkAssets.keys)
    (hok : (createAsset chunk state).result = .ok ()) :
    (createAsset chunk state).state.Lists name (chunks ++ [chunk]) := by
  rcases createAsset_cases chunk state with ⟨path, -, hpath, -, hstate⟩ | ⟨⟨error, herror⟩, -⟩
  · rw [hname] at hpath
    obtain rfl := Except.ok.inj hpath
    rw [hstate, Lists, Table.entries_insert_of_not_mem _ hkeys, show _ = _ from h]
    simp
  · rw [hok] at herror
    cases herror

/-- A whole run. -/
theorem lists_createAssetsOf {name : String → String} {rest : List Chunk}
    (h : state.Lists name chunks)
    (hname : ∀ chunk, state.handedName state.assetPath.taps chunk = .ok (name chunk))
    (hnames : ((chunks ++ rest).map Chunk.name).Nodup)
    (hok : (createAssetsOf rest state).result = .ok ()) :
    (createAssetsOf rest state).state.Lists name (chunks ++ rest) := by
  induction rest generalizing state chunks with
  | nil =>
      rw [List.append_nil]
      exact h
  | cons chunk rest ih =>
      obtain ⟨_, hasset, hothers, hstate⟩ := Action.bind_eq_ok hok
      have hkeys : chunk.name ∉ state.chunkAssets.keys := by
        rw [Table.keys, Table.names, show _ = _ from h, List.map_map]
        rw [List.map_append, List.nodup_append] at hnames
        intro hmem
        exact hnames.2.2 _ hmem _ List.mem_cons_self rfl
      have hsame := sameNaming_createAsset chunk state
      rw [createAssetsOf, hstate, List.append_cons]
      rw [List.append_cons] at hnames
      refine ih (lists_createAsset h hname hkeys hasset) (fun other => ?_) hnames hothers
      rw [hsame.handedName, hsame.assetPath]
      exact hname other

end Compilation

/-! ### Built-in plugins -/

/-- A plugin that is always there, with its options. -/
inductive Builtin where
  | lifecycleLog
  | manifest (filename : String)
  | outputPrefix (text : String)
deriving DecidableEq, Repr

namespace Builtin

def plugin : Builtin → Plugin
  | lifecycleLog => Plugin.lifecycleLog
  | manifest filename => Plugin.manifest filename
  | outputPrefix text => Plugin.outputPrefix text

def prefix? : Builtin → Option String
  | outputPrefix text => some text
  | _ => none

def filename? : Builtin → Option String
  | manifest filename => some filename
  | _ => none

/-- The prefixes that plugins put in front of asset paths, in order. -/
def prefixes (plugins : List Builtin) : List String := plugins.filterMap prefix?

/-- The names of the manifests that plugins emit, in order. -/
def filenames (plugins : List Builtin) : List String := plugins.filterMap filename?

theorem prefixes_concat (plugins : List Builtin) (builtin : Builtin) :
    prefixes (plugins ++ [builtin]) = prefixes plugins ++ builtin.prefix?.toList := by
  rw [prefixes, List.filterMap_append]
  cases builtin <;> rfl

theorem filenames_concat (plugins : List Builtin) (builtin : Builtin) :
    filenames (plugins ++ [builtin]) = filenames plugins ++ builtin.filename?.toList := by
  rw [filenames, List.filterMap_append]
  cases builtin <;> rfl

/-- A name behind prefixes, of which the last one stands in front. -/
def prefixed (prefixes : List String) (name : String) : String :=
  prefixes.foldl (fun path text => text ++ path) name

def prefixTap (text : String) : Tap AssetPathTap :=
  ⟨"output-prefix", fun _ path => .ok (text ++ path)⟩

/-- Every plugin that a configuration can name is one of these. -/
theorem exists_builtin {spec : PluginSpec} {made : Plugin}
    (h : PluginRegistry.builtin.create spec = .ok made) :
    ∃ builtin : Builtin, made = builtin.plugin := by
  have hmap : ∀ {result : Except String String} {make : String → Plugin},
      result.map make = .ok made → ∃ text, made = make text := by
    intro result make hmade
    cases result with
    | error message => cases hmade
    | ok text => exact ⟨text, (Except.ok.inj hmade).symm⟩
  unfold PluginRegistry.create at h
  split at h
  · cases h
  · next factory hfactory =>
    have hmade := mapError_eq_ok h
    obtain ⟨before, after, hentries, -⟩ := List.lookup_eq_some_iff.mp hfactory
    have hmem : (spec.name, factory) ∈ PluginRegistry.builtin.factories := by simp [hentries]
    simp only [PluginRegistry.builtin, List.mem_cons, Prod.mk.injEq, List.not_mem_nil,
      or_false] at hmem
    rcases hmem with ⟨-, rfl⟩ | ⟨-, rfl⟩ | ⟨-, rfl⟩
    · exact ⟨lifecycleLog, (Except.ok.inj hmade).symm⟩
    · unfold Plugin.manifestOf at hmade
      split at hmade
      · exact ⟨manifest "manifest.json", (Except.ok.inj hmade).symm⟩
      · obtain ⟨filename, rfl⟩ := hmap hmade
        exact ⟨manifest filename, rfl⟩
    · obtain ⟨text, rfl⟩ := hmap hmade
      exact ⟨outputPrefix text, rfl⟩

end Builtin

namespace Compilation

/-- The compilation with taps that put prefixes in front of asset paths. -/
def withPrefixes (state : Compilation) (prefixes : List String) : Compilation :=
  { state with
    assetPath :=
      { state.assetPath with
        taps := state.assetPath.taps ++ prefixes.map Builtin.prefixTap } }

theorem withPrefixes_nil (state : Compilation) : state.withPrefixes [] = state := by
  simp [withPrefixes]

theorem withPrefixes_concat (state : Compilation) (prefixes : List String) (text : String) :
    state.withPrefixes (prefixes ++ [text]) =
      { state.withPrefixes prefixes with
        assetPath := (state.withPrefixes prefixes).assetPath.add (Builtin.prefixTap text) } := by
  simp [withPrefixes, Hook.add]

/-- The compilation with manifests of its asset paths. -/
def withManifests (state : Compilation) (filenames : List String) : Compilation :=
  { state with
    assets := filenames.foldl
      (fun assets filename => assets.insert filename (Plugin.manifestText state.chunkAssets))
      state.assets }

theorem withManifests_concat (state : Compilation) (filenames : List String) (filename : String) :
    state.withManifests (filenames ++ [filename]) =
      { state.withManifests filenames with
        assets := (state.withManifests filenames).assets.insert filename
          (Plugin.manifestText (state.withManifests filenames).chunkAssets) } := by
  simp [withManifests]

variable {filenames : List String} {name : String}

theorem mem_keys_withManifests (state : Compilation) :
    name ∈ (state.withManifests filenames).assets.keys ↔
      name ∈ state.assets.keys ∨ name ∈ filenames := by
  induction filenames using List.reverseRecOn with
  | nil => simp [withManifests]
  | append_singleton filenames filename ih =>
      rw [withManifests_concat, Table.mem_keys_insert, ih, List.mem_append, List.mem_singleton,
        or_assoc]

/-- Manifests take the place of what was emitted under their names. -/
theorem get?_withManifests (state : Compilation) :
    (state.withManifests filenames).assets.get? name =
      if name ∈ filenames then some (Plugin.manifestText state.chunkAssets)
      else state.assets.get? name := by
  induction filenames using List.reverseRecOn with
  | nil => simp [withManifests]
  | append_singleton filenames filename ih =>
      rw [withManifests_concat, Table.get?_insert, ih]
      by_cases hname : name = filename
      · simp [hname, withManifests]
      · simp [hname]

end Compilation

namespace Site

variable {site other : Site}

/-- Whether assets can be written is a matter of their names, in whatever order they come. -/
theorem writeAssets_of_names (hsound : site.disk.IsSound) (h : (writeAssets site).result = .ok ())
    (hdisk : other.disk = site.disk)
    (houtput : other.compilation.options.outputPath = site.compilation.options.outputPath)
    (hnames : ∀ name ∈ other.compilation.assets.keys, name ∈ site.compilation.assets.keys) :
    (writeAssets other).result = .ok () := by
  obtain ⟨made, after, hchecked, hmake, hsave⟩ := writeAssets_eq_ok h
  have hcheck : checkNames other.compilation.assets.keys = .ok () :=
    checkNames_eq_ok_iff.mpr fun name hname =>
      AssetName.check_eq_ok_iff.mp (checkNames_eq_ok hchecked name (hnames name hname))
  have halong := Disk.madeAlong_makeDirectories site.disk site.compilation.options.outputPath
  rw [hmake] at halong
  obtain ⟨after', hsave'⟩ : ∃ after', made.saveAll (targets other.compilation.options.outputPath
      other.compilation.assets.entries) = .ok after' := by
    refine Disk.saveAll_at_same (halong.sound hsound) hsave fun write hwrite => ?_
    obtain ⟨asset, hasset, rfl⟩ := List.mem_map.mp hwrite
    obtain ⟨earlier, hearlier, hname⟩ :=
      List.mem_map.mp (hnames asset.1 (List.mem_map_of_mem hasset))
    rw [houtput, ← hname]
    exact List.mem_map.mpr ⟨_, List.mem_map_of_mem hearlier, rfl⟩
  rw [← hdisk, ← houtput] at hmake
  rw [writeAssets_of_saveAll other hcheck hmake hsave']

end Site

namespace Compiler

open Builtin

variable {setup : Setup} {plugins others : List Builtin} {compiler other : Compiler} {disk : Disk}

/-- A compiler that has been given some built-in plugins and nothing else. -/
structure Equipped (setup : Setup) (plugins : List Builtin) (compiler : Compiler) : Prop
    extends compiler.Orderly where
  setup : compiler.setup = setup
  runs : ∀ setup, (compiler.run.callAll fun tap => Action.ofReport (tap setup)).Leaves () () ()
  prepares : ∀ params state, (compiler.compilation.callAll fun tap => tap params).Leaves state ()
    (state.withPrefixes (prefixes plugins))
  emitting : ∀ state, (compiler.emit.callAll fun tap => tap).Leaves state ()
    (state.withManifests (filenames plugins))
  finishes : ∀ stats,
    (compiler.done.callAll fun tap => Action.ofReport (tap stats)).Leaves () () ()

theorem equipped_ofSetup {options : Options} {loaders : LoaderRegistry}
    (h : ofSetup options loaders = .ok compiler) : Equipped ⟨options, loaders⟩ [] compiler := by
  have hlabelled := labelled_ofSetup h
  obtain ⟨_, -, h⟩ := bind_eq_ok_iff.mp h
  obtain ⟨_, -, h⟩ := bind_eq_ok_iff.mp h
  obtain rfl := Except.ok.inj h
  refine ⟨⟨hlabelled, by simp [Hook.ofKind], by simp [Hook.ofKind]⟩, rfl, fun _ => ⟨rfl, rfl⟩,
    fun _ state => ?_, fun _ => ⟨rfl, rfl⟩, fun _ => ⟨rfl, rfl⟩⟩
  change Action.Leaves _ _ _ (state.withPrefixes [])
  rw [state.withPrefixes_nil]
  exact ⟨rfl, rfl⟩

/-- One step. -/
theorem Equipped.apply (h : Equipped setup plugins compiler) (builtin : Builtin) :
    ∃ next, (compiler.applyPlugin builtin.plugin).result = .ok next ∧
      Equipped setup (plugins ++ [builtin]) next := by
  have hlabels := h.toLabelled
  cases builtin with
  | lifecycleLog =>
      refine ⟨_, rfl, ⟨⟨hlabels.run, hlabels.compilation, hlabels.emit, hlabels.done⟩,
        h.registers, ?_⟩, h.setup, fun setup => ?_, ?_, ?_, fun stats => ?_⟩
      · exact List.forall_mem_append.mpr ⟨h.emits, List.forall_mem_singleton.mpr .refl⟩
      · exact Hook.leaves_callAll_add (h.runs setup) ⟨rfl, rfl⟩
      · simpa [prefixes_concat, prefix?] using h.prepares
      · intro state
        simp only [filenames_concat, filename?, Option.toList_none, List.append_nil]
        exact Hook.leaves_callAll_add (h.emitting state) ⟨rfl, rfl⟩
      · exact Hook.leaves_callAll_add (h.finishes stats) ⟨rfl, rfl⟩
  | manifest filename =>
      refine ⟨_, rfl, ⟨⟨hlabels.run, hlabels.compilation, hlabels.emit, hlabels.done⟩,
        h.registers, ?_⟩, h.setup, h.runs, ?_, fun state => ?_, h.finishes⟩
      · refine List.forall_mem_append.mpr ⟨h.emits, List.forall_mem_singleton.mpr fun state => ?_⟩
        exact ⟨⟨rfl, rfl, rfl, rfl, rfl, rfl⟩, rfl, fun _ hname =>
          Table.mem_keys_insert.mpr (.inl hname)⟩
      · simpa [prefixes_concat, prefix?] using h.prepares
      · rw [filenames_concat]
        refine Hook.leaves_callAll_add (h.emitting state) ⟨rfl, ?_⟩
        exact (Compilation.withManifests_concat state (filenames plugins) filename).symm
  | outputPrefix text =>
      refine ⟨_, rfl, ⟨⟨hlabels.run, hlabels.compilation, hlabels.emit, hlabels.done⟩, ?_,
        h.emits⟩, h.setup, h.runs, fun params state => ?_, ?_, h.finishes⟩
      · refine List.forall_mem_append.mpr
          ⟨h.registers, List.forall_mem_singleton.mpr fun params state => ?_⟩
        exact ⟨⟨rfl, rfl, rfl, rfl, rfl, rfl⟩, rfl, rfl⟩
      · rw [prefixes_concat]
        refine Hook.leaves_callAll_add (h.prepares params state) ⟨rfl, ?_⟩
        exact (Compilation.withPrefixes_concat state (prefixes plugins) text).symm
      · simpa [filenames_concat, filename?] using h.emitting

/-- A whole run. -/
theorem Equipped.applyAll (h : Equipped setup plugins compiler) (others : List Builtin) :
    ∃ next, (compiler.applyPlugins (others.map Builtin.plugin)).result = .ok next ∧
      Equipped setup (plugins ++ others) next := by
  induction others generalizing plugins compiler with
  | nil => exact ⟨compiler, rfl, by rwa [List.append_nil]⟩
  | cons first rest ih =>
      obtain ⟨middle, hfirst, hmiddle⟩ := h.apply first
      obtain ⟨next, hrest, hnext⟩ := ih hmiddle
      rw [List.append_cons]
      refine ⟨next, ?_, hnext⟩
      rw [List.map_cons, applyPlugins, Report.bind_result, hfirst]
      exact hrest

/-- A compiler made with built-in plugins has been given these, and it can be made with any others
as well. -/
theorem equipped_create {options : Options} {loaders : LoaderRegistry} (plugins : List Builtin)
    (h : (ofSetup options loaders).isOk = true) :
    ∃ compiler, (create options loaders (plugins.map Builtin.plugin)).result = .ok compiler ∧
      Equipped ⟨options, loaders⟩ plugins compiler := by
  obtain ⟨bare, hbare⟩ := exists_eq_ok h
  obtain ⟨compiler, hresult, hequipped⟩ := (equipped_ofSetup hbare).applyAll plugins
  refine ⟨compiler, ?_, hequipped⟩
  rw [create, Report.bind_result, Report.ofExcept, hbare]
  exact hresult

/-! ### Runs -/

theorem Equipped.prepared_eq (h : Equipped setup plugins compiler) :
    compiler.prepared =
      (Compilation.ofOptions setup.options).withPrefixes (prefixes plugins) := by
  rw [← h.setup]
  exact (h.prepares _ _).state

theorem handed_prefixTaps (data : AssetPathData) (prefixes : List String) (name : String) :
    Hook.handed (fun tap here => tap data here) (prefixes.map prefixTap) name =
      .ok (prefixed prefixes name) := by
  induction prefixes generalizing name with
  | nil => rfl
  | cons text rest ih => exact ih (text ++ name)

/-- The names that prefixes give to assets. -/
theorem Equipped.handedName (h : Equipped setup plugins compiler) (chunk : String) :
    compiler.prepared.handedName compiler.prepared.assetPath.taps chunk =
      .ok (prefixed (prefixes plugins) (setup.options.filenameFor chunk)) := by
  rw [h.prepared_eq]
  exact handed_prefixTaps _ (prefixes plugins) _

/-- The asset paths of a run are listed in the order of its chunks. -/
theorem Equipped.lists_withAssets (h : Equipped setup plugins compiler) (disk : Disk)
    (hmodules : (compiler.withModules disk).result = .ok ())
    (hassets : (compiler.withAssets disk).result = .ok ()) :
    (compiler.withAssets disk).state.Lists
      (fun chunk => prefixed (prefixes plugins) (setup.options.filenameFor chunk))
      (compiler.withModules disk).state.chunks := by
  have hsame := sameNaming_withModules compiler disk
  rw [withAssets_eq] at hassets ⊢
  have hnone : (compiler.withModules disk).state.Lists
      (fun chunk => prefixed (prefixes plugins) (setup.options.filenameFor chunk)) [] := by
    rw [Compilation.Lists, h.chunkAssets_withModules]
    rfl
  refine Compilation.lists_createAssetsOf hnone (fun chunk => ?_) ?_ hassets
  · rw [hsame.handedName, hsame.assetPath]
    exact h.handedName chunk
  · rw [List.nil_append, h.names_withModules hmodules]
    exact compiler.setup.options.entries.nodup

/-- What is compiled with built-in plugins: the assets of all chunks, and then the manifests. -/
theorem Equipped.compile_eq (h : Equipped setup plugins compiler)
    (hmodules : (compiler.withModules disk).result = .ok ())
    (hassets : (compiler.withAssets disk).result = .ok ()) :
    (compiler.compile disk).result =
      .ok ((compiler.withAssets disk).state.withManifests (filenames plugins)) := by
  have hprepared : (compiler.compilation.callAll fun tap =>
      tap ⟨compiler.setup.options.context, compiler.setup.options.outputPath⟩).Leaves
      (.ofOptions compiler.setup.options) () compiler.prepared := ⟨(h.prepares _ _).result, rfl⟩
  have hstages : (compiler.stages disk).Leaves (.ofOptions compiler.setup.options) ()
      ((compiler.withAssets disk).state.withManifests (filenames plugins)) := by
    refine Action.Leaves.bind (Action.leaves_log _ _) ?_
    refine Action.Leaves.bind (Action.leaves_ofReport (h.runs compiler.setup).result _) ?_
    refine Action.Leaves.bind hprepared ?_
    refine Action.Leaves.bind ⟨hmodules, rfl⟩ ?_
    exact Action.Leaves.bind ⟨hassets, rfl⟩ (h.emitting _)
  rw [compile]
  simp only [hstages.result, hstages.state]

/-- A run with built-in plugins: what is compiled is written. -/
theorem Equipped.build_of_write (h : Equipped setup plugins compiler)
    {compilation : Compilation} (hcompile : (compiler.compile disk).result = .ok compilation)
    (hwrite : (Site.writeAssets ⟨compilation, disk⟩).result = .ok ()) :
    (compiler.build disk).result =
      .ok (.ofCompilation (Site.writeAssets ⟨compilation, disk⟩).state.compilation) := by
  have hwritten : (write compilation disk).result =
      .ok (Site.writeAssets ⟨compilation, disk⟩).state.compilation := by
    rw [write]
    simp only [hwrite]
  have hrun : compiler.build.Leaves disk
      (.ofCompilation (Site.writeAssets ⟨compilation, disk⟩).state.compilation)
      (write compilation disk).state := by
    refine Action.Leaves.bind ⟨rfl, rfl⟩ ?_
    refine Action.Leaves.bind (Action.leaves_ofReport hcompile _) ?_
    refine Action.Leaves.bind ⟨hwritten, rfl⟩ ?_
    refine Action.Leaves.bind (Action.leaves_ofReport (h.finishes _).result _) ?_
    exact Action.Leaves.bind (Action.leaves_log _ _) ⟨rfl, rfl⟩
  exact hrun.result

theorem Equipped.withAssets_eq (h : Equipped setup plugins compiler)
    (h' : Equipped setup others other) (hprefixes : prefixes others = prefixes plugins)
    (disk : Disk) :
    (other.withModules disk).result = (compiler.withModules disk).result ∧
      other.withAssets disk = compiler.withAssets disk := by
  have hmodules : other.withModules disk = compiler.withModules disk := by
    rw [withModules, withModules, h'.prepared_eq, h.prepared_eq, hprefixes, h'.setup, h.setup]
  exact ⟨congrArg Outcome.result hmodules, by rw [withAssets, withAssets, hmodules]⟩

/-- What a successful run with built-in plugins has compiled and written. -/
theorem Equipped.build_eq_ok (h : Equipped setup plugins compiler) {stats : Stats}
    (hbuild : (compiler.build disk).result = .ok stats) :
    let compilation := (compiler.withAssets disk).state.withManifests (filenames plugins)
    (compiler.withModules disk).result = .ok () ∧ (compiler.withAssets disk).result = .ok () ∧
      (Site.writeAssets ⟨compilation, disk⟩).result = .ok () ∧
      stats.chunks = (compiler.withModules disk).state.chunks ∧
      stats.assets = compilation.assets ∧ stats.files = compilation.assets.keys := by
  intro compilation
  obtain ⟨made, hcompile, hwrite, rfl, -⟩ := Compiler.build_eq_ok hbuild
  obtain ⟨hmodules, hassets, -⟩ := compile_eq_ok hcompile
  obtain rfl : compilation = made :=
    Except.ok.inj ((h.compile_eq hmodules hassets).symm.trans hcompile)
  have hsame := Site.sameAssets_writeAssets ⟨compilation, disk⟩
  have hfiles : compilation.files = [] := (sameOutput_compile
    (fun tap ht params state => (h.registers tap ht params state).toSameBuild.sameOutput)
    (fun tap ht state => (h.emits tap ht state).toSameBuild.sameOutput) hcompile).files
  have hwrote := Site.wrote_writeAssets ⟨compilation, disk⟩ hfiles hwrite
  refine ⟨hmodules, hassets, hwrite, ?_, ?_, hwrote.files⟩
  · rw [Stats.ofCompilation, hsame]
    exact (Compilation.sameBuild_createAssets _).chunks
  · rw [Stats.ofCompilation, hsame]

/-- Built-in plugins compose. Each chunk has an asset whose path begins with all prefixes, the last
one in front. Every manifest is read back as the asset paths of the chunks, in the order of the
entries, whatever prefixes are applied behind it. Each asset path is among the files, and holds the
bundle of its chunk unless a manifest has taken its place. In any other order in which the prefixes
come in the same sequence, the plugins give the same assets. -/
theorem build_composes {options : Options} {loaders : LoaderRegistry} {stats : Stats}
    (hsound : disk.IsSound)
    (hcreate : (create options loaders (plugins.map Builtin.plugin)).result = .ok compiler)
    (hbuild : (compiler.build disk).result = .ok stats) :
    let path (chunk : String) := prefixed (prefixes plugins) (options.filenameFor chunk)
    let paths := (compiler.withAssets disk).state.chunkAssets
    stats.chunks.map Chunk.name = options.entries.keys ∧
    paths.entries = stats.chunks.map (fun chunk => (chunk.name, path chunk.name)) ∧
    (∀ filename ∈ filenames plugins, ∃ text, stats.assets.get? filename = some text ∧
      Json.Reader.documentFields text.toList = .ok (Json.Reader.texts paths.entries) ∧
      Json.parse text = .ok (.ofFields (Json.Reader.texts paths.entries))) ∧
    (∀ chunk ∈ stats.chunks, path chunk.name ∈ stats.files ∧
      (path chunk.name ∉ filenames plugins →
        stats.assets.get? (path chunk.name) = some (Bundle.render chunk))) ∧
    ∀ others, others.Perm plugins → prefixes others = prefixes plugins →
      ∃ other stats', (create options loaders (others.map Builtin.plugin)).result = .ok other ∧
        (other.build disk).result = .ok stats' ∧
        ∀ name, stats'.assets.get? name = stats.assets.get? name := by
  intro path paths
  have hsetup : (ofSetup options loaders).isOk = true := by
    obtain ⟨bare, hbare, -⟩ := Report.bind_eq_ok hcreate
    rw [show ofSetup options loaders = .ok bare from hbare]
    rfl
  obtain ⟨made, hmade, hequipped⟩ := equipped_create plugins hsetup
  obtain rfl : made = compiler := Except.ok.inj (hmade.symm.trans hcreate)
  obtain ⟨hmodules, hassets, hwrite, hchunks, htable, hfiles⟩ := hequipped.build_eq_ok hbuild
  have hlists : paths.entries = _ := hequipped.lists_withAssets disk hmodules hassets
  have hrendered := hequipped.rendered_withAssets hmodules hassets
  rw [show (made.withAssets disk).state.chunks = stats.chunks from
    (Compilation.sameBuild_createAssets _).chunks.trans hchunks.symm] at hrendered
  rw [← hchunks] at hlists
  refine ⟨?_, hlists, ?_, ?_, ?_⟩
  · rw [hchunks, hequipped.names_withModules hmodules, hequipped.setup]
  · intro filename hfilename
    refine ⟨_, ?_, Json.Reader.documentFields_pretty paths.entries,
      Json.parse_pretty paths.entries⟩
    rw [htable, Compilation.get?_withManifests, if_pos hfilename]
    rfl
  · intro chunk hchunk
    obtain ⟨held, hheld, hasset⟩ := hrendered chunk hchunk
    obtain rfl : held = path chunk.name := by
      have hnamed := hequipped.named_withAssets disk hheld
      rw [hequipped.handedName] at hnamed
      exact (Except.ok.inj hnamed).symm
    rw [htable, hfiles, Compilation.mem_keys_withManifests]
    refine ⟨.inl (Table.mem_keys_of_get? hasset), fun hfree => ?_⟩
    rw [Compilation.get?_withManifests, if_neg hfree]
    exact hasset
  · intro others hperm hprefixes
    obtain ⟨other, hother, hequipped'⟩ := equipped_create others hsetup
    obtain ⟨hmodules', hassets'⟩ := hequipped.withAssets_eq hequipped' hprefixes disk
    have hcompile := hequipped'.compile_eq (hmodules'.trans hmodules)
      ((congrArg Outcome.result hassets').trans hassets)
    rw [hassets'] at hcompile
    have hmem : ∀ name, name ∈ filenames others ↔ name ∈ filenames plugins :=
      fun name => (hperm.filterMap filename?).mem_iff
    have hwrite' : (Site.writeAssets ⟨(made.withAssets disk).state.withManifests
        (filenames others), disk⟩).result = .ok () := by
      refine Site.writeAssets_of_names hsound hwrite rfl rfl fun name hname => ?_
      rw [Compilation.mem_keys_withManifests, hmem] at hname
      rwa [Compilation.mem_keys_withManifests]
    have hbuild' := hequipped'.build_of_write hcompile hwrite'
    obtain ⟨-, -, -, -, htable', -⟩ := hequipped'.build_eq_ok hbuild'
    refine ⟨other, _, hother, hbuild', fun name => ?_⟩
    rw [htable', htable, hassets', Compilation.get?_withManifests, Compilation.get?_withManifests]
    simp only [hmem]

set_option maxRecDepth 100000 in
theorem build_composes_nested :
    let disk : Disk :=
      ⟨⟨[(["r"], .directory), (["r", "a.js"], .file "exports.x = 1;".toUTF8)]⟩, []⟩
    let options := (Options.ofContext ⟨"/r"⟩).withEntry "main" ⟨"a.js"⟩
    let plugins := [Builtin.manifest "m.json", .outputPrefix "js/", .lifecycleLog,
      .outputPrefix "v1-"]
    let others := [Builtin.outputPrefix "js/", .lifecycleLog, .outputPrefix "v1-",
      .manifest "m.json"]
    ∃ compiler stats other stats',
      (create options .empty (plugins.map Builtin.plugin)).result = .ok compiler ∧
      (compiler.build disk).result = .ok stats ∧ stats.files = ["v1-js/main.js", "m.json"] ∧
      (create options .empty (others.map Builtin.plugin)).result = .ok other ∧
      (other.build disk).result = .ok stats' ∧
      ∀ name, stats'.assets.get? name = stats.assets.get? name := by
  intro disk options plugins others
  have hsound : disk.IsSound := ⟨FileTree.isSound_of_entries (by decide), rfl⟩
  have hrun : (match (create options .empty (plugins.map Builtin.plugin)).result with
      | .ok compiler => (compiler.build disk).result.toOption.map Stats.files
      | .error _ => none) = some ["v1-js/main.js", "m.json"] := by decide +kernel
  cases hcreate : (create options .empty (plugins.map Builtin.plugin)).result with
  | error error => simp [hcreate] at hrun
  | ok compiler =>
      cases hbuild : (compiler.build disk).result with
      | error error => simp [hcreate, hbuild, Except.toOption] at hrun
      | ok stats =>
          simp only [hcreate, hbuild, Except.toOption, Option.map_some, Option.some.injEq] at hrun
          obtain ⟨-, -, -, -, hothers⟩ := build_composes hsound hcreate hbuild
          obtain ⟨other, stats', hother, hbuild', hsame⟩ := hothers others (by decide) (by decide)
          exact ⟨compiler, stats, other, stats', rfl, hbuild, hrun, hother, hbuild', hsame⟩

end Compiler

end Bundler
