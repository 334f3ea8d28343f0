import Bundler.Proofs.Build.Moving
import Bundler.Proofs.Build.Stages
import Bundler.Proofs.Module.Moving

/-! Where a project is. Two builds of one tree at two roots go in step up to the rendered bundles,
which do not tell the roots apart, and to the files that these are written to. -/

namespace Bundler

namespace Compilation

variable {first second : Place} {tree : FileTree} {shop moved : Workshop}
  {state other : Compilation}

/-- Compilations without taps that differ in the paths of modules at most, as far as bundles are
made of them. -/
structure Matches (state other : Compilation) : Prop where
  graph : state.graph.Alike other.graph
  entries : state.entries = other.entries
  chunks : state.chunks.map Chunk.unplaced = other.chunks.map Chunk.unplaced
  assets : state.assets = other.assets
  chunkAssets : state.chunkAssets = other.chunkAssets
  files : state.files = other.files
  filename : state.options.filename = other.options.filename
  untapped : state.assetPath.taps = []
  untapped' : other.assetPath.taps = []

/-! ### Modules and chunks -/

theorem buildEntry_alike {entry : String} {path path' : Path}
    (hmoved : Workshop.Moved first second tree shop moved)
    (htwin : Path.Twin first second path path') (h : state.Matches other)
    (hmovable : ∀ attempt ∈ Workshop.Call.attempts ⟨shop, entry, path⟩ state.graph,
      attempt.IsMovable first second) :
    Outcome.Alike Matches Eq (buildEntry shop entry path state)
      (buildEntry moved entry path' other) := by
  let update (state : Compilation) (graph : Graph) : Compilation := { state with graph := graph }
  have hfocus : Outcome.Alike Matches Eq
      (Action.focus Compilation.graph update (shop.buildEntry entry path) state)
      (Action.focus Compilation.graph update (moved.buildEntry entry path') other) := by
    obtain ⟨hgraph, hresult⟩ := Workshop.buildEntry_alike hmoved htwin h.graph hmovable
    exact ⟨{ h with graph := hgraph }, hresult⟩
  refine Action.alike_bind hfocus ?_
  rintro id _ - - rfl
  refine Action.alike_bind (Action.alike_log _ _ hfocus.state) fun _ _ _ _ _ => ⟨?_, .ok rfl⟩
  exact { hfocus.state with entries := congrArg (Table.insert · entry id) hfocus.state.entries }

/-- Entries at the same places below two roots are built alike. -/
theorem buildEntries_alike {entries entries' : List (String × Path)}
    (hmoved : Workshop.Moved first second tree shop moved)
    (hentries : List.Forall₂ (fun entry entry' =>
      entry.1 = entry'.1 ∧ Path.Twin first second entry.2 entry'.2) entries entries')
    (h : state.Matches other)
    (hmovable : ∀ attempt ∈ shop.attempts entries state.graph, attempt.IsMovable first second) :
    Outcome.Alike Matches Eq (buildEntries shop entries state)
      (buildEntries moved entries' other) := by
  induction hentries generalizing state other with
  | nil => exact ⟨h, .ok rfl⟩
  | @cons entry entry' rest rest' hentry _ ih =>
      obtain ⟨name, path⟩ := entry
      obtain ⟨name', path'⟩ := entry'
      obtain ⟨rfl, htwin⟩ : name = name' ∧ Path.Twin first second path path' := hentry
      obtain ⟨hthis, hlater⟩ := List.forall_mem_append.mp hmovable
      have hboth := buildEntry_alike hmoved htwin h hthis
      rw [buildEntries, buildEntries]
      refine Action.alike_bind hboth fun _ _ hbuilt _ _ => ih hboth.state ?_
      cases hid : (shop.buildEntry name path state.graph).result with
      | error error =>
          rw [(buildEntry_of_error hid).1] at hbuilt
          cases hbuilt
      | ok id =>
          rw [(buildEntry_of_ok hid).2]
          exact hlater

theorem chunkOf?_unplaced (graph : Graph) (entry : String × String) :
    (chunkOf? graph entry).map Chunk.unplaced = chunkOf? graph.unplaced entry := by
  rw [chunkOf?, chunkOf?, Graph.get?_unplaced, Option.map_map, Option.map_map]
  congr 1
  funext module
  exact Chunk.unplaced_ofModules entry.1 module graph.modules

theorem assembleChunks_alike (h : state.Matches other) (entries : List (String × String)) :
    Outcome.Alike Matches Eq (assembleChunks entries state) (assembleChunks entries other) := by
  obtain ⟨hresult, hstate⟩ := assembleChunks_eq entries state
  obtain ⟨hresult', hstate'⟩ := assembleChunks_eq entries other
  have hunplaced : ∀ graph : Graph, (entries.filterMap (chunkOf? graph)).map Chunk.unplaced =
      entries.filterMap (chunkOf? graph.unplaced) := by
    intro graph
    rw [List.map_filterMap]
    exact List.filterMap_congr fun entry _ => chunkOf?_unplaced graph entry
  refine ⟨?_, by rw [hresult, hresult']; exact .ok rfl⟩
  rw [hstate, hstate']
  have hgraph : state.graph.unplaced = other.graph.unplaced := h.graph
  refine { h with chunks := ?_ }
  rw [List.map_append, List.map_append, h.chunks, hunplaced, hunplaced, hgraph]

variable {disk disk' : Disk} {loaders : LoaderRegistry}

/-- The modules and chunks of two compilations with the same entries at two roots. -/
theorem buildModules_alike
    (hmoved : Workshop.Moved first second tree (state.workshop disk loaders)
      (other.workshop disk' loaders))
    (hentries : state.options.entries.Alike (Path.Twin first second) other.options.entries)
    (h : state.Matches other)
    (hmovable : ∀ attempt ∈ state.attempts disk loaders, attempt.IsMovable first second) :
    Outcome.Alike Matches Eq (buildModules disk loaders state)
      (buildModules disk' loaders other) := by
  have hbuilt := buildEntries_alike hmoved hentries h hmovable
  refine Action.alike_bind_get (Action.alike_bind hbuilt fun _ _ _ _ _ => ?_)
  refine Action.alike_bind_get ?_
  rw [hbuilt.state.entries]
  exact assembleChunks_alike hbuilt.state _

/-! ### Assets -/

/-- Without taps, an asset keeps the path that the template gives. -/
theorem assetPath_of_untapped {hook : Hook AssetPathTap} (h : hook.taps = [])
    (data : AssetPathData) (path : String) : (hook.assetPath data path).result = .ok path := by
  unfold Hook.assetPath Hook.thread Hook.callAll
  rw [h]
  rfl

theorem createAsset_alike {chunk chunk' : Chunk} (h : state.Matches other)
    (hchunk : chunk.unplaced = chunk'.unplaced) :
    Outcome.Alike Matches Eq (createAsset chunk state) (createAsset chunk' other) := by
  have hname : chunk.name = chunk'.name := congrArg (fun chunk => chunk.name) hchunk
  have hrender : Bundle.render chunk = Bundle.render chunk' := by
    rw [← Chunk.render_unplaced, hchunk, Chunk.render_unplaced]
  have hfilename : state.options.filenameFor chunk.name =
      other.options.filenameFor chunk'.name := by
    rw [Options.filenameFor, Options.filenameFor, h.filename, hname]
  unfold createAsset
  refine Action.alike_bind_get ?_
  have hpath : ∀ data data', Bundler.Alike Eq
      (state.assetPath.assetPath data (state.options.filenameFor chunk.name)).result
      (other.assetPath.assetPath data' (other.options.filenameFor chunk'.name)).result := by
    intro data data'
    rw [assetPath_of_untapped h.untapped, assetPath_of_untapped h.untapped', hfilename]
    exact .ok rfl
  refine Action.alike_bind (Action.alike_ofReport h (hpath _ _)) ?_
  rintro path _ - - rfl
  refine Action.alike_bind (Action.alike_ofExcept h (.refl (AssetName.check path))) ?_
  rintro _ _ - - -
  have hholder : state.holder? path = other.holder? path := by
    rw [holder?, holder?, h.chunkAssets]
  rw [hholder]
  cases other.holder? path with
  | some holder => exact ⟨h, .error _ _⟩
  | none =>
      refine Action.alike_bind (Action.alike_log _ _ h) fun _ _ _ _ _ => ⟨?_, .ok rfl⟩
      have hassets : state.assets.insert path (Bundle.render chunk) =
          other.assets.insert path (Bundle.render chunk') := by rw [h.assets, hrender]
      have hpaths : state.chunkAssets.insert chunk.name path =
          other.chunkAssets.insert chunk'.name path := by rw [h.chunkAssets, hname]
      exact { h with assets := hassets, chunkAssets := hpaths }

theorem createAssetsOf_alike {chunks chunks' : List Chunk} (h : state.Matches other)
    (hchunks : List.Forall₂ (fun chunk chunk' => chunk.unplaced = chunk'.unplaced) chunks
      chunks') :
    Outcome.Alike Matches Eq (createAssetsOf chunks state) (createAssetsOf chunks' other) := by
  induction hchunks generalizing state other with
  | nil => exact ⟨h, .ok rfl⟩
  | cons hchunk _ ih =>
      have hboth := createAsset_alike h hchunk
      rw [createAssetsOf, createAssetsOf]
      exact Action.alike_bind hboth fun _ _ _ _ _ => ih hboth.state

theorem createAssets_alike (h : state.Matches other) :
    Outcome.Alike Matches Eq (createAssets state) (createAssets other) := by
  have hchunks : List.Forall₂ Eq (state.chunks.map Chunk.unplaced)
      (other.chunks.map Chunk.unplaced) := by
    rw [List.forall₂_eq_eq_eq]
    exact h.chunks
  rw [List.forall₂_map_left_iff, List.forall₂_map_right_iff] at hchunks
  exact Action.alike_bind_get (createAssetsOf_alike h hchunks)

end Compilation

/-! ### Options at a root -/

namespace Options

/-- The same options at two roots, entries being at the same places below them. No extension has a
slash. -/
structure Moved (first second : Place) (options options' : Options) : Prop where
  proper : ∀ name ∈ first, Path.IsName name
  proper' : ∀ name ∈ second, Path.IsName name
  context : options.context = Path.rooted first
  context' : options'.context = Path.rooted second
  entries : options.entries.Alike (Path.Twin first second) options'.entries
  filename : options.filename = options'.filename
  extensions : options.extensions = options'.extensions
  slashless : ∀ extension ∈ options.extensions, '/' ∉ extension.toList
  rules : options.rules = options'.rules

variable {first second : Place} {options options' : Options}

theorem Moved.validate_eq (h : Moved first second options options') :
    options.validate = options'.validate := by
  rw [validate, validate, Table.contains, Table.contains, h.entries.keys_eq, h.filename]

theorem Moved.withRules (h : Moved first second options options') (rules : List Rule) :
    Moved first second (rules.foldl withRule options) (rules.foldl withRule options') := by
  induction rules generalizing options options' with
  | nil => exact h
  | cons rule rest ih => exact ih { h with rules := congrArg (· ++ [rule]) h.rules }

/-- An entry that stays below the root is put at the same place below two roots. -/
theorem Moved.withEntry (h : Moved first second options options') (name : String) {path : Path}
    (hstays : path.Stays []) :
    Moved first second (options.withEntry name path) (options'.withEntry name path) := by
  obtain ⟨there, hwalk, hne⟩ := hstays
  have hat : ∀ {root : Place}, (∀ name ∈ root, Path.IsName name) →
      ((Path.rooted root).join path).normalize = Path.rooted (root ++ there) ∧
        ∀ name ∈ root ++ there, Path.IsName name := by
    intro root hroot
    refine Path.normalize_join_of_walk (Path.isAbsolute_rooted hroot) ?_ hwalk
    rw [Path.place_rooted hroot, List.append_nil]
  obtain ⟨hpath, hnames⟩ := hat h.proper
  obtain ⟨hpath', hnames'⟩ := hat h.proper'
  refine { h with entries := h.entries.insert name ⟨there, hne, hnames, hnames', ?_, ?_⟩ }
  · rw [absolute, h.context, hpath]
  · rw [absolute, h.context', hpath']

theorem Moved.withEntries (h : Moved first second options options')
    (entries : List (String × Path)) (hstays : ∀ entry ∈ entries, entry.2.Stays []) :
    Moved first second
      (entries.foldl (fun options entry => options.withEntry entry.1 entry.2) options)
      (entries.foldl (fun options entry => options.withEntry entry.1 entry.2) options') := by
  induction entries generalizing options options' with
  | nil => exact h
  | cons entry rest ih =>
      obtain ⟨hentry, hrest⟩ := List.forall_mem_cons.mp hstays
      exact ih (h.withEntry entry.1 hentry) hrest

end Options

/-! ### Compilations at a root -/

namespace Compiler

variable {first second : Place} {tree : FileTree} {disk disk' : Disk} {options options' : Options}
  {loaders : LoaderRegistry}

/-- A compiler without taps. -/
def untapped (options : Options) (loaders : LoaderRegistry) : Compiler :=
  ⟨⟨options, loaders⟩, .ofKind .run, .ofKind .compilation, .ofKind .emit, .ofKind .done⟩

theorem result_compile (compiler : Compiler) (disk : Disk) :
    let outcome := compiler.stages disk (.ofOptions compiler.setup.options)
    (compiler.compile disk).result = outcome.result.map fun _ => outcome.state := by
  intro outcome
  unfold compile
  cases h : (compiler.stages disk (.ofOptions compiler.setup.options)).result with
  | ok => simp only [outcome, h, Except.map]
  | error error => simp only [h, Except.map]

theorem compile_alike (hbelow : disk.HasBelow first tree) (hbelow' : disk'.HasBelow second tree)
    (hoptions : Options.Moved first second options options')
    (hblind : loaders.IsBlind)
    (hmovable : ∀ attempt ∈ (Compilation.ofOptions options).attempts disk loaders,
      attempt.IsMovable first second) :
    Alike Compilation.Matches ((untapped options loaders).compile disk).result
      ((untapped options' loaders).compile disk').result := by
  let start := Compilation.ofOptions options
  let start' := Compilation.ofOptions options'
  have hmatches : start.Matches start' :=
    ⟨rfl, rfl, rfl, rfl, rfl, rfl, hoptions.filename, rfl, rfl⟩
  have hroot : ∀ {names : List String} {path : Path}, (∀ name ∈ names, Path.IsName name) →
      path = Path.rooted names → path.normalize = Path.rooted names := by
    rintro names _ hnames rfl
    exact Path.normalize_rooted hnames
  have hmoved : Workshop.Moved first second tree (start.workshop disk loaders)
      (start'.workshop disk' loaders) :=
    { below := hbelow
      below' := hbelow'
      resolver := ⟨hroot hoptions.proper hoptions.context, hroot hoptions.proper' hoptions.context',
        hoptions.extensions.symm, hoptions.slashless⟩
      rules := hoptions.rules.symm
      loaders := rfl
      blind := hblind }
  have hbuilt := Compilation.buildModules_alike hmoved hoptions.entries hmatches hmovable
  have hcalled : Alike Eq
      ((untapped options loaders).run.observe fun tap => tap ⟨options, loaders⟩).result
      ((untapped options' loaders).run.observe fun tap => tap ⟨options', loaders⟩).result :=
    .ok rfl
  have hstages : Outcome.Alike Compilation.Matches Eq
      ((untapped options loaders).stages disk start)
      ((untapped options' loaders).stages disk' start') := by
    unfold stages
    refine Action.alike_bind (Action.alike_log _ _ hmatches) fun _ _ _ _ _ => ?_
    refine Action.alike_bind (Action.alike_ofReport hmatches hcalled) fun _ _ _ _ _ => ?_
    refine Action.alike_bind (Action.alike_ok hmatches) fun _ _ _ _ _ => ?_
    refine Action.alike_bind hbuilt fun _ _ _ _ _ => ?_
    have hcreated := Compilation.createAssets_alike hbuilt.state
    exact Action.alike_bind hcreated fun _ _ _ _ _ => Action.alike_ok hcreated.state
  rw [result_compile, result_compile]
  exact hstages.result.map fun _ _ _ => hstages.state

theorem ofSetup_alike (h : Options.Moved first second options options') :
    Alike (fun compiler compiler' =>
        compiler = untapped options loaders ∧ compiler' = untapped options' loaders)
      (ofSetup options loaders) (ofSetup options' loaders) := by
  rw [ofSetup, ofSetup, h.validate_eq, h.rules]
  exact (Alike.refl _).bind fun _ _ _ _ _ => (Alike.refl _).bind fun _ _ _ _ _ => .ok ⟨rfl, rfl⟩

theorem ofSetup_eq_ok {compiler : Compiler} (h : ofSetup options loaders = .ok compiler) :
    compiler = untapped options loaders := by
  obtain ⟨_, -, h⟩ := bind_eq_ok_iff.mp h
  obtain ⟨_, -, h⟩ := bind_eq_ok_iff.mp h
  exact (Except.ok.inj h).symm

/-- Without taps, a run is a compilation and the writing of its assets. -/
theorem result_build_untapped (options : Options) (loaders : LoaderRegistry) (disk : Disk) :
    let compiler := untapped options loaders
    let outcome := compiler.build disk
    outcome.result.map (fun stats => (stats, outcome.state)) =
      (compiler.compile disk).result >>= fun compilation =>
        let written := Site.writeAssets ⟨compilation, disk⟩
        written.result.map fun _ =>
          (Stats.ofCompilation written.state.compilation, written.state.disk) := by
  intro compiler outcome
  have hdone : ∀ stats : Stats, (compiler.done.observe fun tap => tap stats) = ⟨[], .ok ()⟩ :=
    fun _ => rfl
  cases hcompile : (compiler.compile disk).result with
  | error error =>
      simp only [outcome, build, bind, Action.andThen, Action.get, Action.ofReport, hcompile,
        Except.map, Except.bind]
  | ok compilation =>
      cases hwrite : (Site.writeAssets ⟨compilation, disk⟩).result with
      | error error =>
          simp only [outcome, build, write, bind, Action.andThen, Action.get, Action.ofReport,
            hcompile, hwrite, Except.map, Except.bind]
      | ok =>
          simp only [outcome, build, write, bind, pure, Action.ok, Action.andThen, Action.get,
            Action.ofReport, Action.log, hcompile, hwrite, hdone, Except.map, Except.bind]

end Compiler

namespace Stats

/-- Summaries that differ in the paths of modules at most, and with the same bundles. -/
structure SameBundles (stats other : Stats) : Prop where
  entries : stats.entries = other.entries
  modules : stats.modules.map Module.unplaced = other.modules.map Module.unplaced
  chunks : stats.chunks.map Chunk.unplaced = other.chunks.map Chunk.unplaced
  bundles : stats.chunks.map Bundle.render = other.chunks.map Bundle.render
  files : stats.files = other.files
  assets : stats.assets = other.assets

end Stats

theorem Compilation.Matches.sameBundles {state other : Compilation} (h : state.Matches other) :
    (Stats.ofCompilation state).SameBundles (.ofCompilation other) where
  entries := h.entries
  modules := congrArg Graph.modules h.graph
  chunks := h.chunks
  bundles := by
    have hrender : ∀ chunks : List Chunk,
        chunks.map Bundle.render = (chunks.map Chunk.unplaced).map Bundle.render := by
      intro chunks
      rw [List.map_map]
      exact List.map_congr_left fun chunk _ => chunk.render_unplaced.symm
    change state.chunks.map Bundle.render = other.chunks.map Bundle.render
    rw [hrender, h.chunks, ← hrender]
  files := h.files
  assets := h.assets

/-- What a project asks of a build, wherever it is. The paths are relative to its root. -/
structure Project where
  entries : List (String × Path)
  outputPath : Path
  filename : String
  extensions : List String
  rules : List Rule
  loaders : LoaderRegistry

namespace Project

/-- The options of the project at a root. -/
def options (project : Project) (root : Path) : Options :=
  let base := (((Options.ofContext root).withOutputPath project.outputPath).withFilename
    project.filename).withExtensions project.extensions
  project.entries.foldl (fun options entry => options.withEntry entry.1 entry.2)
    (project.rules.foldl Options.withRule base)

/-- Builds the project at a root, up to the texts that are to be written. -/
def compile (project : Project) (root : Path) (disk : Disk) : Except BuildError Compilation := do
  let compiler ← Compiler.ofSetup (project.options root) project.loaders
  (compiler.compile disk).result

/-- Builds the project at a root and writes the bundles; gives the disk that is left as well. -/
def run (project : Project) (root : Path) (disk : Disk) : Except BuildError (Stats × Disk) := do
  let compiler ← Compiler.ofSetup (project.options root) project.loaders
  let outcome := compiler.build disk
  outcome.result.map fun stats => (stats, outcome.state)

/-- The tries of the build at a root. -/
def attempts (project : Project) (root : Path) (disk : Disk) : List Workshop.Attempt :=
  (Compilation.ofOptions (project.options root)).attempts disk project.loaders

variable {project : Project} {first second : Path} {tree : FileTree} {disk disk' : Disk}

theorem options_moved (hfirst : first.isAbsolute = true) (hsecond : second.isAbsolute = true)
    (hentries : ∀ entry ∈ project.entries, entry.2.Stays [])
    (hextensions : ∀ extension ∈ project.extensions, '/' ∉ extension.toList) :
    Options.Moved (first.place []) (second.place []) (project.options first)
      (project.options second) := by
  obtain ⟨names, hnames, hnormal, hplace⟩ := Path.exists_rooted hfirst
  obtain ⟨names', hnames', hnormal', hplace'⟩ := Path.exists_rooted hsecond
  rw [hplace, hplace']
  refine Options.Moved.withEntries (Options.Moved.withRules ?_ _) _ hentries
  exact ⟨hnames, hnames', hnormal, hnormal', .nil, rfl, rfl, hextensions, rfl⟩

/-! ### Runs at a root -/

theorem outputPath_options (project : Project) (root : Path) :
    (project.options root).outputPath = (root.normalize.join project.outputPath).normalize := by
  have hfold {α : Type} (change : Options → α → Options)
      (hchange : ∀ options value, (change options value).outputPath = options.outputPath)
      (values : List α) (options : Options) :
      (values.foldl change options).outputPath = options.outputPath := by
    induction values generalizing options with
    | nil => rfl
    | cons value rest ih => rw [List.foldl_cons, ih, hchange]
  have hentries := hfold (fun options entry => options.withEntry entry.1 entry.2)
    (fun _ _ => rfl) project.entries
  exact (hentries _).trans (hfold Options.withRule (fun _ _ => rfl) project.rules _)

/-- A run is a compilation and the writing of its assets. -/
theorem run_eq (project : Project) (root : Path) (disk : Disk) :
    project.run root disk = project.compile root disk >>= fun compilation =>
      let written := Site.writeAssets ⟨compilation, disk⟩
      written.result.map fun _ =>
        (Stats.ofCompilation written.state.compilation, written.state.disk) := by
  unfold run compile
  cases hsetup : Compiler.ofSetup (project.options root) project.loaders with
  | error error => rfl
  | ok compiler =>
      obtain rfl := Compiler.ofSetup_eq_ok hsetup
      exact Compiler.result_build_untapped _ _ _

theorem outputPath_compile {root : Path} {compilation : Compilation}
    (h : project.compile root disk = .ok compilation) :
    compilation.options.outputPath = (project.options root).outputPath := by
  obtain ⟨compiler, hsetup, hcompile⟩ := bind_eq_ok_iff.mp h
  obtain rfl := Compiler.ofSetup_eq_ok hsetup
  exact (Compiler.sameOutput_compile (fun _ htap => absurd htap List.not_mem_nil)
    (fun _ htap => absurd htap List.not_mem_nil) hcompile).directory

theorem compile_alike (hfirst : first.isAbsolute = true) (hsecond : second.isAbsolute = true)
    (hbelow : disk.HasBelow (first.place []) tree) (hbelow' : disk'.HasBelow (second.place []) tree)
    (hentries : ∀ entry ∈ project.entries, entry.2.Stays [])
    (hextensions : ∀ extension ∈ project.extensions, '/' ∉ extension.toList)
    (hblind : project.loaders.IsBlind)
    (hmovable : ∀ attempt ∈ project.attempts first disk,
      attempt.IsMovable (first.place []) (second.place [])) :
    Alike Compilation.Matches (project.compile first disk) (project.compile second disk') := by
  have hoptions := options_moved hfirst hsecond hentries hextensions
  unfold compile
  refine (Compiler.ofSetup_alike hoptions).bind ?_
  rintro _ _ - - ⟨rfl, rfl⟩
  exact Compiler.compile_alike hbelow hbelow' hoptions hblind hmovable

/-- The output directory of a project, if it is not outside of the root, is reached in parallel from
any two roots. -/
theorem parallel_output (project : Project) {root : Path} (hroot : root.isAbsolute = true)
    {down : Place} (hdown : Place.walk [] project.outputPath.components = some down) :
    (project.options root).outputPath.components =
        .root :: ((root.place []).map .name ++ down.map .name) ∧
      (project.options root).outputPath.Settled := by
  obtain ⟨names, hnames, hnormal, hplace⟩ := Path.exists_rooted hroot
  have hhere : (Path.rooted names).place [] = names ++ [] := by
    rw [Path.place_rooted hnames, List.append_nil]
  obtain ⟨houtput, hall⟩ :=
    Path.normalize_join_of_walk (Path.isAbsolute_rooted hnames) hhere hdown
  rw [outputPath_options, hnormal, houtput, hplace]
  exact ⟨by rw [Path.components_rooted hall, List.map_append], Path.settled_rooted hall⟩

/-- The assets of the project are to be written in parallel below the two roots. -/
theorem moved_site {down : Place} {here there : Compilation} (hfirst : first.isAbsolute = true)
    (hsecond : second.isAbsolute = true)
    (hdisks : Disk.Matches (first.place []) (second.place []) disk disk')
    (hdown : Place.walk [] project.outputPath.components = some down)
    (hhere : project.compile first disk = .ok here)
    (hthere : project.compile second disk' = .ok there) (hmatches : here.Matches there)
    (hfits : Site.Fits ⟨here, disk⟩) (hfits' : Site.Fits ⟨there, disk'⟩) :
    Site.Moved (first.place []) (second.place []) ⟨here, disk⟩ ⟨there, disk'⟩ := by
  obtain ⟨hparts, hsettled⟩ := parallel_output project hfirst hdown
  obtain ⟨hparts', hsettled'⟩ := parallel_output project hsecond hdown
  rw [← outputPath_compile hhere] at hparts hsettled
  rw [← outputPath_compile hthere] at hparts' hsettled'
  have hdownward : ∀ part ∈ down.map Path.Component.name,
      AssetName.problemOfComponent? part = none := by
    intro part hpart
    obtain ⟨name, -, rfl⟩ := List.mem_map.mp hpart
    rfl
  exact
    { disks := hdisks
      assets := hmatches.assets
      files := hmatches.files
      output := ⟨down.map .name, hparts, hparts', hdownward⟩
      fits := hfits
      fits' := hfits'
      settled := hsettled
      settled' := hsettled' }

/-- What comes of a project does not depend on where it is. If a tree stands at two roots, and if
neither the entries nor the specifiers in the files leave it, then the builds at both roots succeed
or neither does, and the same modules, bundles and assets come of them. As far as the output
directory does not leave the root either and no path gets too long, the assets can be written at
both roots or at neither, and the trees below the roots are the same again. -/
theorem builds_anywhere (hfirst : first.isAbsolute = true) (hsecond : second.isAbsolute = true)
    (hbelow : disk.HasBelow (first.place []) tree) (hbelow' : disk'.HasBelow (second.place []) tree)
    (hentries : ∀ entry ∈ project.entries, entry.2.Stays [])
    (hextensions : ∀ extension ∈ project.extensions, '/' ∉ extension.toList)
    (hblind : project.loaders.IsBlind)
    (hmovable : ∀ attempt ∈ project.attempts first disk,
      attempt.IsMovable (first.place []) (second.place [])) :
    Alike (fun here there => (Stats.ofCompilation here).SameBundles (.ofCompilation there))
        (project.compile first disk) (project.compile second disk') ∧
      ((∃ down, Place.walk [] project.outputPath.components = some down) →
        (∀ here, project.compile first disk = .ok here → Site.Fits ⟨here, disk⟩) →
        (∀ there, project.compile second disk' = .ok there → Site.Fits ⟨there, disk'⟩) →
        Alike (fun here there => here.1.SameBundles there.1 ∧
            Disk.Matches (first.place []) (second.place []) here.2 there.2)
          (project.run first disk) (project.run second disk')) := by
  have hcompiled := compile_alike hfirst hsecond hbelow hbelow' hentries hextensions hblind hmovable
  refine ⟨hcompiled.imp fun _ _ hmatches => hmatches.sameBundles, ?_⟩
  rintro ⟨down, hdown⟩ hfits hfits'
  rw [run_eq, run_eq]
  refine hcompiled.bind fun here there hhere hthere hmatches => ?_
  have hsite := moved_site hfirst hsecond (hbelow.matches hbelow') hdown hhere hthere hmatches
    (hfits here hhere) (hfits' there hthere)
  refine hsite.writeAssets_alike.map fun _ _ hwritten => ⟨?_, hwritten.2⟩
  rw [Site.sameAssets_writeAssets ⟨here, disk⟩, Site.sameAssets_writeAssets ⟨there, disk'⟩]
  exact { hmatches.sameBundles with files := hwritten.1 }

set_option maxRecDepth 100000 in
theorem builds_anywhere_nested :
    let tree : FileTree := ⟨[(["src"], .directory),
      (["src", "a.js"], .file "require('../lib/b'); require('./c.json');".toUTF8),
      (["src", "c.json"], .file "[1]".toUTF8), (["lib"], .directory),
      (["lib", "b.js"], .file "exports.a = require('./.././src/a');".toUTF8)]⟩
    let rule : Rule := ⟨"json", .literal ['j', 's', 'o', 'n'], ["json"]⟩
    let project : Project :=
      ⟨[("main", ⟨"src/a.js"⟩)], ⟨"lib/../out"⟩, "[name].js", [".js"], [rule], .builtin⟩
    ∃ here there, project.run ⟨"/r"⟩ ⟨tree.mount ["r"], []⟩ = .ok here ∧
      project.run ⟨"/home/u"⟩ ⟨tree.mount ["home", "u"], []⟩ = .ok there ∧
      here.1.modules.map Module.id = ["./src/a.js", "./lib/b.js", "./src/c.json"] ∧
      here.1.SameBundles there.1 ∧ Disk.Matches ["r"] ["home", "u"] here.2 there.2 := by
  intro tree rule project
  have hsound : tree.IsSound := FileTree.isSound_of_entries (by decide +kernel)
  have hbelow : Disk.HasBelow ⟨tree.mount ["r"], []⟩ ["r"] tree :=
    Disk.hasBelow_mount _ hsound (by decide +kernel)
  have hbelow' : Disk.HasBelow ⟨tree.mount ["home", "u"], []⟩ ["home", "u"] tree :=
    Disk.hasBelow_mount _ hsound (by decide +kernel)
  have hmovable : ∀ attempt ∈ project.attempts ⟨"/r"⟩ ⟨tree.mount ["r"], []⟩,
      attempt.IsMovable ["r"] ["home", "u"] := by decide +kernel
  have hentries : ∀ entry ∈ project.entries, entry.2.Stays [] := by decide +kernel
  have hextensions : ∀ extension ∈ project.extensions, '/' ∉ extension.toList := by decide +kernel
  have hfirst : (Path.mk "/r").isAbsolute = true := by decide +kernel
  have hsecond : (Path.mk "/home/u").isAbsolute = true := by decide +kernel
  have hfits (root output : Path) (disk : Disk)
      (h : ((project.compile root disk).map fun built =>
        (built.options.outputPath, built.assets.keys)).toOption = some (output, ["main.js"]))
      (hpaths : output.Fits ∧ (output.join ⟨"main.js"⟩).Fits) (built : Compilation)
      (hbuilt : project.compile root disk = .ok built) : Site.Fits ⟨built, disk⟩ := by
    rw [hbuilt] at h
    obtain ⟨houtput, hnames⟩ := Prod.mk.inj (Option.some.inj h)
    exact ⟨houtput ▸ hpaths.1, by simpa [houtput, hnames] using hpaths.2⟩
  have hboth := (builds_anywhere hfirst hsecond hbelow hbelow' hentries hextensions
    LoaderRegistry.isBlind_builtin hmovable).2 ⟨["out"], by decide +kernel⟩
    (hfits _ ⟨"/r/out"⟩ _ (by decide +kernel) (by decide +kernel))
    (hfits _ ⟨"/home/u/out"⟩ _ (by decide +kernel) (by decide +kernel))
  have hids : ((project.run ⟨"/r"⟩ ⟨tree.mount ["r"], []⟩).map fun run =>
      run.1.modules.map Module.id).toOption =
        some ["./src/a.js", "./lib/b.js", "./src/c.json"] := by decide +kernel
  cases hhere : project.run ⟨"/r"⟩ ⟨tree.mount ["r"], []⟩ with
  | error error =>
      rw [hhere] at hids
      cases hids
  | ok here =>
      rw [hhere] at hids
      obtain ⟨there, hthere⟩ := exists_eq_ok (hboth.isOk_eq.symm.trans (by rw [hhere]; rfl))
      obtain ⟨hsame, hdisks⟩ := hboth.rel_of_ok hhere hthere
      exact ⟨here, there, rfl, hthere, Option.some.inj hids, hsame, hdisks⟩

end Project

end Bundler
