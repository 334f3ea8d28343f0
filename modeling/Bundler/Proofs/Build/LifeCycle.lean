import Bundler.Proofs.Build.Assets
import Bundler.Proofs.Build.Failing
import Bundler.Proofs.Build.SelfContained
import Bundler.Proofs.Hook.Calls
import Bundler.Proofs.Table

/-! The life of a run as its taps see it. A logged run is the run itself. The calls it lists follow
one plan, whatever fails: hook after hook, and within a hook in the order of registration. -/

namespace Bundler

namespace Compilation

/-! ### Assets of chunks -/

/-- What the asset path of a chunk is computed for. -/
def pathData (state : Compilation) (chunk : String) : AssetPathData :=
  ⟨chunk, state.options.filename, state.options.outputPath⟩

/-- Makes the asset of a chunk, once its path is known. -/
def placeAsset (state : Compilation) (chunk : Chunk) (path : String) :
    Action Compilation BuildError Unit := do
  Action.ofExcept (AssetName.check path)
  match state.holder? path with
  | some other =>
    Action.fail (.invalidAsset path s!"chunks '{other}' and '{chunk.name}' share this path")
  | none =>
    Action.log (.chunkRendered chunk.name path (Bundle.render chunk).utf8ByteSize)
    Action.modify fun state =>
      { state with
        chunkAssets := state.chunkAssets.insert chunk.name path
        assets := state.assets.insert path (Bundle.render chunk) }

theorem createAsset_eq (chunk : Chunk) :
    createAsset chunk = (Action.get >>= fun state =>
      Action.ofReport (state.assetPath.assetPath (state.pathData chunk.name)
        (state.options.filenameFor chunk.name)) >>= fun path => placeAsset state chunk path) :=
  rfl

/-- Makes an asset as `createAsset` does, and lists the calls of taps. -/
def createAssetLogged (chunk : Chunk) : Logged Compilation BuildError Unit := do
  let state ← Logged.ofAction Action.get
  let path ← state.assetPath.assetPathLogged (state.pathData chunk.name)
    (state.options.filenameFor chunk.name)
  Logged.ofAction (placeAsset state chunk path)

def createAssetsOfLogged : List Chunk → Logged Compilation BuildError Unit
  | [] => Logged.ofAction (Action.ok ())
  | chunk :: rest => do
      createAssetLogged chunk
      createAssetsOfLogged rest

def createAssetsLogged : Logged Compilation BuildError Unit := do
  let state ← Logged.ofAction Action.get
  createAssetsOfLogged state.chunks

@[simp] theorem action_createAssetLogged (chunk : Chunk) :
    (createAssetLogged chunk).action = createAsset chunk := by
  simp [createAssetLogged, createAsset_eq]

@[simp] theorem action_createAssetsOfLogged (chunks : List Chunk) :
    (createAssetsOfLogged chunks).action = createAssetsOf chunks := by
  induction chunks with
  | nil => rfl
  | cons chunk rest ih => simp [createAssetsOfLogged, createAssetsOf, ih]

@[simp] theorem action_createAssetsLogged : createAssetsLogged.action = createAssets := by
  simp [createAssetsLogged, createAssets]

variable {state : Compilation} {chunk : Chunk} {chunks : List Chunk}

/-- The name that the taps for asset paths make of the template's name for a chunk. -/
def handedName (state : Compilation) (taps : List (Tap AssetPathTap)) (chunk : String) :
    Except Cause String :=
  Hook.handed (fun tap here => tap (state.pathData chunk) here) taps
    (state.options.filenameFor chunk)

theorem placeAsset_cases (state : Compilation) (chunk : Chunk) (path : String) :
    ((placeAsset state chunk path state).result = .ok () ∧ state.holder? path = none ∧
      (placeAsset state chunk path state).state =
        { state with
          chunkAssets := state.chunkAssets.insert chunk.name path
          assets := state.assets.insert path (Bundle.render chunk) }) ∨
    (∃ error, (placeAsset state chunk path state).result = .error error) ∧
      (placeAsset state chunk path state).state = state := by
  rw [placeAsset]
  cases hcheck : AssetName.check path with
  | error error => exact .inr ⟨⟨error, rfl⟩, rfl⟩
  | ok =>
      cases hfree : state.holder? path with
      | some other => exact .inr ⟨⟨_, rfl⟩, rfl⟩
      | none => exact .inl ⟨rfl, rfl, rfl⟩

/-- An asset is made under the name that the taps leave, if that name is neither refused nor taken.
Otherwise nothing has changed. -/
theorem createAsset_cases (chunk : Chunk) (state : Compilation) :
    (∃ path, (createAsset chunk state).result = .ok () ∧
      handedName state state.assetPath.taps chunk.name = .ok path ∧ state.holder? path = none ∧
      (createAsset chunk state).state =
        { state with
          chunkAssets := state.chunkAssets.insert chunk.name path
          assets := state.assets.insert path (Bundle.render chunk) }) ∨
    (∃ error, (createAsset chunk state).result = .error error) ∧
      (createAsset chunk state).state = state := by
  let report := state.assetPath.assetPath (state.pathData chunk.name)
    (state.options.filenameFor chunk.name)
  have hstart : createAsset chunk state =
      (Action.ofReport report >>= fun path => placeAsset state chunk path) state := by
    rw [createAsset_eq]
    rfl
  rw [hstart]
  cases hpath : report.result with
  | error error =>
      obtain ⟨hstate, hresult⟩ := Action.bind_of_error (fun path => placeAsset state chunk path)
        ((Action.ofReport_result report state).trans hpath)
      exact .inr ⟨⟨error, hresult⟩, hstate⟩
  | ok path =>
      obtain ⟨hstate, hresult⟩ := Action.bind_of_ok (fun path => placeAsset state chunk path)
        ((Action.ofReport_result report state).trans hpath)
      rw [hstate, hresult]
      rcases placeAsset_cases state chunk path with ⟨hok, hfree, hplaced⟩ | hfails
      · exact .inl ⟨path, hok, Hook.handed_of_assetPath hpath, hfree, hplaced⟩
      · exact .inr hfails

/-! ### What making assets leaves as it is -/

/-- Neither the options nor the taps for asset paths have changed. -/
structure SameNaming (before after : Compilation) : Prop where
  options : after.options = before.options
  assetPath : after.assetPath = before.assetPath

theorem SameNaming.refl (state : Compilation) : SameNaming state state := ⟨rfl, rfl⟩

theorem SameNaming.trans {first second third : Compilation} (h : SameNaming first second)
    (h' : SameNaming second third) : SameNaming first third :=
  ⟨h'.options.trans h.options, h'.assetPath.trans h.assetPath⟩

theorem SameNaming.handedName {before after : Compilation} (h : SameNaming before after)
    (taps : List (Tap AssetPathTap)) (chunk : String) :
    after.handedName taps chunk = before.handedName taps chunk := by
  unfold Compilation.handedName pathData
  rw [h.options]

theorem sameNaming_createAsset (chunk : Chunk) (state : Compilation) :
    SameNaming state (createAsset chunk state).state := by
  rcases createAsset_cases chunk state with ⟨path, -, -, -, hstate⟩ | ⟨-, hstate⟩
  · rw [hstate]
    exact ⟨rfl, rfl⟩
  · rw [hstate]
    exact .refl state

theorem sameNaming_createAssetsOf (chunks : List Chunk) (state : Compilation) :
    SameNaming state (createAssetsOf chunks state).state := by
  rw [createAssetsOf_eq_each]
  exact Action.rel_each SameNaming .refl .trans (fun chunk _ => sameNaming_createAsset chunk) state

/-! ### The names of assets -/

/-- The asset of a chunk has the name that the last tap for asset paths left. -/
def Named (state : Compilation) : Prop :=
  ∀ chunk path, state.chunkAssets.get? chunk = some path →
    state.handedName state.assetPath.taps chunk = .ok path

theorem named_createAsset (h : state.Named) (chunk : Chunk) :
    (createAsset chunk state).state.Named := by
  rcases createAsset_cases chunk state with ⟨path, -, hpath, -, hstate⟩ | ⟨-, hstate⟩
  · rw [hstate]
    intro other last hlast
    rw [Table.get?_insert] at hlast
    split at hlast
    · next hname =>
      obtain rfl := Option.some.inj hlast
      rw [hname]
      exact hpath
    · exact h other last hlast
  · rw [hstate]
    exact h

theorem named_createAssetsOf (h : state.Named) (chunks : List Chunk) :
    (createAssetsOf chunks state).state.Named := by
  rw [createAssetsOf_eq_each]
  exact Action.rel_each (fun before after : Compilation => before.Named → after.Named)
    (fun _ => id) (fun h h' => h' ∘ h) (fun chunk _ _ h => named_createAsset h chunk) state h

/-- Each of some chunks has an asset, which holds its bundle. -/
def Rendered (state : Compilation) (chunks : List Chunk) : Prop :=
  ∀ chunk ∈ chunks, ∃ path, state.chunkAssets.get? chunk.name = some path ∧
    state.assets.get? path = some (Bundle.render chunk)

/-- One step. An asset that is made does not take the place of one that was made for another
chunk. -/
theorem rendered_createAsset (h : state.Rendered chunks)
    (hkeys : chunk.name ∉ state.chunkAssets.keys)
    (hok : (createAsset chunk state).result = .ok ()) :
    (createAsset chunk state).state.Rendered (chunks ++ [chunk]) := by
  rcases createAsset_cases chunk state with ⟨path, -, -, hfree, hstate⟩ | ⟨⟨error, herror⟩, -⟩
  · rw [hstate]
    intro other ho
    simp only [Table.get?_insert]
    rcases List.mem_append.mp ho with hbefore | hnew
    · obtain ⟨held, hheld, hasset⟩ := h other hbefore
      have hname : other.name ≠ chunk.name := by
        intro hsame
        exact hkeys (hsame ▸ Table.mem_keys_of_get? hheld)
      have hpath : held ≠ path := by
        rintro rfl
        have hnone := Option.map_eq_none_iff.mp hfree
        exact List.find?_eq_none.mp hnone _ (Table.mem_entries_of_get? hheld) (by simp)
      exact ⟨held, by rw [if_neg hname]; exact hheld, by rw [if_neg hpath]; exact hasset⟩
    · obtain rfl := List.mem_singleton.mp hnew
      exact ⟨path, if_pos rfl, if_pos rfl⟩
  · rw [hok] at herror
    cases herror

/-- A whole run. -/
theorem rendered_createAssetsOf {rest : List Chunk} (h : state.Rendered chunks)
    (hkeys : ∀ chunk ∈ rest, chunk.name ∉ state.chunkAssets.keys)
    (hnames : (rest.map Chunk.name).Nodup)
    (hok : (createAssetsOf rest state).result = .ok ()) :
    (createAssetsOf rest state).state.Rendered (chunks ++ rest) := by
  induction rest generalizing state chunks with
  | nil =>
      rw [List.append_nil]
      exact h
  | cons chunk rest ih =>
      obtain ⟨hfirst, hrest⟩ := List.forall_mem_cons.mp hkeys
      obtain ⟨hnew, hnames⟩ := List.nodup_cons.mp hnames
      obtain ⟨_, hasset, hothers, hstate⟩ := Action.bind_eq_ok hok
      have hstep := rendered_createAsset h hfirst hasset
      rw [createAssetsOf, hstate, List.append_cons]
      refine ih hstep (fun other ho => ?_) hnames hothers
      rcases createAsset_cases chunk state with ⟨path, -, -, -, hmade⟩ | ⟨⟨error, herror⟩, -⟩
      · rw [hmade, Table.mem_keys_insert, not_or]
        exact ⟨hrest other ho, fun hsame => hnew (hsame ▸ List.mem_map_of_mem ho)⟩
      · rw [hasset] at herror
        cases herror

/-! ### The calls for asset paths -/

theorem follows_createAssetLogged (hkind : state.assetPath.kind = .assetPath) (chunk : Chunk) :
    Follows (state.assetPath.assetSlots chunk.name) (createAssetLogged chunk state).1
      (createAssetLogged chunk state).2.result := by
  rw [createAssetLogged, ← List.nil_append (Hook.assetSlots _ _)]
  refine Follows.bind (.nothing _) fun here hhere => ?_
  obtain rfl := Except.ok.inj hhere
  rw [← List.append_nil (Hook.assetSlots _ _)]
  exact Follows.bind (Hook.follows_assetPathLogged hkind (state.pathData chunk.name) _ _)
    fun _ _ => .nothing _

theorem follows_createAssetsOfLogged (hkind : state.assetPath.kind = .assetPath)
    (chunks : List Chunk) :
    Follows (chunks.flatMap fun chunk => state.assetPath.assetSlots chunk.name)
      (createAssetsOfLogged chunks state).1 (createAssetsOfLogged chunks state).2.result := by
  induction chunks generalizing state with
  | nil => exact .nothing _
  | cons chunk rest ih =>
      rw [createAssetsOfLogged, List.flatMap_cons]
      refine Follows.bind (follows_createAssetLogged hkind chunk) fun _ _ => ?_
      have hsame := sameNaming_createAsset chunk state
      rw [← action_createAssetLogged] at hsame
      have hrest := @ih (createAssetLogged chunk state).2.state
        ((congrArg Hook.kind hsame.assetPath).trans hkind)
      rwa [show (createAssetLogged chunk state).2.state.assetPath = state.assetPath from
        hsame.assetPath] at hrest

theorem mem_createAssetsLogged {call : TapCall} (h : call ∈ (createAssetsLogged state).1) :
    ∃ chunk tap number given, call = .assetPath tap number (state.pathData chunk) given ∧
      state.handedName (state.assetPath.taps.take number) chunk = .ok given := by
  have hall : ∀ {chunks : List Chunk} {here : Compilation}, SameNaming state here →
      call ∈ (createAssetsOfLogged chunks here).1 →
        ∃ chunk tap number given, call = .assetPath tap number (state.pathData chunk) given ∧
          state.handedName (state.assetPath.taps.take number) chunk = .ok given := by
    intro chunks
    induction chunks with
    | nil => exact fun _ hcall => by cases hcall
    | cons chunk rest ih =>
        intro here hsame hcall
        rcases Logged.mem_calls_bind hcall with hfirst | ⟨_, -, hrest⟩
        · rcases Logged.mem_calls_bind hfirst with hget | ⟨_, hget, hfirst⟩
          · cases hget
          obtain rfl := Except.ok.inj hget
          rcases Logged.mem_calls_bind hfirst with hpath | ⟨_, -, hplace⟩
          · obtain ⟨tap, number, given, rfl, -, hgiven⟩ := Hook.handed_of_mem_assetPathLogged hpath
            refine ⟨chunk.name, tap, number, given, ?_, ?_⟩
            · rw [pathData, pathData, hsame.options]
            · rw [← hsame.handedName, ← hsame.assetPath]
              exact hgiven
          · cases hplace
        · have hnext := sameNaming_createAsset chunk here
          rw [← action_createAssetLogged] at hnext
          exact ih (hsame.trans hnext) hrest
  rcases Logged.mem_calls_bind h with hget | ⟨_, hget, hrest⟩
  · cases hget
  · obtain rfl := Except.ok.inj hget
    exact hall (.refl _) hrest

/-! ### Building modules -/

theorem names_of_exact (h : state.Exact) : state.chunks.map Chunk.name = state.entries.keys := by
  have hall := h.chunks
  unfold Table.keys Table.names
  generalize state.entries.entries = entries at hall
  generalize state.chunks = chunks at hall
  induction hall with
  | nil => rfl
  | cons hfirst _ ih => rw [List.map_cons, List.map_cons, ih, hfirst.name]

/-! ### What taps may do -/

/-- A tap of a fresh compilation may register taps for asset paths and emit assets. -/
structure Registers (before after : Compilation) : Prop extends SameBuild before after where
  chunkAssets : after.chunkAssets = before.chunkAssets
  kind : after.assetPath.kind = before.assetPath.kind

theorem Registers.refl (state : Compilation) : Registers state state :=
  ⟨.refl state, rfl, rfl⟩

theorem Registers.trans {first second third : Compilation} (h : Registers first second)
    (h' : Registers second third) : Registers first third :=
  ⟨h.toSameBuild.trans h'.toSameBuild, h'.chunkAssets.trans h.chunkAssets, h'.kind.trans h.kind⟩

/-- A tap that is called before assets are written may emit assets. -/
structure Emits (before after : Compilation) : Prop extends SameBuild before after where
  chunkAssets : after.chunkAssets = before.chunkAssets
  assets : ∀ name ∈ before.assets.keys, name ∈ after.assets.keys

theorem Emits.refl (state : Compilation) : Emits state state :=
  ⟨.refl state, rfl, fun _ => id⟩

theorem Emits.trans {first second third : Compilation} (h : Emits first second)
    (h' : Emits second third) : Emits first third :=
  ⟨h.toSameBuild.trans h'.toSameBuild, h'.chunkAssets.trans h.chunkAssets,
    fun name hname => h'.assets name (h.assets name hname)⟩

end Compilation

namespace Compiler

variable {compiler : Compiler} {disk : Disk}

/-! ### Logged runs -/

/-- Every hook of a compiler knows which one it is. -/
structure Labelled (compiler : Compiler) : Prop where
  run : compiler.run.kind = .run
  compilation : compiler.compilation.kind = .compilation
  emit : compiler.emit.kind = .emit
  done : compiler.done.kind = .done

theorem labelled_ofSetup {options : Options} {loaders : LoaderRegistry}
    (h : ofSetup options loaders = .ok compiler) : compiler.Labelled := by
  obtain ⟨_, -, h⟩ := bind_eq_ok_iff.mp h
  obtain ⟨_, -, h⟩ := bind_eq_ok_iff.mp h
  obtain rfl := Except.ok.inj h
  exact ⟨rfl, rfl, rfl, rfl⟩

/-- Calls the taps on a fresh compilation. -/
def prepareLogged (compiler : Compiler) : Logged Compilation BuildError Unit :=
  let params : CompilationParams :=
    ⟨compiler.setup.options.context, compiler.setup.options.outputPath⟩
  Hook.callTapsLogged compiler.compilation.kind (fun tap => tap params)
    (fun _ tap seen => .compilation tap params seen) 0 compiler.compilation.taps

/-- Calls the taps that are called before assets are written. -/
def emitLogged (compiler : Compiler) (disk : Disk) : Logged Compilation BuildError Unit :=
  Hook.callTapsLogged compiler.emit.kind (fun tap => tap)
    (fun _ tap seen => .emit tap seen disk) 0 compiler.emit.taps

/-- The stages of a run, with the calls of taps. -/
def stagesLogged (compiler : Compiler) (disk : Disk) : Logged Compilation BuildError Unit := do
  let options := compiler.setup.options
  Logged.ofAction (Action.log (.buildStarted options.context options.entries.size))
  compiler.run.observeLogged (fun tap => tap compiler.setup) (fun tap => .run tap compiler.setup)
  compiler.prepareLogged
  Logged.ofAction (Compilation.buildModules disk compiler.setup.loaders)
  Compilation.createAssetsLogged
  compiler.emitLogged disk

def compileLogged (compiler : Compiler) : Logged Disk BuildError Compilation := fun disk =>
  let logged := compiler.stagesLogged disk (.ofOptions compiler.setup.options)
  (logged.1, ⟨disk, logged.2.events,
    match logged.2.result with
    | .ok () => .ok logged.2.state
    | .error error => .error error⟩)

/-- A run, with the calls of taps. -/
def buildLogged (compiler : Compiler) : Logged Disk BuildError Stats := do
  let compilation ← compiler.compileLogged
  let compilation ← Logged.ofAction (write compilation)
  let written ← Logged.ofAction Action.get
  let stats := Stats.ofCompilation compilation
  compiler.done.observeLogged (fun tap => tap stats) (fun tap => .done tap stats written)
  Logged.ofAction (Action.log
    (.buildFinished stats.modules.length stats.chunks.length stats.files.length))
  return stats

theorem action_prepareLogged (compiler : Compiler) :
    compiler.prepareLogged.action = compiler.prepare :=
  Hook.action_callTapsLogged 0 compiler.compilation.taps

theorem action_emitLogged (compiler : Compiler) (disk : Disk) :
    (compiler.emitLogged disk).action = compiler.emit.callAll fun tap => tap :=
  Hook.action_callTapsLogged 0 compiler.emit.taps

theorem action_stagesLogged (compiler : Compiler) (disk : Disk) :
    (compiler.stagesLogged disk).action = compiler.stages disk := by
  simp [stagesLogged, stages, action_prepareLogged, action_emitLogged]
  rfl

theorem compileLogged_snd (compiler : Compiler) (disk : Disk) :
    (compiler.compileLogged disk).2 = Action.ofReport (compiler.compile disk) disk := by
  rw [compile, ← action_stagesLogged]
  rfl

/-- A logged run is the run itself. -/
theorem action_buildLogged (compiler : Compiler) :
    compiler.buildLogged.action = compiler.build := by
  have hcompile : compiler.compileLogged.action =
      fun disk => Action.ofReport (compiler.compile disk) disk :=
    funext (compileLogged_snd compiler)
  rw [buildLogged, Logged.action_bind, hcompile]
  simp only [Logged.action_bind, Logged.action_ofAction, Hook.action_observeLogged]
  rfl

/-! ### The calls of a run -/

/-- All taps that a run has for its compilation, in the order in which they are due. -/
def stagePlan (compiler : Compiler) : List TapSlot :=
  compiler.run.taps.map .run ++ (compiler.compilation.taps.map .compilation ++
    (compiler.setup.options.entries.keys.flatMap compiler.prepared.assetPath.assetSlots ++
      compiler.emit.taps.map .emit))

/-- All taps that a run has, in the order in which they are due. The taps for asset paths are those
that are registered when the compilation has been prepared. -/
def lifeCycle (compiler : Compiler) : List TapSlot :=
  compiler.stagePlan ++ compiler.done.taps.map .done

/-- The taps keep to what they are for. -/
structure Orderly (compiler : Compiler) : Prop extends compiler.Labelled where
  registers : ∀ tap ∈ compiler.compilation.taps, ∀ params state,
    Compilation.Registers state (tap.call params state).state
  emits : ∀ tap ∈ compiler.emit.taps, ∀ state, Compilation.Emits state (tap.call state).state

theorem Orderly.registers_prepared (h : compiler.Orderly) :
    Compilation.Registers (.ofOptions compiler.setup.options) compiler.prepared :=
  Hook.rel_callTaps Compilation.Registers.refl Compilation.Registers.trans _ _
    (fun tap ht state => h.registers tap ht _ state) _

theorem Orderly.fresh_prepared (h : compiler.Orderly) : compiler.prepared.Fresh := by
  have hsame := h.registers_prepared
  exact ⟨hsame.entries, hsame.graph, hsame.chunks⟩

theorem sameNaming_withModules (compiler : Compiler) (disk : Disk) :
    Compilation.SameNaming compiler.prepared (compiler.withModules disk).state :=
  Compilation.rel_buildModules .refl .trans (fun _ _ _ _ => ⟨rfl, rfl⟩) disk _ _

/-- There is a chunk for each entry. -/
theorem Orderly.names_withModules (h : compiler.Orderly)
    (hmodules : (compiler.withModules disk).result = .ok ()) :
    (compiler.withModules disk).state.chunks.map Chunk.name =
      compiler.setup.options.entries.keys := by
  obtain ⟨hentries, hexact⟩ := Compilation.exact_of_fresh h.fresh_prepared hmodules
  rw [withModules, Compilation.names_of_exact hexact, Table.keys, hentries,
    h.registers_prepared.options]
  simp [Table.names, Table.keys]
  rfl

theorem withAssets_eq (compiler : Compiler) (disk : Disk) :
    compiler.withAssets disk =
      Compilation.createAssetsOf (compiler.withModules disk).state.chunks
        (compiler.withModules disk).state := rfl

theorem marks_run (h : compiler.Labelled) :
    Hook.Marks compiler.run.kind (fun tap => Action.ofReport (tap compiler.setup))
      (fun _ tap (_ : Unit) => .run tap compiler.setup) fun _ => .run :=
  ⟨fun _ _ _ => rfl, fun _ _ _ => h.run.symm, fun _ _ _ => rfl, fun _ _ _ => rfl⟩

theorem marks_compilation (h : compiler.Labelled) (params : CompilationParams) :
    Hook.Marks compiler.compilation.kind (fun tap => tap params)
      (fun _ tap seen => .compilation tap params seen) fun _ => .compilation :=
  ⟨fun _ _ _ => rfl, fun _ _ _ => h.compilation.symm, fun _ _ _ => rfl, fun _ _ _ => rfl⟩

theorem marks_emit (h : compiler.Labelled) (disk : Disk) :
    Hook.Marks compiler.emit.kind (fun tap => tap) (fun _ tap seen => .emit tap seen disk)
      fun _ => .emit :=
  ⟨fun _ _ _ => rfl, fun _ _ _ => h.emit.symm, fun _ _ _ => rfl, fun _ _ _ => rfl⟩

theorem marks_done (h : compiler.Labelled) (stats : Stats) (disk : Disk) :
    Hook.Marks compiler.done.kind (fun tap => Action.ofReport (tap stats))
      (fun _ tap (_ : Unit) => .done tap stats disk) fun _ => .done :=
  ⟨fun _ _ _ => rfl, fun _ _ _ => h.done.symm, fun _ _ _ => rfl, fun _ _ _ => rfl⟩

theorem follows_createAssetsLogged (h : compiler.Orderly)
    (hmodules : (compiler.withModules disk).result = .ok ()) :
    Follows (compiler.setup.options.entries.keys.flatMap compiler.prepared.assetPath.assetSlots)
      (Compilation.createAssetsLogged (compiler.withModules disk).state).1
      (Compilation.createAssetsLogged (compiler.withModules disk).state).2.result := by
  have hsame := sameNaming_withModules compiler disk
  have hkind : (compiler.withModules disk).state.assetPath.kind = .assetPath := by
    rw [hsame.assetPath, h.registers_prepared.kind]
    rfl
  have hcalls := Compilation.follows_createAssetsOfLogged hkind
    (compiler.withModules disk).state.chunks
  rw [← h.names_withModules hmodules, List.flatMap_map, ← hsame.assetPath,
    ← List.nil_append (List.flatMap _ _)]
  refine Follows.bind (.nothing _) fun here hhere => ?_
  obtain rfl := Except.ok.inj hhere
  exact hcalls

theorem follows_stagesLogged (h : compiler.Orderly) (disk : Disk) :
    let logged := compiler.stagesLogged disk (.ofOptions compiler.setup.options)
    Follows compiler.stagePlan logged.1 logged.2.result := by
  have hprepare : ∀ state, (compiler.prepareLogged state).2 = compiler.prepare state :=
    fun state => congrFun (action_prepareLogged compiler) state
  intro logged
  rw [stagePlan, ← List.nil_append (List.map TapSlot.run _ ++ _)]
  refine Follows.bind (.nothing _) fun _ _ => ?_
  refine Follows.bind (Hook.follows_observeLogged (marks_run h.toLabelled) _) fun _ _ => ?_
  refine Follows.bind ?_ fun _ _ => ?_
  · have hcalls := Hook.follows_callTapsLogged (marks_compilation h.toLabelled
      ⟨compiler.setup.options.context, compiler.setup.options.outputPath⟩) 0
      compiler.compilation.taps (.ofOptions compiler.setup.options)
    rwa [Hook.map_zipIdx_fst] at hcalls
  rw [← List.nil_append (List.flatMap _ _ ++ _)]
  refine Follows.bind (.nothing _) fun _ hmodules => ?_
  refine Follows.bind ?_ fun _ _ => ?_
  · change (Compilation.buildModules disk compiler.setup.loaders
      (compiler.prepareLogged (.ofOptions compiler.setup.options)).2.state).result = _ at hmodules
    change Follows _ (Compilation.createAssetsLogged (Compilation.buildModules disk
      compiler.setup.loaders (compiler.prepareLogged (.ofOptions
        compiler.setup.options)).2.state).state).1 (Compilation.createAssetsLogged
      (Compilation.buildModules disk compiler.setup.loaders (compiler.prepareLogged (.ofOptions
        compiler.setup.options)).2.state).state).2.result
    rw [hprepare] at hmodules ⊢
    exact follows_createAssetsLogged h hmodules
  · have hcalls := Hook.follows_callTapsLogged (marks_emit h.toLabelled disk) 0 compiler.emit.taps
    rw [Hook.map_zipIdx_fst] at hcalls
    exact hcalls _

theorem follows_buildLogged (h : compiler.Orderly) (disk : Disk) :
    Follows compiler.lifeCycle (compiler.buildLogged disk).1 (compiler.build disk).result := by
  have hresult : (compiler.build disk).result = (compiler.buildLogged disk).2.result := by
    rw [← action_buildLogged]
    rfl
  rw [hresult, lifeCycle]
  refine Follows.bind ?_ fun compilation _ => ?_
  · refine (follows_stagesLogged h disk).of_result (fun compilation hok => ?_)
      fun error herror => ?_
    · simp only [compileLogged] at hok
      split at hok
      · next hstages => exact ⟨_, hstages⟩
      · cases hok
    · simp only [compileLogged, herror]
  rw [← List.nil_append (List.map _ _)]
  refine Follows.bind (.nothing _) fun written _ => ?_
  rw [← List.nil_append (List.map _ _)]
  refine Follows.bind (.nothing _) fun here _ => ?_
  rw [← List.append_nil (List.map _ _)]
  exact Follows.bind (Hook.follows_observeLogged (marks_done h.toLabelled _ _) _)
    fun _ _ => @Follows.bind _ _ _ [] [] _ _ _ (.nothing _) fun _ _ => .nothing _

/-! ### What taps see -/

/-- The calls that a run makes, and what the taps are given. -/
inductive Makes (compiler : Compiler) (disk : Disk) : TapCall → Prop where
  | run (tap : Tap RunTap) : Makes compiler disk (.run tap compiler.setup)
  | compilation (tap : Tap CompilationTap) (params : CompilationParams) (seen : Compilation) :
      Makes compiler disk (.compilation tap params seen)
  | assetPath {chunk : String} {tap : Tap AssetPathTap} {number : Nat} {given : String}
      (hmodules : (compiler.withModules disk).result = .ok ())
      (hgiven : compiler.prepared.handedName (compiler.prepared.assetPath.taps.take number) chunk =
        .ok given) :
      Makes compiler disk (.assetPath tap number (compiler.prepared.pathData chunk) given)
  | emit {earlier later : List (Tap EmitTap)} {tap : Tap EmitTap}
      (hmodules : (compiler.withModules disk).result = .ok ())
      (hassets : (compiler.withAssets disk).result = .ok ())
      (htaps : compiler.emit.taps = earlier ++ tap :: later) :
      Makes compiler disk (.emit tap (Hook.callTaps compiler.emit.kind (fun tap => tap) earlier
        (compiler.withAssets disk).state).state disk)
  | done {compilation : Compilation} (tap : Tap DoneTap)
      (hcompile : (compiler.compile disk).result = .ok compilation)
      (hwrite : (Site.writeAssets ⟨compilation, disk⟩).result = .ok ()) :
      Makes compiler disk (.done tap
        (.ofCompilation (Site.writeAssets ⟨compilation, disk⟩).state.compilation)
        (Site.writeAssets ⟨compilation, disk⟩).state.disk)

theorem makes_of_mem_createAssetsLogged {call : TapCall}
    (hmodules : (compiler.withModules disk).result = .ok ())
    (h : call ∈ (Compilation.createAssetsLogged (compiler.withModules disk).state).1) :
    compiler.Makes disk call := by
  have hsame := sameNaming_withModules compiler disk
  obtain ⟨chunk, tap, number, given, rfl, hgiven⟩ := Compilation.mem_createAssetsLogged h
  have hdata : (compiler.withModules disk).state.pathData chunk =
      compiler.prepared.pathData chunk := by
    rw [Compilation.pathData, Compilation.pathData, hsame.options]
  rw [hsame.handedName, hsame.assetPath] at hgiven
  rw [hdata]
  exact .assetPath hmodules hgiven

theorem makes_of_mem_stagesLogged {call : TapCall}
    (h : call ∈ (compiler.stagesLogged disk (.ofOptions compiler.setup.options)).1) :
    compiler.Makes disk call := by
  have hprepare : ∀ state, (compiler.prepareLogged state).2 = compiler.prepare state :=
    fun state => congrFun (action_prepareLogged compiler) state
  have hassets : ∀ state, (Compilation.createAssetsLogged state).2 =
      Compilation.createAssets state :=
    fun state => congrFun Compilation.action_createAssetsLogged state
  rcases Logged.mem_calls_bind h with hlog | ⟨_, -, h⟩
  · cases hlog
  rcases Logged.mem_calls_bind h with hrun | ⟨_, -, h⟩
  · obtain ⟨tap, -, rfl⟩ := Hook.exists_of_mem_observeLogged hrun
    exact .run tap
  rcases Logged.mem_calls_bind h with hcompilation | ⟨_, -, h⟩
  · obtain ⟨_, tap, _, -, -, rfl⟩ := Hook.exists_of_mem_callTapsLogged hcompilation
    exact .compilation tap _ _
  change _ ∈ ((_ >>= _ : Logged Compilation BuildError Unit)
    (compiler.prepareLogged (.ofOptions compiler.setup.options)).2.state).1 at h
  rw [hprepare] at h
  rcases Logged.mem_calls_bind h with hmodules | ⟨_, hmodules, h⟩
  · cases hmodules
  rcases Logged.mem_calls_bind h with hcreate | ⟨_, hcreate, h⟩
  · exact makes_of_mem_createAssetsLogged hmodules hcreate
  · rw [hassets] at hcreate h
    obtain ⟨_, _, _, htaps, -, rfl⟩ := Hook.exists_of_mem_callTapsLogged h
    exact .emit hmodules hcreate htaps

theorem makes_of_mem {call : TapCall} (h : call ∈ (compiler.buildLogged disk).1) :
    compiler.Makes disk call := by
  rcases Logged.mem_calls_bind h with hcompile | ⟨compilation, hcompile, h⟩
  · exact makes_of_mem_stagesLogged hcompile
  rw [compileLogged_snd] at hcompile h
  rcases Logged.mem_calls_bind h with hwrite | ⟨written, hwrite, h⟩
  · cases hwrite
  obtain ⟨hok, rfl⟩ := write_eq_ok hwrite
  rcases Logged.mem_calls_bind h with hget | ⟨_, hget, h⟩
  · cases hget
  obtain rfl := Except.ok.inj hget
  rcases Logged.mem_calls_bind h with hdone | ⟨_, -, h⟩
  · obtain ⟨tap, -, rfl⟩ := Hook.exists_of_mem_observeLogged hdone
    exact .done tap hcompile hok
  · rcases Logged.mem_calls_bind h with hlog | ⟨_, -, hend⟩
    · cases hlog
    · cases hend

theorem Makes.kind_of_fails {call : TapCall} (h : compiler.Makes disk call)
    (hmodules : (compiler.withModules disk).result ≠ .ok ()) :
    call.kind = .run ∨ call.kind = .compilation := by
  cases h with
  | run => exact .inl rfl
  | compilation => exact .inr rfl
  | assetPath hok => exact absurd hok hmodules
  | emit hok => exact absurd hok hmodules
  | done tap hcompile => exact absurd (compile_eq_ok hcompile).1 hmodules

theorem Orderly.chunkAssets_withModules (h : compiler.Orderly) (disk : Disk) :
    (compiler.withModules disk).state.chunkAssets = .empty := by
  let rel (before after : Compilation) : Prop := after.chunkAssets = before.chunkAssets
  have hrel : rel compiler.prepared (compiler.withModules disk).state :=
    @Compilation.rel_buildModules rel (fun _ => rfl) (fun h h' => h'.trans h) (fun _ _ _ _ => rfl)
      disk compiler.setup.loaders compiler.prepared
  exact hrel.trans h.registers_prepared.chunkAssets

/-- Before assets are written there is one for every chunk. -/
theorem Orderly.rendered_withAssets (h : compiler.Orderly)
    (hmodules : (compiler.withModules disk).result = .ok ())
    (hassets : (compiler.withAssets disk).result = .ok ()) :
    (compiler.withAssets disk).state.Rendered (compiler.withAssets disk).state.chunks := by
  have hchunks : (compiler.withAssets disk).state.chunks =
      (compiler.withModules disk).state.chunks := (Compilation.sameBuild_createAssets _).chunks
  rw [hchunks]
  rw [withAssets_eq] at hassets ⊢
  have hnone : (compiler.withModules disk).state.Rendered [] := by simp [Compilation.Rendered]
  refine Compilation.rendered_createAssetsOf hnone (fun chunk _ => ?_) ?_ hassets
  · rw [h.chunkAssets_withModules]
    exact List.not_mem_nil
  · rw [h.names_withModules hmodules]
    exact compiler.setup.options.entries.nodup

theorem Orderly.named_withAssets (h : compiler.Orderly) (disk : Disk) {chunk path : String}
    (hpath : (compiler.withAssets disk).state.chunkAssets.get? chunk = some path) :
    compiler.prepared.handedName compiler.prepared.assetPath.taps chunk = .ok path := by
  have hnone : (compiler.withModules disk).state.Named := by
    intro other last hlast
    rw [h.chunkAssets_withModules] at hlast
    cases hlast
  have hnamed := Compilation.named_createAssetsOf hnone (compiler.withModules disk).state.chunks
  have hsame := (sameNaming_withModules compiler disk).trans
    (Compilation.sameNaming_createAssetsOf (compiler.withModules disk).state.chunks _)
  have hlast := hnamed chunk path hpath
  rwa [hsame.handedName, hsame.assetPath] at hlast

theorem Orderly.emits_of_mem (h : compiler.Orderly) {tap : Tap EmitTap} {seen : Compilation}
    {there : Disk} (hcall : .emit tap seen there ∈ (compiler.buildLogged disk).1) :
    (compiler.withAssets disk).state.Rendered (compiler.withAssets disk).state.chunks ∧
      (compiler.withAssets disk).state.Emits seen ∧ seen.files = [] ∧ there = disk := by
  cases makes_of_mem hcall with
  | @emit earlier later _ hmodules hassets htaps =>
      have hemits := Hook.rel_callTaps Compilation.Emits.refl Compilation.Emits.trans
        compiler.emit.kind (fun tap : EmitTap => tap)
        (fun other ho => h.emits other (by rw [htaps]; exact List.mem_append_left _ ho))
        (compiler.withAssets disk).state
      refine ⟨h.rendered_withAssets hmodules hassets, hemits, ?_, rfl⟩
      have hmodulesFiles := (Compilation.sameOutput_buildModules disk compiler.setup.loaders
        compiler.prepared).files
      have hassetsFiles :=
        (Compilation.sameBuild_createAssets (compiler.withModules disk).state).files
      exact hemits.files.trans (hassetsFiles.trans (hmodulesFiles.trans h.registers_prepared.files))

theorem Orderly.wrote_of_mem (h : compiler.Orderly) {tap : Tap DoneTap} {stats : Stats}
    {there : Disk} (hcall : .done tap stats there ∈ (compiler.buildLogged disk).1) :
    stats.files = stats.assets.keys ∧ there = (compiler.build disk).state ∧
      ∀ asset ∈ stats.assets.entries, ∃ text,
        AssetName.lastText? stats.assets.entries asset.1 = some text ∧
          there.readText (compiler.setup.options.outputPath.join ⟨asset.1⟩) = .ok text := by
  cases makes_of_mem hcall with
  | @done compilation _ hcompile hwrite =>
      have hsame := sameOutput_compile
        (fun tap ht params state => (h.registers tap ht params state).toSameBuild.sameOutput)
        (fun tap ht state => (h.emits tap ht state).toSameBuild.sameOutput) hcompile
      have hwrote := Site.wrote_writeAssets ⟨compilation, disk⟩ hsame.files hwrite
      have hkept : (Site.writeAssets ⟨compilation, disk⟩).state.compilation.assets =
          compilation.assets := by rw [Site.sameAssets_writeAssets ⟨compilation, disk⟩]
      refine ⟨?_, (build_state_of_ok hcompile).symm, ?_⟩
      · exact hwrote.files.trans (congrArg Table.keys hkept.symm)
      · change ∀ asset ∈ (Site.writeAssets ⟨compilation, disk⟩).state.compilation.assets.entries, _
        rw [hkept]
        intro asset hasset
        obtain ⟨text, htext, hheld⟩ := hwrote.held asset hasset
        rw [hsame.directory] at hheld
        refine ⟨text, ?_, hheld.readText⟩
        rw [← htext]
        exact congrArg (fun table => AssetName.lastText? (Table.entries table) asset.1) hkept

/-- The life of a run. Its calls of taps are the first ones of one plan, and all of them if it
succeeds; a tap that fails is the last one that is called, and the error names it. If a module
cannot be built, no tap behind it is called. A tap for the asset path of a chunk is given what the
taps before it made of the template's name, and what the last one leaves is the name of the asset.
The taps that are called before assets are written see an asset of every chunk and the disk as it
was; those that are called at the end see every file written. -/
theorem build_life_cycle (h : compiler.Orderly) (disk : Disk) :
    let calls := (compiler.buildLogged disk).1
    let outcome := compiler.build disk
    let start := compiler.prepared
    let created := compiler.withAssets disk
    (compiler.buildLogged disk).2 = outcome ∧
    Follows compiler.lifeCycle calls outcome.result ∧
    ((compiler.withModules disk).result ≠ .ok () →
      ∀ call ∈ calls, call.kind = .run ∨ call.kind = .compilation) ∧
    (∀ tap number data given, .assetPath tap number data given ∈ calls →
      data = start.pathData data.chunk ∧
        start.handedName (start.assetPath.taps.take number) data.chunk = .ok given) ∧
    (∀ chunk path, created.state.chunkAssets.get? chunk = some path →
      start.handedName start.assetPath.taps chunk = .ok path) ∧
    (∀ tap seen there, .emit tap seen there ∈ calls →
      created.state.Rendered created.state.chunks ∧ created.state.Emits seen ∧
        seen.files = [] ∧ there = disk) ∧
    (∀ tap stats there, .done tap stats there ∈ calls →
      stats.files = stats.assets.keys ∧ there = outcome.state ∧
        ∀ asset ∈ stats.assets.entries, ∃ text,
          AssetName.lastText? stats.assets.entries asset.1 = some text ∧
            there.readText (compiler.setup.options.outputPath.join ⟨asset.1⟩) = .ok text) := by
  intro calls outcome start created
  refine ⟨congrFun (action_buildLogged compiler) disk, follows_buildLogged h disk,
    ?_, ?_, ?_, ?_, ?_⟩
  · exact fun hmodules call hcall => (makes_of_mem hcall).kind_of_fails hmodules
  · intro tap number data given hcall
    cases makes_of_mem hcall with
    | assetPath hmodules hgiven => exact ⟨rfl, hgiven⟩
  · exact fun chunk path => h.named_withAssets disk
  · exact fun tap seen there => h.emits_of_mem
  · exact fun tap stats there => h.wrote_of_mem

set_option maxRecDepth 100000 in
theorem build_life_cycle_renamed :
    let disk : Disk :=
      ⟨⟨[(["r"], .directory), (["r", "a.js"], .file "exports.x = 1;".toUTF8)]⟩, []⟩
    let options := ((Options.ofContext ⟨"/r"⟩).withEntry "main" ⟨"a.js"⟩).withEntry "b" ⟨"a.js"⟩
    let mark : Tap AssetPathTap := ⟨"mark", fun _ path => Report.ok ("new-" ++ path)⟩
    let folder : Tap AssetPathTap := ⟨"folder", fun _ path => Report.ok ("js/" ++ path)⟩
    let register : Tap CompilationTap := ⟨"register", fun _ => do
      Compilation.tapAssetPath mark
      Compilation.tapAssetPath folder⟩
    let notes : Tap EmitTap := ⟨"notes", Compilation.emit "notes.txt" "built"⟩
    let finish : Tap DoneTap := ⟨"finish", fun _ => Report.ok ()⟩
    let compiler : Compiler :=
      ⟨⟨options, .empty⟩, .ofKind .run, ⟨.compilation, [register]⟩, ⟨.emit, [notes]⟩,
        ⟨.done, [finish]⟩⟩
    let calls := (compiler.buildLogged disk).1
    (compiler.build disk).result.isOk = true ∧ calls.map TapCall.slot = compiler.lifeCycle ∧
      calls.map TapCall.tapName =
        ["register", "mark", "folder", "mark", "folder", "notes", "finish"] ∧
      compiler.prepared.handedName compiler.prepared.assetPath.taps "b" = .ok "js/new-b.js" := by
  intro disk options mark folder register notes finish compiler calls
  have horderly : compiler.Orderly := by
    refine ⟨⟨rfl, rfl, rfl, rfl⟩, ?_, ?_⟩
    · intro tap ht params state
      obtain rfl : tap = register := List.mem_singleton.mp ht
      exact ⟨⟨rfl, rfl, rfl, rfl, rfl, rfl⟩, rfl, rfl⟩
    · intro tap ht state
      obtain rfl : tap = notes := List.mem_singleton.mp ht
      exact ⟨⟨rfl, rfl, rfl, rfl, rfl, rfl⟩, rfl, fun _ hname =>
        Table.mem_keys_insert.mpr (.inl hname)⟩
  obtain ⟨-, hfollows, -, -, hnames, -⟩ := build_life_cycle horderly disk
  have hok : (compiler.build disk).result.isOk = true := by decide +kernel
  obtain ⟨stats, hstats⟩ := exists_eq_ok hok
  have hcalls : calls.map TapCall.tapName =
      ["register", "mark", "folder", "mark", "folder", "notes", "finish"] := by decide +kernel
  have hpath : (compiler.withAssets disk).state.chunkAssets.get? "b" = some "js/new-b.js" := by
    decide +kernel
  exact ⟨hok, hfollows.whole stats hstats, hcalls, hnames "b" _ hpath⟩

end Compiler

end Bundler
