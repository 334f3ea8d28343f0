import Bundler.Proofs.Build.Naming
import Bundler.Proofs.Build.Plugins
import Bundler.Proofs.Text.Replace

/-! Chunks that share a path. The template for file names tells chunks apart exactly if it mentions
their names, and prefixes in front of all paths make no difference to that. -/

namespace Bundler

namespace Options

variable {options : Options}

/-- The template mentions the name of the chunk. -/
def MentionsName (options : Options) : Prop :=
  placeholder.toList <:+: options.filename.toList

instance : Decidable options.MentionsName :=
  inferInstanceAs (Decidable (placeholder.toList <:+: options.filename.toList))

theorem filenameFor_injective (h : options.MentionsName) :
    Function.Injective options.filenameFor :=
  Text.replaceAll_injective (by decide) h

theorem filenameFor_eq_filename (h : ¬ options.MentionsName) (chunk : String) :
    options.filenameFor chunk = options.filename :=
  Text.replaceAll_of_not_infix (by decide) h chunk

end Options

theorem Builtin.prefixed_injective (prefixes : List String) :
    Function.Injective (prefixed prefixes) := by
  induction prefixes with
  | nil => exact Function.injective_id
  | cons text rest ih =>
      intro name other hsame
      exact String.append_right_inj text |>.mp (ih hsame)

namespace Compilation

variable {state : Compilation} {prefixes : List String} {earlier : List Chunk} {chunk : Chunk}
variable {error : BuildError}

/-- Chunks of different names wait for their assets, whose paths are those of the template behind
some prefixes. -/
structure Awaits (state : Compilation) (prefixes : List String) : Prop where
  chunkAssets : state.chunkAssets = .empty
  names : (state.chunks.map Chunk.name).Nodup
  taps : state.assetPath.taps = prefixes.map Builtin.prefixTap

/-- The path of a chunk's asset. -/
def awaitedPath (state : Compilation) (prefixes : List String) (chunk : Chunk) : String :=
  Builtin.prefixed prefixes (state.options.filenameFor chunk.name)

/-- Assets are not made because two chunks share a path. -/
def SharesPath (state : Compilation) : Prop :=
  ∃ first ∈ state.chunks, ∃ second ∈ state.chunks, first.name ≠ second.name ∧
    ∃ path, (createAssets state).result =
      .error (.invalidAsset path s!"chunks '{first.name}' and '{second.name}' share this path")

theorem awaits_buildModules {options : Options} {disk : Disk} {loaders : LoaderRegistry}
    (h : (buildModules disk loaders ((ofOptions options).withPrefixes prefixes)).result = .ok ()) :
    (buildModules disk loaders ((ofOptions options).withPrefixes prefixes)).state.Awaits
      prefixes := by
  let start := (ofOptions options).withPrefixes prefixes
  let rel (before after : Compilation) : Prop :=
    after.chunkAssets = before.chunkAssets ∧ after.assetPath = before.assetPath
  have hsame : rel start (buildModules disk loaders start).state :=
    @rel_buildModules rel (fun _ => ⟨rfl, rfl⟩) (fun h h' => ⟨h'.1.trans h.1, h'.2.trans h.2⟩)
      (fun _ _ _ _ => ⟨rfl, rfl⟩) disk loaders start
  have hfresh : start.Fresh := ⟨rfl, rfl, rfl⟩
  obtain ⟨-, hexact⟩ := exact_of_fresh hfresh h
  refine ⟨hsame.1, ?_, ?_⟩
  · rw [names_of_exact hexact]
    exact Table.nodup _
  · rw [hsame.2]
    exact List.nil_append _

theorem Awaits.handedName (h : state.Awaits prefixes) (chunk : Chunk) :
    state.handedName state.assetPath.taps chunk.name = .ok (state.awaitedPath prefixes chunk) := by
  rw [h.taps]
  exact Compiler.handed_prefixTaps _ prefixes _

/-- Only a chunk before it with the same path keeps a chunk from getting its asset. -/
theorem Awaits.stops_iff (h : state.Awaits prefixes)
    (hvalid : AssetName.check (state.awaitedPath prefixes chunk) = .ok ()) :
    Stops state earlier chunk error ↔ ∃ other ∈ earlier,
      state.awaitedPath prefixes other = state.awaitedPath prefixes chunk ∧
        error = .invalidAsset (state.awaitedPath prefixes chunk)
          s!"chunks '{other.name}' and '{chunk.name}' share this path" := by
  constructor
  · intro hstops
    cases hstops with
    | tap htaps _ hcause =>
        rw [h.taps] at htaps
        have hmem := htaps ▸ List.mem_append_right _ List.mem_cons_self
        obtain ⟨text, -, rfl⟩ := List.mem_map.mp hmem
        cases hcause
    | refused hpath hproblem =>
        obtain rfl := Except.ok.inj ((h.handedName chunk).symm.trans hpath)
        rw [AssetName.check_eq_ok_iff, hproblem] at hvalid
        cases hvalid
    | taken hpath _ ho hother =>
        obtain rfl := Except.ok.inj ((h.handedName chunk).symm.trans hpath)
        exact ⟨_, ho, Except.ok.inj ((h.handedName _).symm.trans hother), rfl⟩
  · rintro ⟨other, ho, hsame, rfl⟩
    exact .taken (h.handedName chunk) hvalid ho (hsame ▸ h.handedName other)

/-- With valid names nothing but a shared path keeps assets from being made. -/
theorem Awaits.sharesPath_of_error (h : state.Awaits prefixes)
    (hvalid : ∀ chunk ∈ state.chunks,
      AssetName.check (state.awaitedPath prefixes chunk) = .ok ())
    (herror : (createAssets state).result = .error error) : state.SharesPath := by
  obtain ⟨earlier, chunk, later, hchunks, hearlier, hchunk⟩ :=
    createAssets_eq_error_iff.mp herror
  have hnames := h.names
  rw [hchunks, List.map_append, List.nodup_append] at hnames
  have hmem : chunk ∈ state.chunks := hchunks ▸ List.mem_append_right _ List.mem_cons_self
  have hassigned := (Assigned.refl h.chunkAssets).createAssetsOf hnames.1 hearlier
  have hstops := hassigned.createAsset_eq_error_iff.mp hchunk
  obtain ⟨other, ho, -, rfl⟩ := (h.stops_iff (hvalid chunk hmem)).mp hstops
  refine ⟨other, hchunks ▸ List.mem_append_left _ ho, chunk, hmem, ?_, _, herror⟩
  exact hnames.2.2 _ (List.mem_map_of_mem ho) _ List.mem_cons_self

theorem Awaits.createAssets_eq_ok_iff (h : state.Awaits prefixes)
    (hvalid : ∀ chunk ∈ state.chunks,
      AssetName.check (state.awaitedPath prefixes chunk) = .ok ()) :
    (createAssets state).result = .ok () ↔
      (2 ≤ state.chunks.length → state.options.MentionsName) := by
  rw [(createAssets_eq state).1, createAssetsOf_eq_ok_iff h.chunkAssets h.names]
  constructor
  · intro hnone htwo
    by_contra hmentions
    match hchunks : state.chunks, htwo with
    | first :: second :: later, _ =>
      have hmem : second ∈ state.chunks := by simp [hchunks]
      refine hnone [first] second later _ hchunks ((h.stops_iff (hvalid second hmem)).mpr
        ⟨first, List.mem_singleton.mpr rfl, ?_, rfl⟩)
      rw [awaitedPath, awaitedPath, Options.filenameFor_eq_filename hmentions,
        Options.filenameFor_eq_filename hmentions]
  · intro hmentions earlier chunk later error hchunks hstops
    have hmem : chunk ∈ state.chunks := hchunks ▸ List.mem_append_right _ List.mem_cons_self
    obtain ⟨other, ho, hsame, -⟩ := (h.stops_iff (hvalid chunk hmem)).mp hstops
    have hlength : 2 ≤ state.chunks.length := by
      have hearlier := List.length_pos_of_mem ho
      rw [hchunks, List.length_append, List.length_cons]
      omega
    have hname := Options.filenameFor_injective (hmentions hlength)
      (Builtin.prefixed_injective prefixes hsame)
    have hnames := h.names
    rw [hchunks, List.map_append, List.nodup_append] at hnames
    exact hnames.2.2 _ (List.mem_map_of_mem ho) _ List.mem_cons_self hname

/-- The template tells all names apart if it mentions the name, and none otherwise. So of chunks
that wait for their assets, as those that a build has made, two share a path exactly if there are
two at all and the template does not mention the name, whatever prefixes there are. -/
theorem filenameFor_separates (options : Options) :
    (options.MentionsName → Function.Injective options.filenameFor) ∧
    (¬ options.MentionsName →
      ∀ name other, options.filenameFor name = options.filenameFor other) ∧
    (∀ disk loaders prefixes,
      let built := buildModules disk loaders ((ofOptions options).withPrefixes prefixes)
      built.result = .ok () →
        built.state.options = options ∧ built.state.Awaits prefixes) ∧
    ∀ (state : Compilation) prefixes, state.options = options → state.Awaits prefixes →
      (∀ chunk ∈ state.chunks,
        AssetName.check (Builtin.prefixed prefixes (options.filenameFor chunk.name)) = .ok ()) →
      (state.SharesPath ↔ 2 ≤ state.chunks.length ∧ ¬ options.MentionsName) ∧
      (¬ state.SharesPath → (createAssets state).result = .ok ()) := by
  refine ⟨Options.filenameFor_injective, fun h name other => ?_, ?_, ?_⟩
  · rw [Options.filenameFor_eq_filename h, Options.filenameFor_eq_filename h]
  · intro disk loaders prefixes built hok
    let start := (ofOptions options).withPrefixes prefixes
    have hsame : SameNaming start built.state :=
      rel_buildModules .refl .trans (fun _ _ _ _ => ⟨rfl, rfl⟩) disk loaders start
    exact ⟨hsame.options, awaits_buildModules hok⟩
  · rintro state prefixes rfl h hvalid
    have hok := h.createAssets_eq_ok_iff hvalid
    have hshares : ¬ state.SharesPath ↔ (createAssets state).result = .ok () := by
      constructor
      · intro hnot
        cases hresult : (createAssets state).result with
        | ok => rfl
        | error error => exact absurd (h.sharesPath_of_error hvalid hresult) hnot
      · rintro hresult ⟨first, -, second, -, -, path, herror⟩
        rw [hresult] at herror
        cases herror
    refine ⟨?_, hshares.mp⟩
    rw [← not_iff_not, hshares, hok]
    tauto

set_option maxRecDepth 100000 in
/-- What is put into the template may complete another placeholder around it. -/
theorem filenameFor_separates_around :
    let disk : Disk :=
      ⟨⟨[(["r"], .directory), (["r", "a.js"], .file "exports.x = 1;".toUTF8)]⟩, []⟩
    let options (filename : String) : Options :=
      { ((Options.ofContext ⟨"/r"⟩).withEntry "" ⟨"a.js"⟩).withEntry "[name]" ⟨"a.js"⟩ with
        filename := filename }
    let built (filename : String) :=
      buildModules disk .empty ((ofOptions (options filename)).withPrefixes ["js/", "v1-"])
    (built "[na[name]me]").result = .ok () ∧
      (built "[na[name]me]").state.chunks.map Chunk.name = ["", "[name]"] ∧
      (options "[na[name]me]").filenameFor "" = "[name]" ∧
      (createAssets (built "[na[name]me]").state).result = .ok () ∧
      (built "name.js").state.SharesPath := by
  intro disk options built
  have hrun : ∀ filename ∈ ["[na[name]me]", "name.js"], (built filename).result = .ok () ∧
      (built filename).state.chunks.map Chunk.name = ["", "[name]"] := by decide +kernel
  have hnames : ∀ filename ∈ ["[na[name]me]", "name.js"], ∀ name ∈ ["", "[name]"],
      AssetName.check (Builtin.prefixed ["js/", "v1-"] ((options filename).filenameFor name)) =
        .ok () := by decide +kernel
  have hall : ∀ filename ∈ ["[na[name]me]", "name.js"],
      ((built filename).state.SharesPath ↔ ¬ (options filename).MentionsName) ∧
        (¬ (built filename).state.SharesPath →
          (createAssets (built filename).state).result = .ok ()) := by
    intro filename hfilename
    obtain ⟨hresult, hchunks⟩ := hrun filename hfilename
    obtain ⟨-, -, hbuilds, hshares⟩ := filenameFor_separates (options filename)
    obtain ⟨hoptions, hawaits⟩ := hbuilds disk .empty ["js/", "v1-"] hresult
    have hlength : 2 ≤ (built filename).state.chunks.length := by
      simpa using (congrArg List.length hchunks).ge
    obtain ⟨hiff, hrest⟩ := hshares _ _ hoptions hawaits fun chunk hchunk =>
      hnames filename hfilename _ (hchunks ▸ List.mem_map_of_mem hchunk)
    exact ⟨hiff.trans (and_iff_right hlength), hrest⟩
  obtain ⟨hnested, hmade⟩ := hall "[na[name]me]" (by decide)
  obtain ⟨hplain, -⟩ := hall "name.js" (by decide)
  obtain ⟨hresult, hchunks⟩ := hrun "[na[name]me]" (by decide)
  have hmentions : (options "[na[name]me]").MentionsName := by decide +kernel
  have hmissing : ¬ (options "name.js").MentionsName := by decide +kernel
  exact ⟨hresult, hchunks, by decide +kernel, hmade fun h => hnested.mp h hmentions,
    hplain.mpr hmissing⟩

end Compilation

end Bundler
