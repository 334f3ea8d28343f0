import Bundler.Proofs.Build.LifeCycle

/-! Names for the assets of chunks. Chunk after chunk gets an asset under the name that the taps
make for it. A name is never given to two chunks, and nothing that is in memory under another name
is touched. The first chunk for which a tap fails, or whose name is refused or taken, ends it. -/

namespace Bundler.Compilation

variable {start here : Compilation} {chunks earlier : List Chunk} {chunk : Chunk}
variable {name path : String} {error : BuildError}

/-- The names of the assets of chunks, in the order of the chunks. -/
def paths (state : Compilation) : List String := state.chunkAssets.entries.map Prod.snd

theorem holder?_eq_none_iff : here.holder? path = none ↔ path ∉ here.paths := by
  simp only [holder?, paths, Option.map_eq_none_iff, List.find?_eq_none, beq_iff_eq,
    List.mem_map, Prod.exists, exists_eq_right, Prod.forall, not_exists]
  exact ⟨fun h name hentry => h name path hentry rfl,
    fun h name _ hentry hpath => h name (hpath ▸ hentry)⟩

/-- Where no name is given twice, the chunk that is found to hold a name is the one that does. -/
theorem holder?_eq_some_iff (h : here.paths.Nodup) :
    here.holder? path = some name ↔ (name, path) ∈ here.chunkAssets.entries := by
  constructor
  · intro hfound
    obtain ⟨⟨_, held⟩, hentry, rfl⟩ := Option.map_eq_some_iff.mp hfound
    have hpath : held = path := by simpa using List.find?_some hentry
    exact hpath ▸ List.mem_of_find?_eq_some hentry
  · intro hentry
    cases hfound : here.holder? path with
    | none => exact absurd (List.mem_map_of_mem hentry) (holder?_eq_none_iff.mp hfound)
    | some other =>
        obtain ⟨⟨_, held⟩, hother, rfl⟩ := Option.map_eq_some_iff.mp hfound
        have hpath : held = path := by simpa using List.find?_some hother
        have hsame := List.inj_on_of_nodup_map h (List.mem_of_find?_eq_some hother) hentry hpath
        rw [hsame]

/-! ### What ends it -/

/-- What keeps a chunk from getting an asset once some other chunks have got theirs: a tap fails,
the name that the taps leave is refused, or one of the others has it. -/
inductive Stops (start : Compilation) (earlier : List Chunk) (chunk : Chunk) : BuildError → Prop
  | tap {before after : List (Tap AssetPathTap)} {tap : Tap AssetPathTap} {given : String}
      {cause : Cause} : start.assetPath.taps = before ++ tap :: after →
      start.handedName before chunk.name = .ok given →
      (tap.call (start.pathData chunk.name) given).result = .error cause →
      Stops start earlier chunk (.tapFailed start.assetPath.kind.name tap.name cause.render)
  | refused {path : String} {problem : AssetNameProblem} :
      start.handedName start.assetPath.taps chunk.name = .ok path →
      AssetName.problem? path = some problem →
      Stops start earlier chunk (.invalidAsset path problem.message)
  | taken {path : String} {other : Chunk} :
      start.handedName start.assetPath.taps chunk.name = .ok path →
      AssetName.check path = .ok () → other ∈ earlier →
      start.handedName start.assetPath.taps other.name = .ok path →
      Stops start earlier chunk
        (.invalidAsset path s!"chunks '{other.name}' and '{chunk.name}' share this path")

/-- No chunk is kept from getting an asset by what happens for it or by those before it. -/
def Unstopped (start : Compilation) (chunks : List Chunk) : Prop :=
  ∀ earlier chunk later error, chunks = earlier ++ chunk :: later →
    ¬ Stops start earlier chunk error

theorem placeAsset_eq_error_iff :
    (placeAsset here chunk path here).result = .error error ↔
      AssetName.check path = .error error ∨ AssetName.check path = .ok () ∧
        ∃ other, here.holder? path = some other ∧
          error = .invalidAsset path s!"chunks '{other}' and '{chunk.name}' share this path" := by
  rw [placeAsset, Action.bind_eq_error_iff]
  refine or_congr Iff.rfl ⟨?_, ?_⟩
  · rintro ⟨_, hcheck, hrest⟩
    refine ⟨hcheck, ?_⟩
    cases hholder : here.holder? path with
    | none =>
        rw [hholder] at hrest
        cases hrest
    | some other =>
        rw [hholder] at hrest
        exact ⟨other, rfl, (Except.error.inj hrest).symm⟩
  · rintro ⟨hcheck, other, hholder, rfl⟩
    refine ⟨(), hcheck, ?_⟩
    rw [hholder]
    rfl

theorem createAsset_eq_error_iff :
    (createAsset chunk here).result = .error error ↔
      (∃ before tap after given cause, here.assetPath.taps = before ++ tap :: after ∧
        here.handedName before chunk.name = .ok given ∧
        (tap.call (here.pathData chunk.name) given).result = .error cause ∧
        error = .tapFailed here.assetPath.kind.name tap.name cause.render) ∨
      ∃ path, here.handedName here.assetPath.taps chunk.name = .ok path ∧
        (placeAsset here chunk path here).result = .error error := by
  let report := here.assetPath.assetPath (here.pathData chunk.name)
    (here.options.filenameFor chunk.name)
  have hstart : createAsset chunk here =
      (Action.ofReport report >>= fun path => placeAsset here chunk path) here := by
    rw [createAsset_eq]
    rfl
  rw [hstart, Action.bind_eq_error_iff]
  exact or_congr Hook.assetPath_eq_error_iff
    (exists_congr fun path => and_congr_left' Hook.assetPath_eq_ok_iff)

/-! ### Chunks that have got their assets -/

/-- Some chunks have got their assets, beginning from a state in which no chunk had one. -/
structure Assigned (start : Compilation) (chunks : List Chunk) (here : Compilation) : Prop where
  naming : SameNaming start here
  keys : here.chunkAssets.keys = chunks.map Chunk.name
  named : ∀ name path, (name, path) ∈ here.chunkAssets.entries →
    start.handedName start.assetPath.taps name = .ok path ∧ AssetName.check path = .ok ()
  distinct : here.paths.Nodup
  rendered : here.Rendered chunks
  assets : here.assets.keys =
    start.assets.keys ++ here.paths.filter fun path => path ∉ start.assets.keys
  kept : ∀ (index : Nat) (name text : String), name ∉ here.paths →
    start.assets.entries[index]? = some (name, text) →
      here.assets.entries[index]? = some (name, text)

namespace Assigned

theorem refl (h : start.chunkAssets = .empty) : Assigned start [] start where
  naming := .refl start
  keys := by rw [h]; rfl
  named := by simp [h, Table.empty]
  distinct := by simp [paths, h, Table.empty]
  rendered := by simp [Rendered]
  assets := by simp [paths, h, Table.empty]
  kept := fun _ _ _ _ hentry => hentry

theorem mem_entries_iff (h : Assigned start chunks here) :
    (name, path) ∈ here.chunkAssets.entries ↔ ∃ other ∈ chunks, other.name = name ∧
      start.handedName start.assetPath.taps other.name = .ok path := by
  constructor
  · intro hentry
    have hkey : name ∈ here.chunkAssets.keys := List.mem_map_of_mem hentry
    rw [h.keys] at hkey
    obtain ⟨other, ho, rfl⟩ := List.mem_map.mp hkey
    exact ⟨other, ho, rfl, (h.named _ _ hentry).1⟩
  · rintro ⟨other, ho, rfl, hpath⟩
    have hkey : other.name ∈ here.chunkAssets.keys := h.keys ▸ List.mem_map_of_mem ho
    obtain ⟨⟨_, held⟩, hentry, rfl⟩ := List.mem_map.mp hkey
    rw [(h.named _ held hentry).1] at hpath
    rwa [← Except.ok.inj hpath]

/-- One step, if it fails. -/
theorem createAsset_eq_error_iff (h : Assigned start earlier here) :
    (createAsset chunk here).result = .error error ↔ Stops start earlier chunk error := by
  have hdata : here.pathData chunk.name = start.pathData chunk.name := by
    rw [pathData, h.naming.options, pathData]
  rw [Compilation.createAsset_eq_error_iff]
  simp only [hdata, h.naming.handedName, h.naming.assetPath, placeAsset_eq_error_iff,
    holder?_eq_some_iff h.distinct, h.mem_entries_iff, AssetName.check_eq_error_iff]
  constructor
  · rintro (⟨before, tap, after, given, cause, htaps, hgiven, hcause, rfl⟩ |
      ⟨path, hpath, ⟨problem, hproblem, rfl⟩ |
        ⟨hcheck, _, ⟨other, ho, rfl, hother⟩, rfl⟩⟩)
    · exact .tap htaps hgiven hcause
    · exact .refused hpath hproblem
    · exact .taken hpath hcheck ho hother
  · rintro (⟨htaps, hgiven, hcause⟩ | ⟨hpath, hproblem⟩ | ⟨hpath, hcheck, ho, hother⟩)
    · exact .inl ⟨_, _, _, _, _, htaps, hgiven, hcause, rfl⟩
    · exact .inr ⟨_, hpath, .inl ⟨_, hproblem, rfl⟩⟩
    · exact .inr ⟨_, hpath, .inr ⟨hcheck, _, ⟨_, ho, rfl, hother⟩, rfl⟩⟩

/-- An asset is made only under a name that is not refused. -/
theorem check_eq_ok {path : String} (h : Assigned start chunks here)
    (hname : start.handedName start.assetPath.taps chunk.name = .ok path)
    (hok : (Compilation.createAsset chunk here).result = .ok ()) :
    AssetName.check path = .ok () := by
  cases hcheck : AssetName.check path with
  | ok => rfl
  | error error =>
      obtain ⟨problem, hproblem, -⟩ := AssetName.check_eq_error_iff.mp hcheck
      have hstops : Stops start chunks chunk _ := .refused hname hproblem
      rw [h.createAsset_eq_error_iff.mpr hstops] at hok
      cases hok

/-- One step, if it succeeds. -/
theorem createAsset (h : Assigned start chunks here) (hnew : chunk.name ∉ chunks.map Chunk.name)
    (hok : (Compilation.createAsset chunk here).result = .ok ()) :
    Assigned start (chunks ++ [chunk]) (Compilation.createAsset chunk here).state := by
  have hkey : chunk.name ∉ here.chunkAssets.keys := h.keys ▸ hnew
  have hrendered := rendered_createAsset h.rendered hkey hok
  have hnaming := h.naming.trans (sameNaming_createAsset chunk here)
  rcases createAsset_cases chunk here with ⟨path, -, hpath, hfree, hstate⟩ | ⟨⟨error, herror⟩, -⟩
  · have hname : start.handedName start.assetPath.taps chunk.name = .ok path := by
      rw [← h.naming.handedName, ← h.naming.assetPath]
      exact hpath
    have hcheck := h.check_eq_ok hname hok
    have hentries := Table.entries_insert_of_not_mem path hkey
    have hpaths : (Compilation.createAsset chunk here).state.paths = here.paths ++ [path] := by
      rw [hstate, paths, hentries, List.map_append, paths]
      rfl
    have hfresh := holder?_eq_none_iff.mp hfree
    refine ⟨hnaming, ?_, ?_, ?_, hrendered, ?_, ?_⟩
    · rw [hstate, Table.keys_insert, if_neg hkey, h.keys, List.map_append]
      rfl
    · rw [hstate, hentries]
      intro name held hentry
      rcases List.mem_append.mp hentry with hbefore | hlast
      · exact h.named name held hbefore
      · obtain ⟨rfl, rfl⟩ := Prod.mk.inj (List.mem_singleton.mp hlast)
        exact ⟨hname, hcheck⟩
    · rw [hpaths]
      exact List.concat_eq_append ▸ h.distinct.concat hfresh
    · rw [hpaths, List.filter_append, ← List.append_assoc, ← h.assets, hstate, Table.keys_insert]
      have hmem : path ∈ here.assets.keys ↔ path ∈ start.assets.keys := by
        rw [h.assets, List.mem_append, List.mem_filter]
        exact ⟨fun hpath => hpath.resolve_right fun hin => hfresh hin.1, .inl⟩
      by_cases hin : path ∈ start.assets.keys
      · simp [hmem, hin]
      · simp [hmem, hin]
    · rw [hpaths, hstate]
      intro index name text hother hentry
      rw [List.mem_append, not_or, List.mem_singleton] at hother
      exact Table.getElem?_entries_insert _ hother.2 (h.kept index name text hother.1 hentry)
  · rw [hok] at herror
    cases herror

/-- A whole run, if it succeeds. -/
theorem createAssetsOf {rest : List Chunk} (h : Assigned start chunks here)
    (hnames : ((chunks ++ rest).map Chunk.name).Nodup)
    (hok : (Compilation.createAssetsOf rest here).result = .ok ()) :
    Assigned start (chunks ++ rest) (Compilation.createAssetsOf rest here).state := by
  induction rest generalizing chunks here with
  | nil => rwa [List.append_nil]
  | cons chunk rest ih =>
      obtain ⟨_, hfirst, hrest, hstate⟩ := Action.bind_eq_ok hok
      rw [List.append_cons] at hnames ⊢
      have hnew : chunk.name ∉ chunks.map Chunk.name := by
        intro hin
        rw [List.map_append, List.map_append] at hnames
        exact (List.nodup_append.mp hnames.of_append_left).2.2 _ hin _
          (List.mem_singleton.mpr rfl) rfl
      rw [Compilation.createAssetsOf, hstate]
      exact ih (h.createAsset hnew hfirst) hnames hrest

end Assigned

/-! ### Whole runs -/

theorem createAssets_eq (state : Compilation) :
    (createAssets state).result = (createAssetsOf state.chunks state).result ∧
      (createAssets state).state = (createAssetsOf state.chunks state).state :=
  (@Action.bind_of_ok _ _ _ _ Action.get state (fun here => createAssetsOf here.chunks) state
    rfl).symm

theorem createAssetsOf_eq_ok_iff (hempty : start.chunkAssets = .empty)
    (hnames : (chunks.map Chunk.name).Nodup) :
    (createAssetsOf chunks start).result = .ok () ↔ Unstopped start chunks := by
  rw [createAssetsOf_eq_each]
  constructor
  · rintro hok earlier chunk later error rfl hstops
    have hearlier : (createAssetsOf earlier start).result = .ok () := by
      cases hresult : (createAssetsOf earlier start).result with
      | ok => rfl
      | error other =>
          rw [createAssetsOf_eq_each] at hresult
          rw [Action.each_append_eq_error _ hresult] at hok
          cases hok
    rw [List.map_append] at hnames
    have hassigned := (Assigned.refl hempty).createAssetsOf hnames.of_append_left hearlier
    have herror := hassigned.createAsset_eq_error_iff.mpr hstops
    rw [createAssetsOf_eq_each] at hearlier herror
    rw [Action.each_eq_error_iff.mpr ⟨earlier, chunk, later, rfl, hearlier, herror⟩] at hok
    cases hok
  · intro hnone
    cases hresult : (Action.each createAsset chunks start).result with
    | ok => rfl
    | error error =>
        obtain ⟨earlier, chunk, later, rfl, hearlier, hchunk⟩ := Action.each_eq_error_iff.mp hresult
        rw [← createAssetsOf_eq_each] at hearlier hchunk
        rw [List.map_append] at hnames
        have hassigned :=
          (Assigned.refl hempty).createAssetsOf hnames.of_append_left hearlier
        exact absurd (hassigned.createAsset_eq_error_iff.mp hchunk)
          (hnone earlier chunk later error rfl)

/-- Makes the assets of all chunks, of which none has one, whatever else is in memory. If it
succeeds, each chunk has got one under the name that the taps leave for it. It fails at the first
chunk for which a tap fails, or whose name is refused or is that of a chunk before it. -/
theorem createAssets_exact (hempty : start.chunkAssets = .empty)
    (hnames : (start.chunks.map Chunk.name).Nodup) :
    ((createAssets start).result = .ok () ↔ Unstopped start start.chunks) ∧
    ((createAssets start).result = .ok () →
      Assigned start start.chunks (createAssets start).state) ∧
    ∀ error, (createAssets start).result = .error error ↔ ∃ earlier chunk later,
      start.chunks = earlier ++ chunk :: later ∧ Unstopped start earlier ∧
        Stops start earlier chunk error := by
  obtain ⟨hresult, hstate⟩ := createAssets_eq start
  refine ⟨?_, ?_, fun error => ?_⟩
  · rw [hresult]
    exact createAssetsOf_eq_ok_iff hempty hnames
  · rw [hresult, hstate]
    exact (Assigned.refl hempty).createAssetsOf hnames
  · rw [createAssets_eq_error_iff]
    refine exists_congr fun earlier => exists_congr fun chunk => exists_congr fun later =>
      and_congr_right fun hchunks => ?_
    have hearlier : (earlier.map Chunk.name).Nodup := by
      rw [hchunks, List.map_append] at hnames
      exact hnames.of_append_left
    rw [← createAssetsOf_eq_ok_iff hempty hearlier]
    refine and_congr_right fun hok => ?_
    exact ((Assigned.refl hempty).createAssetsOf hearlier hok).createAsset_eq_error_iff

set_option maxRecDepth 100000 in
theorem createAssets_exact_emitted :
    let module (id : String) : Module := ⟨id, ⟨id⟩, [], [], "", ""⟩
    let state (taps : List (Tap AssetPathTap)) : Compilation :=
      { ofOptions (.ofContext ⟨"/r"⟩) with
        assetPath := ⟨.assetPath, taps⟩
        chunks := ["a", "b"].map fun name => ⟨name, module name, [module name]⟩
        assets := .ofList [("js/b.js", "old"), ("notes.txt", "kept")] }
    let folder : Tap AssetPathTap := ⟨"folder", fun data path =>
      Report.ok (if data.chunk = "b" then "js/" ++ path else path)⟩
    let single : Tap AssetPathTap := ⟨"single", fun _ _ => Report.ok "all.js"⟩
    let after := (createAssets (state [folder])).state
    after.paths = ["a.js", "js/b.js"] ∧ after.assets.keys = ["js/b.js", "notes.txt", "a.js"] ∧
      after.assets.entries[1]? = some ("notes.txt", "kept") ∧
      after.Rendered (state [folder]).chunks ∧
      (createAssets (state [folder, single])).result =
        .error (.invalidAsset "all.js" "chunks 'a' and 'b' share this path") := by
  intro module state folder single after
  have hnames : ∀ taps, ((state taps).chunks.map Chunk.name).Nodup := by
    intro taps
    change ["a", "b"].Nodup
    decide
  obtain ⟨-, hassigned, -⟩ := @createAssets_exact (state [folder]) rfl (hnames _)
  obtain ⟨-, -, hfails⟩ := @createAssets_exact (state [folder, single]) rfl (hnames _)
  have hok : (createAssets (state [folder])).result = .ok () := by decide +kernel
  have hpaths : after.paths = ["a.js", "js/b.js"] := by decide +kernel
  have hdone := hassigned hok
  refine ⟨hpaths, ?_, ?_, ?_, ?_⟩
  · rw [hdone.assets, hpaths]
    decide +kernel
  · exact hdone.kept 1 "notes.txt" "kept" (by rw [hpaths]; decide) (by decide +kernel)
  · exact hdone.rendered
  · have hfirst := (@createAssetsOf_eq_ok_iff (state [folder, single])
      [⟨"a", module "a", [module "a"]⟩] rfl (List.nodup_singleton _)).mp (by decide +kernel)
    exact (hfails _).mpr ⟨[_], _, [], rfl, hfirst,
      .taken rfl (by decide +kernel) (List.mem_singleton.mpr rfl) rfl⟩

end Bundler.Compilation
