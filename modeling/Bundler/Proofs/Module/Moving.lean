import Bundler.Proofs.Graph.Unplaced
import Bundler.Proofs.Module.Sources
import Bundler.Proofs.Script.Moving

/-! Builds of one tree at two roots. They go in step: whatever is visited at one root is visited at
the same place below the other, and what is made of it differs in its path only. -/

namespace Bundler

/-! ### Loaders -/

namespace LoaderRegistry

/-- What a loader makes of a text depends on the entry at most, and not on where the file is. -/
def IsBlind (registry : LoaderRegistry) : Prop :=
  ∀ name loader, registry.get? name = some loader → ∀ source context context',
    context.entry = context'.entry →
      Alike Eq (loader source context).result (loader source context').result

theorem isBlind_builtin : builtin.IsBlind := by
  intro name loader hloader source context context' _
  have hbuiltin : builtin.loaders = [("json", Loader.json), ("strip-bom", Loader.stripMark)] := rfl
  have hcases : loader = Loader.json ∨ loader = Loader.stripMark := by
    rw [get?, hbuiltin, List.lookup_cons, List.lookup_cons] at hloader
    split at hloader
    · exact .inl (Option.some.inj hloader).symm
    · split at hloader
      · exact .inr (Option.some.inj hloader).symm
      · cases hloader
  rcases hcases with rfl | rfl
  · unfold Loader.json
    dsimp only
    cases Json.parse (Loader.withoutMark source) with
    | error reason => exact .error _ _
    | ok value => exact .ok rfl
  · exact .ok rfl

end LoaderRegistry

namespace Loader

variable {registry : LoaderRegistry} {context context' : LoaderContext}

theorem runAll_alike (hblind : registry.IsBlind) (hentry : context.entry = context'.entry)
    (names : List String) (source : String) :
    Alike Eq (runAll registry context names source).result
      (runAll registry context' names source).result := by
  induction names generalizing source with
  | nil => exact .ok rfl
  | cons name rest ih =>
      have hnamed : Alike Eq (runNamed registry context name source).result
          (runNamed registry context' name source).result := by
        unfold runNamed
        cases hloader : registry.get? name with
        | none => exact .error _ _
        | some loader =>
            refine Report.alike_bind (Report.alike_log _ _) fun _ _ _ _ _ => ?_
            exact Report.alike_mapError (hblind name loader hloader source context context' hentry)
      rw [runAll, runAll]
      refine Report.alike_bind hnamed ?_
      rintro next _ - - rfl
      exact ih next

/-- A text is loaded alike wherever its file is, as far as the same rules apply there. -/
theorem apply_alike {rules : List Rule} (context context' : LoaderContext)
    (hblind : registry.IsBlind) (hentry : context.entry = context'.entry)
    (hrules : ∀ rule ∈ rules, rule.appliesTo context.resource = rule.appliesTo context'.resource)
    (source : String) :
    Alike Eq (apply rules registry context source).result
      (apply rules registry context' source).result := by
  have hmatching : matching rules context.resource = matching rules context'.resource := by
    rw [matching, matching, List.filter_congr hrules]
  rw [apply, apply, hmatching]
  exact runAll_alike hblind hentry _ source

end Loader

namespace Workshop

variable {first second : Place} {tree : FileTree} {shop moved : Workshop} {entry : String}

/-! ### What has to be alike -/

/-- A workshop at another root, on a disk where the same tree stands. -/
structure Moved (first second : Place) (tree : FileTree) (shop moved : Workshop) : Prop where
  below : shop.disk.HasBelow first tree
  below' : moved.disk.HasBelow second tree
  resolver : Resolver.Moved first second shop.resolver moved.resolver
  rules : moved.rules = shop.rules
  loaders : moved.loaders = shop.loaders
  blind : shop.loaders.IsBlind

/-- The place below a root of the file of a try. -/
def Attempt.below (root : Place) (attempt : Attempt) : Place :=
  (attempt.visit.path.place []).drop root.length

/-- A try that may be made at another root: the specifiers in the file stay below the root, and the
same rules apply to the file at the same place below the other root. -/
structure Attempt.IsMovable (first second : Place) (attempt : Attempt) : Prop where
  specifiers : ∀ specifier ∈ attempt.specifiers,
    (Path.mk specifier).Stays (attempt.below first).dropLast
  rules : ∀ rule ∈ attempt.shop.rules, rule.appliesTo attempt.visit.path.unixText =
    rule.appliesTo (Path.rooted (second ++ attempt.below first)).unixText

instance (first second : Place) (attempt : Attempt) :
    Decidable (attempt.IsMovable first second) :=
  decidable_of_iff ((∀ specifier ∈ attempt.specifiers,
      (Path.mk specifier).Stays (attempt.below first).dropLast) ∧
    ∀ rule ∈ attempt.shop.rules, rule.appliesTo attempt.visit.path.unixText =
      rule.appliesTo (Path.rooted (second ++ attempt.below first)).unixText)
    ⟨fun h => ⟨h.1, h.2⟩, fun h => ⟨h.specifiers, h.rules⟩⟩

end Workshop

/-- Two visits under one id, at the same place below two roots. -/
structure Visit.Twin (first second : Place) (visit other : Visit) : Prop where
  id : visit.id = other.id
  path : Path.Twin first second visit.path other.path

namespace Workshop

variable {first second : Place} {tree : FileTree} {shop moved : Workshop} {entry : String}

/-! ### One module -/

/-- The specifiers in a file that may be moved denote files at the same places. -/
theorem Moved.resolve_alike {names : List String} {path path' : Path} {specifier : String}
    (hmoved : Moved first second tree shop moved)
    (htwins : Path.Twins first second names path path')
    (hstays : (Path.mk specifier).Stays names.dropLast) :
    Alike (Path.Twin first second)
      (shop.resolver.resolve shop.disk (path.parent?.getD shop.resolver.root) specifier).result
      (moved.resolver.resolve moved.disk
        (path'.parent?.getD moved.resolver.root) specifier).result := by
  obtain ⟨habsolute, hhere⟩ := Path.place_of_parent htwins.proper htwins.below shop.resolver.root
  obtain ⟨habsolute', hhere'⟩ :=
    Path.place_of_parent htwins.proper' htwins.below moved.resolver.root
  rw [← htwins.path_eq] at habsolute hhere
  rw [← htwins.other_eq] at habsolute' hhere'
  exact Resolver.resolve_alike hmoved.below hmoved.below' hmoved.resolver habsolute habsolute'
    hhere hhere' hstays

/-- Two files at the same place below two roots become modules that differ in their paths only. -/
theorem buildModule_alike {visit other : Visit} (hmoved : Moved first second tree shop moved)
    (htwin : Visit.Twin first second visit other)
    (hmovable : Attempt.IsMovable first second ⟨shop, entry, visit⟩) :
    Alike (fun built built' => built.1.unplaced = built'.1.unplaced ∧
        List.Forall₂ (Visit.Twin first second) built.2 built'.2)
      (shop.buildModule entry visit).result (moved.buildModule entry other).result := by
  obtain ⟨id, path⟩ := visit
  obtain ⟨id', path'⟩ := other
  obtain ⟨hid, names, htwins⟩ := htwin
  obtain rfl : id = id' := hid
  have hbelow : Attempt.below first ⟨shop, entry, ⟨id, path⟩⟩ = names := by
    rw [Attempt.below, htwins.path_eq, Path.place_rooted htwins.proper, List.drop_left]
  obtain ⟨hspecifiers, hrules⟩ := hmovable
  rw [hbelow, ← htwins.other_eq] at hrules
  rw [hbelow] at hspecifiers
  have hread : Alike Eq ((shop.disk.readText path).mapError (BuildError.ofFile path))
      ((moved.disk.readText path').mapError (BuildError.ofFile path')) :=
    (hmoved.below.readText_alike hmoved.below' htwins).mapError
  rw [buildModule, buildModule, hmoved.rules, hmoved.loaders]
  refine Report.alike_bind (Report.alike_ofExcept hread) ?_
  rintro source _ hsource - rfl
  have hsource' : shop.disk.readText path = .ok source := mapError_eq_ok hsource
  refine Report.alike_bind (Loader.apply_alike ⟨path, shop.resolver.root, entry⟩
    ⟨path', moved.resolver.root, entry⟩ hmoved.blind rfl hrules source) ?_
  rintro loaded _ happlied - rfl
  have hall : Attempt.specifiers ⟨shop, entry, ⟨id, path⟩⟩ = Script.specifiersOf path loaded :=
    Attempt.specifiers_eq hsource' happlied
  refine Report.alike_bind (Script.rewrite_alike hmoved.resolver htwins
    (fun specifier hspecifier => hmoved.resolve_alike htwins
      (hspecifiers specifier (hall ▸ hspecifier))) id) ?_
  rintro rewritten rewritten' - - ⟨hcode, hdependencies⟩
  refine Report.alike_bind (Report.alike_log _ _) fun _ _ _ _ _ => .ok ⟨?_, ?_⟩
  · simp only [Module.unplaced, hcode, hdependencies.keys_eq]
  · rw [List.forall₂_map_left_iff, List.forall₂_map_right_iff]
    exact hdependencies.imp fun dependency dependency' h => ⟨h.1, h.2⟩

/-! ### All modules of an entry -/

/-- Two runs go in step. -/
theorem Run.alike {fuel : Nat} {stack stack' log : List Visit} {graph graph' : Graph}
    {outcome : Outcome Graph BuildError Unit} (hmoved : Moved first second tree shop moved)
    (hstack : List.Forall₂ (Visit.Twin first second) stack stack') (hgraph : graph.Alike graph')
    (h : shop.Run entry fuel stack graph log outcome)
    (hmovable : ∀ visit ∈ log, Attempt.IsMovable first second ⟨shop, entry, visit⟩) :
    ∃ log' outcome', moved.Run entry fuel stack' graph' log' outcome' ∧
      Outcome.Alike Graph.Alike Eq outcome outcome' := by
  induction h generalizing stack' graph' with
  | done =>
      cases hstack
      exact ⟨_, _, .done, hgraph, .ok rfl⟩
  | again hid _ ih =>
      obtain ⟨visit', rest', htwin, hrest, rfl⟩ := List.forall₂_cons_left_iff.mp hstack
      have hid' : visit'.id ∈ graph'.ids := by rwa [← htwin.id, ← hgraph.ids_eq]
      obtain ⟨log', outcome', hrun, halike⟩ := ih hrest (hgraph.addOwner _ _) hmovable
      rw [htwin.id] at hrun
      exact ⟨log', outcome', .again hid' hrun, halike⟩
  | fail hid hbuilt =>
      obtain ⟨visit', rest', htwin, hrest, rfl⟩ := List.forall₂_cons_left_iff.mp hstack
      have hid' : visit'.id ∉ graph'.ids := by rwa [← htwin.id, ← hgraph.ids_eq]
      have hboth := buildModule_alike hmoved htwin (hmovable _ (by simp))
      cases hbuilt' : (moved.buildModule entry visit').result with
      | error error' => exact ⟨_, _, .fail hid' hbuilt', hgraph, .error _ error'⟩
      | ok built =>
          rw [hbuilt, hbuilt'] at hboth
          cases hboth
  | build hid hbuilt _ ih =>
      obtain ⟨visit', rest', htwin, hrest, rfl⟩ := List.forall₂_cons_left_iff.mp hstack
      have hid' : visit'.id ∉ graph'.ids := by rwa [← htwin.id, ← hgraph.ids_eq]
      obtain ⟨hvisit, hlater⟩ := List.forall_mem_cons.mp hmovable
      have hboth := buildModule_alike hmoved htwin hvisit
      cases hbuilt' : (moved.buildModule entry visit').result with
      | error error' =>
          rw [hbuilt, hbuilt'] at hboth
          cases hboth
      | ok built' =>
          obtain ⟨module', dependencies'⟩ := built'
          obtain ⟨hmodule, hnew⟩ := hboth.rel_of_ok hbuilt hbuilt'
          obtain ⟨log', outcome', hrun, hstate, hresult⟩ :=
            ih (List.rel_append hnew hrest) (hgraph.insert hmodule) hlater
          exact ⟨_, _, .build hid' hbuilt' hrun, hstate, hresult⟩

/-- The build of an entry goes the same way at both roots. -/
theorem buildEntry_alike {path path' : Path} {graph graph' : Graph}
    (hmoved : Moved first second tree shop moved) (htwin : Path.Twin first second path path')
    (hgraph : graph.Alike graph')
    (hmovable : ∀ attempt ∈ Call.attempts ⟨shop, entry, path⟩ graph,
      attempt.IsMovable first second) :
    Outcome.Alike Graph.Alike Eq (shop.buildEntry entry path graph)
      (moved.buildEntry entry path' graph') := by
  obtain ⟨log, outcome, hends, hattempts, hrun⟩ := Call.exists_log ⟨shop, entry, path⟩ graph
  obtain ⟨outcome', houtcome'⟩ := visitFrom_visitBound_isSome moved entry path' graph'
  obtain ⟨_, hends'⟩ := exists_run houtcome'
  have hid : shop.resolver.moduleId path = moved.resolver.moduleId path' := by
    obtain ⟨names, htwins⟩ := htwin
    exact hmoved.resolver.moduleId_eq htwins
  have hstack : List.Forall₂ (Visit.Twin first second)
      [⟨shop.resolver.moduleId path, path⟩] [⟨moved.resolver.moduleId path', path'⟩] :=
    .cons ⟨hid, htwin⟩ .nil
  obtain ⟨_, there, hthere, hstate, hresult⟩ := hends.alike hmoved hstack hgraph
    fun visit hvisit => hmovable ⟨shop, entry, visit⟩ (hattempts ▸ List.mem_map_of_mem hvisit)
  change Outcome.Alike Graph.Alike Eq (Call.run ⟨shop, entry, path⟩ graph) _
  -- the bounds may differ, but both suffice
  rw [hrun, buildEntry, houtcome', hends'.outcome_eq hthere]
  refine ⟨hstate, ?_⟩
  exact hresult.map fun _ _ _ => hid

end Workshop

end Bundler
