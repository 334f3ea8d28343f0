import Bundler.Proofs.Script.Order.Program
import Mathlib.Data.List.Forall2

/-! What a program requires, from its text. A program is rewritten if each of its calls that
require names a file; if not, the first that does not is what is wrong with it. -/

namespace Bundler.Script

namespace Node

/-- The first argument of a call. -/
def firstArgument? (call : Node) : Option Node :=
  match call.children with
  | [_, _, .node _ _ _ _ (argument :: _)] => some argument
  | _ => none

theorem specifier?_children_eq_some {call : Node} {specifier : String} :
    Script.specifier? call.children = some specifier ↔
      ∃ argument raw lone, call.firstArgument? = some argument ∧
        argument.kind = .string specifier raw lone := by
  unfold Script.specifier? firstArgument?
  constructor
  · intro h
    split at h
    · next value raw lone _ _ _ _ _ heq =>
      obtain rfl := Option.some.inj h
      exact ⟨_, raw, lone, by rw [heq], rfl⟩
    · cases h
  · rintro ⟨⟨kind, start, stop, value, children⟩, raw, lone, hargument, rfl⟩
    split at hargument
    · next heq =>
      obtain rfl := Option.some.inj hargument
      rw [heq]
    · cases hargument

end Node

section Sequence

variable {α β ε : Type} {f : α → Except ε β} {items : List α}

theorem mapM_eq_ok_iff {values : List β} : items.mapM f = .ok values ↔
    List.Forall₂ (fun item value => f item = .ok value) items values := by
  induction items generalizing values with
  | nil => cases values <;> simp [pure, Except.pure]
  | cons item rest ih =>
      rw [List.mapM_cons]
      cases hitem : f item with
      | error error => cases values <;> simp [bind, Except.bind, hitem]
      | ok value =>
          cases hrest : rest.mapM f with
          | error error => cases values <;> simp [bind, Except.bind, ← ih, hrest, hitem]
          | ok others =>
              cases values <;>
                simp [bind, Except.bind, pure, Except.pure, ← ih, hrest, hitem]

theorem mem_of_mapM_eq_ok {values : List β} {item : α} {value : β}
    (h : items.mapM f = .ok values) (hitem : item ∈ items) (hvalue : f item = .ok value) :
    value ∈ values := by
  have hall := mapM_eq_ok_iff.mp h
  clear h
  induction hall with
  | nil => cases hitem
  | cons hfirst _ ih =>
      rcases List.mem_cons.mp hitem with rfl | hrest
      · obtain rfl := Except.ok.inj (hvalue.symm.trans hfirst)
        exact List.mem_cons_self
      · exact List.mem_cons_of_mem _ (ih hrest)

theorem exists_mapM_eq_ok_iff : (∃ values, items.mapM f = .ok values) ↔
    ∀ item ∈ items, ∃ value, f item = .ok value := by
  induction items with
  | nil => simp [pure, Except.pure]
  | cons item rest ih =>
      rw [List.mapM_cons, List.forall_mem_cons, ← ih]
      cases f item <;> cases rest.mapM f <;> simp [bind, Except.bind, pure, Except.pure]

/-- The first item that fails is what the whole fails with. -/
theorem mapM_eq_error {earlier later : List α} {item : α} {error : ε}
    (hearlier : ∀ other ∈ earlier, ∃ value, f other = .ok value) (hitem : f item = .error error) :
    (earlier ++ item :: later).mapM f = .error error := by
  induction earlier with
  | nil => rw [List.nil_append, List.mapM_cons, hitem]; rfl
  | cons first rest ih =>
      obtain ⟨⟨value, hfirst⟩, hrest⟩ := List.forall_mem_cons.mp hearlier
      rw [List.cons_append, List.mapM_cons, hfirst, ih hrest]
      rfl

end Sequence

namespace Requirer

variable {requirer : Requirer} {call : Node} {specifier : String} {path : Path}

/-- A call without a first argument that is a literal of a specifier that denotes a file. -/
def Offends (requirer : Requirer) (call : Node) : Prop :=
  ∀ argument specifier raw lone, call.firstArgument? = some argument →
    argument.kind = .string specifier raw lone → ∀ path, requirer.found specifier ≠ .ok path

theorem required_eq_ok : requirer.required call = .ok path ↔
    ∃ argument specifier raw lone, call.firstArgument? = some argument ∧
      argument.kind = .string specifier raw lone ∧ requirer.found specifier = .ok path := by
  have hrequired : requirer.required call = .ok path ↔
      ∃ specifier, Script.specifier? call.children = some specifier ∧
        requirer.found specifier = .ok path := by
    unfold required
    cases Script.specifier? call.children <;> simp
  simp only [hrequired, Node.specifier?_children_eq_some]
  grind

theorem offends_iff : requirer.Offends call ↔ ∀ path, requirer.required call ≠ .ok path := by
  simp only [ne_eq, required_eq_ok, Offends]
  grind

theorem found_eq_error (h : ∀ path, requirer.found specifier ≠ .ok path) :
    requirer.found specifier = .error (.moduleNotFound specifier requirer.base) := by
  unfold found Resolver.resolve at h ⊢
  split at h
  · next path _ => exact absurd rfl (h path)
  · rfl

/-- The error of a call whose first argument is no literal. -/
theorem required_eq_dynamicRequire
    (h : ∀ argument specifier raw lone, call.firstArgument? = some argument →
      argument.kind ≠ .string specifier raw lone) :
    requirer.required call =
      .error (.dynamicRequire requirer.id (Text.Location.ofOffset requirer.source call.start)) := by
  unfold required
  cases hspecifier : Script.specifier? call.children with
  | none => rfl
  | some specifier =>
      obtain ⟨argument, raw, lone, hargument, hkind⟩ :=
        Node.specifier?_children_eq_some.mp hspecifier
      exact absurd hkind (h argument specifier raw lone hargument)

/-- The error of a call with a literal that denotes no file. -/
theorem required_eq_moduleNotFound {argument : Node} {raw : String} {lone : Bool}
    (hoffends : requirer.Offends call) (hargument : call.firstArgument? = some argument)
    (hkind : argument.kind = .string specifier raw lone) :
    requirer.required call = .error (.moduleNotFound specifier requirer.base) := by
  have hspecifier := Node.specifier?_children_eq_some.mpr ⟨argument, raw, lone, hargument, hkind⟩
  unfold required
  rw [hspecifier]
  exact found_eq_error (hoffends argument specifier raw lone hargument hkind)

end Requirer

section Rewriting

variable {disk : Disk} {resolver : Resolver} {source id : String} {path : Path} {program : Program}

/-- What rewriting fails with is what its calls fail with. -/
theorem rewrite_map_of_read (hread : Program.read (.ofPath path) source.toList = .ok program) :
    (Script.rewrite disk resolver source path id).result.map (fun _ => ()) =
      (program.tree.calls.mapM (Requirer.required
        ⟨disk, resolver, source.toList, id, path.parent?.getD resolver.root⟩)).map
          fun _ => () := by
  rw [← (Requirer.rewrite_calls _ program.tree).1]
  unfold Script.rewrite
  simp only [hread]
  split <;> next h => rw [h]; rfl

end Rewriting

/-- Rewriting a program fails just when one of its calls offends. It fails with what is wrong with
the first of them in the text, whatever stands behind that. -/
theorem rewrite_fails_first {disk : Disk} {resolver : Resolver} {source id : String} {path : Path}
    {program : Program} (hread : Program.read (.ofPath path) source.toList = .ok program) :
    let base := path.parent?.getD resolver.root
    let requirer : Requirer := ⟨disk, resolver, source.toList, id, base⟩
    let result := (Script.rewrite disk resolver source path id).result
    (program.tree.calls.map Tree.start).Pairwise (· < ·) ∧
      ((∃ error, result = .error error) ↔ ∃ call ∈ program.tree.calls, requirer.Offends call) ∧
      ∀ earlier call later, program.tree.calls = earlier ++ call :: later →
        (∀ other ∈ earlier, ¬ requirer.Offends other) → requirer.Offends call →
        ((∀ argument specifier raw lone, call.firstArgument? = some argument →
            argument.kind ≠ .string specifier raw lone) →
          result = .error (.dynamicRequire id (Text.Location.ofOffset source.toList call.start))) ∧
        ∀ argument specifier raw lone, call.firstArgument? = some argument →
          argument.kind = .string specifier raw lone →
          result = .error (.moduleNotFound specifier base) := by
  intro base requirer result
  have hmap : result.map (fun _ => ()) =
      (program.tree.calls.mapM requirer.required).map fun _ => () :=
    rewrite_map_of_read hread
  have hresult (error : BuildError) : result = .error error ↔
      program.tree.calls.mapM requirer.required = .error error := by
    revert hmap
    cases result <;> cases program.tree.calls.mapM requirer.required <;> simp [Except.map]
    rintro rfl
    exact Iff.rfl
  refine ⟨Program.calls_ascend hread, ?_, fun earlier call later hcalls hearlier hcall => ?_⟩
  · have hfails : (∃ error, program.tree.calls.mapM requirer.required = .error error) ↔
        ¬ ∃ paths, program.tree.calls.mapM requirer.required = .ok paths := by
      cases program.tree.calls.mapM requirer.required <;> simp
    simp only [hresult, hfails, exists_mapM_eq_ok_iff, Requirer.offends_iff]
    push Not
    rfl
  · have hwrong {error : BuildError} (herror : requirer.required call = .error error) :
        result = .error error := by
      rw [hresult, hcalls]
      refine mapM_eq_error (fun other hother => ?_) herror
      have hfine := mt Requirer.offends_iff.mpr (hearlier other hother)
      push Not at hfine
      exact hfine
    exact ⟨fun h => hwrong (Requirer.required_eq_dynamicRequire h),
      fun argument specifier raw lone hargument hkind =>
        hwrong (Requirer.required_eq_moduleNotFound hcall hargument hkind)⟩

/-- The second call offends, before the one inside it and the one behind it. -/
theorem rewrite_fails_first_nested :
    let disk : Disk := ⟨⟨[(["r"], .directory), (["r", "a.js"], .file "".toUTF8)]⟩, []⟩
    let source : String := "require('./a');\nrequire(require('./b'));\nrequire('./c');"
    (Program.read (.ofPath ⟨"/r/i.js"⟩) source.toList).isOk = true ∧
      (Script.rewrite disk (.ofRoot ⟨"/r"⟩ [".js"]) source ⟨"/r/i.js"⟩ "./i.js").result =
        .error (.dynamicRequire "./i.js" ⟨2, 1⟩) := by
  intro disk source
  have hread : (Program.read (.ofPath ⟨"/r/i.js"⟩) source.toList).isOk = true := by
    decide +kernel
  have hcalls : (Program.read (.ofPath ⟨"/r/i.js"⟩) source.toList).toOption.map (fun program =>
      program.tree.calls.map fun call => (call.start, Script.specifier? call.children)) =
        some [(0, some "./a"), (16, none), (24, some "./b"), (41, some "./c")] := by
    decide +kernel
  have hfound : (Requirer.found ⟨disk, .ofRoot ⟨"/r"⟩ [".js"], source.toList, "./i.js", ⟨"/r"⟩⟩
      "./a").isOk = true := by decide +kernel
  have hlocation : Text.Location.ofOffset source.toList 16 = ⟨2, 1⟩ := by decide +kernel
  obtain ⟨program, hprogram⟩ := exists_eq_ok hread
  rw [hprogram] at hcalls
  obtain ⟨first, later, hlist, hfirst, hlater⟩ :=
    List.map_eq_cons_iff.mp (Option.some.inj hcalls)
  obtain ⟨second, last, rfl, hsecond, -⟩ := List.map_eq_cons_iff.mp hlater
  obtain ⟨argument, raw, lone, hargument, hkind⟩ :=
    Node.specifier?_children_eq_some.mp (Prod.mk.inj hfirst).2
  obtain ⟨file, hfile⟩ := exists_eq_ok hfound
  have hliteral : ∀ argument specifier raw lone, second.firstArgument? = some argument →
      argument.kind ≠ .string specifier raw lone :=
    fun argument specifier raw lone hargument hkind => by
      have hsome := Node.specifier?_children_eq_some.mpr ⟨argument, raw, lone, hargument, hkind⟩
      cases (Prod.mk.inj hsecond).2.symm.trans hsome
  have herror := ((rewrite_fails_first hprogram).2.2 [first] second last hlist
    (List.forall_mem_singleton.mpr fun hoffends =>
      hoffends argument "./a" raw lone hargument hkind file hfile)
    fun argument specifier raw lone hargument hkind =>
      absurd hkind (hliteral argument specifier raw lone hargument)).1 hliteral
  refine ⟨hread, herror.trans ?_⟩
  rw [(Prod.mk.inj hsecond).1, hlocation]

/-- A program that is rewritten differs from what was read in its calls that require, and nowhere
else. The dependencies are the files that these calls name. -/
theorem rewrite_redirects_calls {disk : Disk} {resolver : Resolver} {source id : String}
    {path : Path} {rewritten : Rewritten}
    (h : (Script.rewrite disk resolver source path id).result = .ok rewritten) :
    let requirer : Requirer :=
      ⟨disk, resolver, source.toList, id, path.parent?.getD resolver.root⟩
    ∃ program tree paths, Program.read (.ofPath path) source.toList = .ok program ∧
      (program.tree.calls.map Tree.start).Pairwise (· < ·) ∧
      rewritten.code = Program.render ⟨tree, program.comments⟩ (Dialect.ofPath path).markup ∧
      requirer.Turns program.tree tree ∧
      List.Forall₂ (fun call file => ∃ argument specifier raw lone,
        call.firstArgument? = some argument ∧ argument.kind = .string specifier raw lone ∧
          (resolver.resolve disk requirer.base specifier).result = .ok file)
        program.tree.calls paths ∧
      rewritten.dependencies.keys = (paths.map resolver.moduleId).eraseDups ∧
      ∀ key, rewritten.dependencies.get? key =
        paths.find? fun file => resolver.moduleId file == key := by
  intro requirer
  obtain ⟨program, tree, hread, htree, hcode, htable⟩ := rewrite_eq_ok h
  obtain ⟨paths, hpaths, hrecords⟩ := Requirer.exists_paths htree
  have hrecord : rewritten.dependencies = paths.foldl requirer.record .empty :=
    htable.trans hrecords
  refine ⟨program, tree, paths, hread, Program.calls_ascend hread, hcode,
    Requirer.turns_rewrite program.tree htree, ?_, ?_, fun key => ?_⟩
  · exact (mapM_eq_ok_iff.mp hpaths).imp fun _ _ => Requirer.required_eq_ok.mp
  · rw [hrecord, Requirer.keys_foldl_record]
  · rw [hrecord, Requirer.get?_foldl_record]

/-- Two of three calls name the same file, one of them inside the first. A call of a member is none
of them. -/
theorem rewrite_redirects_calls_nested :
    let disk : Disk := ⟨⟨[(["r"], .directory), (["r", "a.js"], .file "".toUTF8),
      (["r", "b.js"], .file "".toUTF8)]⟩, []⟩
    let source : String := "require('./b', require('./a'));\nx.require('./c');\nrequire('./a.js');"
    let requirer : Requirer := ⟨disk, .ofRoot ⟨"/r"⟩ [".js"], source.toList, "./i.js", ⟨"/r"⟩⟩
    ∃ rewritten program tree,
      (Script.rewrite disk (.ofRoot ⟨"/r"⟩ [".js"]) source ⟨"/r/i.js"⟩ "./i.js").result =
        .ok rewritten ∧
      Program.read (.ofPath ⟨"/r/i.js"⟩) source.toList = .ok program ∧
      program.tree.calls.map Tree.start = [0, 15, 50] ∧ requirer.Turns program.tree tree ∧
      rewritten.code = Program.render ⟨tree, program.comments⟩ false ∧
      rewritten.dependencies.keys = ["./b.js", "./a.js"] ∧
      rewritten.dependencies.get? "./a.js" = some ⟨"/r/a.js"⟩ := by
  intro disk source requirer
  have hok : (Script.rewrite disk (.ofRoot ⟨"/r"⟩ [".js"]) source ⟨"/r/i.js"⟩
      "./i.js").result.isOk = true := by decide +kernel
  have hdependencies : (Script.rewrite disk (.ofRoot ⟨"/r"⟩ [".js"]) source ⟨"/r/i.js"⟩
      "./i.js").result.toOption.map (fun rewritten =>
        (rewritten.dependencies.keys, rewritten.dependencies.get? "./a.js")) =
          some (["./b.js", "./a.js"], some ⟨"/r/a.js"⟩) := by decide +kernel
  have hstarts : (Program.read (.ofPath ⟨"/r/i.js"⟩) source.toList).toOption.map (fun program =>
      program.tree.calls.map Tree.start) = some [0, 15, 50] := by decide +kernel
  obtain ⟨rewritten, h⟩ := exists_eq_ok hok
  rw [h] at hdependencies
  obtain ⟨hkeys, hget⟩ := Prod.mk.inj (Option.some.inj hdependencies)
  obtain ⟨program, tree, paths, hread, -, hcode, hturns, -⟩ := rewrite_redirects_calls h
  rw [hread] at hstarts
  exact ⟨rewritten, program, tree, h, hread, Option.some.inj hstarts, hturns, hcode, hkeys, hget⟩

end Bundler.Script
