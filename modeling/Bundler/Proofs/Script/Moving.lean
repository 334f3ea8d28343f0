import Bundler.Proofs.Disk.Below
import Bundler.Proofs.Script.Specifiers

/-! Programs that are rewritten at two roots. The ids that a program's calls are redirected to are
those of the files that its specifiers denote, so that the same code comes out wherever these are at
the same places below the root. -/

namespace Bundler

/-- Two paths lead to the same place below two roots. -/
def Path.Twin (first second : Place) (path other : Path) : Prop :=
  ∃ names, Path.Twins first second names path other

namespace Script

variable {first second : Place}

namespace Requirer

variable {requirer other : Requirer} {kind : Kind} {children : List Node}
  {specifier : String} {states : Table Path → Table Path → Prop}
  {dependencies dependencies' : Table Path}

/-- Files at the same place are entered under the same id. -/
theorem depend_alike (hmoved : Resolver.Moved first second requirer.resolver other.resolver)
    (hresolve : Alike (Path.Twin first second)
      (requirer.resolver.resolve requirer.disk requirer.base specifier).result
      (other.resolver.resolve other.disk other.base specifier).result)
    (h : dependencies.Alike (Path.Twin first second) dependencies') :
    Outcome.Alike (Table.Alike (Path.Twin first second)) Eq
      (requirer.depend specifier dependencies) (other.depend specifier dependencies') := by
  rw [depend, depend]
  refine Action.alike_bind (Action.alike_ofReport h hresolve) fun path path' _ _ htwin => ?_
  have hid : requirer.resolver.moduleId path = other.resolver.moduleId path' := by
    obtain ⟨names, htwins⟩ := htwin
    exact hmoved.moduleId_eq htwins
  rw [hid]
  refine Action.alike_bind (Action.alike_log _ _ h) fun _ _ _ _ _ => ?_
  refine ⟨?_, .ok rfl⟩
  change Table.Alike (Path.Twin first second)
    (if dependencies.contains (other.resolver.moduleId path') then dependencies
      else dependencies.insert (other.resolver.moduleId path') path)
    (if dependencies'.contains (other.resolver.moduleId path') then dependencies'
      else dependencies'.insert (other.resolver.moduleId path') path')
  rw [Table.contains, Table.contains, h.keys_eq]
  split
  · exact h
  · exact h.insert _ htwin

theorem target?_alike (kind : Kind) (start : Nat) (h : states dependencies dependencies')
    (hdepend : ∀ specifier, isRequire kind children = true → specifier? children = some specifier →
      Outcome.Alike states Eq (requirer.depend specifier dependencies)
        (other.depend specifier dependencies')) :
    Outcome.Alike states Eq (requirer.target? kind start children dependencies)
      (other.target? kind start children dependencies') := by
  unfold target?
  by_cases hrequire : isRequire kind children = true
  · rw [if_pos hrequire, if_pos hrequire]
    cases hspecifier : specifier? children with
    | none => exact ⟨h, .error _ _⟩
    | some specifier =>
        exact Action.alike_map (hdepend specifier hrequire hspecifier) fun _ _ => congrArg some
  · rw [if_neg hrequire, if_neg hrequire]
    exact ⟨h, .ok rfl⟩

mutual

/-- A program is rewritten alike by two requirers that enter its specifiers alike. -/
theorem rewrite_alike (requirer other : Requirer) {dependencies dependencies' : Table Path}
    (h : states dependencies dependencies') :
    ∀ node : Node, (∀ specifier ∈ specifiers node, ∀ before before', states before before' →
      Outcome.Alike states Eq (requirer.depend specifier before)
        (other.depend specifier before')) →
      Outcome.Alike states Eq (requirer.rewrite node dependencies)
        (other.rewrite node dependencies')
  | .node kind start stop () children, hdepend => by
      rw [rewrite, rewrite]
      have htarget := target?_alike kind start h
        fun specifier hrequire hspecifier =>
          hdepend specifier (mem_specifiers_node.mpr (.inl ⟨hrequire, hspecifier⟩)) _ _ h
      refine Action.alike_bind htarget ?_
      rintro target _ - - rfl
      have hinner := rewriteAll_alike requirer other htarget.state children
        fun child hchild specifier hmem =>
          hdepend specifier (mem_specifiers_node.mpr (.inr ⟨child, hchild, hmem⟩))
      refine Action.alike_bind hinner ?_
      rintro inner _ - - rfl
      exact ⟨hinner.state, .ok rfl⟩

theorem rewriteAll_alike (requirer other : Requirer) {dependencies dependencies' : Table Path}
    (h : states dependencies dependencies') :
    ∀ nodes : List Node, (∀ node ∈ nodes, ∀ specifier ∈ specifiers node,
      ∀ before before', states before before' →
        Outcome.Alike states Eq (requirer.depend specifier before)
          (other.depend specifier before')) →
      Outcome.Alike states Eq (requirer.rewriteAll nodes dependencies)
        (other.rewriteAll nodes dependencies')
  | [], _ => ⟨h, .ok rfl⟩
  | node :: rest, hdepend => by
      rw [rewriteAll, rewriteAll]
      have hfirst := rewrite_alike requirer other h node (hdepend node List.mem_cons_self)
      refine Action.alike_bind hfirst ?_
      rintro head _ - - rfl
      have hothers := rewriteAll_alike requirer other hfirst.state rest
        fun child hchild => hdepend child (List.mem_cons_of_mem node hchild)
      refine Action.alike_bind hothers ?_
      rintro tail _ - - rfl
      exact ⟨hothers.state, .ok rfl⟩

end

end Requirer

/-- A text is rewritten alike at two roots if its specifiers denote files at the same places. -/
theorem rewrite_alike {disk other : Disk} {resolver resolver' : Resolver} {source : String}
    {names : List String} {path path' : Path}
    (hmoved : Resolver.Moved first second resolver resolver')
    (htwins : Path.Twins first second names path path')
    (hresolve : ∀ specifier ∈ specifiersOf path source, Alike (Path.Twin first second)
      (resolver.resolve disk (path.parent?.getD resolver.root) specifier).result
      (resolver'.resolve other (path'.parent?.getD resolver'.root) specifier).result)
    (id : String) :
    Alike (fun rewritten rewritten' => rewritten.code = rewritten'.code ∧
        rewritten.dependencies.Alike (Path.Twin first second) rewritten'.dependencies)
      (rewrite disk resolver source path id).result
      (rewrite other resolver' source path' id).result := by
  unfold rewrite
  unfold specifiersOf at hresolve
  rw [← htwins.dialect_eq]
  cases hread : Program.read (.ofPath path) source.toList with
  | error place =>
      simp only [hread]
      exact .error _ _
  | ok program =>
      simp only [hread] at hresolve ⊢
      have hprogram := Requirer.rewrite_alike
        ⟨disk, resolver, source.toList, id, path.parent?.getD resolver.root⟩
        ⟨other, resolver', source.toList, id, path'.parent?.getD resolver'.root⟩
        Table.alike_empty program.tree
        fun specifier hspecifier before before' hbefore =>
          Requirer.depend_alike hmoved (hresolve specifier hspecifier) hbefore
      obtain ⟨hstate, hresult⟩ := hprogram
      generalize Requirer.rewrite _ program.tree .empty = outcome at hstate hresult ⊢
      generalize Requirer.rewrite _ program.tree .empty = outcome' at hstate hresult ⊢
      obtain ⟨table, events, result⟩ := outcome
      obtain ⟨table', events', result'⟩ := outcome'
      cases hresult with
      | error error error' => exact .error error error'
      | ok hsame =>
          obtain rfl := hsame
          exact .ok ⟨rfl, hstate⟩

end Script

end Bundler
