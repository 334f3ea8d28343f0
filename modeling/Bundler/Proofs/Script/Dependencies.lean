import Bundler.Proofs.Resolver
import Bundler.Proofs.Script.Redirection

/-! What the rewriting of a program records. Each dependency is a file that one of the specifiers
denotes, under the id of the file. -/

namespace Bundler

namespace Script

namespace Requirer

/-- Every dependency is a file that a specifier denotes, under the id of the file. -/
def Recorded (requirer : Requirer) (table : Table Path) : Prop :=
  ∀ dependency ∈ table.entries, dependency.1 = requirer.resolver.moduleId dependency.2 ∧
    ∃ specifier,
      (requirer.resolver.resolve requirer.disk requirer.base specifier).result = .ok dependency.2

/-- No dependency is added that is not recorded rightly. -/
def KeepsRecord (requirer : Requirer) (before after : Table Path) : Prop :=
  requirer.Recorded before → requirer.Recorded after

theorem KeepsRecord.refl (requirer : Requirer) (table : Table Path) :
    requirer.KeepsRecord table table :=
  fun h => h

theorem KeepsRecord.trans {requirer : Requirer} {first second third : Table Path}
    (h : requirer.KeepsRecord first second) (h' : requirer.KeepsRecord second third) :
    requirer.KeepsRecord first third :=
  fun hfirst => h' (h hfirst)

theorem keepsRecord_depend (requirer : Requirer) (specifier : String) (table : Table Path) :
    requirer.KeepsRecord table (requirer.depend specifier table).state := by
  intro h
  cases hr : (requirer.resolver.resolve requirer.disk requirer.base specifier).result with
  | error error => rwa [(depend_of_error hr).2]
  | ok path =>
      rw [(depend_of_ok table hr).2]
      by_cases hthere : table.contains (requirer.resolver.moduleId path) = true
      · rwa [if_pos hthere]
      · rw [if_neg hthere]
        intro dependency hdependency
        rw [Table.entries_insert_of_not_mem path (mt Table.contains_iff.mpr hthere)] at hdependency
        rcases List.mem_append.mp hdependency with hold | hnew
        · exact h dependency hold
        · obtain rfl := List.mem_singleton.mp hnew
          exact ⟨rfl, specifier, hr⟩

theorem recorded_rewrite (requirer : Requirer) (program : Node) :
    requirer.Recorded (requirer.rewrite program .empty).state := by
  have hkeeps : requirer.KeepsRecord .empty (requirer.rewrite program .empty).state :=
    rel_rewrite (KeepsRecord.refl requirer) KeepsRecord.trans (keepsRecord_depend requirer) .empty
      program
  exact hkeeps fun _ hnone => absurd hnone List.not_mem_nil

end Requirer

theorem rewrite_eq_ok {disk : Disk} {resolver : Resolver} {source : String} {path : Path}
    {id : String} {rewritten : Rewritten}
    (h : (Script.rewrite disk resolver source path id).result = .ok rewritten) :
    let requirer : Requirer :=
      ⟨disk, resolver, source.toList, id, path.parent?.getD resolver.root⟩
    ∃ program tree, Program.read (.ofPath path) source.toList = .ok program ∧
      (requirer.rewrite program.tree .empty).result = .ok tree ∧
      rewritten.code = Program.render ⟨tree, program.comments⟩ (Dialect.ofPath path).markup ∧
      rewritten.dependencies = (requirer.rewrite program.tree .empty).state := by
  unfold Script.rewrite at h
  simp only at h
  split at h
  · cases h
  · next program hread =>
    simp only at h
    split at h
    · cases h
    · next tree htree =>
      obtain rfl := Except.ok.inj h
      exact ⟨program, tree, hread, htree, rfl, rfl⟩

end Script

end Bundler
