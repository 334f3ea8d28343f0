import Bundler.Proofs.Path.Normal
import Mathlib.Data.List.Forall2

/-! Ids of modules. The way from the root to a file determines the file. In an id every backslash
of the way is written as a slash, so that the ids of two files are the same exactly if their ways
differ in nothing else. -/

namespace Bundler.Path

/-! ### Ways -/

theorem climb_inj {ups ups' : Nat} {names names' : List String}
    (h : climb ups names = climb ups' names') : ups = ups' ∧ names = names' := by
  have hcount : ∀ ups names, (climb ups names).count .parent = ups := by
    intro ups names
    have hnone : (names.map Component.name).count .parent = 0 := by
      rw [List.count_eq_zero]
      simp
    rw [climb, List.count_append, hnone, List.count_replicate_self, Nat.add_zero]
  obtain rfl : ups = ups' := by rw [← hcount ups names, h, hcount]
  have hnames := List.append_cancel_left h
  exact ⟨rfl, List.map_injective_iff.mpr (fun _ _ => Component.name.inj) hnames⟩

/-- The longest list that two lists begin with. -/
structure IsShared {α : Type} (shared first second : List α) : Prop where
  left : shared <+: first
  right : shared <+: second
  longest : ∀ other, other <+: first → other <+: second → other.length ≤ shared.length

theorem dropCommon_spec (first second : List Component) :
    ∃ shared, IsShared shared first second ∧ first = shared ++ (dropCommon first second).1 ∧
      second = shared ++ (dropCommon first second).2 := by
  induction first generalizing second with
  | nil =>
      refine ⟨[], ⟨List.nil_prefix, List.nil_prefix, fun other h _ => ?_⟩, by simp [dropCommon],
        by simp [dropCommon]⟩
      exact h.length_le
  | cons a as ih =>
      cases second with
      | nil =>
          refine ⟨[], ⟨List.nil_prefix, List.nil_prefix, fun other _ h => ?_⟩, by simp [dropCommon],
            by simp [dropCommon]⟩
          exact h.length_le
      | cons b bs =>
          rw [dropCommon]
          split
          · next hab =>
            subst hab
            obtain ⟨shared, hshared, hfirst, hsecond⟩ := ih bs
            refine ⟨a :: shared, ⟨(List.prefix_cons_inj a).mpr hshared.left,
              (List.prefix_cons_inj a).mpr hshared.right, fun other hleft hright => ?_⟩,
              by rw [List.cons_append, ← hfirst], by rw [List.cons_append, ← hsecond]⟩
            cases other with
            | nil => exact Nat.zero_le _
            | cons c rest =>
                obtain ⟨rfl, hrest⟩ := List.cons_prefix_cons.mp hleft
                obtain ⟨-, hrest'⟩ := List.cons_prefix_cons.mp hright
                exact Nat.succ_le_succ (hshared.longest rest hrest hrest')
          · next hab =>
            refine ⟨[], ⟨List.nil_prefix, List.nil_prefix, fun other hleft hright => ?_⟩, rfl, rfl⟩
            cases other with
            | nil => exact Nat.le_refl 0
            | cons c rest =>
                obtain ⟨rfl, -⟩ := List.cons_prefix_cons.mp hleft
                exact absurd (List.cons_prefix_cons.mp hright).1 hab

/-- The way from one absolute path to another goes up out of the names that the two do not share,
and then down along names. -/
theorem exists_way {source target : Path} {above below : List String}
    (hsource : source.components = .root :: above.map .name)
    (htarget : target.components = .root :: below.map .name)
    (hbelow : ∀ name ∈ below, IsName name) :
    ∃ shared rest names, IsShared (.root :: shared.map .name) source.components target.components ∧
      above = shared ++ rest ∧ below = shared ++ names ∧
      (relative source target).components = climb rest.length names := by
  obtain ⟨shared, hshared, hfirst, hsecond⟩ := dropCommon_spec source.components target.components
  have hrelative : relative source target =
      let rest := dropCommon source.components target.components
      joinComponents ⟨""⟩ (rest.1.map (fun _ => .parent) ++ rest.2) := rfl
  generalize dropCommon source.components target.components = drop at hfirst hsecond hrelative
  -- both begin with the root
  have hroot : ([.root] : List Component).length ≤ shared.length :=
    hshared.longest _ (by simp [hsource]) (by simp [htarget])
  obtain ⟨part, shared, rfl⟩ := List.exists_cons_of_length_pos hroot
  rw [hsource] at hfirst
  rw [htarget] at hsecond
  obtain ⟨rfl, habove⟩ := List.cons.inj hfirst
  obtain ⟨-, hdown⟩ := List.cons.inj hsecond
  obtain ⟨front, rest, rfl, rfl, hrest⟩ := List.map_eq_append_iff.mp habove
  obtain ⟨front', names, rfl, hfront, hnames⟩ := List.map_eq_append_iff.mp hdown
  obtain rfl : front' = front := List.map_injective_iff.mpr (fun _ _ => Component.name.inj) hfront
  refine ⟨front', rest, names, hshared, rfl, rfl, ?_⟩
  have hparts : drop.1.map (fun _ => Component.parent) ++ drop.2 = climb rest.length names := by
    rw [← hrest, ← hnames]
    simp [climb, List.map_const', Function.comp_def]
  rw [hrelative]
  dsimp only
  rw [hparts]
  exact components_joinComponents_empty (isPlain_of_mem_climb fun name hname =>
    hbelow name (List.mem_append_right front' hname))

variable {root path other : Path}

/-- Ways from the same root are the same exactly if the normal forms that they lead to are. -/
theorem relative_eq_iff (hroot : root.isAbsolute = true) (hpath : path.isAbsolute = true)
    (hother : other.isAbsolute = true) :
    relative root.normalize path.normalize = relative root.normalize other.normalize ↔
      path.normalize = other.normalize := by
  refine ⟨fun h => ?_, congrArg (relative root.normalize)⟩
  obtain ⟨above, -, hroot', -⟩ := exists_names_of_absolute hroot
  obtain ⟨below, hbelow, hpath', hplace⟩ := exists_names_of_absolute hpath
  obtain ⟨below', hbelow', hother', hplace'⟩ := exists_names_of_absolute hother
  rw [← components_normalize_of_absolute hroot] at hroot'
  rw [← components_normalize_of_absolute hpath] at hpath'
  rw [← components_normalize_of_absolute hother] at hother'
  obtain ⟨shared, rest, names, -, rfl, rfl, hway⟩ := exists_way hroot' hpath' hbelow
  obtain ⟨shared', rest', names', -, habove, rfl, hway'⟩ := exists_way hroot' hother' hbelow'
  obtain ⟨hups, rfl⟩ := climb_inj (hway.symm.trans ((congrArg components h).trans hway'))
  obtain ⟨rfl, -⟩ := List.append_inj' habove hups
  rw [normalize_eq_iff_place hpath hother [], hplace, hplace']

/-! ### Ids -/

/-- Two characters that look alike in an id. -/
def AlikeInId (c d : Char) : Prop :=
  c = d ∨ (c = '\\' ∧ d = '/') ∨ (c = '/' ∧ d = '\\')

theorem alikeInId_iff {c d : Char} :
    AlikeInId c d ↔ (if c = '\\' then '/' else c) = if d = '\\' then '/' else d := by
  unfold AlikeInId
  by_cases hc : c = '\\'
  · by_cases hd : d = '\\'
    · simp [hc, hd]
    · simp [hc, hd, eq_comm]
  · by_cases hd : d = '\\'
    · simp [hc, hd]
    · simp [hc, hd]

theorem unixText_eq_iff {path other : Path} :
    path.unixText = other.unixText ↔
      List.Forall₂ AlikeInId path.text.toList other.text.toList := by
  have halike : AlikeInId = fun c d : Char =>
      (if c = '\\' then '/' else c) = if d = '\\' then '/' else d := by
    funext c d
    exact propext alikeInId_iff
  rw [unixText, unixText, String.ofList_inj, halike, ← List.forall₂_eq_eq_eq,
    List.forall₂_map_left_iff, List.forall₂_map_right_iff]

/-- The text of the way from a root to a path. -/
def way (root path : Path) : List Char :=
  (relative root.normalize path.normalize).text.toList

theorem moduleId_eq_iff :
    moduleId root path = moduleId root other ↔
      List.Forall₂ AlikeInId (root.way path) (root.way other) := by
  rw [way, way, ← unixText_eq_iff, moduleId, moduleId]
  simp

theorem unixText_of_not_mem {path : Path} (h : '\\' ∉ path.text.toList) :
    path.unixText = path.text := by
  have hsame : path.text.toList.map (fun c => if c = '\\' then '/' else c) = path.text.toList := by
    conv_rhs => rw [← List.map_id path.text.toList]
    apply List.map_congr_left
    intro c hc
    rw [if_neg, id_eq]
    rintro rfl
    exact h hc
  rw [unixText, hsame, String.ofList_toList]

/-- Where the ways have no backslash, ids are the same exactly if the normal forms are. -/
theorem moduleId_eq_iff_of_not_mem (hroot : root.isAbsolute = true)
    (hpath : path.isAbsolute = true) (hother : other.isAbsolute = true)
    (hplain : '\\' ∉ root.way path) (hplain' : '\\' ∉ root.way other) :
    moduleId root path = moduleId root other ↔ path.normalize = other.normalize := by
  rw [moduleId, moduleId, unixText_of_not_mem hplain, unixText_of_not_mem hplain',
    ← relative_eq_iff hroot hpath hother, String.append_right_inj, text_inj]

end Bundler.Path
