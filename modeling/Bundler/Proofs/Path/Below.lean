import Bundler.Proofs.Path.Parent
import Bundler.Proofs.Path.Rooted
import Bundler.Script.Dialect

/-! Paths below a root. A relative path that does not leave the root on its way leads from a place
below the root to the same place below it, wherever the root is. All that is told apart by such
paths is the same below any two roots: ids, file names, and the directories that files are in. -/

namespace Bundler

/-- The place below a root that some components lead to from another place below it, none if they
leave the root on the way. -/
def Place.walk : Place → List Path.Component → Option Place
  | here, [] => some here
  | here, .current :: rest => walk here rest
  | here, .name text :: rest => walk (here ++ [text]) rest
  | here, .parent :: rest => if here.isEmpty then none else walk here.dropLast rest
  | _, .root :: _ => none

/-- A walk below a root leads to the same place below it as the components do. -/
theorem Place.foldl_step_of_walk {here there : Place} {parts : List Path.Component}
    (h : walk here parts = some there) (root : Place) :
    parts.foldl step (root ++ here) = root ++ there := by
  induction parts generalizing here with
  | nil =>
      obtain rfl := Option.some.inj h
      rfl
  | cons part rest ih =>
      cases part with
      | root => cases h
      | current => exact ih h
      | name text =>
          rw [List.foldl_cons, step, List.append_assoc]
          exact ih h
      | parent =>
          rw [walk] at h
          split at h
          · cases h
          · next hbelow =>
            rw [List.isEmpty_iff] at hbelow
            rw [List.foldl_cons, step, List.dropLast_append_of_ne_nil hbelow]
            exact ih h

namespace Path

/-- A relative path that leads from a place below a root to another one, and never leaves the root
on the way. It does not end at the root itself. -/
def Stays (here : Place) (path : Path) : Prop :=
  ∃ there, Place.walk here path.components = some there ∧ there ≠ []

instance (here : Place) (path : Path) : Decidable (path.Stays here) :=
  decidable_of_iff (∃ there ∈ Place.walk here path.components, there ≠ []) Iff.rfl

variable {path other base : Path} {root here there : Place} {names : List String}

/-- A path that is joined to a directory below a root leads to where its walk ends. -/
theorem normalize_join_of_walk (hbase : base.isAbsolute = true)
    (hhere : base.place [] = root ++ here) (h : Place.walk here path.components = some there) :
    (base.join path).normalize = rooted (root ++ there) ∧ ∀ name ∈ root ++ there, IsName name := by
  obtain ⟨names, hnames, hnormal, hplace⟩ := exists_rooted (isAbsolute_join path hbase)
  obtain rfl : names = root ++ there := by
    rw [← hplace [], place_join, hhere]
    exact Place.foldl_step_of_walk h root
  exact ⟨hnormal, hnames⟩

theorem dropCommon_append (shared : List Component) (first second : List Component) :
    dropCommon (shared ++ first) (shared ++ second) = dropCommon first second := by
  induction shared with
  | nil => rfl
  | cons part rest ih => rw [List.cons_append, List.cons_append, dropCommon, if_pos rfl, ih]

/-- The id of a path below the root is made of the names that lead to it from there. -/
theorem moduleId_rooted (h : ∀ name ∈ root ++ names, IsName name) :
    moduleId (rooted root) (rooted (root ++ names)) =
      "./" ++ (joinComponents ⟨""⟩ (names.map .name)).unixText := by
  have hroot : ∀ name ∈ root, IsName name := fun name hname => h name (List.mem_append_left _ hname)
  have hdrop : dropCommon (.root :: root.map Component.name)
      (.root :: (root ++ names).map Component.name) = ([], names.map Component.name) := by
    have happend := dropCommon_append (.root :: root.map Component.name) []
      (names.map Component.name)
    rw [List.append_nil] at happend
    rw [List.map_append, ← List.cons_append, happend]
    cases names <;> rfl
  rw [moduleId, normalize_rooted hroot, normalize_rooted h, relative, components_rooted hroot,
    components_rooted h, hdrop]
  rfl

/-- The directory of a file below a root is below the root as well. -/
theorem place_of_parent (h : ∀ name ∈ root ++ names, IsName name) (hne : names ≠ [])
    (default : Path) :
    let directory := (rooted (root ++ names)).parent?.getD default
    directory.isAbsolute = true ∧ directory.place [] = root ++ names.dropLast := by
  intro directory
  have hcomponents := components_rooted h
  have hsplit : (root ++ names).dropLast = root ++ names.dropLast :=
    List.dropLast_append_of_ne_nil hne
  have habove : directory.components = .root :: (root ++ names.dropLast).map .name := by
    cases hparent : (rooted (root ++ names)).parent? with
    | none =>
        have hplace := place_rooted h []
        rw [place_eq, components_of_parent?_eq_none hparent, isAbsolute_rooted h] at hplace
        exact absurd (List.append_eq_nil_iff.mp hplace.symm).2 hne
    | some above =>
        have hdirectory : directory = above := by simp [directory, hparent]
        rw [hdirectory, components_parent? hparent, hcomponents, ← hsplit, List.map_dropLast]
        exact List.dropLast_cons_of_ne_nil (by simp [hne])
  refine ⟨?_, ?_⟩
  · rw [isAbsolute_iff_mem, habove]
    exact List.mem_cons_self
  · rw [place, habove, List.foldl_cons, Place.foldl_names]
    rfl

/-! ### Paths to the same place below two roots -/

variable {first second : Place}

/-- Two paths lead to the same place below two roots. -/
structure Twins (first second : Place) (names : List String) (path other : Path) : Prop where
  below : names ≠ []
  proper : ∀ name ∈ first ++ names, IsName name
  proper' : ∀ name ∈ second ++ names, IsName name
  path_eq : path = rooted (first ++ names)
  other_eq : other = rooted (second ++ names)

theorem fileName?_rooted (h : ∀ name ∈ root ++ names, IsName name) (hne : names ≠ []) :
    (rooted (root ++ names)).fileName? = names.getLast? := by
  obtain ⟨front, last, rfl⟩ := (List.eq_nil_or_concat names).resolve_left hne
  rw [List.concat_eq_append] at h ⊢
  rw [fileName?, components_rooted h, List.map_append, List.map_append, ← List.append_assoc,
    ← List.cons_append, List.map_singleton, List.getLast?_concat, List.getLast?_concat]

theorem Twins.moduleId_eq (h : Twins first second names path other) :
    moduleId (rooted first) path = moduleId (rooted second) other := by
  rw [h.path_eq, h.other_eq, moduleId_rooted h.proper, moduleId_rooted h.proper']

theorem Twins.dialect_eq (h : Twins first second names path other) :
    Script.Dialect.ofPath path = Script.Dialect.ofPath other := by
  have hname : path.fileName? = other.fileName? := by
    rw [h.path_eq, h.other_eq, fileName?_rooted h.proper h.below,
      fileName?_rooted h.proper' h.below]
  rw [Script.Dialect.ofPath, Script.Dialect.ofPath, extension?, extension?, hname]

end Path

end Bundler
