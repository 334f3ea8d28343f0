import Bundler.Proofs.Path.Normal

/-! What is left of a path that is read from left to right: names behind the root, or steps upwards
and names behind them. It is what is left on the stack that normal forms are made of, and what is
left of joined paths comes from what is left of each. -/

namespace Bundler.Path

/-- What is left of a path: the names behind the root, or the steps upwards at the front of a
relative path and the names behind these. -/
inductive Trail where
  | fromRoot (names : List String)
  | fromHere (ups : Nat) (names : List String)
deriving DecidableEq, Repr

namespace Trail

/-- Reads one more component. A step upwards takes the last name away. Where no name is left, it
makes no difference at the root, and stays at the front of a relative path. -/
def read : Trail → Component → Trail
  | _, .root => fromRoot []
  | trail, .current => trail
  | fromRoot names, .name text => fromRoot (names ++ [text])
  | fromHere ups names, .name text => fromHere ups (names ++ [text])
  | fromRoot names, .parent => fromRoot names.dropLast
  | fromHere ups names, .parent =>
      if names.isEmpty then fromHere (ups + 1) [] else fromHere ups names.dropLast

def names : Trail → List String
  | fromRoot names => names
  | fromHere _ names => names

def components : Trail → List Component
  | fromRoot names => .root :: names.map .name
  | fromHere ups names => climb ups names

/-- All of its names are names. -/
def IsProper (trail : Trail) : Prop :=
  ∀ name ∈ trail.names, IsName name

variable {trail : Trail} {part : Component}

/-- What is left on a stack of components is the trail. -/
theorem components_read (trail : Trail) (hpart : part.IsPlain) :
    (trail.read part).components.reverse = stepNormal trail.components.reverse part := by
  cases part with
  | root => cases hpart
  | current => cases hpart
  | name text =>
      cases trail with
      | fromRoot names => simp [read, components, stepNormal]
      | fromHere ups names => simp [read, components, climb, stepNormal]
  | parent =>
      cases trail with
      | fromRoot names =>
          rcases List.eq_nil_or_concat names with rfl | ⟨front, last, rfl⟩
          · rfl
          · simp [read, components, stepNormal]
      | fromHere ups names =>
          rcases List.eq_nil_or_concat names with rfl | ⟨front, last, rfl⟩
          · change (climb (ups + 1) []).reverse = stepNormal (climb ups []).reverse .parent
            rw [reverse_climb_nil, reverse_climb_nil]
            cases ups <;> rfl
          · simp [read, components, climb, stepNormal]

theorem IsProper.read (h : trail.IsProper) (hpart : part.IsPlain) : (trail.read part).IsProper := by
  have hdrop : ∀ name ∈ trail.names.dropLast, IsName name :=
    fun name hname => h name (List.dropLast_subset _ hname)
  cases part with
  | root => cases hpart
  | current => cases hpart
  | name text =>
      have hsnoc : ∀ name ∈ trail.names ++ [text], IsName name :=
        List.forall_mem_append.mpr ⟨h, List.forall_mem_singleton.mpr hpart⟩
      cases trail <;> exact hsnoc
  | parent =>
      cases trail with
      | fromRoot names => exact hdrop
      | fromHere ups names =>
          rw [Trail.read]
          split
          · exact noName
          · exact hdrop

/-- Components that are left are all that is left of them. -/
theorem foldl_read_components (trail : Trail) :
    trail.components.foldl read (fromHere 0 []) = trail := by
  have hnames : ∀ (names : List String) (trail : Trail), (names.map .name).foldl read trail =
      match trail with
      | fromRoot before => fromRoot (before ++ names)
      | fromHere ups before => fromHere ups (before ++ names) := by
    intro names
    induction names with
    | nil => intro trail; cases trail <;> simp
    | cons name rest ih => intro trail; cases trail <;> simp [ih, read]
  have hups : ∀ ups, (List.replicate ups Component.parent).foldl read (fromHere 0 []) =
      fromHere ups [] := by
    intro ups
    induction ups with
    | zero => rfl
    | succ ups ih => rw [List.replicate_succ', List.foldl_append, ih]; rfl
  cases trail with
  | fromRoot names => exact hnames names (fromRoot [])
  | fromHere ups names =>
      change (climb ups names).foldl read _ = _
      rw [climb, List.foldl_append, hups, hnames]
      rfl

theorem components_inj {other : Trail} (h : trail.components = other.components) :
    trail = other := by
  rw [← foldl_read_components trail, h, foldl_read_components]

/-! ### One trail behind another -/

/-- The trail that is left when another one is read behind it. -/
def append : Trail → Trail → Trail
  | _, fromRoot names => fromRoot names
  | trail, fromHere ups names => (climb ups names).foldl read trail

theorem fromHere_append (trail : Trail) : (fromHere 0 []).append trail = trail := by
  cases trail with
  | fromRoot names => rfl
  | fromHere ups names => exact foldl_read_components (fromHere ups names)

/-- A name and a step upwards leave nothing. -/
theorem read_name_parent (trail : Trail) (name : String) :
    (trail.read (.name name)).read .parent = trail := by
  cases trail <;> simp [read]

theorem append_read (trail other : Trail) (hpart : part.IsPlain) :
    trail.append (other.read part) = (trail.append other).read part := by
  cases part with
  | root => cases hpart
  | current => cases hpart
  | name text =>
      cases other with
      | fromRoot names => rfl
      | fromHere ups names => simp [read, append, climb]
  | parent =>
      cases other with
      | fromRoot names => rfl
      | fromHere ups names =>
          rcases List.eq_nil_or_concat names with rfl | ⟨front, last, rfl⟩
          · simp [read, append, climb, List.replicate_succ']
          · have hread : (fromHere ups (front.concat last)).read .parent = fromHere ups front := by
              simp [read]
            have hlast : climb ups (front.concat last) = climb ups front ++ [.name last] := by
              simp [climb]
            rw [hread, append, append, hlast, List.foldl_append, List.foldl_cons, List.foldl_nil,
              read_name_parent]

end Trail

/-- What is left of a path after its components have been read. -/
def trail (path : Path) : Trail :=
  path.components.foldl Trail.read (.fromHere 0 [])

variable {path : Path}

theorem trail_eq (path : Path) :
    path.trail = (componentsOfSegments (segments path.text.toList)).foldl Trail.read
      (if path.isAbsolute then .fromRoot [] else .fromHere 0 []) := by
  rw [trail, components_eq, List.foldl_append, lead]
  split
  · rfl
  · split
    · rfl
    · rfl

theorem isProper_trail (path : Path) : path.trail.IsProper := by
  rw [trail_eq]
  refine List.foldlRecOn _ _ ?_ fun trail h part hpart => h.read (isPlain_of_mem hpart)
  split
  · exact noName
  · exact noName

/-- The stack of a normal form and the trail of the path are the same. -/
theorem components_trail (path : Path) :
    path.trail.components = normalComponents path.components := by
  rw [normalComponents_components, trail_eq, ← List.reverse_eq_iff]
  refine List.foldl_rel (r := fun (trail : Trail) stack => trail.components.reverse = stack) ?_ ?_
  · split
    · rfl
    · rfl
  · rintro part hpart trail _ rfl
    exact trail.components_read (isPlain_of_mem hpart)

/-- A path that is joined to another one is read behind it. -/
theorem trail_join (base next : Path) :
    (base.join next).trail = base.trail.append next.trail := by
  -- what is read behind the first path is read behind whatever is left of it
  have hbehind : ∀ start : Trail, (componentsOfSegments (segments next.text.toList)).foldl
      Trail.read (base.trail.append start) =
        base.trail.append ((componentsOfSegments (segments next.text.toList)).foldl
          Trail.read start) := by
    intro start
    refine List.foldl_rel (r := fun (trail other : Trail) => trail = base.trail.append other) rfl ?_
    rintro part hpart _ other rfl
    exact (base.trail.append_read other (isPlain_of_mem hpart)).symm
  cases hnext : next.isAbsolute with
  | true =>
      rw [join_of_isAbsolute base hnext, trail_eq next, hnext, if_pos rfl, ← hbehind]
      rfl
  | false =>
      by_cases hbase : base.text.toList = []
      · have hempty : base.trail = .fromHere 0 [] := by
          rw [trail_eq, isAbsolute, hbase]
          rfl
        rw [join_of_empty hbase, hempty, Trail.fromHere_append]
      · rw [trail, components_join hbase hnext, List.foldl_append, trail_eq next, hnext,
          if_neg Bool.false_ne_true, ← hbehind]
        rfl

theorem trail_of_absolute (h : path.isAbsolute = true) :
    ∃ names, (∀ name ∈ names, IsName name) ∧ path.trail = .fromRoot names := by
  obtain ⟨names, hnames, hnormal, -⟩ := exists_names_of_absolute h
  exact ⟨names, hnames, Trail.components_inj ((components_trail path).trans hnormal)⟩

theorem trail_of_relative (h : path.isAbsolute = false) :
    ∃ ups names, (∀ name ∈ names, IsName name) ∧ path.trail = .fromHere ups names := by
  obtain ⟨ups, names, hnames, hnormal, -⟩ := exists_climb_of_relative h
  exact ⟨ups, names, hnames, Trail.components_inj ((components_trail path).trans hnormal)⟩

end Bundler.Path
