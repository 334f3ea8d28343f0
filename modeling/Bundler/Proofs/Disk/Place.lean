import Bundler.FileTree
import Bundler.Proofs.Path.Components
import Bundler.Proofs.Report

/-! The place that a path denotes. It depends only on the components of the path, and a path that
is found is found there. -/

namespace Bundler

/-- The place that a component leads to from another one. -/
def Place.step (here : Place) : Path.Component → Place
  | .root => []
  | .current => here
  | .parent => here.dropLast
  | .name text => here ++ [text]

theorem Place.foldl_names (here : Place) (names : List String) :
    (names.map Path.Component.name).foldl Place.step here = here ++ names := by
  induction names generalizing here with
  | nil => simp
  | cons name rest ih => simp [Place.step, ih]

namespace Path

/-- The place that a path denotes, a relative one being read from the place `base`. -/
def place (base : Place) (path : Path) : Place :=
  path.components.foldl Place.step base

/-! ### The place of a path -/

/-- A path is read segment by segment, from the root or from the place it is relative to. -/
theorem place_eq (base : Place) (path : Path) :
    path.place base =
      (componentsOfSegments (segments path.text.toList)).foldl Place.step
        (if path.isAbsolute then [] else base) := by
  rw [place, components_eq, List.foldl_append, lead]
  split
  · rfl
  · split
    · rfl
    · rfl

theorem place_of_absolute {path : Path} (h : path.isAbsolute = true) (base other : Place) :
    path.place base = path.place other := by
  rw [place_eq, place_eq, h]
  rfl

/-- The part of a text after a slash is read from where the part before it leads to. -/
theorem place_of_append {path next : Path} (front : List Char) (base : Place)
    (hnext : next.isAbsolute = false)
    (htext : path.text.toList = front ++ '/' :: next.text.toList) :
    path.place base = next.place ((componentsOfSegments (segments front)).foldl Place.step
      (if path.isAbsolute then [] else base)) := by
  rw [place_eq base path, place_eq _ next, htext, segments_append, hnext]
  simp

/-- A joined path is read as the first path, and then from there as the second one. -/
theorem place_join (base : Place) (path next : Path) :
    (path.join next).place base = next.place (path.place base) := by
  unfold join
  split
  · next body htext => exact place_of_absolute (by simp [isAbsolute, htext]) _ _
  · next hslash =>
    have hnext : next.isAbsolute = false := isAbsolute_eq_false_iff.mpr hslash
    split
    · next hlast =>
      have htext : path.text.toList = [] := List.getLast?_eq_none_iff.mp hlast
      have hhere : path.place base = base := by
        rw [place_eq, isAbsolute, htext]
        rfl
      rw [hhere]
    · next hlast =>
      obtain ⟨front, htext⟩ := List.getLast?_eq_some_iff.mp hlast
      have habsolute : isAbsolute ⟨path.text ++ next.text⟩ = path.isAbsolute := by
        simp [isAbsolute, htext]
      rw [place_of_append front base hnext (by simp [htext]), habsolute,
        place_eq base path, htext, segments_append]
      simp
    · next c hc hlast =>
      obtain ⟨front, htext⟩ := List.getLast?_eq_some_iff.mp hlast
      have habsolute : isAbsolute ⟨path.text ++ "/" ++ next.text⟩ = path.isAbsolute := by
        simp [isAbsolute, htext]
      rw [place_of_append path.text.toList base hnext (by simp), habsolute,
        place_eq base path]

end Path

namespace FileTree

variable {tree other : FileTree} {here place base : Place} {parts : List (List Char)}

/-! ### Following a path -/

theorem enter_eq_ok {value : Unit} :
    tree.enter place = .ok value ↔ tree.find? place = some .directory := by
  unfold enter
  split <;> simp_all

/-- Following a segment leaves a directory, unless the segment is empty, and reaches the place of
its component. -/
theorem follow_cons_eq_ok {segment : List Char} :
    tree.follow here (segment :: parts) = .ok place ↔
      (segment = [] ∨ tree.find? here = some .directory) ∧
        (String.ofList segment).utf8ByteSize ≤ maxName ∧
        tree.follow ((Path.componentOfSegment segment).elim here here.step) parts = .ok place := by
  by_cases hempty : segment = []
  · subst hempty
    simp [follow, Path.componentOfSegment]
  by_cases hdot : segment = ['.']
  · subst hdot
    have hsize : (String.ofList ['.']).utf8ByteSize ≤ maxName := by decide
    simp [follow, bind_eq_ok_iff, enter_eq_ok, Path.componentOfSegment, hsize]
  by_cases hparent : segment = ['.', '.']
  · subst hparent
    have hsize : (String.ofList ['.', '.']).utf8ByteSize ≤ maxName := by decide
    simp [follow, bind_eq_ok_iff, enter_eq_ok, Path.componentOfSegment, Place.step, hsize]
  rw [follow.eq_5 _ _ _ _ hempty hdot hparent,
    Path.componentOfSegment.eq_4 _ hempty hdot hparent]
  by_cases hlong : maxName < (String.ofList segment).utf8ByteSize
  · simp [bind_eq_ok_iff, hlong, Nat.not_le_of_lt hlong]
  · simp [bind_eq_ok_iff, enter_eq_ok, hempty, hlong, Nat.le_of_not_lt hlong, Place.step]

theorem follow_eq_ok (h : tree.follow here parts = .ok place) :
    place = (Path.componentsOfSegments parts).foldl Place.step here := by
  induction parts generalizing here with
  | nil => exact (Except.ok.inj h).symm
  | cons segment rest ih =>
      obtain ⟨-, -, hrest⟩ := follow_cons_eq_ok.mp h
      rw [ih hrest, Path.componentsOfSegments, Path.componentsOfSegments, List.filterMap_cons]
      cases Path.componentOfSegment segment <;> rfl

/-- A path that can be followed still can be where every directory still is one. -/
theorem follow_mono
    (hkeep : ∀ place, tree.find? place = some .directory → other.find? place = some .directory)
    (h : tree.follow here parts = .ok place) : other.follow here parts = .ok place := by
  induction parts generalizing here with
  | nil => exact h
  | cons segment rest ih =>
      obtain ⟨hleave, hsize, hrest⟩ := follow_cons_eq_ok.mp h
      exact follow_cons_eq_ok.mpr ⟨hleave.imp_right (hkeep here), hsize, ih hrest⟩

variable {path : Path} {target : Target}

/-- A path is found where its segments lead, unless it cannot be looked up at all: it is empty or
too long, or has a zero character. -/
theorem locate_eq_ok_iff :
    tree.locate base path = .ok target ↔
      ('\x00' ∉ path.text.toList ∧ path.text.toList ≠ [] ∧ path.text.utf8ByteSize ≤ maxPath) ∧
        tree.follow (if path.isAbsolute then [] else base) (Path.segments path.text.toList) =
          .ok target.place ∧
        target.asDirectory = (Path.isBlankSegment ((Path.segments path.text.toList).getLastD []) ||
          (Path.segments path.text.toList).getLastD [] == ['.', '.']) := by
  unfold locate
  by_cases hnul : '\x00' ∈ path.text.toList
  · simp [hnul]
  by_cases hempty : path.text.toList = []
  · simp [hempty]
  by_cases hlong : maxPath < path.text.utf8ByteSize
  · simp [hnul, hempty, hlong, Nat.not_le_of_lt hlong]
  obtain ⟨place, asDirectory⟩ := target
  simp [hnul, hempty, hlong, Nat.le_of_not_lt hlong, bind_eq_ok_iff, pure, Except.pure]
  exact fun _ => eq_comm

/-- A path is found at its place. -/
theorem place_of_locate (h : tree.locate base path = .ok target) :
    target.place = path.place base := by
  rw [Path.place_eq]
  exact follow_eq_ok (locate_eq_ok_iff.mp h).2.1

theorem locate_mono
    (hkeep : ∀ place, tree.find? place = some .directory → other.find? place = some .directory)
    (h : tree.locate base path = .ok target) : other.locate base path = .ok target := by
  obtain ⟨hlooked, hfollow, hasks⟩ := locate_eq_ok_iff.mp h
  exact locate_eq_ok_iff.mpr ⟨hlooked, follow_mono hkeep hfollow, hasks⟩

end FileTree

end Bundler
