import Bundler.Proofs.Script.Calls

/-! The places of the calls of names in a tree. A tree that was read has them in the order of the
text, a call before those inside it. -/

namespace Bundler.Script

/-- Places in ascending order, the first one at a place or behind it, the last one before
another. -/
def Ascends (place : Nat) : List Nat → Nat → Prop
  | [], stop => place ≤ stop
  | start :: rest, stop => place ≤ start ∧ Ascends (start + 1) rest stop

namespace Ascends

variable {place other stop start : Nat} {starts more : List Nat}

theorem nil_iff : Ascends place [] stop ↔ place ≤ stop := Iff.rfl

theorem le (h : Ascends place starts stop) : place ≤ stop := by
  induction starts generalizing place with
  | nil => exact h
  | cons start rest ih => exact Nat.le_trans h.1 (Nat.le_of_succ_le (ih h.2))

theorem mono (h : Ascends place starts stop) (hother : other ≤ place) :
    Ascends other starts stop := by
  cases starts with
  | nil => exact Nat.le_trans hother h
  | cons start rest => exact ⟨Nat.le_trans hother h.1, h.2⟩

theorem append (h : Ascends place starts stop) (hmore : Ascends stop more other) :
    Ascends place (starts ++ more) other := by
  induction starts generalizing place with
  | nil => exact hmore.mono h
  | cons start rest ih => exact ⟨h.1, ih h.2⟩

theorem extend (h : Ascends place starts stop) (hother : stop ≤ other) :
    Ascends place starts other := by
  simpa using h.append (nil_iff.mpr hother)

theorem sublist (h : Ascends place starts stop) (hmore : more.Sublist starts) :
    Ascends place more stop := by
  induction hmore generalizing place with
  | slnil => exact h
  | cons start _ ih => exact (ih h.2).mono (Nat.le_succ_of_le h.1)
  | cons_cons start _ ih => exact ⟨h.1, ih h.2⟩

/-- The first place may be moved forward. -/
theorem restart (h : Ascends place (start :: starts) stop) : Ascends place (place :: starts) stop :=
  ⟨Nat.le_refl place, h.2.mono (Nat.succ_le_succ h.1)⟩

theorem forall_le (h : Ascends place starts stop) : ∀ start ∈ starts, place ≤ start := by
  induction starts generalizing place with
  | nil => exact fun _ hnone => absurd hnone List.not_mem_nil
  | cons first rest ih =>
      refine List.forall_mem_cons.mpr ⟨h.1, fun start hstart => ?_⟩
      exact Nat.le_trans h.1 (Nat.le_of_succ_le (ih h.2 start hstart))

theorem pairwise (h : Ascends place starts stop) : starts.Pairwise (· < ·) := by
  induction starts generalizing place with
  | nil => exact .nil
  | cons start rest ih => exact .cons h.2.forall_le (ih h.2)

end Ascends

namespace Node

/-- The place of a node, if it counts: the node calls a name, or gives a name type arguments, with
which it may still be called. A name that has parts, which is never read, counts twice, so that it
is never in order. -/
def ownPlaces (kind : Kind) (start : Nat) (children : List Node) : List Nat :=
  match kind, children with
  | .call _ _, .node (.name _) _ _ _ _ :: _ => [start]
  | .instantiation, .node (.name _) _ _ _ _ :: _ => [start]
  | .name _, _ :: _ => [start, start]
  | _, _ => []

mutual

/-- The places in a tree that count. -/
def starts : Node → List Nat
  | .node kind start _ _ children => ownPlaces kind start children ++ startsAll children

def startsAll : List Node → List Nat
  | [] => []
  | node :: rest => starts node ++ startsAll rest

end

variable {kind : Kind} {start stop : Nat} {children : List Node}

@[simp] theorem startsAll_nil : startsAll [] = [] := startsAll.eq_1

@[simp] theorem startsAll_cons (node : Node) (rest : List Node) :
    startsAll (node :: rest) = node.starts ++ startsAll rest :=
  startsAll.eq_2 node rest

@[simp] theorem startsAll_append (first last : List Node) :
    startsAll (first ++ last) = startsAll first ++ startsAll last := by
  induction first with
  | nil => rfl
  | cons node rest ih => simp [ih]

theorem starts_node {value : Unit} : starts (.node kind start stop value children) =
    ownPlaces kind start children ++ startsAll children :=
  starts.eq_1 kind start stop value children

theorem starts_mk : (mk kind start stop children).starts =
    ownPlaces kind start children ++ startsAll children :=
  starts_node

theorem starts_of_ownPlaces {value : Unit} (h : ownPlaces kind start children = []) :
    starts (.node kind start stop value children) = startsAll children := by
  rw [starts_node, h, List.nil_append]

@[simp] theorem starts_absent : absent.starts = [] := by
  rw [absent, mk, starts_node]
  rfl

@[simp] theorem starts_list (items : List Node) : (list items).starts = startsAll items :=
  starts_of_ownPlaces rfl

theorem startsAll_sublist {items others : List Node} (h : items.Sublist others) :
    (startsAll items).Sublist (startsAll others) := by
  induction h with
  | slnil => exact .slnil
  | cons node _ ih => simpa using ih.trans (List.sublist_append_right _ _)
  | cons_cons node _ ih => simpa using ih

theorem ownPlaces_of_isRequire (h : isRequire kind children = true) :
    ownPlaces kind start children = [start] := by
  obtain ⟨_, _, ⟨calleeKind, _, _, _, _⟩, _, rfl, rfl, hname⟩ := isRequire_iff.mp h
  obtain rfl : calleeKind = .name requireName := hname
  rfl

mutual

theorem calls_sublist_starts : ∀ tree : Node, (tree.calls.map Tree.start).Sublist tree.starts
  | .node kind start stop () children => by
      have hinner := callsAll_sublist_startsAll children
      by_cases hrequire : isRequire kind children = true
      · rw [calls_of_requires hrequire, starts_node, ownPlaces_of_isRequire hrequire]
        exact hinner.cons_cons start
      · rw [Bool.not_eq_true] at hrequire
        rw [calls_of_not_requires hrequire, starts_node]
        exact hinner.trans (List.sublist_append_right _ _)

theorem callsAll_sublist_startsAll : ∀ trees : List Node,
    ((callsAll trees).map Tree.start).Sublist (startsAll trees)
  | [] => .slnil
  | tree :: rest => by
      rw [callsAll_cons, List.map_append, startsAll_cons]
      exact (calls_sublist_starts tree).append (callsAll_sublist_startsAll rest)

end

/-- Where the places that count ascend, the calls that require are in the order of the text. -/
theorem pairwise_calls {tree : Node} {place : Nat} (h : Ascends place tree.starts stop) :
    (tree.calls.map Tree.start).Pairwise (· < ·) :=
  (h.sublist (calls_sublist_starts tree)).pairwise

end Node

end Bundler.Script
