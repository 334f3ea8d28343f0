import Bundler.Proofs.Module.Visits

/-! Building the entries of a compilation one after the other. The graph of the entries built so
far is closed, so that a further entry changes nothing about what the earlier ones reach. -/

namespace Bundler

namespace Graph

variable {graph : Graph} {entries : List (String × String)}

open Classical in
/-- A closed graph that holds what entries reach from their modules, each module owned by the
entries that reach it, in order. -/
structure Covers (graph : Graph) (entries : List (String × String)) : Prop where
  closed : graph.Closed
  present : ∀ {id : String}, id ∈ graph.ids ↔ ∃ entry ∈ entries, graph.Reaches entry.2 id
  owners : ∀ {id : String}, graph.ownersOf id =
    (entries.filter fun entry => graph.Reaches entry.2 id).map Prod.fst

theorem covers_empty : empty.Covers [] where
  closed := by
    rintro id dependency ⟨module, hm, -⟩
    simp at hm
  present := by simp
  owners := by simp [ownersOf]

namespace Covers

theorem owns_iff (h : graph.Covers entries) {name id : String} :
    graph.Owns name id ↔ ∃ root, (name, root) ∈ entries ∧ graph.Reaches root id := by
  rw [← mem_ownersOf_iff, h.owners]
  simp

theorem root_mem_ids (h : graph.Covers entries) {entry : String × String} (he : entry ∈ entries) :
    entry.2 ∈ graph.ids :=
  h.present.mpr ⟨entry, he, .refl⟩

theorem not_owns (h : graph.Covers entries) {name id : String}
    (hnew : name ∉ entries.map Prod.fst) : ¬ graph.Owns name id := by
  rw [h.owns_iff]
  rintro ⟨root, hr, -⟩
  exact hnew (List.mem_map_of_mem hr)

end Covers

end Graph

namespace Workshop

variable {shop : Workshop} {entry root : String} {start after : Graph}

/-- On top of a closed graph that knows nothing of the entry, finished visits give the entry
exactly what its module reaches. -/
theorem Progress.owns_iff (h : Progress entry root start [] after) (hclosed : start.Closed)
    (hfree : ∀ id, ¬ start.Owns entry id) {id : String} :
    after.Owns entry id ↔ after.Reaches root id := by
  constructor
  · intro ho
    exact (h.reached ho).resolve_left (hfree id)
  · intro hr
    induction hr with
    | refl => exact h.started.resolve_left (by simp)
    | @tail id dependency _ hdep ih =>
        by_contra hmiss
        rcases h.gaps ⟨ih, hdep, hmiss⟩ with hstack | hgap | ⟨hold, habsent⟩
        · simp at hstack
        · exact hfree id hgap.owned
        · exact habsent (hclosed hold)

theorem Progress.mem_ids_iff (h : Progress entry root start [] after) {id : String} :
    id ∈ after.ids ↔ id ∈ start.ids ∨ after.Owns entry id := by
  constructor
  · intro hid
    by_cases hold : id ∈ start.ids
    · exact .inl hold
    · obtain ⟨module, hm⟩ := Graph.mem_ids_iff.mp hid
      have howners := h.grows.added (Graph.get?_eq_none_iff.mpr hold) hm
      exact .inr ⟨module, hm, by simp [howners]⟩
  · rintro (hold | hown)
    · exact h.grows.mem_ids hold
    · exact hown.mem_ids

/-- One more entry: what it reaches is added, and it comes last among the owners. -/
theorem Progress.covers {entries : List (String × String)}
    (h : Progress entry root start [] after) (hcovers : start.Covers entries)
    (hnew : entry ∉ entries.map Prod.fst) : after.Covers (entries ++ [(entry, root)]) := by
  classical
  have hfree : ∀ id, ¬ start.Owns entry id := fun id => hcovers.not_owns hnew
  have howns : ∀ {id : String}, after.Owns entry id ↔ after.Reaches root id :=
    h.owns_iff hcovers.closed hfree
  have hearlier : ∀ {other : String × String}, other ∈ entries → ∀ {id : String},
      after.Reaches other.2 id ↔ start.Reaches other.2 id := by
    intro other ho id
    exact h.grows.reaches_iff hcovers.closed (hcovers.root_mem_ids ho)
  refine ⟨?_, ?_, ?_⟩
  · intro id dependency hdep
    rw [h.mem_ids_iff]
    rcases h.mem_ids_iff.mp hdep.mem_ids with hold | hown
    · exact .inl (hcovers.closed ((h.grows.dependsOn_iff hold).mp hdep))
    · exact .inr (howns.mpr ((howns.mp hown).tail hdep))
  · intro id
    rw [h.mem_ids_iff, hcovers.present, howns]
    constructor
    · rintro (⟨other, ho, hr⟩ | hr)
      · exact ⟨other, List.mem_append_left _ ho, (hearlier ho).mpr hr⟩
      · exact ⟨(entry, root), by simp, hr⟩
    · rintro ⟨other, ho, hr⟩
      rcases List.mem_append.mp ho with ho | ho
      · exact .inl ⟨other, ho, (hearlier ho).mp hr⟩
      · obtain rfl := List.mem_singleton.mp ho
        exact .inr hr
  · intro id
    have hsame : (entries.filter fun other => after.Reaches other.2 id) =
        entries.filter fun other => start.Reaches other.2 id :=
      List.filter_congr fun other ho => by simp only [hearlier ho]
    rw [h.grows.ownersOf_eq (hfree id), hcovers.owners, List.filter_append, hsame, List.map_append]
    by_cases hr : after.Reaches root id
    · simp [howns, hr]
    · simp [howns, hr]

end Workshop

end Bundler
