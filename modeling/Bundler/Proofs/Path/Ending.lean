import Bundler.Proofs.Path.Rooted

/-! Paths in normal form with something at the end. However it ends, such a path goes up first and
then down, so that nothing that it has entered is left again. -/

namespace Bundler.Path

/-- A path that goes up, and then down along names. -/
def IsStraight (path : Path) : Prop :=
  ∃ ups names, componentsOfSegments (segments path.text.toList) = climb ups names

variable {path : Path} {ending : String} {ups : Nat} {names : List String}

/-- Whatever a single segment stands for may come behind a way up. -/
theorem exists_climb_of_segment (ups : Nat) (segment : List Char) :
    ∃ ups' names, List.replicate ups .parent ++ componentsOfSegments [segment] =
      climb ups' names := by
  cases hpart : componentOfSegment segment with
  | none => exact ⟨ups, [], by simp [componentsOfSegments, hpart, climb]⟩
  | some part =>
      rcases (componentOfSegment_eq_some hpart).2 with rfl | rfl
      · exact ⟨ups + 1, [], by simp [componentsOfSegments, hpart, climb, List.replicate_succ']⟩
      · exact ⟨ups, [String.ofList segment], by simp [componentsOfSegments, hpart, climb]⟩

/-- The last part of a path takes up what is put at the end. -/
theorem isStraight_joinComponents (base : Path)
    (hbase : componentsOfSegments (segments base.text.toList) = [])
    (hnames : ∀ name ∈ names, IsName name) (hne : climb ups names ≠ [])
    (hending : '/' ∉ ending.toList) :
    IsStraight ⟨(joinComponents base (climb ups names)).text ++ ending⟩ := by
  have hfront : ∀ {ups : Nat} {front : List String}, (∀ name ∈ front, IsName name) →
      componentsOfSegments (segments (joinComponents base (climb ups front)).text.toList) =
        climb ups front := by
    intro ups front hfront
    rw [componentsOfSegments_joinComponents base (isPlain_of_mem_climb hfront), hbase,
      List.nil_append]
  rcases List.eq_nil_or_concat names with rfl | ⟨front, last, rfl⟩
  · -- only steps upwards: the last one turns into a name, or stays what it is
    obtain ⟨less, rfl⟩ : ∃ less, ups = less + 1 :=
      Nat.exists_eq_succ_of_ne_zero fun hzero => hne (by rw [hzero]; rfl)
    have hlast : joinComponents base (climb (less + 1) []) =
        (joinComponents base (climb less [])).join ⟨".."⟩ := by
      simp [joinComponents, climb, List.replicate_succ', Component.text]
    have hrelative : isAbsolute ⟨".." ++ ending⟩ = false := by
      simp [isAbsolute]
    obtain ⟨ups', names, hshape⟩ := exists_climb_of_segment less (".." ++ ending).toList
    refine ⟨ups', names, ?_⟩
    have hslash : '/' ∉ (".." ++ ending).toList := by simp [hending]
    rw [hlast, text_join_append _ rfl hrelative, componentsOfSegments_join _ hrelative,
      hfront noName, segments_of_not_mem hslash, ← hshape, climb, List.map_nil, List.append_nil]
  · rw [List.concat_eq_append] at hnames ⊢
    have hlast := hnames last (by simp)
    have hboth := hlast.append hending
    have hsplit : joinComponents base (climb ups (front ++ [last])) =
        (joinComponents base (climb ups front)).join ⟨last⟩ := by
      simp [joinComponents, climb, Component.text]
    have hend : componentsOfSegments [(last ++ ending).toList] = [.name (last ++ ending)] := by
      rw [componentsOfSegments, List.filterMap_cons, hboth.component]
      rfl
    refine ⟨ups, front ++ [last ++ ending], ?_⟩
    rw [hsplit, text_join_append _ hlast.isAbsolute hboth.isAbsolute,
      componentsOfSegments_join _ hboth.isAbsolute,
      hfront fun name hname => hnames name (List.mem_append_left _ hname),
      segments_of_not_mem hboth.slashless, hend]
    simp [climb]

theorem isStraight_of_single (hslash : '/' ∉ path.text.toList) : path.IsStraight := by
  obtain ⟨ups, names, hshape⟩ := exists_climb_of_segment 0 path.text.toList
  refine ⟨ups, names, ?_⟩
  rw [segments_of_not_mem hslash, ← hshape]
  rfl

/-- A path in normal form is straight, and so is one that something without a slash is put
behind. -/
theorem isStraight_normalize (path : Path) (hending : '/' ∉ ending.toList) :
    IsStraight ⟨path.normalize.text ++ ending⟩ := by
  cases habsolute : path.isAbsolute with
  | true =>
      obtain ⟨names, hnames, hnormal, -⟩ := exists_rooted habsolute
      rw [hnormal]
      rcases names with _ | ⟨first, rest⟩
      · obtain ⟨ups, names, hshape⟩ := exists_climb_of_segment 0 ending.toList
        refine ⟨ups, names, ?_⟩
        have htext : ((rooted []).text ++ ending).toList = [] ++ '/' :: ending.toList := by
          rw [String.toList_append]
          rfl
        rw [htext, segments_append, segments_of_not_mem hending, ← hshape,
          componentsOfSegments_append]
        rfl
      · have hrooted : rooted (first :: rest) =
            joinComponents ⟨"/"⟩ ((first :: rest).map .name) := rfl
        have hclimb : (first :: rest).map Component.name = climb 0 (first :: rest) := by
          simp [climb]
        rw [hrooted, hclimb]
        exact isStraight_joinComponents ⟨"/"⟩ (by decide) hnames (by simp [climb]) hending
  | false =>
      obtain ⟨ups, names, hnames, hnormal, -⟩ := exists_climb_of_relative habsolute
      rw [normalize, ofComponents, hnormal]
      by_cases hnil : climb ups names = []
      · rw [if_pos (by simpa using hnil)]
        exact isStraight_of_single (by simp [hending])
      · rw [if_neg (by simpa using hnil)]
        exact isStraight_joinComponents ⟨""⟩ (by decide) hnames hnil hending

end Bundler.Path
