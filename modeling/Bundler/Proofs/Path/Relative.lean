import Bundler.Proofs.Path.Canonical
import Bundler.Proofs.Path.Rooted

/-! The way from one absolute path to another. It goes up out of the names that the two do not
share, and then down to the other one. No relative path leads there in fewer components: each of
them adds a name to a place or takes one away, and all that is not shared has to go or to come. -/

namespace Bundler

/-- What a place and another one share bounds the number of components that lead from one to the
other. -/
theorem Place.exists_shared {parts : List Path.Component} (hparts : .root ∉ parts)
    {here there : Place} (h : parts.foldl step here = there) :
    ∃ shared, shared <+: here ∧ shared <+: there ∧
      here.length + there.length ≤ parts.length + 2 * shared.length := by
  induction parts generalizing here with
  | nil =>
      obtain rfl : here = there := h
      exact ⟨here, List.prefix_rfl, List.prefix_rfl, by rw [List.length_nil]; omega⟩
  | cons part rest ih =>
      rw [List.mem_cons, not_or] at hparts
      obtain ⟨shared, hleft, hright, hlength⟩ := ih hparts.2 h
      rw [List.length_cons]
      cases part with
      | root => exact absurd rfl hparts.1
      | current => exact ⟨shared, hleft, hright, by rw [step] at hlength; omega⟩
      | parent =>
          rw [step] at hleft hlength
          rw [List.length_dropLast] at hlength
          exact ⟨shared, hleft.trans (List.dropLast_prefix here), hright, by omega⟩
      | name text =>
          rw [step] at hleft hlength
          rw [List.length_append, List.length_singleton] at hlength
          rcases List.prefix_concat_iff.mp hleft with rfl | hhere
          · -- the name that was added is shared, and what was there before it as well
            rw [List.length_append, List.length_singleton] at hlength
            exact ⟨here, List.prefix_rfl, (List.prefix_append here [text]).trans hright, by omega⟩
          · exact ⟨shared, hhere, hright, by omega⟩

namespace Path

/-- An absolute path in normal form. -/
structure IsNormal (path : Path) : Prop where
  absolute : path.isAbsolute = true
  normal : path.normalize = path

variable {source target path : Path}

theorem IsNormal.exists_names (h : path.IsNormal) :
    ∃ names, (∀ name ∈ names, IsName name) ∧ path.components = .root :: names.map .name ∧
      ∀ base, path.place base = names := by
  obtain ⟨names, hnames, hnormal, hplace⟩ := exists_names_of_absolute h.absolute
  refine ⟨names, hnames, ?_, hplace⟩
  rw [← hnormal, ← components_normalize_of_absolute h.absolute, h.normal]

/-- What the way between two paths is made of: the names that only the first one has are left, and
those that only the second one has are entered. -/
theorem IsNormal.exists_way (hsource : source.IsNormal) (htarget : target.IsNormal) :
    ∃ shared rest names, IsShared (.root :: shared.map .name) source.components target.components ∧
      source.components = .root :: (shared ++ rest).map .name ∧
      target.components = .root :: (shared ++ names).map .name ∧
      (∀ name ∈ names, IsName name) ∧
      (relative source target).components = climb rest.length names ∧
      ∀ path : Path, (source.join path).normalize = target ↔
        path.place (shared ++ rest) = shared ++ names := by
  obtain ⟨above, -, habove, hfrom⟩ := hsource.exists_names
  obtain ⟨below, hnames, hbelow, hto⟩ := htarget.exists_names
  obtain ⟨shared, rest, names, hshared, rfl, rfl, hway⟩ := Path.exists_way habove hbelow hnames
  refine ⟨shared, rest, names, hshared, habove, hbelow,
    fun name hname => hnames name (List.mem_append_right _ hname), hway, fun path => ?_⟩
  have hjoin := normalize_eq_iff_place (isAbsolute_join path hsource.absolute) htarget.absolute []
  rw [htarget.normal, place_join, hfrom, hto] at hjoin
  exact hjoin

theorem normalize_join_relative (hsource : source.IsNormal) (htarget : target.IsNormal) :
    (source.join (relative source target)).normalize = target := by
  obtain ⟨shared, rest, names, -, -, -, -, hway, hleads⟩ := hsource.exists_way htarget
  rw [hleads, place, hway, foldl_climb, Place.climb, List.length_append, Nat.add_sub_cancel,
    List.take_left]

/-- No relative path that leads from a path to another one has fewer components than the way. -/
theorem length_relative_le (hsource : source.IsNormal) (htarget : target.IsNormal)
    (hrelative : path.isAbsolute = false) (h : (source.join path).normalize = target) :
    (relative source target).components.length ≤ path.components.length := by
  obtain ⟨shared, rest, names, hshared, habove, hbelow, -, hway, hleads⟩ :=
    hsource.exists_way htarget
  have hroot : .root ∉ path.components := by
    rw [← isAbsolute_iff_mem, hrelative]
    exact Bool.false_ne_true
  obtain ⟨common, hleft, hright, hbound⟩ := Place.exists_shared hroot ((hleads path).mp h)
  have hlongest : common.length ≤ shared.length := by
    have hcommon := hshared.longest (.root :: common.map .name)
      (by rw [habove]; exact (List.prefix_cons_inj _).mpr (hleft.map _))
      (by rw [hbelow]; exact (List.prefix_cons_inj _).mpr (hright.map _))
    simpa using hcommon
  have hlength : (relative source target).components.length = rest.length + names.length := by
    rw [hway]
    simp [climb]
  rw [List.length_append, List.length_append] at hbound
  omega

theorem relative_inj {other : Path} (hsource : source.IsNormal) (htarget : target.IsNormal)
    (hother : other.IsNormal) (h : relative source target = relative source other) :
    target = other := by
  rw [← normalize_join_relative hsource htarget, h, normalize_join_relative hsource hother]

/-- The way from a path to another one leads there, and no relative path that does has fewer
components. It goes up once for each component behind those that the two share, and then down along
names. So there is one way to each target, and it does not go up to a target below. -/
theorem relative_shortest (hsource : source.IsNormal) (htarget : target.IsNormal) :
    (source.join (relative source target)).normalize = target ∧
    (relative source target).isAbsolute = false ∧
    (∃ (shared : List Component) (names : List String),
      IsShared shared source.components target.components ∧
      target.components = shared ++ names.map .name ∧ (∀ name ∈ names, IsName name) ∧
      (relative source target).components =
        List.replicate (source.components.length - shared.length) .parent ++ names.map .name) ∧
    (∀ path : Path, path.isAbsolute = false → (source.join path).normalize = target →
      (relative source target).components.length ≤ path.components.length) ∧
    (∀ other : Path, other.IsNormal → relative source target = relative source other →
      target = other) ∧
    (source.components <+: target.components → .parent ∉ (relative source target).components) := by
  obtain ⟨shared, rest, names, hshared, habove, hbelow, hnames, hway, -⟩ :=
    hsource.exists_way htarget
  have hups : source.components.length - (Component.root :: shared.map Component.name).length =
      rest.length := by
    simp [habove]
  refine ⟨normalize_join_relative hsource htarget, ?_,
    ⟨_, names, hshared, by simp [hbelow], hnames, by rw [hway, hups, climb]⟩,
    fun path => length_relative_le hsource htarget,
    fun other => relative_inj hsource htarget, fun hbegins => ?_⟩
  · rw [← Bool.not_eq_true, isAbsolute_iff_mem, hway]
    simp [climb]
  · -- the whole source is shared, so that nothing of it is left
    have hall := hshared.longest _ List.prefix_rfl hbegins
    have hnone : rest.length = 0 := by omega
    rw [hway, hnone]
    simp [climb]

theorem relative_shortest_beside :
    let source : Path := ⟨"/app/src/lib"⟩
    let target : Path := ⟨"/app/test/a.js"⟩
    let detour : Path := ⟨"../../src/../test/a.js"⟩
    source.IsNormal ∧ target.IsNormal ∧ relative source target = ⟨"../../test/a.js"⟩ ∧
      (source.join (relative source target)).normalize = target ∧
      (source.join detour).normalize = target ∧
      (relative source target).components.length ≤ detour.components.length := by
  intro source target detour
  have hsource : source.IsNormal := ⟨by decide, by decide⟩
  have htarget : target.IsNormal := ⟨by decide, by decide⟩
  have hdetour : (source.join detour).normalize = target := by decide
  obtain ⟨hleads, -, -, hshortest, -⟩ := relative_shortest hsource htarget
  exact ⟨hsource, htarget, by decide, hleads, hdetour, hshortest detour (by decide) hdetour⟩

end Path

end Bundler
