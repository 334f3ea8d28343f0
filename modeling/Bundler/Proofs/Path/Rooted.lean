import Bundler.Proofs.Disk.Reading
import Bundler.Proofs.Path.Identity
import Mathlib.Data.List.Induction

/-! Paths from the root along names. They are the normal forms of absolute paths, and a file that is
found by putting an extension behind one is found under another one. Without backslashes, different
ones have different ids. -/

namespace Bundler

namespace Path

/-- The path from the root along some names. -/
def rooted (names : List String) : Path :=
  joinComponents ⟨""⟩ (.root :: names.map .name)

theorem components_rooted {names : List String} (h : ∀ name ∈ names, IsName name) :
    (rooted names).components = .root :: names.map .name :=
  components_joinComponents_root (isPlain_of_mem_names h)

theorem isAbsolute_rooted {names : List String} (h : ∀ name ∈ names, IsName name) :
    (rooted names).isAbsolute = true := by
  rw [isAbsolute_iff_mem, components_rooted h]
  exact List.mem_cons_self

theorem place_rooted {names : List String} (h : ∀ name ∈ names, IsName name) (base : Place) :
    (rooted names).place base = names := by
  rw [place, components_rooted h, List.foldl_cons, Place.foldl_names]
  rfl

theorem exists_rooted {path : Path} (h : path.isAbsolute = true) :
    ∃ names, (∀ name ∈ names, IsName name) ∧ path.normalize = rooted names ∧
      ∀ base, path.place base = names := by
  obtain ⟨names, hnames, hnormal, hplace⟩ := exists_names_of_absolute h
  refine ⟨names, hnames, ?_, hplace⟩
  rw [normalize, hnormal]
  rfl

theorem normalize_rooted {names : List String} (h : ∀ name ∈ names, IsName name) :
    (rooted names).normalize = rooted names := by
  obtain ⟨names', -, hnormal, hplace⟩ := exists_rooted (isAbsolute_rooted h)
  rw [hnormal, ← hplace [], place_rooted h]

theorem rooted_snoc (names : List String) (name : String) :
    rooted (names ++ [name]) = (rooted names).join ⟨name⟩ := by
  simp [rooted, joinComponents, Component.text]

/-! ### Texts -/

/-- A relative path that is joined to another one comes behind it, with or without a slash between
the two, whatever it is. -/
theorem exists_between_of_join (base : Path) : ∃ between, (between = [] ∨ between = ['/']) ∧
    ∀ next : Path, next.isAbsolute = false →
      (base.join next).text.toList = base.text.toList ++ between ++ next.text.toList := by
  cases hlast : base.text.toList.getLast? with
  | none =>
      have hempty := List.getLast?_eq_none_iff.mp hlast
      refine ⟨[], .inl rfl, fun next _ => ?_⟩
      rw [join_of_empty hempty, hempty]
      rfl
  | some c =>
      by_cases hc : c = '/'
      · subst hc
        refine ⟨[], .inl rfl, fun next hnext => ?_⟩
        unfold join
        split
        · next body htext => exact absurd htext (isAbsolute_eq_false_iff.mp hnext body)
        · simp [hlast]
      · refine ⟨['/'], .inr rfl, fun next hnext => ?_⟩
        unfold join
        split
        · next body htext => exact absurd htext (isAbsolute_eq_false_iff.mp hnext body)
        · simp [hlast]

theorem mem_text_join {base next : Path} (hnext : next.isAbsolute = false) {c : Char}
    (hc : c ≠ '/') :
    c ∈ (base.join next).text.toList ↔ c ∈ base.text.toList ∨ c ∈ next.text.toList := by
  obtain ⟨between, hbetween, hjoin⟩ := exists_between_of_join base
  rw [hjoin next hnext]
  rcases hbetween with rfl | rfl
  · simp
  · simp [hc]

theorem IsName.isAbsolute {name : String} (h : IsName name) : isAbsolute ⟨name⟩ = false := by
  rw [isAbsolute_eq_false_iff]
  intro body htext
  exact h.slashless (by simp [htext])

/-- What a name goes on with does not make it another kind of component. -/
theorem componentOfSegment_append {front : List Char} {text : String} (back : List Char)
    (h : componentOfSegment front = some (.name text)) :
    componentOfSegment (front ++ back) = some (.name (String.ofList (front ++ back))) := by
  have hempty : front ≠ [] := by
    rintro rfl
    cases h
  have hdot : front ≠ ['.'] := by
    rintro rfl
    cases h
  have hparent : front ≠ ['.', '.'] := by
    rintro rfl
    cases h
  rcases front with _ | ⟨c, _ | ⟨d, rest⟩⟩
  · exact absurd rfl hempty
  · exact componentOfSegment.eq_4 _ (by simp) (by simp_all) (by simp_all)
  · exact componentOfSegment.eq_4 _ (by simp) (by simp) (by simp_all)

theorem IsName.append {name extension : String} (h : IsName name)
    (hextension : '/' ∉ extension.toList) : IsName (name ++ extension) where
  component := by
    rw [String.toList_append, componentOfSegment_append _ h.component, ← String.toList_append,
      String.ofList_toList]
  slashless := by simp [h.slashless, hextension]

theorem text_join_append (base : Path) {name extension : String}
    (hname : isAbsolute ⟨name⟩ = false) (hboth : isAbsolute ⟨name ++ extension⟩ = false) :
    (base.join ⟨name⟩).text ++ extension = (base.join ⟨name ++ extension⟩).text := by
  obtain ⟨between, -, hjoin⟩ := exists_between_of_join base
  rw [← String.toList_inj, String.toList_append, hjoin _ hname, hjoin _ hboth]
  simp

/-- What is put behind a path from the root goes to its last name. -/
theorem rooted_append (front : List String) {last extension : String} (hlast : IsName last)
    (hextension : '/' ∉ extension.toList) :
    (⟨(rooted (front ++ [last])).text ++ extension⟩ : Path) =
      rooted (front ++ [last ++ extension]) := by
  rw [rooted_snoc, rooted_snoc,
    text_join_append _ hlast.isAbsolute (hlast.append hextension).isAbsolute]

theorem mem_text_rooted {names : List String} (h : ∀ name ∈ names, IsName name) {c : Char}
    (hc : c ≠ '/') : c ∈ (rooted names).text.toList ↔ ∃ name ∈ names, c ∈ name.toList := by
  induction names using List.reverseRecOn with
  | nil =>
      have hroot : (rooted []).text.toList = ['/'] := rfl
      simp [hroot, hc]
  | append_singleton names name ih =>
      have hname := h name (by simp)
      rw [rooted_snoc, mem_text_join hname.isAbsolute hc,
        ih fun other ho => h other (by simp [ho])]
      simp [or_and_right, exists_or]

/-! ### Ids -/

theorem mem_text_joinComponents {base : Path} {parts : List Component}
    (hparts : ∀ part ∈ parts, part.IsPlain) {c : Char} (hc : c ≠ '/')
    (h : c ∈ (joinComponents base parts).text.toList) :
    c ∈ base.text.toList ∨ ∃ part ∈ parts, c ∈ part.text.toList := by
  induction parts generalizing base with
  | nil => exact .inl h
  | cons part rest ih =>
      obtain ⟨hpart, hrest⟩ := List.forall_mem_cons.mp hparts
      rcases ih hrest h with hbase | ⟨other, ho, hother⟩
      · rcases (mem_text_join hpart.isAbsolute_text hc).mp hbase with hbase | hnext
        · exact .inl hbase
        · exact .inr ⟨part, List.mem_cons_self, hnext⟩
      · exact .inr ⟨other, List.mem_cons_of_mem part ho, hother⟩

/-- An absolute path in normal form, in which no backslash can be taken for a slash. -/
structure IsProper (path : Path) : Prop where
  absolute : path.isAbsolute = true
  normal : path.normalize = path
  plain : '\\' ∉ path.text.toList

theorem isProper_normalize {path : Path} (h : path.isAbsolute = true)
    (hplain : '\\' ∉ path.normalize.text.toList) : path.normalize.IsProper := by
  obtain ⟨names, hnames, hnormal, -⟩ := exists_rooted h
  refine ⟨isAbsolute_normalize h, ?_, hplain⟩
  rw [hnormal, normalize_rooted hnames]

/-- The way to a path has no characters but those of the path, of `..` and of slashes. -/
theorem IsProper.not_mem_way {root path : Path} (hroot : root.isAbsolute = true)
    (h : path.IsProper) : '\\' ∉ root.way path := by
  obtain ⟨above, habove, hroot', -⟩ := exists_rooted hroot
  obtain ⟨names, hnames, hpath, -⟩ := exists_rooted h.absolute
  rw [way, hroot', hpath, relative, components_rooted habove, components_rooted hnames, dropCommon,
    if_pos rfl]
  obtain ⟨shared, -, -, htarget⟩ := dropCommon_spec (above.map .name) (names.map .name)
  generalize dropCommon (above.map .name) (names.map .name) = rest at htarget ⊢
  have hparts : ∀ part ∈ rest.1.map (fun _ => Component.parent) ++ rest.2,
      part = .parent ∨ ∃ name ∈ names, part = .name name := by
    intro part hpart
    rcases List.mem_append.mp hpart with hpart | hpart
    · obtain ⟨_, -, rfl⟩ := List.mem_map.mp hpart
      exact .inl rfl
    · have hmem : part ∈ names.map Component.name := by
        rw [htarget]
        exact List.mem_append_right shared hpart
      obtain ⟨name, hname, rfl⟩ := List.mem_map.mp hmem
      exact .inr ⟨name, hname, rfl⟩
  have hisPlain : ∀ part ∈ rest.1.map (fun _ => Component.parent) ++ rest.2, part.IsPlain := by
    intro part hpart
    rcases hparts part hpart with rfl | ⟨name, hname, rfl⟩
    · trivial
    · exact hnames name hname
  intro hmem
  rcases mem_text_joinComponents hisPlain (by decide) hmem with hnil | ⟨part, hpart, hc⟩
  · cases hnil
  · rcases hparts part hpart with rfl | ⟨name, hname, rfl⟩
    · exact absurd hc (by decide)
    · refine h.plain ?_
      rw [← h.normal, hpath]
      exact (mem_text_rooted hnames (by decide)).mpr ⟨name, hname, hc⟩

/-- Proper paths have an id each. -/
theorem moduleId_inj {root path other : Path} (hroot : root.isAbsolute = true)
    (h : path.IsProper) (ho : other.IsProper) :
    root.moduleId path = root.moduleId other ↔ path = other := by
  rw [moduleId_eq_iff_of_not_mem hroot h.absolute ho.absolute (h.not_mem_way hroot)
    (ho.not_mem_way hroot), h.normal, ho.normal]

/-! ### Files -/

/-- A file whose path is one from the root along names, with something at the end, has such a path
itself. -/
theorem exists_rooted_of_isFile {disk : Disk} {names : List String} {extension : String}
    (hnames : ∀ name ∈ names, IsName name) (hextension : '/' ∉ extension.toList)
    (h : disk.isFile ⟨(rooted names).text ++ extension⟩ = true) :
    ∃ names', (∀ name ∈ names', IsName name) ∧
      (⟨(rooted names).text ++ extension⟩ : Path) = rooted names' := by
  rcases List.eq_nil_or_concat names with rfl | ⟨front, last, rfl⟩
  · -- the root itself is no file, so that the end has to be a name
    obtain ⟨-, bytes, hfound⟩ := Disk.exists_file_of_isFile h
    have hplace : place disk.workingDirectory ⟨(rooted []).text ++ extension⟩ =
        (componentOfSegment extension.toList).elim [] (Place.step []) := by
      have htext : ((rooted []).text ++ extension).toList = [] ++ '/' :: extension.toList := by
        rw [String.toList_append]
        rfl
      have habsolute : isAbsolute ⟨(rooted []).text ++ extension⟩ = true := by
        rw [isAbsolute, htext]
        rfl
      rw [place_eq, habsolute, htext, segments_append, segments_of_not_mem hextension]
      cases hsegment : componentOfSegment extension.toList with
      | none => simp [componentsOfSegments, hsegment, componentOfSegment.eq_1]
      | some part => simp [componentsOfSegments, hsegment, componentOfSegment.eq_1]
    cases hsegment : componentOfSegment extension.toList with
    | none =>
        rw [hplace, hsegment] at hfound
        cases hfound
    | some part =>
        rcases (componentOfSegment_eq_some hsegment).2 with rfl | rfl
        · rw [hplace, hsegment] at hfound
          cases hfound
        · have hname : IsName extension :=
            ⟨by rw [hsegment, String.ofList_toList], hextension⟩
          refine ⟨[extension], by simpa using hname, ?_⟩
          have hjoin : _ = (join (rooted []) ⟨"" ++ extension⟩).text :=
            text_join_append (rooted []) (by decide) (by simpa using hname.isAbsolute)
          rw [String.empty_append] at hjoin
          exact text_inj.mp hjoin
  · rw [List.concat_eq_append] at hnames ⊢
    have hlast := hnames last (by simp)
    have hboth := hlast.append hextension
    refine ⟨front ++ [last ++ extension], ?_, ?_⟩
    · intro name hname
      rcases List.mem_append.mp hname with hname | hname
      · exact hnames name (List.mem_append_left _ hname)
      · exact List.mem_singleton.mp hname ▸ hboth
    · exact rooted_append front hlast hextension

end Path

end Bundler
