import Bundler.Text.Location
import Mathlib.Data.List.Induction
import Mathlib.Data.Prod.Lex
import Mathlib.Data.String.Basic
import Mathlib.Order.Bounds.Basic

/-! The line and the column that a byte offset is shown as lead back to it: the lines above with
their newlines, and the characters to the left, take as many bytes as stand in front of the
character that holds the byte. -/

namespace Bundler.Text

open String (utf8Len)

variable {source : String} {text front other : List Char} {offset boundary : Nat}

/-- The offset lies between two characters, or at an end of the text. -/
def IsBoundary (source : String) (offset : Nat) : Prop :=
  String.Pos.Raw.IsValid source ⟨offset⟩

instance : Decidable (IsBoundary source offset) :=
  inferInstanceAs (Decidable (String.Pos.Raw.IsValid source ⟨offset⟩))

/-- Goes back to a boundary byte by byte; nothing where that would lead below zero. -/
def backUp? (source : String) : Nat → Option Nat
  | 0 => if IsBoundary source 0 then some 0 else none
  | offset + 1 =>
      if IsBoundary source (offset + 1) then some (offset + 1) else backUp? source offset

theorem isBoundary_iff :
    IsBoundary source offset ↔ ∃ front, front <+: source.toList ∧ utf8Len front = offset := by
  rw [IsBoundary, String.Pos.Raw.isValid_iff_exists_append]
  constructor
  · rintro ⟨left, right, rfl, hoffset⟩
    refine ⟨left.toList, ⟨right.toList, String.toList_append.symm⟩, ?_⟩
    rw [← String.utf8ByteSize_ofList, String.ofList_toList]
    exact congrArg String.Pos.Raw.byteIdx hoffset.symm
  · rintro ⟨front, ⟨rest, hsource⟩, rfl⟩
    refine ⟨String.ofList front, String.ofList rest, ?_, ?_⟩
    · rw [← String.ofList_append, hsource, String.ofList_toList]
    · rw [← String.utf8ByteSize_ofList]
      rfl

theorem backUp?_of_isGreatest
    (hgreatest : IsGreatest {place | IsBoundary source place ∧ place ≤ offset} boundary) :
    backUp? source offset = some boundary := by
  obtain ⟨⟨hboundary, hle⟩, hupper⟩ := hgreatest
  induction offset with
  | zero =>
      obtain rfl := Nat.le_zero.mp hle
      rw [backUp?, if_pos hboundary]
  | succ offset ih =>
      rw [backUp?]
      split
      · next hhere => rw [Nat.le_antisymm hle (hupper ⟨hhere, Nat.le_refl _⟩)]
      · next hhere =>
        have hlt : boundary < offset + 1 :=
          Nat.lt_of_le_of_ne hle fun h => hhere (h ▸ hboundary)
        refine ih ?_ (Nat.le_of_lt_succ hlt)
        rintro place ⟨hplace, hbelow⟩
        exact hupper ⟨hplace, Nat.le_succ_of_le hbelow⟩

/-! ### The characters in front of a byte -/

/-- The characters of a text that end before the byte at `offset`. -/
def upTo : Nat → List Char → List Char
  | _, [] => []
  | offset, c :: rest =>
      if c.utf8Size ≤ offset then c :: upTo (offset - c.utf8Size) rest else []

theorem upTo_isPrefix (offset : Nat) (text : List Char) : upTo offset text <+: text := by
  fun_induction upTo offset text with
  | case1 => exact List.nil_prefix
  | case2 offset c rest hfits ih => exact List.cons_prefix_cons.mpr ⟨rfl, ih⟩
  | case3 => exact List.nil_prefix

theorem utf8Len_upTo_le (offset : Nat) (text : List Char) :
    utf8Len (upTo offset text) ≤ offset := by
  fun_induction upTo offset text with
  | case1 => exact Nat.zero_le _
  | case2 offset c rest hfits ih =>
      rw [String.utf8Len_cons]
      omega
  | case3 => exact Nat.zero_le _

/-- They are as many as fit. -/
theorem isPrefix_upTo (hfront : front <+: text) (hlength : utf8Len front ≤ offset) :
    front <+: upTo offset text := by
  fun_induction upTo offset text generalizing front with
  | case1 => exact hfront
  | case2 offset c rest hfits ih =>
      cases front with
      | nil => exact List.nil_prefix
      | cons d front =>
          obtain ⟨rfl, htail⟩ := List.cons_prefix_cons.mp hfront
          rw [String.utf8Len_cons] at hlength
          exact List.cons_prefix_cons.mpr ⟨rfl, ih htail (by omega)⟩
  | case3 offset c rest hfits =>
      cases front with
      | nil => exact List.nil_prefix
      | cons d front =>
          obtain ⟨rfl, -⟩ := List.cons_prefix_cons.mp hfront
          rw [String.utf8Len_cons] at hlength
          omega

theorem utf8Len_le_of_isPrefix (h : front <+: other) : utf8Len front ≤ utf8Len other := by
  obtain ⟨rest, rfl⟩ := h
  rw [String.utf8Len_append]
  exact Nat.le_add_right _ _

theorem eq_of_isPrefix_of_utf8Len_le (h : front <+: other)
    (hlength : utf8Len other ≤ utf8Len front) : front = other := by
  obtain ⟨rest, rfl⟩ := h
  rw [String.utf8Len_append] at hlength
  cases rest with
  | nil => exact (List.append_nil front).symm
  | cons c rest =>
      have hsize := c.utf8Size_pos
      rw [String.utf8Len_cons] at hlength
      omega

theorem isGreatest_utf8Len_upTo (source : String) (offset : Nat) :
    IsGreatest {place | IsBoundary source place ∧ place ≤ offset}
      (utf8Len (upTo offset source.toList)) := by
  refine ⟨⟨?_, utf8Len_upTo_le offset _⟩, ?_⟩
  · exact isBoundary_iff.mpr ⟨_, upTo_isPrefix offset _, rfl⟩
  · rintro place ⟨hboundary, hplace⟩
    obtain ⟨front, hfront, rfl⟩ := isBoundary_iff.mp hboundary
    exact utf8Len_le_of_isPrefix (isPrefix_upTo hfront hplace)

theorem utf8Len_upTo_of_isBoundary (h : IsBoundary source offset) :
    utf8Len (upTo offset source.toList) = offset :=
  (isGreatest_utf8Len_upTo source offset).unique
    ⟨⟨h, Nat.le_refl offset⟩, fun _ hplace => hplace.2⟩

theorem upTo_isPrefix_upTo {later : Nat} (h : offset ≤ later) :
    upTo offset text <+: upTo later text :=
  isPrefix_upTo (upTo_isPrefix offset text) (Nat.le_trans (utf8Len_upTo_le offset text) h)

/-- No character ends between two offsets without a boundary between them. -/
theorem upTo_eq_upTo {later : Nat} (h : offset ≤ later)
    (hbetween : ∀ place, offset < place → place ≤ later → ¬ IsBoundary source place) :
    upTo offset source.toList = upTo later source.toList := by
  obtain ⟨⟨hboundary, hle⟩, -⟩ := isGreatest_utf8Len_upTo source later
  refine eq_of_isPrefix_of_utf8Len_le (upTo_isPrefix_upTo h) (utf8Len_le_of_isPrefix ?_)
  refine isPrefix_upTo (upTo_isPrefix later _) ?_
  by_contra hlt
  exact hbetween _ (Nat.lt_of_not_le hlt) hle hboundary

namespace Location

variable {here : Location}

/-- Locations in the order in which a text is read. -/
def key (here : Location) : ℕ ×ₗ ℕ :=
  toLex (here.line, here.column)

/-- The lines of a text, without their newlines. -/
def lines (text : List Char) : List (List Char) :=
  text.splitOn '\n'

def lineAt (text : List Char) (here : Location) : List Char :=
  (lines text).getD (here.line - 1) []

/-- The line exists, and the column is that of one of its characters or the one behind them. -/
def IsIn (text : List Char) (here : Location) : Prop :=
  1 ≤ here.line ∧ here.line ≤ (lines text).length ∧
    1 ≤ here.column ∧ here.column ≤ (here.lineAt text).length + 1

instance (text : List Char) (here : Location) : Decidable (here.IsIn text) :=
  inferInstanceAs (Decidable (_ ∧ _))

/-- The number of bytes in front of a location: those of the lines above with their newlines, and
those of the characters to the left. -/
def byteOffset (text : List Char) (here : Location) : Nat :=
  utf8Len (((lines text).take (here.line - 1)).flatMap (· ++ ['\n'])) +
    utf8Len ((here.lineAt text).take (here.column - 1))

theorem scan_eq_foldl (here : Location) (offset : Nat) (text : List Char) :
    here.scan offset text = (upTo offset text).foldl advance here := by
  fun_induction upTo offset text generalizing here with
  | case1 => rfl
  | case2 offset c rest hfits ih => rw [scan, if_pos hfits, ih, List.foldl_cons]
  | case3 offset c rest hfits => rw [scan, if_neg hfits, List.foldl_nil]

theorem ofOffset_eq_foldl (text : List Char) (offset : Nat) :
    ofOffset text offset = (upTo offset text).foldl advance start :=
  scan_eq_foldl start offset text

/-! ### Order -/

theorem key_lt_key_advance (here : Location) (c : Char) : here.key < (here.advance c).key := by
  rw [key, key, Prod.Lex.toLex_lt_toLex, advance]
  split
  · exact .inl (Nat.lt_succ_self here.line)
  · exact .inr ⟨rfl, Nat.lt_succ_self here.column⟩

theorem key_le_key_foldl (here : Location) (front : List Char) :
    here.key ≤ (front.foldl advance here).key := by
  induction front generalizing here with
  | nil => exact le_rfl
  | cons c front ih => exact (key_lt_key_advance here c).le.trans (ih _)

theorem key_foldl_le_of_isPrefix (h : front <+: other) :
    (front.foldl advance here).key ≤ (other.foldl advance here).key := by
  obtain ⟨rest, rfl⟩ := h
  rw [List.foldl_append]
  exact key_le_key_foldl _ rest

theorem key_foldl_lt_of_isPrefix (h : front <+: other) (hne : front ≠ other) :
    (front.foldl advance here).key < (other.foldl advance here).key := by
  obtain ⟨rest, rfl⟩ := h
  cases rest with
  | nil => exact absurd (List.append_nil front).symm hne
  | cons c rest =>
      rw [List.foldl_append, List.foldl_cons]
      exact (key_lt_key_advance _ c).trans_le (key_le_key_foldl _ rest)

/-! ### Lines -/

/-- Counting over the front of a text ends in the line behind the full ones, behind the characters
that the front has of it. -/
theorem exists_foldl_advance (front : List Char) :
    ∃ (above : List (List Char)) (left : List Char),
      front = above.flatMap (· ++ ['\n']) ++ left ∧
      (∀ line ∈ above, '\n' ∉ line) ∧ '\n' ∉ left ∧
      front.foldl advance start = ⟨above.length + 1, left.length + 1⟩ := by
  induction front using List.reverseRecOn with
  | nil => exact ⟨[], [], rfl, by simp, by simp, rfl⟩
  | append_singleton front c ih =>
      obtain ⟨above, left, hfront, habove, hleft, hhere⟩ := ih
      rw [List.foldl_append, hhere, List.foldl_cons, List.foldl_nil, advance]
      by_cases hc : c = '\n'
      · subst hc
        refine ⟨above ++ [left], [], by simp [hfront], ?_, by simp, by simp⟩
        intro line hline
        rcases List.mem_append.mp hline with hline | hline
        · exact habove line hline
        · rwa [List.mem_singleton.mp hline]
      · refine ⟨above, left ++ [c], by simp [hfront], habove, ?_, by simp [hc]⟩
        simpa [hleft] using Ne.symm hc

theorem lines_flatMap_append {above : List (List Char)} (habove : ∀ line ∈ above, '\n' ∉ line)
    (rest : List Char) :
    lines (above.flatMap (· ++ ['\n']) ++ rest) = above ++ lines rest := by
  induction above with
  | nil => rfl
  | cons line above ih =>
      obtain ⟨hline, habove⟩ := List.forall_mem_cons.mp habove
      rw [List.flatMap_cons, List.append_assoc, List.append_assoc, List.singleton_append, lines,
        List.splitOn_append_cons_self_of_not_mem hline, List.cons_append]
      exact congrArg (line :: ·) (ih habove)

theorem exists_lines_append {left : List Char} (hleft : '\n' ∉ left) (rest : List Char) :
    ∃ right below, lines (left ++ rest) = (left ++ right) :: below := by
  induction left with
  | nil => exact List.exists_cons_of_ne_nil (List.splitOn_ne_nil '\n' rest)
  | cons c left ih =>
      obtain ⟨hc, hleft⟩ := not_or.mp (mt List.mem_cons.mpr hleft)
      obtain ⟨right, below, hlines⟩ := ih hleft
      refine ⟨right, below, ?_⟩
      rw [lines] at hlines ⊢
      rw [List.cons_append, List.splitOn_cons_eq_if_modifyHead, hlines,
        if_neg (by simpa using Ne.symm hc)]
      rfl

/-- The front of a text is what stands above and to the left of the place behind it. -/
theorem byteOffset_foldl (hfront : front <+: text) :
    (front.foldl advance start).IsIn text ∧
      (front.foldl advance start).byteOffset text = utf8Len front := by
  obtain ⟨rest, rfl⟩ := hfront
  obtain ⟨above, left, rfl, habove, hleft, hhere⟩ := exists_foldl_advance front
  obtain ⟨right, below, hbelow⟩ := exists_lines_append hleft rest
  have hlines : lines (above.flatMap (· ++ ['\n']) ++ left ++ rest) =
      above ++ (left ++ right) :: below := by
    rw [List.append_assoc, lines_flatMap_append habove, hbelow]
  have hline : lineAt (above.flatMap (· ++ ['\n']) ++ left ++ rest)
      ⟨above.length + 1, left.length + 1⟩ = left ++ right := by
    rw [lineAt, hlines]
    simp
  rw [hhere, IsIn, byteOffset, hline, hlines]
  simp [String.utf8Len_append]

/-- The location of an offset leads back to the boundary at or before it, the one that a step back
byte by byte finds. Later offsets have later locations: strictly later ones at boundaries, and the
same ones where no boundary lies between. -/
theorem ofOffset_inverts (source : String) :
    (∀ offset, ∃ boundary,
      IsGreatest {place | IsBoundary source place ∧ place ≤ min offset source.utf8ByteSize}
        boundary ∧
      backUp? source (min offset source.utf8ByteSize) = some boundary ∧
      (ofOffset source.toList offset).IsIn source.toList ∧
      (ofOffset source.toList offset).byteOffset source.toList = boundary) ∧
    Monotone (fun offset => (ofOffset source.toList offset).key) ∧
    StrictMonoOn (fun offset => (ofOffset source.toList offset).key)
      {place | IsBoundary source place} ∧
    (∀ offset later, offset ≤ later →
      (∀ place, offset < place → place ≤ later → ¬ IsBoundary source place) →
      ofOffset source.toList offset = ofOffset source.toList later) ∧
    (∀ offset, source.utf8ByteSize ≤ offset →
      ofOffset source.toList offset = ofOffset source.toList source.utf8ByteSize) := by
  simp only [ofOffset_eq_foldl]
  have hends : ∀ offset,
      upTo (min offset source.utf8ByteSize) source.toList = upTo offset source.toList := by
    intro offset
    refine upTo_eq_upTo (Nat.min_le_left _ _) fun place hafter hplace hboundary => ?_
    have hle := hboundary.le_utf8ByteSize
    exact absurd hafter (Nat.not_lt.mpr (Nat.le_min.mpr ⟨hplace, hle⟩))
  refine ⟨fun offset => ?_, ?_, ?_, ?_, ?_⟩
  · have hgreatest := isGreatest_utf8Len_upTo source (min offset source.utf8ByteSize)
    rw [hends] at hgreatest
    obtain ⟨hin, hbytes⟩ := byteOffset_foldl (upTo_isPrefix offset source.toList)
    exact ⟨_, hgreatest, backUp?_of_isGreatest hgreatest, hin, hbytes⟩
  · intro offset later h
    exact key_foldl_le_of_isPrefix (upTo_isPrefix_upTo h)
  · intro offset hoffset later hlater h
    refine key_foldl_lt_of_isPrefix (upTo_isPrefix_upTo h.le) fun heq => ?_
    have hlength := congrArg utf8Len heq
    rw [utf8Len_upTo_of_isBoundary hoffset, utf8Len_upTo_of_isBoundary hlater] at hlength
    exact h.ne hlength
  · intro offset later h hbetween
    rw [upTo_eq_upTo h hbetween]
  · intro offset h
    rw [← hends offset, Nat.min_eq_right h]

/-- The fourth byte lies within the character behind the newline. -/
theorem ofOffset_inverts_within :
    (IsBoundary "a\n😀b" 2 ∧ IsBoundary "a\n😀b" 6 ∧
      ∀ place, 2 < place → place ≤ 4 → ¬ IsBoundary "a\n😀b" place) ∧
    ofOffset "a\n😀b".toList 4 = ⟨2, 1⟩ ∧
    byteOffset "a\n😀b".toList ⟨2, 1⟩ = 2 ∧
    (ofOffset "a\n😀b".toList 2).key < (ofOffset "a\n😀b".toList 6).key ∧
    ofOffset "a\n😀b".toList 2 = ofOffset "a\n😀b".toList 4 ∧
    ofOffset "a\n😀b".toList 99 = ofOffset "a\n😀b".toList 7 := by
  have hbefore : IsBoundary "a\n😀b" 2 := by decide +kernel
  have hbehind : IsBoundary "a\n😀b" 6 := by decide +kernel
  have hwithin : ∀ place, 2 < place → place ≤ 4 → ¬ IsBoundary "a\n😀b" place := by
    intro place hafter hupto
    obtain rfl | rfl : place = 3 ∨ place = 4 := by omega
    · decide +kernel
    · decide +kernel
  have hlocation : ofOffset "a\n😀b".toList 4 = ⟨2, 1⟩ := by decide +kernel
  obtain ⟨hinverts, -, hstrict, hconstant, hend⟩ := ofOffset_inverts "a\n😀b"
  obtain ⟨boundary, -, hback, -, hbytes⟩ := hinverts 4
  have hboundary : backUp? "a\n😀b" (min 4 "a\n😀b".utf8ByteSize) = some 2 := by decide +kernel
  rw [hlocation, ← Option.some.inj (hboundary.symm.trans hback)] at hbytes
  exact ⟨⟨hbefore, hbehind, hwithin⟩, hlocation, hbytes, hstrict hbefore hbehind (by decide),
    hconstant 2 4 (by decide) hwithin, hend 99 (by decide +kernel)⟩

end Location

end Bundler.Text
