import Bundler.Json.Printer
import Bundler.Json.Reader
import Bundler.Proofs.Report
import Mathlib.Algebra.BigOperators.Group.List.Basic
import Mathlib.Tactic.IntervalCases

/-! Printed objects of texts are read back: their fields are found as they were, in the order in
which they were printed. -/

namespace Bundler

/-- Pieces that are not empty are no more than the characters of their text. -/
theorem length_le_flatMap {α : Type} {piece : α → List Char} (hpiece : ∀ item, piece item ≠ [])
    (items : List α) : items.length ≤ (items.flatMap piece).length := by
  rw [List.length_flatMap, ← List.length_map (fun item => (piece item).length)]
  refine List.length_le_sum_of_one_le _ fun length hlength => ?_
  obtain ⟨item, -, rfl⟩ := List.mem_map.mp hlength
  exact List.length_pos_iff.mpr (hpiece item)

end Bundler

namespace Bundler.Json

namespace Reader

/-- Something was read, and some characters are left. -/
def Yields {α : Type} (result : Except Fault (α × Cursor)) (value : α) (rest : List Char) : Prop :=
  ∃ index, result = .ok (value, ⟨rest, index⟩)

variable {α β : Type} {first : Except Fault (α × Cursor)}
  {next : α × Cursor → Except Fault (β × Cursor)} {found : α} {value' : β} {rest left : List Char}

theorem Yields.bind (h : Yields first found rest)
    (h' : ∀ index, Yields (next (found, ⟨rest, index⟩)) value' left) :
    Yields (first >>= next) value' left := by
  obtain ⟨index, hfirst⟩ := h
  rw [hfirst]
  exact h' index

/-- The fields of a document that is an object, in the order in which they stand. -/
def documentFields (text : List Char) : Except Fault (List (String × Json)) := do
  let here := (Cursor.mk text 0).skip
  match here.rest with
  | '\x7b' :: _ =>
    let (found, here) ← fields (value (maxDepth - 1)) (here.rest.length + 1) true here.next
    let here := here.skip
    if here.rest.isEmpty then return found
    else here.faultNext .trailingCharacters
  | _ => here.faultNext .expectedValue

theorem value_object {here : Cursor} (depth : Nat) (hrest : here.skip.rest = '\x7b' :: rest) :
    value (depth + 2) here =
      (fields (value (depth + 1)) (here.skip.rest.length + 1) true here.skip.next >>=
        fun result => .ok (Json.ofFields result.1, result.2)) := by
  rw [value]
  simp only [hrest]
  rfl

/-- Reading a document puts the fields of an object in the order of their keys. -/
theorem document_of_documentFields {text : List Char} {listed : List (String × Json)}
    (h : documentFields text = .ok listed) : document text = .ok (Json.ofFields listed) := by
  unfold documentFields at h
  dsimp only at h
  split at h
  · next rest hrest =>
    obtain ⟨⟨found, here⟩, hfields, hend⟩ := bind_eq_ok_iff.mp h
    have hvalue : value maxDepth ⟨text, 0⟩ = .ok (Json.ofFields found, here) := by
      rw [maxDepth, value_object 126 hrest]
      exact bind_eq_ok_iff.mpr ⟨_, hfields, rfl⟩
    refine bind_eq_ok_iff.mpr ⟨_, hvalue, ?_⟩
    dsimp only at hend ⊢
    split at hend
    · next hempty =>
      obtain rfl := Except.ok.inj hend
      rw [if_pos hempty]
      rfl
    · cases hend
  · cases h

/-! ### Texts -/

/-- Some characters stand for a character at the front of the rest of a string. -/
def StandsFor (text : List Char) (c : Char) : Prop :=
  ∀ fuel seen rest index, ∃ after,
    stringFrom (fuel + 1) seen ⟨text ++ rest, index⟩ = stringFrom fuel (c :: seen) ⟨rest, after⟩

theorem standsFor_escape {text : List Char} {c : Char}
    (h : ∀ rest index, Yields (escape ⟨text ++ rest, index⟩) c rest) :
    StandsFor ('\\' :: text) c := by
  intro fuel seen rest index
  obtain ⟨after, hafter⟩ := h rest (index + 1)
  refine ⟨after, ?_⟩
  change (escape ⟨text ++ rest, index + 1⟩ >>= fun found =>
    stringFrom fuel (found.1 :: seen) found.2) = _
  rw [hafter]
  rfl

theorem standsFor_plain {c : Char} (hquote : c ≠ '"') (hback : c ≠ '\\')
    (hcontrol : ¬ c.toNat < 32) : StandsFor [c] c := by
  intro fuel seen rest index
  refine ⟨index + c.utf8Size, ?_⟩
  rw [List.singleton_append, stringFrom]
  split
  · next h => cases h
  · next h => exact absurd (List.cons.inj h).1 hquote
  · next h => exact absurd (List.cons.inj h).1 hback
  · next h =>
    obtain ⟨rfl, rfl⟩ := List.cons.inj h
    rw [if_neg hcontrol]
    rfl

theorem escape_control (n : Nat) (hn : n < 32) (rest : List Char) (index : Nat) :
    Yields (escape ⟨'u' :: Text.hexPadded 4 n ++ rest, index⟩) (Char.ofNat n) rest := by
  refine ⟨index + 1 + 4, ?_⟩
  interval_cases n <;> rfl

/-- What is printed for a character stands for it. -/
theorem standsFor_escapeChar (c : Char) : StandsFor (escapeChar c) c := by
  unfold escapeChar
  split
  · exact standsFor_escape fun rest index => ⟨_, rfl⟩
  · exact standsFor_escape fun rest index => ⟨_, rfl⟩
  · exact standsFor_escape fun rest index => ⟨_, rfl⟩
  · exact standsFor_escape fun rest index => ⟨_, rfl⟩
  · exact standsFor_escape fun rest index => ⟨_, rfl⟩
  · exact standsFor_escape fun rest index => ⟨_, rfl⟩
  · exact standsFor_escape fun rest index => ⟨_, rfl⟩
  · rename_i hquote hback _ _ _ _ _
    split
    · next hcontrol =>
      have hread := escape_control c.toNat hcontrol
      rw [Char.ofNat_toNat] at hread
      exact standsFor_escape hread
    · next hcontrol => exact standsFor_plain hquote hback hcontrol

/-- A quoted text is read up to its closing quote. -/
theorem stringFrom_quoted (text rest seen : List Char) (more index : Nat) :
    Yields (stringFrom (text.length + more + 1) seen
      ⟨text.flatMap escapeChar ++ '"' :: rest, index⟩) (String.ofList (seen.reverse ++ text))
      rest := by
  induction text generalizing seen index with
  | nil =>
      rw [List.append_nil]
      exact ⟨_, rfl⟩
  | cons c text ih =>
      obtain ⟨middle, hfirst⟩ := standsFor_escapeChar c (text.length + more + 1) seen
        (text.flatMap escapeChar ++ '"' :: rest) index
      have hrest := ih (c :: seen) middle
      rw [List.reverse_cons, List.append_assoc, List.singleton_append] at hrest
      rw [List.flatMap_cons, List.append_assoc, List.length_cons, Nat.add_right_comm _ 1, hfirst]
      exact hrest

theorem escapeChar_ne_nil (c : Char) : escapeChar c ≠ [] := by
  unfold escapeChar
  split
  case h_8 => split <;> simp
  all_goals simp

/-- A text that was quoted is read back. -/
theorem string_quoteChars (text : String) (rest : List Char) (index : Nat) :
    Yields (string (Cursor.mk (quoteChars text.toList ++ rest) index).next) text rest := by
  have hlength := length_le_flatMap escapeChar_ne_nil text.toList
  obtain ⟨more, hmore⟩ : ∃ more, (text.toList.flatMap escapeChar ++ '"' :: rest).length =
      text.toList.length + more :=
    ⟨_, (Nat.add_sub_of_le (by rw [List.length_append]; omega)).symm⟩
  have hread := stringFrom_quoted text.toList rest [] more (index + '"'.utf8Size)
  rw [List.reverse_nil, List.nil_append, String.ofList_toList, ← hmore] at hread
  rw [quoteChars, List.append_assoc]
  exact hread

/-! ### Fields -/

/-- A field that holds a text, as it is printed. -/
def line (field : String × String) : List Char :=
  quoteChars field.1.toList ++ ':' :: ' ' :: quoteChars field.2.toList

/-- What is printed in front of a field. -/
def lead (isFirst : Bool) : List Char :=
  if isFirst then ['\n', ' ', ' '] else [',', '\n', ' ', ' ']

theorem value_string (depth : Nat) (text : String) (rest : List Char) (index : Nat) :
    Yields (value (depth + 1) ⟨' ' :: quoteChars text.toList ++ rest, index⟩) (.string text)
      rest :=
  Yields.bind (string_quoteChars text rest (index + 1)) fun _ => ⟨_, rfl⟩

/-- One field is read, and then those behind it. -/
theorem fields_cons {depth fuel : Nat} {found : List (String × Json)}
    (h : ∀ index, Yields (fields (value (depth + 1)) fuel false ⟨rest, index⟩) found left)
    (isFirst : Bool) (field : String × String) (index : Nat) :
    Yields (fields (value (depth + 1)) (fuel + 1) isFirst
        ⟨lead isFirst ++ (line field ++ rest), index⟩)
      ((field.1, .string field.2) :: found) left := by
  rw [line, List.append_assoc]
  cases isFirst <;>
    exact (string_quoteChars field.1 _ _).bind fun _ =>
      (value_string depth field.2 rest _).bind fun _ => (h _).bind fun _ => ⟨_, rfl⟩

/-- Texts as the fields of an object. -/
def texts (entries : List (String × String)) : List (String × Json) :=
  entries.map fun entry => (entry.1, .string entry.2)

theorem fields_lines (depth : Nat) (entries : List (String × String)) (rest : List Char)
    (more index : Nat) :
    Yields (fields (value (depth + 1)) (entries.length + more + 1) false
      ⟨entries.flatMap (fun entry => lead false ++ line entry) ++ '\n' :: '\x7d' :: rest, index⟩)
      (texts entries) rest := by
  induction entries generalizing index with
  | nil => exact ⟨_, rfl⟩
  | cons entry entries ih =>
      have hall := fields_cons ih false entry index
      rw [List.flatMap_cons, List.length_cons, Nat.add_right_comm _ 1, List.append_assoc,
        List.append_assoc]
      exact hall

/-! ### Documents -/

theorem intercalate_cons (separator line : List Char) (lines : List (List Char)) :
    separator.intercalate (line :: lines) =
      line ++ lines.flatMap fun line => separator ++ line := by
  induction lines generalizing line with
  | nil => simp
  | cons next lines ih => rw [List.intercalate_cons_cons, ih, List.flatMap_cons]; simp

theorem toList_indentedFields (level : Nat) (entries : List (String × String)) :
    (indentedFields level (texts entries)).map String.toList = entries.map line := by
  induction entries with
  | nil => rfl
  | cons entry entries ih =>
      rw [List.map_cons, ← ih]
      simp [texts, indentedFields, indented, quote, line]

/-- An object of texts as it is printed. -/
theorem toList_pretty (entry : String × String) (entries : List (String × String)) :
    (Json.object (texts (entry :: entries))).pretty.toList =
      '\x7b' :: (lead true ++ (line entry ++
        (entries.flatMap (fun entry => lead false ++ line entry) ++ ['\n', '\x7d']))) := by
  have hlines := toList_indentedFields 1 (entry :: entries)
  have hsome : (indentedFields 1 (texts (entry :: entries))).isEmpty = false := rfl
  rw [pretty, indented, block, hsome]
  simp only [Bool.false_eq_true, if_false, String.toList_append, String.toList_intercalate,
    hlines, List.map_cons, intercalate_cons, List.flatMap_map]
  simp [newline, lead, List.replicate]

/-- The fields of an object of texts are read in the order in which they were printed. -/
theorem documentFields_pretty (entries : List (String × String)) :
    documentFields (Json.object (texts entries)).pretty.toList = .ok (texts entries) := by
  cases entries with
  | nil => rfl
  | cons entry entries =>
      let body := entries.flatMap (fun entry => lead false ++ line entry) ++ ['\n', '\x7d']
      let rest := lead true ++ (line entry ++ body)
      obtain ⟨more, hmore⟩ : ∃ more, ('\x7b' :: rest).length + 1 = entries.length + more + 2 := by
        have hlength := @length_le_flatMap _ (fun entry => lead false ++ line entry)
          (by simp [lead]) entries
        exact ⟨rest.length - entries.length, by
          simp only [rest, body, List.length_cons, List.length_append]
          omega⟩
      have hread : Yields (fields (value (maxDepth - 1)) (('\x7b' :: rest).length + 1) true
          ⟨rest, 1⟩) (texts (entry :: entries)) [] := by
        rw [hmore]
        exact fields_cons (fields_lines 126 entries [] more) true entry 1
      obtain ⟨last, hlast⟩ := hread
      rw [toList_pretty]
      exact bind_eq_ok_iff.mpr ⟨_, hlast, rfl⟩

end Reader

/-- A printed object of texts is read back. -/
theorem parse_pretty (entries : List (String × String)) :
    Json.parse (Json.object (Reader.texts entries)).pretty =
      .ok (Json.ofFields (Reader.texts entries)) := by
  rw [parse, Reader.document_of_documentFields (Reader.documentFields_pretty entries)]

end Bundler.Json
