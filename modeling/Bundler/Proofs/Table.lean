import Bundler.Table
import Mathlib.Data.List.Induction

/-! The names and entries of a table after a value was put into it, or the values of a list. -/

namespace Bundler

theorem eraseDups_concat (ids : List String) (id : String) :
    (ids ++ [id]).eraseDups = if id ∈ ids then ids.eraseDups else ids.eraseDups ++ [id] := by
  rw [List.eraseDups_append]
  by_cases h : id ∈ ids
  · simp [List.removeAll, h]
  · simp [List.removeAll, h, List.eraseDups_cons]

namespace Table

variable {α : Type} {table : Table α} {key : String}

theorem contains_iff : table.contains key = true ↔ key ∈ table.keys := by
  simp [contains]

theorem keys_insert (table : Table α) (key : String) (value : α) :
    (table.insert key value).keys =
      if key ∈ table.keys then table.keys else table.keys ++ [key] :=
  names_put key value table.entries

theorem mem_keys_insert {value : α} {name : String} :
    name ∈ (table.insert key value).keys ↔ name ∈ table.keys ∨ name = key := by
  rw [keys_insert]
  by_cases h : key ∈ table.keys
  · rw [if_pos h]
    refine ⟨.inl, ?_⟩
    rintro (hname | rfl)
    · exact hname
    · exact h
  · simp [h]

theorem entries_insert_of_not_mem (value : α) (h : key ∉ table.keys) :
    (table.insert key value).entries = table.entries ++ [(key, value)] := by
  have hput : ∀ {entries : List (String × α)}, key ∉ names entries →
      put key value entries = entries ++ [(key, value)] := by
    intro entries hn
    induction entries with
    | nil => rfl
    | cons first rest ih =>
        obtain ⟨other, old⟩ := first
        simp only [names, List.map_cons, List.mem_cons, not_or] at hn ih
        rw [put, if_neg (Ne.symm hn.1), ih hn.2, List.cons_append]
  exact hput h

theorem mem_entries_insert {value : α} {entry : String × α}
    (h : entry ∈ (table.insert key value).entries) :
    entry ∈ table.entries ∨ entry = (key, value) := by
  have hput : ∀ {entries : List (String × α)}, entry ∈ put key value entries →
      entry ∈ entries ∨ entry = (key, value) := by
    intro entries he
    induction entries with
    | nil => exact .inr (List.mem_singleton.mp he)
    | cons first rest ih =>
        rw [put] at he
        split at he
        · rcases List.mem_cons.mp he with hnew | hrest
          · exact .inr hnew
          · exact .inl (List.mem_cons_of_mem first hrest)
        · rcases List.mem_cons.mp he with hfirst | hrest
          · exact .inl (List.mem_cons.mpr (.inl hfirst))
          · exact (ih hrest).imp_left (List.mem_cons_of_mem first)
  exact hput h

theorem get?_insert (table : Table α) (key : String) (value : α) (name : String) :
    (table.insert key value).get? name = if name = key then some value else table.get? name := by
  have hput : ∀ entries : List (String × α), (put key value entries).lookup name =
      if name = key then some value else entries.lookup name := by
    intro entries
    induction entries with
    | nil =>
        by_cases hname : name = key
        · simp [put, hname]
        · simp [put, List.lookup_cons, hname, beq_false_of_ne hname]
    | cons first rest ih =>
        obtain ⟨other, old⟩ := first
        rw [put]
        by_cases hother : other = key
        · subst hother
          by_cases hname : name = other
          · simp [hname]
          · simp [List.lookup_cons, hname, beq_false_of_ne hname]
        · rw [if_neg hother, List.lookup_cons, List.lookup_cons, ih]
          by_cases hname : name = other
          · subst hname
            simp [hother]
          · simp [beq_false_of_ne hname]
  exact hput table.entries

theorem mem_entries_of_get? {value : α} (h : table.get? key = some value) :
    (key, value) ∈ table.entries := by
  obtain ⟨before, after, hentries, -⟩ := List.lookup_eq_some_iff.mp h
  rw [hentries]
  simp

theorem mem_keys_of_get? {value : α} (h : table.get? key = some value) : key ∈ table.keys :=
  List.mem_map_of_mem (mem_entries_of_get? h)

/-- The entries under other names keep their values and their positions. -/
theorem getElem?_entries_insert {name : String} {old : α} {index : Nat} (value : α)
    (hname : name ≠ key) (h : table.entries[index]? = some (name, old)) :
    (table.insert key value).entries[index]? = some (name, old) := by
  have hput : ∀ {entries : List (String × α)} {index : Nat},
      entries[index]? = some (name, old) →
        (put key value entries)[index]? = some (name, old) := by
    intro entries
    induction entries with
    | nil => simp
    | cons first rest ih =>
        intro index hold
        rw [put]
        cases index with
        | zero =>
            obtain rfl := Option.some.inj hold
            rw [if_neg hname]
            rfl
        | succ index =>
            split
            · exact hold
            · exact ih hold
  exact hput h

/-! ### Tables of lists -/

theorem ofList_concat (entries : List (String × α)) (entry : String × α) :
    ofList (entries ++ [entry]) = (ofList entries).insert entry.1 entry.2 := by
  rw [ofList, List.foldl_append]
  rfl

/-- Names are in the order in which they came first. -/
theorem keys_ofList (entries : List (String × α)) :
    (ofList entries).keys = (names entries).eraseDups := by
  induction entries using List.reverseRecOn with
  | nil => rfl
  | append_singleton entries entry ih =>
      have hnames : names (entries ++ [entry]) = names entries ++ [entry.1] := List.map_append
      rw [ofList_concat, keys_insert, ih, hnames, eraseDups_concat]
      simp only [List.mem_eraseDups]

/-- The last value of a name stays. -/
theorem get?_ofList (entries : List (String × α)) (name : String) :
    (ofList entries).get? name = entries.reverse.lookup name := by
  induction entries using List.reverseRecOn with
  | nil => rfl
  | append_singleton entries entry ih =>
      rw [ofList_concat, get?_insert, ih, List.reverse_append, List.reverse_singleton,
        List.singleton_append, List.lookup_cons]
      by_cases hname : name = entry.1
      · simp [hname]
      · simp [hname, beq_false_of_ne hname]

theorem entries_ofList {entries : List (String × α)} (h : (names entries).Nodup) :
    (ofList entries).entries = entries := by
  induction entries using List.reverseRecOn with
  | nil => rfl
  | append_singleton entries entry ih =>
      rw [names, List.map_append, List.map_singleton, List.nodup_append] at h
      have hnew : entry.1 ∉ (ofList entries).keys := by
        rw [keys_ofList, List.mem_eraseDups]
        exact fun hmem => h.2.2 _ hmem _ (List.mem_singleton.mpr rfl) rfl
      rw [ofList_concat, entries_insert_of_not_mem _ hnew, ih h.1]

theorem lookup_map_snd {β : Type} (f : α → β) (entries : List (String × α)) (name : String) :
    (entries.map fun entry => (entry.1, f entry.2)).lookup name =
      (entries.lookup name).map f := by
  induction entries with
  | nil => rfl
  | cons entry entries ih =>
      rw [List.map_cons, List.lookup_cons, List.lookup_cons, ih]
      split
      · rfl
      · rfl

end Table

end Bundler
