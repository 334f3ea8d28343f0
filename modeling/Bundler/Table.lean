/-!
# Tables

Values under distinct names, in the order in which the names came. Putting a value under a name
that is there keeps the name's position.
-/

namespace Bundler

/-- Puts a value under a name, in the position of the name or at the end. -/
def Table.put {α : Type} (key : String) (value : α) : List (String × α) → List (String × α)
  | [] => [(key, value)]
  | (other, old) :: rest =>
      if other = key then (key, value) :: rest
      else (other, old) :: Table.put key value rest

def Table.names {α : Type} (entries : List (String × α)) : List String :=
  entries.map Prod.fst

theorem Table.names_put {α : Type} (key : String) (value : α) (entries : List (String × α)) :
    names (put key value entries) =
      if key ∈ names entries then names entries else names entries ++ [key] := by
  induction entries with
  | nil => simp [put, names]
  | cons head rest ih =>
    obtain ⟨other, old⟩ := head
    by_cases h : other = key
    · simp [put, names, h]
    · simp only [names] at ih
      simp only [put, h, if_false, names, List.map_cons, ih, List.mem_cons, Ne.symm h, false_or]
      split <;> simp_all

theorem Table.nodup_names_put {α : Type} (key : String) (value : α)
    {entries : List (String × α)} (nodup : (names entries).Nodup) :
    (names (put key value entries)).Nodup := by
  rw [names_put]
  split
  · exact nodup
  · rename_i absent
    refine List.nodup_append.2 ⟨nodup, by simp, ?_⟩
    intro name present other single
    rw [List.mem_singleton] at single
    exact fun same => absent (single ▸ same ▸ present)

/-- Values under distinct names. -/
structure Table (α : Type) where
  entries : List (String × α)
  nodup : (Table.names entries).Nodup

namespace Table

variable {α : Type}

/-- The table without names. -/
def empty : Table α := ⟨[], List.nodup_nil⟩

instance : Inhabited (Table α) := ⟨empty⟩

def keys (table : Table α) : List String := names table.entries

def get? (table : Table α) (key : String) : Option α := table.entries.lookup key

def contains (table : Table α) (key : String) : Bool := table.keys.contains key

def size (table : Table α) : Nat := table.entries.length

def insert (table : Table α) (key : String) (value : α) : Table α :=
  ⟨put key value table.entries, nodup_names_put key value table.nodup⟩

/-- The table of a list of pairs; the last value of a name stays, in the name's first position. -/
def ofList (entries : List (String × α)) : Table α :=
  entries.foldl (fun table entry => table.insert entry.1 entry.2) empty

end Table

end Bundler
