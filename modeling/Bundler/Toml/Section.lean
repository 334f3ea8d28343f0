import Bundler.Toml.Basic

/-!
# Sections of a document

While a document is read, its tables remember how they came about, since that decides who may
still add to them.
-/

namespace Bundler.Toml

/-- How a table came about: on the way to another one, by a dotted key, by a header, or as a
value. -/
inductive Origin where
  | implied
  | dotted
  | header
  | closed
deriving DecidableEq, Repr

/-- A part of a document that is being read: a value, a table that may still grow, or the tables
under one repeated header, the last one first. -/
inductive Draft where
  | value (value : Toml)
  | table (origin : Origin) (fields : List (String × Draft))
  | tables (items : List (List (String × Draft)))
deriving Repr, Inhabited

namespace Draft

def put (key : String) (draft : Draft) : List (String × Draft) → List (String × Draft)
  | [] => [(key, draft)]
  | (other, old) :: rest =>
      if other = key then (key, draft) :: rest else (other, old) :: put key draft rest

/-- Changes the fields of the table at the end of a path. Tables that are missing on the way get
the given origin; a dotted key may only pass tables that no header has made. -/
def within (origin : Origin) (change : List (String × Draft) → Option (List (String × Draft))) :
    List String → List (String × Draft) → Option (List (String × Draft))
  | [], fields => change fields
  | key :: path, fields =>
    match fields.lookup key with
    | none => do
        let inner ← within origin change path []
        return put key (.table origin inner) fields
    | some (.value _) => none
    | some (.table found inner) =>
        if found = .closed ∨ (origin = .dotted ∧ found = .header) then none
        else do
          let inner ← within origin change path inner
          return put key (.table found inner) fields
    | some (.tables []) => none
    | some (.tables (last :: before)) =>
        if origin = .dotted then none
        else do
          let last ← within origin change path last
          return put key (.tables (last :: before)) fields

def addValue (path : List String) (key : String) (draft : Draft)
    (fields : List (String × Draft)) : Option (List (String × Draft)) :=
  within .dotted (fun inner =>
    match inner.lookup key with
    | some _ => none
    | none => some (put key draft inner)) path fields

def openTable (path : List String) (key : String) (fields : List (String × Draft)) :
    Option (List (String × Draft)) :=
  within .implied (fun inner =>
    match inner.lookup key with
    | none => some (put key (.table .header []) inner)
    | some (.table .implied old) => some (put key (.table .header old) inner)
    | some _ => none) path fields

def openItem (path : List String) (key : String) (fields : List (String × Draft)) :
    Option (List (String × Draft)) :=
  within .implied (fun inner =>
    match inner.lookup key with
    | none => some (put key (.tables [[]]) inner)
    | some (.tables items) => some (put key (.tables ([] :: items)) inner)
    | some _ => none) path fields

def addBelow (header : List String) (path : List String) (key : String) (draft : Draft)
    (fields : List (String × Draft)) : Option (List (String × Draft)) :=
  within .implied (addValue path key draft) header fields

mutual

def finish : Draft → Toml
  | .value content => content
  | .table _ fields => .table (finishFields fields)
  | .tables items => .array (finishItems items).reverse

def finishFields : List (String × Draft) → List (String × Toml)
  | [] => []
  | (key, draft) :: rest => (key, finish draft) :: finishFields rest

def finishItems : List (List (String × Draft)) → List Toml
  | [] => []
  | fields :: rest => .table (finishFields fields) :: finishItems rest

end

end Draft

end Bundler.Toml
