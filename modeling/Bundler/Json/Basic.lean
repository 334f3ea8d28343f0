import Bundler.Decimal.Binary64

/-!
# JSON values
-/

namespace Bundler

/-- A number of a JSON document: a natural number, the negative of one, or any other, with a
sign. -/
inductive JsonNumber where
  | natural (value : Nat)
  | negative (value : Nat)
  | real (isNegative : Bool) (value : Decimal.Binary64)
deriving DecidableEq, Repr, Inhabited

/-- A JSON value. The fields of an object have an order. -/
inductive Json where
  | null
  | bool (value : Bool)
  | number (value : JsonNumber)
  | string (value : String)
  | array (items : List Json)
  | object (fields : List (String × Json))
deriving Repr, Inhabited

namespace Json

def strings (texts : List String) : Json :=
  array (texts.map string)

/-- Adds a field in the order of keys, in place of one with the same key. -/
def insertField (key : String) (value : Json) : List (String × Json) → List (String × Json)
  | [] => [(key, value)]
  | (other, old) :: rest =>
      if key = other then (key, value) :: rest
      else if key < other then (key, value) :: (other, old) :: rest
      else (other, old) :: insertField key value rest

/-- An object with its fields in the order of their keys; of two with one key the later stays. -/
def ofFields (fields : List (String × Json)) : Json :=
  object (fields.foldl (fun sorted field => insertField field.1 field.2 sorted) [])

end Json

end Bundler
