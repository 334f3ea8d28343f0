import Bundler.Json.Basic

/-!
# TOML values
-/

namespace Bundler

/-- A TOML value. The fields of a table are in the order of the document. -/
inductive Toml where
  | string (value : String)
  | integer (isNegative : Bool) (value : Nat)
  | real (isNegative : Bool) (value : Decimal.Binary64)
  | notNumber
  | bool (value : Bool)
  | dateTime (text : String)
  | array (items : List Toml)
  | table (fields : List (String × Toml))
deriving Repr, Inhabited

namespace Toml

/-- The field that stands for a date or a time where a table is expected. -/
def dateTimeField : String := "$__toml_private_datetime"

mutual

/-- The JSON value of a TOML value. What is no number there becomes null, and an integer has to
fit into 64 bits. -/
def toJson : Toml → Option Json
  | string value => some (.string value)
  | integer isNegative value =>
      if isNegative && value ≠ 0 then
        if value ≤ Nat.pow 2 63 then some (.number (.negative value)) else none
      else if value < Nat.pow 2 64 then some (.number (.natural value)) else none
  | real _ .infinite => some .null
  | real isNegative value => some (.number (.real isNegative value))
  | notNumber => some .null
  | bool value => some (.bool value)
  | dateTime text => some (.object [(dateTimeField, .string text)])
  | array items => (itemsToJson items).map Json.array
  | table fields => (fieldsToJson fields).map Json.ofFields

def itemsToJson : List Toml → Option (List Json)
  | [] => some []
  | item :: rest => do
      let first ← toJson item
      let others ← itemsToJson rest
      return first :: others

def fieldsToJson : List (String × Toml) → Option (List (String × Json))
  | [] => some []
  | (key, value) :: rest => do
      let first ← toJson value
      let others ← fieldsToJson rest
      return (key, first) :: others

end

end Toml

end Bundler
