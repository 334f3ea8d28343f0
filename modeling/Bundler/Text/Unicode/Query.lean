import Bundler.Text.Unicode.Age
import Bundler.Text.Unicode.Break

/-!
# Queries

A query names a set of characters: a general category, a property or a script by its name alone,
or the value of a property by both names. Names are compared without regard to case, separators,
characters beyond ASCII and a leading `is`.
-/

namespace Bundler.Text.Unicode

/-- The letters of a name that count, in lower case. -/
def nameLetters (name : List Char) : List Char :=
  (name.filter fun c =>
    decide (c.toNat < 128) && c != ' ' && c != '_' && c != '-').map Char.toLower

def normalName (name : List Char) : String :=
  match name with
  | i :: s :: rest =>
    if (i == 'i' || i == 'I') && (s == 's' || s == 'S') then
      match nameLetters rest with
      | ['c'] => "isc"
      | letters => String.ofList letters
    else String.ofList (nameLetters name)
  | name => String.ofList (nameLetters name)

/-- The characters of all categories whose short name starts with a letter. -/
def categoryGroup (initial : Char) : CharSet :=
  categorySet fun c => c.abbreviation.toList.head? == some initial

def categorySet? : String → Option CharSet
  | "any" => some .all
  | "assigned" => some Category.unassigned.set.complement
  | "ascii" => some .ascii
  | "l" | "letter" => some (categoryGroup 'L')
  | "m" | "mark" | "combiningmark" => some (categoryGroup 'M')
  | "n" | "number" => some (categoryGroup 'N')
  | "p" | "punctuation" | "punct" => some (categoryGroup 'P')
  | "s" | "symbol" => some (categoryGroup 'S')
  | "z" | "separator" => some (categoryGroup 'Z')
  | "c" | "other" => some (categoryGroup 'C')
  | "lc" | "casedletter" =>
    some (categorySet fun c =>
      [.uppercaseLetter, .lowercaseLetter, .titlecaseLetter].contains c)
  | "digit" => some Category.decimalNumber.set
  | "cntrl" => some Category.control.set
  | "cs" | "surrogate" => none
  | name =>
    (Category.all.toList.find? fun c =>
      c.name == name || c.abbreviation.map Char.toLower == name).map Category.set

def scriptSet? (name : String) : Option CharSet := (Script.ofName? name).map Script.set

def valueSet? (property value : String) : Option CharSet :=
  match property with
  | "generalcategory" | "gc" => categorySet? value
  | "script" | "sc" => scriptSet? value
  | "scriptextensions" | "scx" => (Script.ofName? value).map Script.extendedSet
  | "age" => ageSet? value
  | "graphemeclusterbreak" | "gcb" => ClusterBreak.set? value
  | "wordbreak" | "wb" => WordBreak.set? value
  | "sentencebreak" | "sb" => SentenceBreak.set? value
  | _ => none

def namedSet? (name : String) : Option CharSet :=
  binarySet? name <|> categorySet? name <|> scriptSet? name

/-- Divides a query at its first `!=`. -/
def splitUnequal : List Char → Option (List Char × List Char)
  | '!' :: '=' :: rest => some ([], rest)
  | c :: rest => (splitUnequal rest).map fun (name, value) => (c :: name, value)
  | [] => none

def splitAt? (mark : Char) (query : List Char) : Option (List Char × List Char) :=
  let name := query.takeWhile (· != mark)
  if name.length = query.length then none else some (name, query.drop (name.length + 1))

/-- The set of characters that a query names. The sign between a property and its value makes
no difference. -/
def querySet? (query : List Char) : Option CharSet :=
  match splitUnequal query <|> splitAt? ':' query <|> splitAt? '=' query with
  | some (name, value) => valueSet? (normalName name) (normalName value)
  | none => namedSet? (normalName query)

end Bundler.Text.Unicode
