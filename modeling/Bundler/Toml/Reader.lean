import Bundler.Toml.Scalar
import Bundler.Toml.Section

/-!
# Reading TOML

A document is read line by line: headers open tables, and pairs add values to the table of the
last header.
-/

namespace Bundler.Toml

/-- Reads something off the front of a text, or finds that it is not there. -/
abbrev Reader (α : Type) := StateT (List Char) Option α

namespace Reader

def peek : Reader (Option Char) := do
  return (← get).head?

def char (expected : Char) : Reader Unit := do
  match ← get with
  | c :: rest => if c = expected then set rest else failure
  | [] => failure

def isBlank (c : Char) : Bool := c == ' ' || c == '\t'

def skipBlanks : Reader Unit :=
  modify (·.dropWhile isBlank)

/-- Control characters, which may stand nowhere but as line breaks; a tab is none of them. -/
def isControl (c : Char) : Bool :=
  (c.toNat < 32 && c != '\t') || c.toNat == 127

/-- Goes past a comment, if there is one. -/
def comment : Reader Unit := do
  match ← get with
  | '#' :: rest =>
    let line := rest.takeWhile fun c => c != '\n' && c != '\r'
    if line.any isControl then failure
    else set (rest.dropWhile fun c => c != '\n' && c != '\r')
  | _ => return ()

def lineBreak : Reader Unit := do
  match ← get with
  | '\n' :: rest => set rest
  | '\r' :: '\n' :: rest => set rest
  | _ => failure

/-- Goes past the rest of a line, on which only a comment may stand. -/
def lineEnd : Reader Unit := do
  skipBlanks
  comment
  if (← get).isEmpty then return () else lineBreak

def skipLines : Nat → Reader Unit
  | 0 => return ()
  | fuel + 1 => do
    skipBlanks
    comment
    match ← peek with
    | some '\n' => do lineBreak; skipLines fuel
    | some '\r' => do lineBreak; skipLines fuel
    | _ => return ()

def hexChar (count : Nat) : Reader Char := do
  let text ← get
  let ds := text.take count
  if ds.length = count ∧ ds.all (fun c => (Text.hexValue? c).isSome) then
    let code := Scalar.valueOf 16 ds
    if h : code.isValidChar then do
      set (text.drop count)
      return Char.ofNatAux code h
    else failure
  else failure

def escape : Reader Char := do
  match ← get with
  | c :: rest =>
    set rest
    match c with
    | 'b' => return '\x08'
    | 't' => return '\t'
    | 'n' => return '\n'
    | 'f' => return '\x0c'
    | 'r' => return '\r'
    | 'e' => return '\x1b'
    | '"' => return '"'
    | '\\' => return '\\'
    | 'x' => hexChar 2
    | 'u' => hexChar 4
    | 'U' => hexChar 8
    | _ => failure
  | [] => failure

def basicString : Nat → Reader (List Char)
  | 0 => failure
  | fuel + 1 => do
    match ← get with
    | '"' :: rest => do set rest; return []
    | '\\' :: rest => do
      set rest
      let c ← escape
      let more ← basicString fuel
      return c :: more
    | c :: rest =>
      if isControl c then failure
      else do
        set rest
        let more ← basicString fuel
        return c :: more
    | [] => failure

def literalString : Reader (List Char) := do
  let text ← get
  let inner := text.takeWhile (· != '\'')
  if inner.any isControl then failure
  else
    set (text.dropWhile (· != '\''))
    char '\''
    return inner

def firstBreak : Reader Unit := do
  match ← get with
  | '\n' :: rest => set rest
  | '\r' :: '\n' :: rest => set rest
  | _ => return ()

/-- Whether only blanks stand before the next line break. -/
def breaksLine (text : List Char) : Bool :=
  match text.dropWhile isBlank with
  | '\n' :: _ => true
  | '\r' :: '\n' :: _ => true
  | _ => false

def skipWhite : List Char → List Char
  | '\r' :: '\n' :: rest => skipWhite rest
  | c :: rest => if isBlank c || c == '\n' then skipWhite rest else c :: rest
  | [] => []

/-- The quotes at the front of a text that end a text of several lines: three of them, behind
at most two that belong to it. -/
def closing? (quote : Char) (text : List Char) : Option (Nat × List Char) :=
  let count := (text.takeWhile (· == quote)).length
  if 3 ≤ count then
    let kept := min (count - 3) 2
    some (kept, text.drop (kept + 3))
  else none

def multiString (quote : Char) : Nat → Reader (List Char)
  | 0 => failure
  | fuel + 1 => do
    let text ← get
    match closing? quote text with
    | some (kept, rest) =>
      set rest
      return List.replicate kept quote
    | none =>
      match text with
      | [] => failure
      | '\r' :: rest =>
        match rest with
        | '\n' :: more => do
          set more
          let others ← multiString quote fuel
          return '\r' :: '\n' :: others
        | _ => failure
      | c :: rest =>
        if c = '\\' ∧ quote = '"' then do
          if breaksLine rest then
            set (skipWhite rest)
            multiString quote fuel
          else
            set rest
            let escaped ← escape
            let others ← multiString quote fuel
            return escaped :: others
        else if isControl c ∧ c ≠ '\n' then failure
        else do
          set rest
          let others ← multiString quote fuel
          return c :: others

def shortString : Reader (Option String) := do
  let text ← get
  match text with
  | '"' :: rest => do
    set rest
    let inner ← basicString (text.length)
    return some (String.ofList inner)
  | '\'' :: rest => do
    set rest
    let inner ← literalString
    return some (String.ofList inner)
  | _ => return none

/-- The characters of a key without quotes. -/
def isKeyChar (c : Char) : Bool :=
  c.isAlphanum || c == '_' || c == '-'

def simpleKey : Reader String := do
  match ← shortString with
  | some key => return key
  | none =>
    let text ← get
    let key := text.takeWhile isKeyChar
    if key.isEmpty then failure
    else
      set (text.dropWhile isKeyChar)
      return String.ofList key

def moreKeys : Nat → Reader (List String)
  | 0 => return []
  | fuel + 1 => do
    skipBlanks
    match ← peek with
    | some '.' => do
      char '.'
      skipBlanks
      let key ← simpleKey
      let others ← moreKeys fuel
      return key :: others
    | _ => return []

/-- A key: the way to a table, and a name in it. -/
structure Key where
  path : List String
  name : String

def key : Reader Key := do
  let first ← simpleKey
  let others ← moreKeys (← get).length
  let parts := first :: others
  return ⟨parts.dropLast, parts.getLastD first⟩

/-- Reads a value that is no array and no table. -/
def scalar : Reader Toml := do
  let text ← get
  match text with
  | '"' :: '"' :: '"' :: rest => do
    set rest
    firstBreak
    let inner ← multiString '"' text.length
    return .string (String.ofList inner)
  | '\'' :: '\'' :: '\'' :: rest => do
    set rest
    firstBreak
    let inner ← multiString '\'' text.length
    return .string (String.ofList inner)
  | _ =>
    match ← shortString with
    | some value => return .string value
    | none =>
      let cut := Scalar.cutWord text
      match Scalar.ofWord cut.1 with
      | some value => do
        set cut.2
        return value
      | none => failure

def items (value : Reader Toml) : Nat → Reader (List Toml)
  | 0 => failure
  | fuel + 1 => do
    skipLines (← get).length
    match ← peek with
    | some ']' => do char ']'; return []
    | _ => do
      let first ← value
      skipLines (← get).length
      match ← peek with
      | some ',' => do
        char ','
        let others ← items value fuel
        return first :: others
      | _ => do
        char ']'
        return [first]

def pairs (value : Reader Draft) : Nat → List (String × Draft) → Reader (List (String × Draft))
  | 0, _ => failure
  | fuel + 1, fields => do
    skipLines (← get).length
    match ← peek with
    | some '\x7d' => do char '\x7d'; return fields
    | _ => do
      let here ← key
      skipBlanks
      char '='
      skipBlanks
      let draft ← value
      match Draft.addValue here.path here.name draft fields with
      | none => failure
      | some fields =>
        skipLines (← get).length
        match ← peek with
        | some ',' => do
          char ','
          pairs value fuel fields
        | _ => do
          char '\x7d'
          return fields

/-- Arrays and tables may not be nested more deeply than this. -/
def maxDepth : Nat := 80

/-- Reads a value inside brackets that are nested at most `depth` more levels. -/
def valueWithin : Nat → Reader Draft
  | 0 => return .value (← scalar)
  | depth + 1 => do
    match ← get with
    | '[' :: rest => do
      set rest
      let values ← items (return (← valueWithin depth).finish) (rest.length + 1)
      return .value (.array values)
    | '\x7b' :: rest => do
      set rest
      let fields ← pairs (valueWithin depth) (rest.length + 1) []
      return .table .closed fields
    | _ => return .value (← scalar)

/-- A document that is being read: its tables, and the way to the table of the last header. -/
structure Progress where
  fields : List (String × Draft)
  header : List String

def require {α : Type} : Option α → Reader α
  | some value => return value
  | none => failure

def line (progress : Progress) : Reader Progress := do
  match ← get with
  | '[' :: '[' :: rest => do
    set rest
    skipBlanks
    let here ← key
    skipBlanks
    char ']'
    char ']'
    let fields ← require (Draft.openItem here.path here.name progress.fields)
    return ⟨fields, here.path ++ [here.name]⟩
  | '[' :: rest => do
    set rest
    skipBlanks
    let here ← key
    skipBlanks
    char ']'
    let fields ← require (Draft.openTable here.path here.name progress.fields)
    return ⟨fields, here.path ++ [here.name]⟩
  | _ => do
    let here ← key
    skipBlanks
    char '='
    skipBlanks
    let draft ← valueWithin maxDepth
    let fields ← require
      (Draft.addBelow progress.header here.path here.name draft progress.fields)
    return ⟨fields, progress.header⟩

def lines : Nat → Progress → Reader Progress
  | 0, _ => failure
  | fuel + 1, progress => do
    skipLines (← get).length
    if (← get).isEmpty then return progress
    else
      let progress ← line progress
      lineEnd
      lines fuel progress

end Reader

/-- The table of a document. A mark at the start of the text means nothing. -/
def ofText? (text : String) : Option (List (String × Toml)) :=
  let chars := text.toList
  let chars := if chars.head? = some '\uFEFF' then chars.drop 1 else chars
  match (Reader.lines (chars.length + 1) ⟨[], []⟩).run chars with
  | some (progress, _) => some (Draft.finishFields progress.fields)
  | none => none

end Bundler.Toml
