import Bundler.Table

/-!
# Arguments of a command

The words behind a command are options, values of options, and a word that stands for itself. A
value that follows its option as a word of its own is looked at only when the next option comes
or the words end.
-/

namespace Bundler

/-- Why a command line is refused, or that it asks for help. -/
inductive UsageError where
  | helpWanted
  | nothingGiven
  | unknownCommand
  | unknownArgument
  | invalidValue
  | valueRefused (reason : String)
  | tooManyValues
  | givenTwice
  | missingArgument
deriving DecidableEq, Repr, Inhabited

namespace UsageError

def reason? : UsageError → Option String
  | valueRefused reason => some reason
  | _ => none

end UsageError

/-- How often an option may be given, and whether it has a value. -/
inductive ArgumentShape where
  | flag
  | single
  | repeated
deriving DecidableEq, Repr

/-- An option, or the word that stands for itself. -/
structure Argument where
  name : String
  short? : Option Char
  shape : ArgumentShape
  accepts : String → Except UsageError Unit

namespace Argument

def anyText (_ : String) : Except UsageError Unit := .ok ()

/-- Any value but the empty one. -/
def pathText (value : String) : Except UsageError Unit :=
  if value.isEmpty then .error .invalidValue else .ok ()

end Argument

/-- The arguments that a command takes. -/
structure ArgumentList where
  options : List Argument
  operand? : Option Argument

namespace ArgumentList

/-- What has been read so far: values by the names of their arguments, and the argument whose
value is still open or unchecked. -/
structure Scan where
  found : Table (List String)
  pending : Option (Argument × Option String)
  literal : Bool
  operands : Nat

def Scan.start : Scan := ⟨.empty, none, false, 0⟩

def record (argument : Argument) (value : String) (found : Table (List String)) :
    Except UsageError (Table (List String)) :=
  match argument.shape, found.get? argument.name with
  | .repeated, earlier => do
      argument.accepts value
      return found.insert argument.name (earlier.getD [] ++ [value])
  | _, some _ => .error .givenTwice
  | _, none => do
      argument.accepts value
      return found.insert argument.name [value]

def settle (scan : Scan) : Except UsageError Scan :=
  match scan.pending with
  | none => .ok scan
  | some (_, none) => .error .invalidValue
  | some (argument, some value) => do
      return { scan with found := ← record argument value scan.found, pending := none }

def settleWith (argument : Argument) (value : String) (scan : Scan) : Except UsageError Scan := do
  let scan ← settle scan
  return { scan with found := ← record argument value scan.found }

def openValue (argument : Argument) (scan : Scan) : Except UsageError Scan := do
  let scan ← settle scan
  return { scan with pending := some (argument, none) }

def help (scan : Scan) : Except UsageError Scan := do
  let _ ← settle scan
  .error .helpWanted

/-- The characters before the first equals sign, and those after it if there is one. -/
def cutAtEquals : List Char → List Char × Option (List Char)
  | [] => ([], none)
  | '=' :: rest => ([], some rest)
  | c :: rest =>
      let cut := cutAtEquals rest
      (c :: cut.1, cut.2)

def readLong (arguments : ArgumentList) (word : List Char) (scan : Scan) :
    Except UsageError Scan :=
  let cut := cutAtEquals word
  let name := String.ofList cut.1
  match arguments.options.find? (·.name == name), cut.2 with
  | some argument, value =>
    match argument.shape, value with
    | .flag, some _ => .error .tooManyValues
    | .flag, none => settleWith argument "" scan
    | _, some value => settleWith argument (String.ofList value) scan
    | _, none => openValue argument scan
  | none, value =>
    if name = "help" then
      if value.isSome then .error .tooManyValues else help scan
    else .error .unknownArgument

/-- Reads options by their letters. What follows the letter of an option with a value is that
value. -/
def readShort (arguments : ArgumentList) : List Char → Scan → Except UsageError Scan
  | [], scan => .ok scan
  | letter :: rest, scan =>
    match arguments.options.find? (·.short? == some letter) with
    | some argument =>
      match argument.shape, rest with
      | .flag, rest => do
          let scan ← settleWith argument "" scan
          readShort arguments rest scan
      | _, [] => openValue argument scan
      | _, '=' :: value => settleWith argument (String.ofList value) scan
      | _, value => settleWith argument (String.ofList value) scan
    | none => if letter = 'h' then help scan else .error .unknownArgument

def readOperand (arguments : ArgumentList) (word : String) (scan : Scan) :
    Except UsageError Scan :=
  match arguments.operand? with
  | some argument =>
    if scan.operands = 0 then do
      let scan ← settle scan
      return { scan with pending := some (argument, some word), operands := 1 }
    else .error .unknownArgument
  | none => .error .unknownArgument

def readWord (arguments : ArgumentList) (scan : Scan) (word : String) : Except UsageError Scan :=
  if scan.literal then readOperand arguments word scan
  else
    match word.toList with
    | ['-', '-'] => .ok { scan with literal := true }
    | '-' :: '-' :: rest => readLong arguments rest scan
    | '-' :: c :: rest => readShort arguments (c :: rest) scan
    | _ =>
      match scan.pending with
      | some (argument, none) => .ok { scan with pending := some (argument, some word) }
      | _ => readOperand arguments word scan

def readWords (arguments : ArgumentList) : List String → Scan → Except UsageError Scan
  | [], scan => settle scan
  | word :: rest, scan => do
      let scan ← readWord arguments scan word
      readWords arguments rest scan

/-- The values of the arguments that are given. A word that stands for itself has to be there. -/
def read (arguments : ArgumentList) (words : List String) :
    Except UsageError (Table (List String)) := do
  let scan ← readWords arguments words .start
  match arguments.operand? with
  | some argument =>
    if scan.found.contains argument.name then .ok scan.found else .error .missingArgument
  | none => .ok scan.found

end ArgumentList

end Bundler
