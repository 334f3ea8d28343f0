import Bundler.CommandLine.Arguments
import Bundler.Path

/-!
# Commands

The two things that the command line can ask for.
-/

namespace Bundler

/-- What the command line asks for. -/
inductive Command where
  | build (config : Option Path) (entries : List (String × String)) (outputPath : Option Path)
      (filename : Option String) (json : Bool)
  | resolve (specifier : String) (base : Option Path) (extensions : List String)
deriving DecidableEq, Repr, Inhabited

namespace Command

/-- Reads an entry, a name and a path with an equals sign between them. -/
def parseEntry (value : String) : Except UsageError (String × String) :=
  match ArgumentList.cutAtEquals value.toList with
  | (c :: name, some (d :: path)) => .ok (String.ofList (c :: name), String.ofList (d :: path))
  | _ => .error (.valueRefused s!"expected NAME=PATH, got '{value}'")

/-- The arguments of the command `build`. -/
def buildArguments : ArgumentList where
  options := [
    ⟨"config", some 'c', .single, Argument.pathText⟩,
    ⟨"entry", some 'e', .repeated, fun value => (parseEntry value).map fun _ => ()⟩,
    ⟨"output-path", some 'o', .single, Argument.pathText⟩,
    ⟨"filename", some 'f', .single, Argument.anyText⟩,
    ⟨"json", none, .flag, Argument.anyText⟩]
  operand? := none

/-- The arguments of the command `resolve`. -/
def resolveArguments : ArgumentList where
  options := [
    ⟨"from", none, .single, Argument.pathText⟩,
    ⟨"ext", none, .repeated, Argument.anyText⟩]
  operand? := some ⟨"specifier", none, .single, Argument.anyText⟩

def valuesOf (found : Table (List String)) (name : String) : List String :=
  (found.get? name).getD []

def entriesOf : List String → Except UsageError (List (String × String))
  | [] => .ok []
  | value :: rest => do
      let entry ← parseEntry value
      let others ← entriesOf rest
      return entry :: others

/-- Reads the words behind `build`. -/
def readBuild (words : List String) : Except UsageError Command := do
  let found ← buildArguments.read words
  let values := valuesOf found
  let entries ← entriesOf (values "entry")
  return .build ((values "config").head?.map Path.mk) entries
    ((values "output-path").head?.map Path.mk) (values "filename").head?
    (found.contains "json")

/-- Reads the words behind `resolve`. -/
def readResolve (words : List String) : Except UsageError Command := do
  let found ← resolveArguments.read words
  let values := valuesOf found
  return .resolve ((values "specifier").headD "") ((values "from").head?.map Path.mk)
    (values "ext")

def isName (word : String) : Bool :=
  word == "build" || word == "resolve"

/-- Reads the words behind `help`: the name of a command. -/
def readHelp : List String → UsageError
  | [] => .helpWanted
  | [word] => if isName word || word == "help" then .helpWanted else .unknownCommand
  | _ => .unknownCommand

def read : List String → Except UsageError Command
  | [] => .error .nothingGiven
  | word :: rest =>
    if word = "build" then readBuild rest
    else if word = "resolve" then readResolve rest
    else if word = "help" then .error (readHelp rest)
    else
      match word.toList with
      | ['-', '-'] =>
        match rest with
        | [] => .error .nothingGiven
        | next :: _ =>
          if isName next || next == "help" then .error .unknownArgument
          else .error .unknownCommand
      | '-' :: '-' :: name =>
        let cut := ArgumentList.cutAtEquals name
        if cut.1 = ['h', 'e', 'l', 'p'] then
          if cut.2.isSome then .error .tooManyValues else .error .helpWanted
        else .error .unknownArgument
      | '-' :: 'h' :: _ => .error .helpWanted
      | '-' :: _ :: _ => .error .unknownArgument
      | _ => .error .unknownCommand

end Command

end Bundler
