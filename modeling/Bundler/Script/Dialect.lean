import Bundler.Path

/-!
# Dialects

Which language a file is written in, by the end of its name.
-/

namespace Bundler.Script

/-- What a program is taken to be. -/
inductive ProgramKind where
  /-- A module, where `await` is a keyword. -/
  | module
  /-- The body of a function, which may return. -/
  | body
  /-- A module if it imports or exports, and a script if not. -/
  | either
deriving DecidableEq, Repr, Inhabited

/-- A language. -/
structure Dialect where
  kind : ProgramKind
  /-- Whether there are types. -/
  typed : Bool
  /-- Whether there is markup. -/
  markup : Bool
  /-- Whether a program only declares. -/
  declares : Bool
  /-- Whether the type of an expression may not stand in angle brackets before it. -/
  refusesAngles : Bool
deriving DecidableEq, Repr, Inhabited

namespace Dialect

def allowsArrows (dialect : Dialect) : Bool := dialect.kind != .module

/-- The language of files without a known extension. -/
def plain : Dialect := ⟨.either, false, false, false, false⟩

/-- Whether a file name ends in one of the endings of files that only declare. -/
def isDeclarationFile (name : String) : Bool :=
  name.endsWith ".d.ts" || name.endsWith ".d.mts" || name.endsWith ".d.cts"

def ofName (name extension : String) : Dialect :=
  let declares := isDeclarationFile name
  match extension with
  | "mjs" => ⟨.module, false, false, false, false⟩
  | "cjs" => ⟨.body, false, false, false, false⟩
  | "jsx" => ⟨.either, false, true, false, false⟩
  | "ts" => ⟨.module, true, false, declares, false⟩
  | "mts" => ⟨.module, true, false, declares, true⟩
  | "cts" => ⟨.body, true, false, declares, true⟩
  | "tsx" => ⟨.module, true, true, false, false⟩
  | _ => plain

def ofPath (path : Path) : Dialect :=
  match path.fileName?, path.extension? with
  | some name, some extension => ofName name extension
  | _, _ => plain

end Dialect

end Bundler.Script
