import Bundler.CommandLine.Run
import Bundler.Json.Printer
import Bundler.Json.Reader

/-!
# The program

Runs the command of the command line on files that standard input describes: an object of
absolute paths and texts. What the command prints is followed by a line with the files that are
there afterwards.
-/

namespace Bundler

/-- Puts files onto a disk, together with the directories above them. -/
def Disk.ofFields (disk : Disk) : List (String × Json) → Disk
  | [] => disk
  | (name, .string text) :: rest =>
    let above := match (Path.mk name).parent? with
      | some parent => (disk.makeDirectories parent).1
      | none => disk
    ((above.writeText ⟨name⟩ text).toOption.getD above).ofFields rest
  | _ :: rest => disk.ofFields rest

/-- The files of a disk that are texts, under their absolute paths. -/
def Disk.toFields (disk : Disk) : List (String × Json) :=
  disk.tree.entries.filterMap fun (place, entry) =>
    match entry with
    | .file bytes =>
      (String.fromUTF8? bytes).map fun text => ("/" ++ "/".intercalate place, .string text)
    | .directory => none

/-- The disk that a text describes, with its current directory. -/
def Disk.ofText (text : String) (current : Path) : Except String Disk := do
  match ← Json.parse text with
  | .object fields =>
    let disk := (Disk.ofFields ⟨.empty, []⟩ fields).makeDirectories current
    match disk.1.tree.locate [] current with
    | .ok target => return { disk.1 with workingDirectory := target.place }
    | .error error => throw error.message
  | _ => throw "the input is not an object of paths and texts"

/-- What a run prints, what it complains about, and its exit code. -/
structure Printed where
  output : String
  complaint : String
  code : UInt32

/-- Runs a command line on the disk that a text describes. -/
def execute (words : List String) (text : String) (current : Path) (home : String) : Printed :=
  match Command.read words with
  | .error error => ⟨"", error.reason?.getD "usage: build | resolve" ++ "\n", 2⟩
  | .ok command =>
    match Disk.ofText text current with
    | .error reason => ⟨"", reason ++ "\n", 1⟩
    | .ok disk =>
      let outcome := command.run ⟨current, home⟩ disk
      let files := (Json.object outcome.state.toFields).compact ++ "\n"
      match outcome.result with
      | .ok output => ⟨output ++ files, "", 0⟩
      | .error error => ⟨files, "Error: " ++ error.message ++ "\n", 1⟩

end Bundler

/-- Runs the command line on the files that standard input describes. -/
def main (words : List String) : IO UInt32 := do
  let text ← (← IO.getStdin).readToEnd
  let current ← IO.getEnv "PWD"
  let home ← IO.getEnv "HOME"
  let printed := Bundler.execute words text ⟨current.getD "/"⟩ (home.getD "/")
  IO.print printed.output
  IO.eprint printed.complaint
  return printed.code
