import Bundler.Path

/-!
# File trees

Files and directories as a value. A place is the list of names that lead to it from the root; a
path is followed name by name and may fail on the way.
-/

namespace Bundler

/-- Why an operation on files fails. -/
inductive FileError where
  | notFound
  | alreadyExists
  | notDirectory
  | isDirectory
  | nameTooLong
  | notText
  | nulInName
deriving DecidableEq, Repr, Inhabited

namespace FileError

def message : FileError → String
  | notFound => "No such file or directory (os error 2)"
  | alreadyExists => "File exists (os error 17)"
  | notDirectory => "Not a directory (os error 20)"
  | isDirectory => "Is a directory (os error 21)"
  | nameTooLong => "File name too long (os error 36)"
  | notText => "stream did not contain valid UTF-8"
  | nulInName => "file name contained an unexpected NUL byte"

end FileError

/-- What stands at a place. -/
inductive FileEntry where
  | file (bytes : ByteArray)
  | directory
deriving Inhabited

/-- The names that lead from the root to a place. -/
abbrev Place := List String

/-- A finite tree of files; the root is always there. -/
structure FileTree where
  entries : List (Place × FileEntry)
deriving Inhabited

namespace FileTree

/-- The longest name, in bytes. -/
def maxName : Nat := 255

/-- The longest path text, in bytes. -/
def maxPath : Nat := 4095

def empty : FileTree := ⟨[]⟩

def find? (tree : FileTree) (place : Place) : Option FileEntry :=
  if place.isEmpty then some .directory else tree.entries.lookup place

/-- Puts an entry at a place, in the position of the one it replaces. -/
def setEntry (place : Place) (entry : FileEntry) :
    List (Place × FileEntry) → List (Place × FileEntry)
  | [] => [(place, entry)]
  | (other, old) :: rest =>
      if other = place then (place, entry) :: rest
      else (other, old) :: setEntry place entry rest

def set (tree : FileTree) (place : Place) (entry : FileEntry) : FileTree :=
  ⟨setEntry place entry tree.entries⟩

/-- Succeeds at a place that is a directory. -/
def enter (tree : FileTree) (place : Place) : Except FileError Unit :=
  match tree.find? place with
  | some .directory => .ok ()
  | some (.file _) => .error .notDirectory
  | none => .error .notFound

/-- Follows the segments of a path from a place. Each step leaves a directory, and the place it
reaches need not exist. -/
def follow (tree : FileTree) (here : Place) : List (List Char) → Except FileError Place
  | [] => .ok here
  | [] :: rest => follow tree here rest
  | ['.'] :: rest => do
      tree.enter here
      follow tree here rest
  | ['.', '.'] :: rest => do
      tree.enter here
      follow tree here.dropLast rest
  | segment :: rest => do
      tree.enter here
      let name := String.ofList segment
      if maxName < name.utf8ByteSize then .error .nameTooLong
      else follow tree (here ++ [name]) rest

/-- Where a path leads, and whether its text asks for a directory. -/
structure Target where
  place : Place
  asDirectory : Bool

/-- The place that a path denotes, a relative one being read from the place `base`. -/
def locate (tree : FileTree) (base : Place) (path : Path) : Except FileError Target := do
  let text := path.text.toList
  if text.contains '\x00' then .error .nulInName
  else if text.isEmpty then .error .notFound
  else if maxPath < path.text.utf8ByteSize then .error .nameTooLong
  else
    let here := if path.isAbsolute then [] else base
    let parts := Path.segments text
    let place ← tree.follow here parts
    let last := parts.getLastD []
    return ⟨place, Path.isBlankSegment last || last == ['.', '.']⟩

end FileTree

/-- A tree together with the directory that relative paths are read from. -/
structure Disk where
  tree : FileTree
  workingDirectory : Place
deriving Inhabited

namespace Disk

def lookup (disk : Disk) (path : Path) : Except FileError FileEntry := do
  let target ← disk.tree.locate disk.workingDirectory path
  match disk.tree.find? target.place with
  | none => .error .notFound
  | some .directory => .ok .directory
  | some (.file bytes) => if target.asDirectory then .error .notDirectory else .ok (.file bytes)

def isFile (disk : Disk) (path : Path) : Bool :=
  match disk.lookup path with
  | .ok (.file _) => true
  | _ => false

def isDirectory (disk : Disk) (path : Path) : Bool :=
  match disk.lookup path with
  | .ok .directory => true
  | _ => false

def readText (disk : Disk) (path : Path) : Except FileError String := do
  match ← disk.lookup path with
  | .directory => .error .isDirectory
  | .file bytes =>
    match String.fromUTF8? bytes with
    | some text => .ok text
    | none => .error .notText

/-- Makes one directory; its parent has to be there. -/
def makeDirectory (disk : Disk) (path : Path) : Except FileError Disk := do
  let target ← disk.tree.locate disk.workingDirectory path
  disk.tree.enter target.place.dropLast
  match disk.tree.find? target.place with
  | some _ => .error .alreadyExists
  | none => .ok { disk with tree := disk.tree.set target.place .directory }

/-- Makes a directory after its ancestors, which `fuel` bounds in number. -/
def makeDirectoriesFrom (disk : Disk) (path : Path) : Nat → Disk × Except FileError Unit
  | 0 => (disk, .error .nameTooLong)
  | fuel + 1 =>
    if path.text.isEmpty then (disk, .ok ())
    else
      let settle (disk : Disk) (error : FileError) : Disk × Except FileError Unit :=
        if disk.isDirectory path then (disk, .ok ()) else (disk, .error error)
      match disk.makeDirectory path with
      | .ok made => (made, .ok ())
      | .error .notFound =>
        match path.parent? with
        | none => (disk, .error .notFound)
        | some above =>
          match makeDirectoriesFrom disk above fuel with
          | (disk, .error error) => (disk, .error error)
          | (disk, .ok ()) =>
            match disk.makeDirectory path with
            | .ok made => (made, .ok ())
            | .error error => settle disk error
      | .error error => settle disk error

/-- Makes a directory and every ancestor that is missing. What was made before an error stays. -/
def makeDirectories (disk : Disk) (path : Path) : Disk × Except FileError Unit :=
  disk.makeDirectoriesFrom path (path.text.length + 1)

/-- Writes a whole file; its directory has to be there. -/
def writeBytes (disk : Disk) (path : Path) (bytes : ByteArray) : Except FileError Disk := do
  let target ← disk.tree.locate disk.workingDirectory path
  disk.tree.enter target.place.dropLast
  match disk.tree.find? target.place with
  | some .directory => .error .isDirectory
  | _ =>
    if target.asDirectory then .error .isDirectory
    else .ok { disk with tree := disk.tree.set target.place (.file bytes) }

/-- Writes a text as a whole file. -/
def writeText (disk : Disk) (path : Path) (text : String) : Except FileError Disk :=
  disk.writeBytes path text.toUTF8

/-- Takes a file, or a directory with all below it, away. -/
def remove (disk : Disk) (path : Path) : Except FileError Disk := do
  let target ← disk.tree.locate disk.workingDirectory path
  match disk.tree.find? target.place with
  | none => .error .notFound
  | some _ =>
    .ok { disk with tree := ⟨disk.tree.entries.filter fun e => !target.place.isPrefixOf e.1⟩ }

/-- The names of all files below a directory, relative to it and sorted. -/
def filesBelow (disk : Disk) (path : Path) : Option (List String) :=
  match disk.tree.locate disk.workingDirectory path with
  | .error _ => none
  | .ok target =>
    match disk.tree.find? target.place with
    | some .directory =>
      let names := disk.tree.entries.filterMap fun (place, entry) =>
        match entry with
        | .file _ =>
          if target.place.isPrefixOf place then
            some ("/".intercalate (place.drop target.place.length))
          else none
        | .directory => none
      some (names.mergeSort fun a b => decide (a ≤ b))
    | _ => none

end Disk

end Bundler
