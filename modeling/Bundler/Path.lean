/-!
# Paths

A path is a text. Slashes separate its parts, a leading slash makes it absolute, and every other
character, a backslash included, belongs to a name.
-/

namespace Bundler

/-- The text of a path. -/
structure Path where
  text : String
deriving DecidableEq, Repr, Inhabited

namespace Path

/-- One part of a path as it is read: the root, `.`, `..` or a name. -/
inductive Component where
  | root
  | current
  | parent
  | name (text : String)
deriving DecidableEq, Repr, Inhabited

namespace Component

/-- The text that stands for a component. -/
def text : Component → String
  | root => "/"
  | current => "."
  | parent => ".."
  | name text => text

end Component

/-- Cuts a text at every slash. -/
def segmentsFrom : List Char → List Char → List (List Char)
  | seen, [] => [seen.reverse]
  | seen, c :: rest =>
      if c = '/' then seen.reverse :: segmentsFrom [] rest else segmentsFrom (c :: seen) rest

/-- The texts between the slashes of a text; there is one more than there are slashes. -/
def segments (text : List Char) : List (List Char) :=
  segmentsFrom [] text

def unsegment : List (List Char) → List Char
  | [] => []
  | [last] => last
  | segment :: rest => segment ++ '/' :: unsegment rest

def isAbsolute (path : Path) : Bool :=
  path.text.toList.head? == some '/'

/-- A segment names a component unless it is empty or `.`. -/
def componentOfSegment : List Char → Option Component
  | [] => none
  | ['.'] => none
  | ['.', '.'] => some .parent
  | segment => some (.name (String.ofList segment))

/-- The components of the part after the root. -/
def componentsOfSegments (parts : List (List Char)) : List Component :=
  parts.filterMap componentOfSegment

/-- The components of a path text. An inner `.` and a repeated slash leave no trace, and neither
does a slash at the end; a leading `.` of a relative path is kept. -/
def componentsOf (text : List Char) : List Component :=
  match text with
  | '/' :: body => .root :: componentsOfSegments (segments body)
  | _ =>
    match segments text with
    | ['.'] :: rest => .current :: componentsOfSegments rest
    | parts => componentsOfSegments parts

def components (path : Path) : List Component :=
  componentsOf path.text.toList

/-- Appends a path to another; an absolute one replaces it. -/
def join (base next : Path) : Path :=
  match next.text.toList with
  | '/' :: _ => next
  | _ =>
    match base.text.toList.getLast? with
    | none => next
    | some '/' => ⟨base.text ++ next.text⟩
    | some _ => ⟨base.text ++ "/" ++ next.text⟩

def joinComponents (base : Path) (parts : List Component) : Path :=
  parts.foldl (fun path part => path.join ⟨part.text⟩) base

/-- Segments that carry no component. -/
def isBlankSegment (segment : List Char) : Bool :=
  segment == [] || segment == ['.']

/-- Drops the blank segments at the end of a reversed list, but for the first `kept` segments
of the path. -/
def dropBlank (kept : Nat) : List (List Char) → List (List Char)
  | [] => []
  | segment :: rest =>
      if isBlankSegment segment && decide (kept ≤ rest.length) then dropBlank kept rest
      else segment :: rest

/-- The path without its last component, none for a root or an empty path. -/
def parent? (path : Path) : Option Path :=
  match path.text.toList with
  | '/' :: body =>
    match dropBlank 0 (segments body).reverse with
    | [] => none
    | _ :: rest => some ⟨String.ofList ('/' :: unsegment (dropBlank 0 rest).reverse)⟩
  | text =>
    let parts := segments text
    let kept := if parts.head? == some ['.'] then 1 else 0
    match dropBlank kept parts.reverse with
    | [] => none
    | _ :: rest => some ⟨String.ofList (unsegment (dropBlank kept rest).reverse)⟩

/-- The last component, if it is a name. -/
def fileName? (path : Path) : Option String :=
  match path.components.getLast? with
  | some (.name text) => some text
  | _ => none

/-- The part of a reversed file name after its last dot, none if the only dot starts the name. -/
def extensionFrom (seen : List Char) : List Char → Option (List Char)
  | [] => none
  | ['.'] => none
  | '.' :: _ :: _ => some seen
  | c :: rest => extensionFrom (c :: seen) rest

/-- The text after the last dot of the file name. -/
def extension? (path : Path) : Option String :=
  match path.fileName? with
  | some name => (extensionFrom [] name.toList.reverse).map String.ofList
  | none => none

def unixText (path : Path) : String :=
  String.ofList (path.text.toList.map fun c => if c = '\\' then '/' else c)

end Path

end Bundler
