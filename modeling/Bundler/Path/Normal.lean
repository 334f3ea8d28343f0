import Bundler.Path

/-!
# Normal paths

Reading the components of a path from left to right leaves a stack: `.` is ignored and `..`
takes the last name away. The path of that stack is its normal form. Module ids are normal
paths relative to a root.
-/

namespace Bundler.Path

/-- Reads one component onto a stack, its last element first. -/
def stepNormal (stack : List Component) : Component → List Component
  | .current => stack
  | .parent =>
      match stack with
      | .name _ :: rest => rest
      | .root :: _ => stack
      | _ => .parent :: stack
  | part => part :: stack

/-- The components that are left after reading all, in order. -/
def normalComponents (parts : List Component) : List Component :=
  (parts.foldl stepNormal []).reverse

/-- The path of a list of components, `.` if there is none. -/
def ofComponents (parts : List Component) : Path :=
  if parts.isEmpty then ⟨"."⟩ else joinComponents ⟨""⟩ parts

/-- The normal form of a path, found without looking at any file. -/
def normalize (path : Path) : Path :=
  ofComponents (normalComponents path.components)

/-- Two lists without the part in which they agree from the start. -/
def dropCommon : List Component → List Component → List Component × List Component
  | a :: as, b :: bs => if a = b then dropCommon as bs else (a :: as, b :: bs)
  | as, bs => (as, bs)

/-- The way from one path to another: up out of what they do not share, then down. -/
def relative (source target : Path) : Path :=
  let rest := dropCommon source.components target.components
  joinComponents ⟨""⟩ (rest.1.map (fun _ => .parent) ++ rest.2)

/-- The id of the module at a path: its way from the root, with slashes. -/
def moduleId (root path : Path) : String :=
  "./" ++ (relative root.normalize path.normalize).unixText

end Bundler.Path
