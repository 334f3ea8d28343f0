import Bundler.Error
import Bundler.FileTree
import Bundler.Path.Normal
import Bundler.Report

/-!
# Resolving specifiers

A specifier is joined to a directory and the result brought into normal form. The first of that
path and of it with each extension appended that is a file is what the specifier denotes.
-/

namespace Bundler

/-- The root that module ids are relative to, and the extensions that are tried in turn. -/
structure Resolver where
  root : Path
  extensions : List String
deriving Inhabited

namespace Resolver

def ofRoot (root : Path) (extensions : List String) : Resolver :=
  ⟨root.normalize, extensions⟩

def moduleId (resolver : Resolver) (path : Path) : String :=
  Path.moduleId resolver.root path

/-- The paths that a specifier may denote, in order of preference. -/
def candidates (resolver : Resolver) (base : Path) (specifier : String) : List Path :=
  let joined := (base.join ⟨specifier⟩).normalize
  ("" :: resolver.extensions).map fun extension => ⟨joined.text ++ extension⟩

/-- The file that a specifier denotes when it is read from a directory. -/
def resolve (resolver : Resolver) (disk : Disk) (base : Path) (specifier : String) :
    Report BuildError Path :=
  match (resolver.candidates base specifier).find? disk.isFile with
  | some path => ⟨[.requestResolved specifier path], .ok path⟩
  | none => .fail (.moduleNotFound specifier base)

end Resolver

end Bundler
