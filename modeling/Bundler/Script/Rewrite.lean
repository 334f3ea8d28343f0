import Bundler.Resolver
import Bundler.Script.Printer
import Bundler.Table

/-!
# Rewriting requirements

A module requires others by calls of `require`. Each call is redirected: it names the function
that a bundle finds its modules with, and the id of the module that the specifier denotes. The
first call that cannot be redirected is an error.
-/

namespace Bundler

/-- A module's text with its requirements redirected, and the files that they denote. -/
structure Rewritten where
  code : String
  /-- The path of each required module under its id, in the order of the first calls. -/
  dependencies : Table Path
deriving Inhabited

namespace Script

def requireName : String := "require"

def runtimeName : String := "__tinypack_require__"

/-- A module whose requirements are rewritten. -/
structure Requirer where
  disk : Disk
  resolver : Resolver
  source : List Char
  id : String
  /-- The directory that specifiers are relative to. -/
  base : Path

def isRequire (kind : Kind) (children : List Node) : Bool :=
  match kind, children with
  | .call _ _, .node (.name text) _ _ _ _ :: _ => text == requireName
  | _, _ => false

def specifier? (children : List Node) : Option String :=
  match children with
  | [_, _, .node _ _ _ _ (.node (.string value _ _) _ _ _ _ :: _)] => some value
  | _ => none

def redirect (id : String) (children : List Node) : List Node :=
  match children with
  | [callee, generics, .node kind start stop _ (.node (.string _ raw lone) a b _ inner :: rest)] =>
    [callee.withKind (.name runtimeName), generics,
      .node kind start stop () (.node (.string id raw lone) a b () inner :: rest)]
  | children => children

namespace Requirer

/-- Adds the module that a specifier denotes to the dependencies; gives its id. -/
def depend (requirer : Requirer) (specifier : String) :
    Action (Table Path) BuildError String := do
  let path ← Action.ofReport
    (requirer.resolver.resolve requirer.disk requirer.base specifier)
  let id := requirer.resolver.moduleId path
  Action.log (.requireResolved requirer.id specifier id)
  Action.modify fun dependencies =>
    if dependencies.contains id then dependencies else dependencies.insert id path
  return id

/-- The id that the call at a node is redirected to, if it is one that requires. -/
def target? (requirer : Requirer) (kind : Kind) (start : Nat) (children : List Node) :
    Action (Table Path) BuildError (Option String) :=
  if isRequire kind children then
    match specifier? children with
    | some specifier => some <$> requirer.depend specifier
    | none =>
      Action.fail (.dynamicRequire requirer.id (Text.Location.ofOffset requirer.source start))
  else Action.ok none

def redirected (target : Option String) (children : List Node) : List Node :=
  match target with
  | some id => redirect id children
  | none => children

mutual

/-- Redirects the calls in a tree, those further out before those inside them. -/
def rewrite (requirer : Requirer) : Node → Action (Table Path) BuildError Node
  | .node kind start stop _ children => do
    let target ← requirer.target? kind start children
    let inner ← requirer.rewriteAll children
    return .node kind start stop () (redirected target inner)

def rewriteAll (requirer : Requirer) : List Node → Action (Table Path) BuildError (List Node)
  | [] => Action.ok []
  | node :: rest => do
    let first ← requirer.rewrite node
    let others ← requirer.rewriteAll rest
    return first :: others

end

end Requirer

def rewrite (disk : Disk) (resolver : Resolver) (source : String) (path : Path) (id : String) :
    Report BuildError Rewritten :=
  let text := source.toList
  let dialect := Dialect.ofPath path
  match Program.read dialect text with
  | .error place =>
    .fail (.syntaxError id (Text.Location.ofOffset text place) "the text is not a program")
  | .ok program =>
    let requirer : Requirer := ⟨disk, resolver, text, id, path.parent?.getD resolver.root⟩
    let outcome := requirer.rewrite program.tree .empty
    ⟨outcome.events, match outcome.result with
      | .error error => .error error
      | .ok tree =>
        .ok ⟨Program.render ⟨tree, program.comments⟩ dialect.markup, outcome.state⟩⟩

end Script

end Bundler
