import Bundler.Script.Node

/-!
# Exported names

The names under which the statements of a module export something. A module exports nothing twice
under one name.
-/

namespace Bundler.Script

/-- A name under which a module exports something. -/
structure ExportedName where
  text : String
  place : Nat
  /-- Whether it is the word of a default export. -/
  isWord : Bool
  /-- Whether what is exported belongs to another module. -/
  isIndirect : Bool
deriving Repr, Inhabited

namespace Node

mutual

def boundNames : Node → List Node
  | .node (.name text) start stop value children => [.node (.name text) start stop value children]
  | .node .objectPattern _ _ _ parts => boundNamesOfAll parts
  | .node .arrayPattern _ _ _ parts => boundNamesOfAll parts
  | .node (.bindingProperty _ _) _ _ _ [_, inner] => boundNames inner
  | .node .restPattern _ _ _ [inner] => boundNames inner
  | .node .defaulted _ _ _ [inner, _] => boundNames inner
  | .node (.typedPattern _) _ _ _ [inner, _] => boundNames inner
  | .node .declarator _ _ _ [inner, _] => boundNames inner
  | _ => []

def boundNamesOfAll : List Node → List Node
  | [] => []
  | pattern :: rest => boundNames pattern ++ boundNamesOfAll rest

end

def declaredNames : Node → List Node
  | .node (.declaration _) _ _ _ declarators => boundNamesOfAll declarators
  | .node (.function _) _ _ _ (name :: _) => boundNames name
  | .node (.class_ _) _ _ _ (_ :: name :: _) => boundNames name
  | _ => []

/-- The names that a statement imports, but for those of whole modules. -/
def importedNames : Node → List String
  | .node (.import_ _ _) _ _ _ [specifiers, _, _] => specifiers.children.filterMap fun specifier =>
    match specifier with
    | .node .importDefault _ _ _ [name] => some name.nameText
    | .node (.importSpecifier _) _ _ _ [_, name] => some name.nameText
    | _ => none
  | _ => []

def exportedNames (imported : List String) : Node → List ExportedName
  | .node (.exportNamed _) _ _ _ [specifiers, source, _] =>
    specifiers.children.filterMap fun specifier =>
      match specifier with
      | .node (.exportSpecifier _) _ _ _ [name, exported] =>
        some ⟨exported.nameText, exported.start, false,
          !source.isAbsent || imported.contains name.nameText⟩
      | _ => none
  | .node (.exportAll _) _ _ _ (name :: _) =>
    if name.isAbsent then [] else [⟨name.nameText, name.start, false, true⟩]
  | .node .exportDeclaration _ _ _ [inner] =>
    (declaredNames inner).map fun name => ⟨name.nameText, name.start, false, false⟩
  | .node (.exportDefault word) _ _ _ _ => [⟨"default", word, true, false⟩]
  | _ => []

end Node

namespace ExportedName

/-- The places of names that occur again, each with the place of its last occurrence before the
other one, in the order of the others. -/
def repeated : List ExportedName → List ExportedName → List Nat
  | [], _ => []
  | entry :: rest, seen =>
    match seen.find? fun other => other.text == entry.text with
    | some earlier => earlier.place :: repeated rest (entry :: seen)
    | none => repeated rest (entry :: seen)

/-- The places of faults in what the statements of a module export: names that occur again, and
then default exports if there are several. -/
def faults (statements : List Node) : List Nat :=
  let imported := statements.flatMap Node.importedNames
  let entries := statements.flatMap (Node.exportedNames imported)
  let defaults := entries.filter fun entry => entry.text == "default"
  let ordered := defaults.filter (!·.isIndirect) ++ defaults.filter (·.isIndirect)
  repeated (entries.filter fun entry => !entry.isWord) [] ++
    if ordered.length < 2 then [] else (ordered.map place).take 1

end ExportedName

end Bundler.Script
