import Bundler.Script.Printer.Module

/-!
# Layout of types and their declarations
-/

namespace Bundler.Script.Layout

open Writer

def joined (sign : String) (types : List Laid) : Layout := fun _ =>
  separated (text sign) (types.map Tree.writeFree)

def tupleType (types : List Laid) : Layout := fun _ => do
  chars ['[']
  commas (types.map Tree.writeFree)
  chars [']']

def typeArguments (types : List Laid) : Layout := fun _ => do
  chars ['<']
  commas (types.map Tree.writeFree)
  chars ['>']

/-- Type parameters. More than one take several lines; a single one has a comma behind it where it
would look like markup. -/
def typeParameters (parameters : List Laid) : Layout := fun _ => do
  chars ['<']
  match parameters with
  | [single] =>
    single.writeFree
    mark (← get).markup ','
  | several => lined (several.map Tree.writeFree)
  chars ['>']

def typeParameter (qualifiers : List String) (called bound default : Laid) : Layout := fun _ => do
  words (qualifiers.map fun word => (true, word))
  called.writeFree
  after " extends " bound .free
  after " = " default .free

def between (left : Laid) (sign : String) (right : Laid) : Layout := fun _ => do
  left.writeFree
  text sign
  right.writeFree

def enclosed (before : String) (inner : Laid) (behind : String) : Layout := fun _ => do
  text before
  inner.writeFree
  text behind

def applied (called arguments : Laid) : Layout := fun _ => do
  called.writeFree
  arguments.writeFree

def typeQuery (called arguments : Laid) : Layout := fun _ => do
  text "typeof "
  called.writeFree
  arguments.writeFree

def importType (source options qualifier arguments : Laid) : Layout := fun _ => do
  text "import("
  source.writeFree
  after ", " options .item
  chars [')']
  after "." qualifier .free
  arguments.writeFree

def conditionalType (checked bound consequent alternate : Laid) : Layout := fun _ => do
  checked.writeFree
  text " extends "
  bound.writeFree
  text " ? "
  consequent.writeFree
  text " : "
  alternate.writeFree

def inferType (called bound : Laid) : Layout := fun _ => do
  text "infer "
  called.writeFree
  after " extends " bound .free

def namedTupleMember (isOptional : Bool) (called type : Laid) : Layout := fun _ => do
  called.writeFree
  mark isOptional '?'
  text ": "
  type.writeFree

def functionType (before : String) (generics inputs result : Laid) : Layout := fun _ => do
  text before
  generics.writeFree
  chars ['(']
  inputs.writeFree
  text ") => "
  result.writeFree

def typeLiteral (nodes : List Laid) : Layout := fun _ => members nodes fun _ => endStatement

def mappedMark (word : String) : MappedMark → String
  | .absent => ""
  | .plain => word
  | .added => "+" ++ word
  | .removed => "-" ++ word

def mappedType (readonly optional : MappedMark) :
    List Laid → Layout
  | [called, constraint, newName, type], _ => do
    chars ['\x7b', ' ']
    text (mappedMark "readonly " readonly)
    chars ['[']
    called.writeFree
    text " in "
    constraint.writeFree
    after " as " newName .free
    chars [']']
    text (mappedMark "?" optional)
    space
    after ": " type .free
    chars [' ', '\x7d']
  | _, _ => return ()

def typePredicate (asserts : Bool) (subject type : Laid) : Layout := fun _ => do
  words [(asserts, "asserts")]
  subject.writeFree
  after " is " type .free

def propertySignature (computed isOptional isReadonly : Bool) (keyed type : Laid) : Layout :=
  fun _ => do
    words [(isReadonly, "readonly")]
    key computed keyed
    mark isOptional '?'
    after ": " type .free

def methodSignature (role : MethodRole) (computed isOptional : Bool)
    (keyed generics inputs result : Laid) : Layout := fun _ => do
  words (roleWord role)
  key computed keyed
  mark isOptional '?'
  signature generics inputs result

def callSignature (before : String) (generics inputs result : Laid) : Layout := fun _ => do
  text before
  signature generics inputs result

def indexSignature (isReadonly : Bool) (called keyed type : Laid) : Layout := fun _ => do
  words [(isReadonly, "readonly")]
  chars ['[']
  called.writeFree
  after ": " keyed .free
  chars [']']
  after ": " type .free

/-! ### Declarations -/

def interface_ (isDeclare : Bool) (called generics bases nodes : Laid) : Layout := fun _ => do
  words [(isDeclare, "declare")]
  text "interface "
  called.writeFree
  generics.writeFree
  if !bases.children.isEmpty then
    text " extends "
    commas (bases.children.map Tree.writeFree)
  space
  members nodes.children fun _ => endStatement

def typeAlias (isDeclare : Bool) (called generics type : Laid) : Layout := fun _ => do
  words [(isDeclare, "declare")]
  text "type "
  called.writeFree
  generics.writeFree
  text " = "
  type.writeFree

def enum_ (isConst isDeclare : Bool) (called : Laid) (nodes : List Laid) : Layout := fun _ => do
  words [(isDeclare, "declare"), (isConst, "const")]
  text "enum "
  called.writeFree
  space
  let last := (nodes.getLast?.map Tree.start).getD 0
  members nodes fun node => do
    mark (node.start != last) ','
    newline

def enumMember (computed : Bool) (keyed value : Laid) : Layout := fun _ => do
  key computed keyed
  after " = " value .free

def namespace_ (keyword : String) (isDeclare : Bool) (called body : Laid) : Layout := fun _ => do
  words [(isDeclare, "declare")]
  if keyword != "global" then
    text keyword
    space
  called.writeFree
  bodyOrEnd body

def namespaceBody (nodes : List Laid) : Layout := fun _ => braces nodes.isEmpty (statements nodes)

def importEquals (called reference : Laid) : Layout := fun _ => do
  text "import "
  called.writeFree
  text " = "
  reference.writeFree

end Bundler.Script.Layout
