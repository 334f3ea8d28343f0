import Bundler.Script.Reader.Declaration

/-!
# Reading imports and exports
-/

namespace Bundler.Script.Parser

def noteModule : Parser Unit :=
  modify fun state => { state with hasModuleSyntax := true }

def importAttribute : Parser Node := do
  let start ← here
  let key ← match (← token).kind with
    | .string value raw lone => leaf (.string value raw lone)
    | _ => anyName
  expect .colon
  let value ← stringLiteral
  finish .importAttribute start [key, value]

def checkAttributes : List Node → List Node → Parser Unit
  | .node .importAttribute _ _ _ (key :: _) :: rest, seen => do
    match seen.find? fun earlier => earlier.nameText == key.nameText with
    | some earlier => fault earlier.start
    | none => pure ()
    checkAttributes rest (key :: seen)
  | _, _ => return ()

/-- The attributes of an import, if there are any. -/
def importAttributes (fuel : Nat) : Parser Node := do
  let start ← here
  let current ← token
  if current.isWord .with_ || (current.isWord .assert_ && !current.afterBreak) then
    advance
    expect .braceOpen
    let (items, _) ← commaList fuel .braceClose importAttribute
    expect .braceClose
    checkAttributes items []
    finish (.importAttributes (nameText current)) start items
  else return Node.absent

/-- Whether the word `type` marks the specifier here, and is not the name in it. -/
def typeMarks : Parser Bool := do
  if (← dialect).typed && (← atWord .type_) then
    foresee do
      skip
      let second ← token
      if second.isWord .as_ then
        skip
        let third ← token
        if third.isWord .as_ then
          skip
          return (← token).isName
        else return !third.isName
      else
        match second.kind with
        | .string _ _ _ => return true
        | _ => return second.isName
  else return false

def importSpecifier : Parser Node := do
  let start ← here
  let typeOnly ← typeMarks
  if typeOnly then advance
  let first ← token
  let imported ← moduleName
  if ← eatWord .as_ then
    let name ← bindingName
    finish (.importSpecifier typeOnly) start [imported, name]
  else if first.isIdentifier then finish (.importSpecifier typeOnly) start [imported, imported]
  else failAt first.start

def importNamespace : Parser Node := do
  let start ← here
  advance
  expectWord .as_
  let name ← bindingName
  finish .importNamespace start [name]

/-- What an import names, after the name of the default if there is one. -/
def importSpecifiers (fuel : Nat) : Parser (List Node) := do
  if ← atSign .star then return [← importNamespace]
  else
    expect .braceOpen
    let (items, _) ← commaList fuel .braceClose importSpecifier
    expect .braceClose
    return items

def importFrom (fuel : Nat) (start : Nat) (phase : Option String) (typeOnly : Bool)
    (specifiers : Node) : Parser Node := do
  noteModule
  let source ← stringLiteral
  let with_ ← importAttributes fuel
  semicolon
  finish (.import_ phase typeOnly) start [specifiers, source, with_]

/-- Notes names that an import cannot have in its phase: one that is put off names a whole module,
one of a source names just the default. -/
def checkPhase (phase : Option Qualifier) (specifiers : List Node) : Parser Unit :=
  match phase with
  | none => return ()
  | some qualifier =>
    match qualifier.word, specifiers with
    | .defer_, [.node .importNamespace _ _ _ _] => return ()
    | .source_, [.node .importDefault _ _ _ _] => return ()
    | _, _ => fault qualifier.place

/-- Notes names that an import of types cannot have: the default with others, and names that are
marked as types once more. -/
def checkTypeOnly (specifiers : List Node) : Parser Unit := do
  match specifiers with
  | .node .importDefault start _ _ _ :: _ :: _ => fault start
  | _ => pure ()
  specifiers.forM fun specifier =>
    match specifier.kind with
    | .importSpecifier true | .exportSpecifier true => fault specifier.start
    | _ => return ()

def importQualifies : Parser Bool := do
  let qualified ← next fun token =>
    token.isSign .braceOpen || token.isSign .star || (token.isIdentifier && !token.isWord .from_)
  if qualified then return true
  else
    foresee do
      skip
      let second ← token
      skip
      return second.isWord .from_ && (← atWord .from_)

/-- What an import names besides the default, with the default before it if there is one. -/
def importClause (fuel : Nat) (default : Option Node) : Parser (List Node) := do
  match default with
  | none => importSpecifiers fuel
  | some name =>
    let first := Node.mk .importDefault name.start name.stop [name]
    let more ← if ← eat .comma then importSpecifiers fuel else pure []
    return first :: more

def importDeclaration (fuel : Nat) : Parser Node := do
  let start ← here
  advance
  match (← token).kind with
  | .string _ _ _ => importFrom fuel start none false Node.absent
  | _ =>
    let first ← token
    let qualifies ← importQualifies
    let typeOnly := (← dialect).typed && first.isWord .type_ && qualifies
    let phase : Option (Qualifier × String) :=
      if qualifies && first.isWord .defer_ then some (⟨.defer_, first.start⟩, "defer")
      else if qualifies && first.isWord .source_ then some (⟨.source_, first.start⟩, "source")
      else none
    if typeOnly || phase.isSome then advance
    let name ← if (← token).isIdentifier then some <$> bindingName else pure none
    match name, ← atSign .equal with
    | some name, true =>
      noteModule
      importEquals fuel start name
    | _, _ =>
      let specifiers ← importClause fuel name
      expectWord .from_
      let whole ← importFrom fuel start (phase.map Prod.snd) typeOnly (Node.list specifiers)
      checkPhase (phase.map Prod.fst) specifiers
      if typeOnly then checkTypeOnly specifiers
      return whole

def exportSpecifier : Parser Node := do
  let start ← here
  let typeOnly ← typeMarks
  if typeOnly then advance
  let name ← moduleName
  if ← eatWord .as_ then
    let exported ← moduleName
    finish (.exportSpecifier typeOnly) start [name, exported]
  else finish (.exportSpecifier typeOnly) start [name, name]

/-- Whether a text is never the name of something that a module declares. -/
def isKeyword (text : String) : Bool :=
  match Word.ofName? text with
  | some .await_ | some .yield_ | some .implements_ | some .interface_ | some .package_
  | some .private_ | some .protected_ | some .public_ | some .static_ => true
  | some word => word.isReserved
  | none => false

/-- Notes specifiers that name nothing that the module itself could declare. -/
def checkLocals : List Node → Parser Unit
  | [] => return ()
  | .node (.exportSpecifier _) _ _ _ (name :: _) :: rest => do
    match name.kind with
    | .string _ _ _ => fault name.start
    | .name text => if isKeyword text then fault name.start
    | _ => pure ()
    checkLocals rest
  | _ :: rest => checkLocals rest

def exportNames (fuel : Nat) (typeOnly : Bool) (start : Nat) : Parser Node := do
  expect .braceOpen
  let (items, _) ← commaList fuel .braceClose exportSpecifier
  expect .braceClose
  if typeOnly then checkTypeOnly items
  if ← eatWord .from_ then
    let source ← stringLiteral
    let with_ ← importAttributes fuel
    semicolon
    finish (.exportNamed typeOnly) start [Node.list items, source, with_]
  else
    checkLocals items
    semicolon
    finish (.exportNamed typeOnly) start [Node.list items, Node.absent, Node.absent]

def exportAll (fuel : Nat) (typeOnly : Bool) (start : Nat) : Parser Node := do
  advance
  let name ← if ← eatWord .as_ then moduleName else pure Node.absent
  expectWord .from_
  let source ← stringLiteral
  let with_ ← importAttributes fuel
  semicolon
  finish (.exportAll typeOnly) start [name, source, with_]

def exportDefault (parts : Parts) (fuel : Nat) (start : Nat) (marks : Node) : Parser Node := do
  let word ← here
  advance
  let first ← here
  let current ← token
  let typed := (← dialect).typed
  if current.isWord .class_ then
    let inner ← classFrom parts fuel ⟨false, false, false⟩ first marks
    finish (.exportDefault word) start [inner]
  else if current.isSign .at then
    let marks ← decorators parts fuel
    let inner ← classFrom parts fuel ⟨false, false, false⟩ first marks
    finish (.exportDefault word) start [inner]
  else if current.isWord .function_ || (← atAsyncFunction) then
    let inner ← function parts fuel false false false first
    finish (.exportDefault word) start [if current.effectFreeFunction then markFunction inner else inner]
  else if current.isWord .abstract_ && (← next (·.isWord .class_)) then
    advance
    let inner ← classFrom parts fuel ⟨false, true, false⟩ first marks
    finish (.exportDefault word) start [inner]
  else if typed && current.isWord .interface_ && (← next (·.isIdentifier)) then
    let inner ← interfaceDeclaration parts fuel false first
    finish (.exportDefault word) start [inner]
  else
    let inner ← within ({ · with allowsIn := true }) (parts (.assignment true))
    semicolon
    finish (.exportDefault word) start [inner]

def exportDeclaration (parts : Parts) (fuel : Nat) (start : Nat) (marks : Node) : Parser Node := do
  let first ← here
  let current ← token
  let inner ← match current.word? with
    | some .var_ => bindings parts fuel "var" false false first
    | some .let_ => bindings parts fuel "let" false false first
    | some .function_ => function parts fuel false true false first
    | some .class_ => classFrom parts fuel ⟨false, false, false⟩ first marks
    | some .async_ =>
      if ← atAsyncFunction then function parts fuel false true false first else unexpected
    | some .const_ =>
      if (← dialect).typed && (← next (·.isWord .enum_)) then
        typedDeclaration parts fuel marks first
      else bindings parts fuel "const" false false first
    | _ =>
      if current.isSign .at then do
        let marks ← decorators parts fuel
        classFrom parts fuel ⟨false, false, false⟩ first marks
      else if ← atTypedDeclaration fuel then
        typedDeclaration parts fuel marks first
      else unexpected
  let whole ← finish .exportDeclaration start [inner]
  return if current.effectFreeFunction then markDeclared whole else whole

def exportStatement (parts : Parts) (fuel : Nat) (start : Nat) (marks : Node) : Parser Node := do
  advance
  noteModule
  let current ← token
  let typed := (← dialect).typed
  if current.isWord .default_ then exportDefault parts fuel start marks
  else if current.isSign .star then exportAll fuel false start
  else if current.isSign .braceOpen then exportNames fuel false start
  else if typed && current.isSign .equal then
    advance
    let inner ← parts (.assignment true)
    semicolon
    finish .exportAssignment start [inner]
  else if typed && current.isWord .as_ then
    advance
    expectWord .namespace_
    let name ← bindingName
    semicolon
    finish .exportNamespace start [name]
  else if typed && current.isWord .import_ then
    let inner ← declaredImport fuel (← here)
    finish .exportDeclaration start [inner]
  else if typed && current.isWord .type_ && (← next (·.isSign .braceOpen)) then
    advance
    exportNames fuel true start
  else if typed && current.isWord .type_ && (← next (·.isSign .star)) then
    advance
    exportAll fuel true start
  else exportDeclaration parts fuel start marks

end Bundler.Script.Parser
