import Bundler.Chunk
import Bundler.Proofs.Script.Reading.Statement

/-! Reading the part of a bundle that runs its modules: the cache, the function that requires a
module, and the call for the module of the entry. -/

namespace Bundler

open Script Script.Parser

namespace Bundle

variable {fuel : Nat} {sight : Sight} {more after : List Symbol}

theorem runs_nameOperand {outer : Context} {text : String} {word : Option Word} {afterBreak : Bool}
    {node : Node} (hword : word = none ∨ word = some .module_)
    (hlinks : Links outer (fuel + 1) true (fuel + 1) (.token sight :: more) after
      (.of (.name text) []) node) :
    Runs outer (leftSide (read (fuel + 1)) (fuel + 1))
      (.token ⟨.name text word, afterBreak⟩ :: .token sight :: more) (.tree after node) :=
  runs_leftSide (runs_primary_name hword) hlinks

theorem opens_of_word {text : String} {word : Option Word} (afterBreak : Bool)
    (hword : word = none ∨ word = some .module_) : Sight.Opens ⟨.name text word, afterBreak⟩ := by
  rcases hword with rfl | rfl
  · exact .name ..
  · exact .module_ ..

/-- A name, alone or with accesses and calls behind it, as a value. -/
theorem runs_nameValue {outer : Context} {resultTypes : Bool} {text : String} {word : Option Word}
    {afterBreak : Bool} {node : Node} {sight' : Sight} (hword : word = none ∨ word = some .module_)
    (hcloses : sight'.Closes)
    (hlinks : Links outer (fuel + 1) true (fuel + 1) (.token sight :: more) (.token sight' :: after)
      (.of (.name text) []) node) :
    Runs outer (read (fuel + 3) (.assignment resultTypes))
      (.token ⟨.name text word, afterBreak⟩ :: .token sight :: more)
      (.tree (.token sight' :: after) node) :=
  runs_value (opens_of_word afterBreak hword) nofun hcloses (runs_nameOperand hword hlinks)

theorem runs_plainName {outer : Context} {resultTypes : Bool} {text : String} {word : Option Word}
    {afterBreak : Bool} (hword : word = none ∨ word = some .module_) (hcloses : sight.Closes) :
    Runs outer (read (fuel + 3) (.assignment resultTypes))
      (.token ⟨.name text word, afterBreak⟩ :: .token sight :: more)
      (.tree (.token sight :: more) (.of (.name text) [])) :=
  runs_nameValue hword hcloses (links_end (.of_stops (.of_closes hcloses)))

theorem runs_nameArgument {outer : Context} {text : String} {word : Option Word}
    {afterBreak : Bool} (hword : word = none ∨ word = some .module_) (hcloses : sight.Closes) :
    Runs outer (argument (fuel + 3)) (.token ⟨.name text word, afterBreak⟩ :: .token sight :: more)
      (.tree (.token sight :: more) (.of (.name text) [])) :=
  runs_argument (opens_of_word afterBreak hword) (runs_plainName hword hcloses)

def nameNode (text : String) : Node := .of (.name text) []

def memberNode (object : Node) (name : String) : Node := .of (.member false) [object, nameNode name]

def elementNode (object : Node) (key : String) : Node := .of (.element false) [object, nameNode key]

def callNode (callee : Node) (values : List Node) : Node :=
  .of (.call false false) [callee, .absent, .list values]

def varNode (name : String) (value : Node) : Node :=
  .of (.declaration ⟨"var", false⟩) [.of .declarator [nameNode name, value]]

/-- The question whether a record has a member of its own. -/
def ownershipSights (record : String) : List Sight :=
  [.name "Object", .sign .dot, .name "prototype", .sign .dot, .name "hasOwnProperty", .sign .dot,
    .name "call", .sign .parenOpen, .name record, .sign .comma, .name "id", .sign .parenClose]

def ownership (record : String) : Node :=
  callNode (memberNode (memberNode (memberNode (nameNode "Object") "prototype") "hasOwnProperty")
    "call") [nameNode record, nameNode "id"]

theorem runs_ownership {record : String} (hends : sight.Ends) :
    Runs inBody (leftSide (read (fuel + 5)) (fuel + 5))
      ((ownershipSights record).map .token ++ .token sight :: more)
      (.tree (.token sight :: more) (ownership record)) :=
  runs_nameOperand (.inl rfl) <| .dot nofun <| .dot nofun <| .dot nofun <|
    .call ordinary_inBody nofun
      (runs_commaList (.name ..) rfl (runs_nameArgument (.inl rfl) (.comma _)) <|
        .cons nofun rfl (runs_nameArgument (.inl rfl) (.paren _)) (lists_end rfl))
      (links_end hends)

/-- Tokens are read as a statement in the body of a function, whatever follows it but another
choice. -/
def IsStatement (depth : Nat) (sights : List Sight) (node : Node) : Prop :=
  ∀ (fuel : Nat) (sight : Sight) (more : List Symbol), (sight.token 0 0).isWord .else_ = false →
    Runs inBody (read (fuel + depth) (.statement false))
      (sights.map .token ++ .token sight :: more) (.tree (.token sight :: more) node)

/-- `return cache[id].exports;` -/
def cachedSights : List Sight :=
  [.broken (.word "return" .return_), .name cacheName, .sign .bracketOpen, .name "id",
    .sign .bracketClose, .sign .dot, .name "exports", .sign .semicolon]

def cachedNode : Node :=
  .of .return_ [memberNode (elementNode (nameNode cacheName) "id") "exports"]

theorem isStatement_cached : IsStatement 9 cachedSights cachedNode :=
  fun _ _ _ _ => runs_return ordinary_inBody rfl (.of_opens (.name ..)) rfl <|
    runs_expression rfl <| runs_nameValue (.inl rfl) (.semicolon _) <|
    .element ordinary_inBody
      (runs_expression rfl (runs_plainName (.inl rfl) (.bracket _))) <|
    .dot nofun <| links_end (.of_stops (.of_closes (.semicolon _)))

theorem runs_string {outer : Context} {value raw : String} {lone afterBreak : Bool}
    (hends : sight.Ends) :
    Runs outer (leftSide (read (fuel + 1)) (fuel + 1))
      (.token ⟨.string value raw lone, afterBreak⟩ :: .token sight :: more)
      (.tree (.token sight :: more) (.of (.string value raw lone) [])) :=
  runs_leftSide runs_primary_string (links_end hends)

/-- `"Cannot find module '" + id + "'"` -/
def messageSights (raw raw' : String) : List Sight :=
  [⟨.string "Cannot find module '" raw false, false⟩, .sign .plus, .name "id", .sign .plus,
    ⟨.string "'" raw' false, false⟩]

def message (raw raw' : String) : Node :=
  .of (.binary .add) [.of (.binary .add) [.of (.string "Cannot find module '" raw false) [],
    .of (.name "id") []], .of (.string "'" raw' false) []]

theorem runs_message {raw raw' : String} (hcloses : sight.Closes) :
    Runs inBody (read (fuel + 5) (.assignment true))
      ((messageSights raw raw').map .token ++ .token sight :: more)
      (.tree (.token sight :: more) (message raw raw')) := by
  refine runs_assignment (.of_opens (.string ..)) (runs_guessArrow (.of_opens (.string ..)) nofun)
    hcloses <| runs_sum (.string ..) (.plus _) (runs_string (.plus _)) ?_
  have hid : Runs inBody (read (fuel + 3) (.binary .add)) (.name "id" :: .sign .plus ::
      .token ⟨.string "'" raw' false, false⟩ :: .token sight :: more)
      (.tree (.sign .plus :: .token ⟨.string "'" raw' false, false⟩ :: .token sight :: more)
        (.of (.name "id") [])) :=
    runs_binary (.name ..) (.inr ⟨.plus _, Nat.le_refl _⟩)
      (runs_nameOperand (.inl rfl) (links_end (.plus _)))
  refine .plus (by decide) hid <| .plus (by decide) ?_ (sums_end (.inl (.of_closes hcloses)))
  exact runs_binary (.string ..) (.inl (.of_closes hcloses))
    (runs_string (.of_stops (.of_closes hcloses)))

/-- `throw new Error(message);` -/
def missingSights (raw raw' : String) : List Sight :=
  [.broken (.word "throw" .throw_), .word "new" .new_, .name "Error", .sign .parenOpen] ++
    messageSights raw raw' ++ [.sign .parenClose, .sign .semicolon]

def missingNode (raw raw' : String) : Node :=
  .of .throw_ [.of (.new_ false) [nameNode "Error", .absent, .list [message raw raw']]]

theorem isStatement_missing (raw raw' : String) :
    IsStatement 12 (missingSights raw raw') (missingNode raw raw') :=
  fun _ _ _ _ => runs_throw rfl <| runs_expression rfl <|
    runs_value (.new_ ..) nofun (.semicolon _) <| runs_leftSide
      (runs_construction ordinary_inBody <| runs_commaList (.string ..) rfl
        (runs_argument (.string ..) (runs_message (.paren _))) (lists_end rfl))
      (links_end (.of_stops (.of_closes (.semicolon _))))

/-- `if (cached) { return ... }` -/
def ifCachedSights : List Sight :=
  [.broken (.word "if" .if_), .sign .parenOpen] ++ ownershipSights cacheName ++
    [.sign .parenClose, .sign .braceOpen] ++ cachedSights ++ [.broken (.sign .braceClose)]

def ifCachedNode : Node := .of .if_ [ownership cacheName, .of .block [cachedNode], .absent]

theorem isStatement_ifCached : IsStatement 12 ifCachedSights ifCachedNode :=
  fun fuel _ _ helse => runs_if ordinary_inBody
    (runs_expression rfl <| runs_value (.name ..) nofun (.paren _) <|
      runs_ownership (.of_stops (.of_closes (.paren _))))
    (runs_block <| .cons (.name ..) (isStatement_cached (fuel + 1) _ _ rfl) series_end) helse

/-- `if (!known) { throw ... }` -/
def ifMissingSights (raw raw' : String) : List Sight :=
  [.broken (.word "if" .if_), .sign .parenOpen, .sign .bang] ++ ownershipSights modulesName ++
    [.sign .parenClose, .sign .braceOpen] ++ missingSights raw raw' ++
    [.broken (.sign .braceClose)]

def ifMissingNode (raw raw' : String) : Node :=
  .of .if_ [.of (.unary .not) [ownership modulesName], .of .block [missingNode raw raw'], .absent]

theorem isStatement_ifMissing (raw raw' : String) :
    IsStatement 14 (ifMissingSights raw raw') (ifMissingNode raw raw') :=
  fun fuel _ _ helse => runs_if ordinary_inBody
    (runs_expression rfl <|
      runs_assignment (.bang _) (runs_guessArrow (.bang _) nofun) (.paren _) <|
      runs_binary_not (.name ..) (.of_closes (.paren _)) <|
      runs_ownership (.of_stops (.of_closes (.paren _))))
    (runs_block <| .cons (.name ..) (isStatement_missing raw raw' fuel _ _ rfl) series_end) helse

/-- `var module = { id: id, exports: {} };` -/
def recordSights : List Sight :=
  [.broken (.word "var" .var_), .word "module" .module_, .sign .equal, .sign .braceOpen,
    .name "id", .sign .colon, .name "id", .sign .comma, .name "exports", .sign .colon,
    .sign .braceOpen, .sign .braceClose, .sign .braceClose, .sign .semicolon]

theorem runs_emptyObject {outer : Context} (houter : Ordinary outer) (hcloses : sight.Closes) :
    Runs outer (read (fuel + 4) (.assignment true))
      (.sign .braceOpen :: .sign .braceClose :: .token sight :: more)
      (.tree (.token sight :: more) (.of (.object none) [])) :=
  runs_value (.brace _) nofun hcloses <| runs_leftSide
    (runs_primary_object houter (runs_commaList_nil rfl))
    (links_end (.of_stops (.of_closes hcloses)))

def recordNode : Node :=
  varNode "module" (.of (.object none) [.of (.property false false) [nameNode "id", nameNode "id"],
    .of (.property false false) [nameNode "exports", .of (.object none) []]])

theorem isStatement_record : IsStatement 10 recordSights recordNode :=
  fun _ _ _ _ => runs_var ordinary_inBody (.inr rfl) rfl <|
    runs_value (.brace _) nofun (.semicolon _) <| runs_leftSide
      (runs_primary_object ordinary_inBody <|
        runs_commaList (.name ..) rfl
          (runs_objectMember (.name ..) (runs_plainName (.inl rfl) (.comma _))) <|
        .cons nofun rfl
          (runs_objectMember (.name ..) (runs_emptyObject ordinary_inBody (.brace _)))
          (lists_end rfl))
      (links_end (.of_stops (.of_closes (.semicolon _))))

/-- `var cache = {};` -/
def cacheSights : List Sight :=
  [.broken (.word "var" .var_), .name cacheName, .sign .equal, .sign .braceOpen, .sign .braceClose,
    .sign .semicolon]

def cacheNode : Node := varNode cacheName (.of (.object none) [])

theorem isStatement_cache : IsStatement 5 cacheSights cacheNode :=
  fun _ _ _ _ => runs_var ordinary_inBody (.inl rfl) rfl
    (runs_emptyObject ordinary_inBody (.semicolon _))

/-- `cache[id] = module;` -/
def keptSights : List Sight :=
  [.broken (.name cacheName), .sign .bracketOpen, .name "id", .sign .bracketClose, .sign .equal,
    .word "module" .module_, .sign .semicolon]

def keptNode : Node :=
  .of .expressionStatement
    [.of (.assign .plain) [elementNode (nameNode cacheName) "id", nameNode "module"]]

theorem isStatement_kept : IsStatement 9 keptSights keptNode :=
  fun _ _ _ _ => runs_statement <| .here fun _ => .token fun _ _ =>
    runs_expressionStatement <| runs_expression rfl <|
    runs_assign_element (.of_opens (.name ..)) (runs_guessArrow (.of_opens (.name ..)) nofun)
      (runs_binary (.name ..) (.inl (.equal _)) <| runs_nameOperand (.inl rfl) <|
        .element ordinary_inBody
          (runs_expression rfl (runs_plainName (.inl rfl) (.bracket _))) <|
        links_end (.of_stops (.equal _)))
      rfl (runs_plainName (.inr rfl) (.semicolon _))

/-- `modules[id].call(module.exports, module, module.exports, require);` -/
def calledSights : List Sight :=
  [.broken (.name modulesName), .sign .bracketOpen, .name "id", .sign .bracketClose, .sign .dot,
    .name "call", .sign .parenOpen, .word "module" .module_, .sign .dot, .name "exports",
    .sign .comma, .word "module" .module_, .sign .comma, .word "module" .module_, .sign .dot,
    .name "exports", .sign .comma, .name requireName, .sign .parenClose, .sign .semicolon]

theorem runs_exports {resultTypes : Bool} (hcloses : sight.Closes) {afterBreak : Bool} :
    Runs inBody (read (fuel + 4) (.assignment resultTypes))
      (.token ⟨.name "module" (some .module_), afterBreak⟩ :: .sign .dot :: .name "exports" ::
        .token sight :: more)
      (.tree (.token sight :: more) (memberNode (nameNode "module") "exports")) :=
  runs_nameValue (.inr rfl) hcloses <| .dot nofun <| links_end (.of_stops (.of_closes hcloses))

def calledNode : Node :=
  .of .expressionStatement [callNode (memberNode (elementNode (nameNode modulesName) "id") "call")
    [memberNode (nameNode "module") "exports", nameNode "module",
      memberNode (nameNode "module") "exports", nameNode requireName]]

theorem isStatement_called : IsStatement 11 calledSights calledNode :=
  fun _ _ _ _ => runs_statement <| .here fun _ => .token fun _ _ =>
    runs_expressionStatement <| runs_expression rfl <| runs_nameValue (.inl rfl) (.semicolon _) <|
    .element ordinary_inBody (runs_expression rfl (runs_plainName (.inl rfl) (.bracket _))) <|
    .dot nofun <| .call ordinary_inBody nofun
      (runs_commaList (.module_ ..) rfl
          (runs_argument (.module_ ..) (runs_exports (.comma _))) <|
        .cons nofun rfl (runs_nameArgument (.inr rfl) (.comma _)) <|
        .cons nofun rfl (runs_argument (.module_ ..) (runs_exports (.comma _))) <|
        .cons nofun rfl (runs_nameArgument (.inl rfl) (.paren _)) (lists_end rfl))
      (links_end (.of_stops (.of_closes (.semicolon _))))

/-- `return module.exports;` -/
def exportedSights : List Sight :=
  [.broken (.word "return" .return_), .word "module" .module_, .sign .dot, .name "exports",
    .sign .semicolon]

def exportedNode : Node := .of .return_ [memberNode (nameNode "module") "exports"]

theorem isStatement_exported : IsStatement 8 exportedSights exportedNode :=
  fun _ _ _ _ => runs_return ordinary_inBody rfl (.of_opens (.module_ ..)) rfl <|
    runs_expression rfl <| runs_exports (.semicolon _)

theorem runs_stringValue {outer : Context} {resultTypes lone afterBreak : Bool} {value raw : String}
    (hcloses : sight.Closes) :
    Runs outer (read (fuel + 3) (.assignment resultTypes))
      (.token ⟨.string value raw lone, afterBreak⟩ :: .token sight :: more)
      (.tree (.token sight :: more) (.of (.string value raw lone) [])) :=
  runs_value (.string ..) nofun hcloses (runs_string (.of_stops (.of_closes hcloses)))

/-- The characters between the quotes of the literal for a text. -/
def rawQuote (text : String) : String := String.ofList (text.toList.flatMap Json.escapeChar)

/-- A call of the function that requires a module, with a literal. -/
def requireNode (id : String) : Node :=
  callNode (nameNode requireName) [.of (.string id (rawQuote id) false) []]

/-- `require("id")` -/
def callSights (id : String) : List Sight :=
  [.name requireName, .sign .parenOpen, ⟨.string id (rawQuote id) false, false⟩, .sign .parenClose]

theorem runs_requireCall {outer : Context} (houter : Ordinary outer) {id : String}
    {afterBreak : Bool} (hcloses : sight.Closes) :
    Runs outer (read (fuel + 6) (.assignment true))
      (.token ⟨.name requireName none, afterBreak⟩ ::
        ((callSights id).tail.map .token ++ .token sight :: more))
      (.tree (.token sight :: more) (requireNode id)) :=
  runs_nameValue (.inl rfl) hcloses <| .call houter nofun
    (runs_commaList (.string ..) rfl
      (runs_argument (.string ..) (runs_stringValue (.paren _))) (lists_end rfl))
    (links_end (.of_stops (.of_closes hcloses)))

/-- The function that requires a module. -/
def requireSights (raw raw' : String) : List Sight :=
  [.broken (.word "function" .function_), .name requireName, .sign .parenOpen, .name "id",
    .sign .parenClose, .sign .braceOpen] ++ ifCachedSights ++ ifMissingSights raw raw' ++
    recordSights ++ keptSights ++ calledSights ++ exportedSights ++ [.broken (.sign .braceClose)]

def functionNode (raw raw' : String) : Node :=
  .of (.function (plainShape false)) [nameNode requireName, .absent,
    .of .parameters [parameterNode "id"], .absent,
    .of .functionBody [ifCachedNode, ifMissingNode raw raw', recordNode, keptNode, calledNode,
      exportedNode]]

theorem isStatement_require (raw raw' : String) :
    IsStatement 16 (requireSights raw raw') (functionNode raw raw') := by
  have hinputs (fuel : Nat) (sight : Sight) (more : List Symbol) :
      Runs inBody (Parser.parameters (read (fuel + 15)) (fuel + 15) .other)
        (.sign .parenOpen :: .name "id" :: .sign .parenClose :: .token sight :: more)
        (.tree (.token sight :: more) (.of .parameters [parameterNode "id"])) :=
    runs_parameters fun item hitem => runs_commaList (.name ..) rfl
      (hitem "id" none false _ _ (.inl rfl) rfl) (lists_end rfl)
  exact fun fuel _ _ _ => runs_functionStatement ordinary_inBody (hinputs fuel _ _) <|
    runs_functionBody (.cons (.name ..) (isStatement_ifCached (fuel + 3) _ _ rfl) <|
      .cons (.name ..) (isStatement_ifMissing raw raw' (fuel + 1) _ _ rfl) <|
      .cons (.name ..) (isStatement_record (fuel + 5) _ _ rfl) <|
      .cons (.name ..) (isStatement_kept (fuel + 6) _ _ rfl) <|
      .cons (.name ..) (isStatement_called (fuel + 4) _ _ rfl) <|
      .cons (.name ..) (isStatement_exported (fuel + 7) _ _ rfl) series_end) (.of_kind nofun)

end Bundle

end Bundler
