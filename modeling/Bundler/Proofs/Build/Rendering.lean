import Bundler.Proofs.Build.Requiring
import Bundler.Proofs.Script.Reading.Whole

/-! Reading a whole bundle back. Where the code of every module can be the body of a function, the
bundle is one call of a function, and its registry has a function for each module, in order. -/

namespace Bundler

open Script Script.Parser

namespace Bundle

variable {fuel count : Nat} {sight : Sight} {more tail : List Symbol} {module : Module}
  {modules : List Module} {bodies : Module → List Node}

/-! ### The registry -/

/-- The function of a module with some statements. -/
def factoryNode (statements : List Node) : Node :=
  .of (.function (plainShape true)) [.absent, .absent,
    .of .parameters [parameterNode "module", parameterNode "exports", parameterNode requireName],
    .absent, .of .functionBody statements]

def entryNode (bodies : Module → List Node) (module : Module) : Node :=
  .of (.property false false)
    [.of (.string module.id (rawQuote module.id) false) [], factoryNode (bodies module)]

/-- The code of a module is read as the body of a function, if it may be nested as deep as a number
says. -/
def Fits (fuel : Nat) (bodies : Module → List Node) (module : Module) : Prop :=
  IsBody (bodyText module) (bodies module) ∧ Program.depth (bodyText module) ≤ fuel

theorem runs_factoryInputs {outer : Context} :
    Runs outer (Parser.parameters (read (fuel + 4)) (fuel + 4) .other)
      (.sign .parenOpen :: .token (.word "module" .module_) :: .sign .comma :: .name "exports" ::
        .sign .comma :: .name requireName :: .sign .parenClose :: .token sight :: more)
      (.tree (.token sight :: more) (.of .parameters
        [parameterNode "module", parameterNode "exports", parameterNode requireName])) :=
  runs_parameters fun _ hitem =>
    runs_commaList (.module_ ..) rfl (hitem "module" _ _ _ _ (.inr rfl) rfl) <|
      .cons nofun rfl (hitem "exports" _ _ _ _ (.inl rfl) rfl) <|
      .cons nofun rfl (hitem requireName _ _ _ _ (.inl rfl) rfl) (lists_end rfl)

/-- An entry is read as a member with a function, whose body is what the code is read as. -/
theorem runs_entry (h : Fits (fuel + 4) bodies module) :
    Runs inBody (objectMember (read (fuel + 6)) (fuel + 6))
      (frontSymbols module ++ .block (bodyText module) :: .sign .comma :: more)
      (.tree (.sign .comma :: more) (entryNode bodies module)) :=
  runs_objectMember (.string ..) <| runs_value (.function_ ..) nofun (.comma _) <| runs_leftSide
    (runs_functionExpression ordinary_inBody runs_factoryInputs (h.1 _ _ _ h.2))
    (links_end (.of_stops (.of_closes (.comma _))))

/-- An entry fails whose code begins with what is no token. -/
theorem runs_entry_fails :
    Runs inBody (objectMember (read (fuel + 6)) (fuel + 6))
      (frontSymbols module ++ .wrong :: more) .fails :=
  runs_objectMember_of_value (.string ..) fun _ _ _ => .stop <|
    runs_value (.function_ ..) nofun trivial <| runs_leftSide_fails <|
    runs_functionExpression_fails ordinary_inBody runs_factoryInputs runs_functionBody_wrong

theorem lists_registry (hmodules : ∀ module ∈ modules, Fits (fuel + 4) bodies module)
    (hcount : modules.length < count) (hclose : (sight.token 0 0).isSign .braceClose = true) :
    Lists inBody .braceClose (objectMember (read (fuel + 6)) (fuel + 6)) count
      (.sign .comma :: registrySymbols modules (.token sight :: more)) (.token sight :: more)
      (modules.map (entryNode bodies)) true := by
  induction modules generalizing count with
  | nil =>
      obtain ⟨count, rfl⟩ := Nat.exists_eq_add_one_of_ne_zero (Nat.ne_zero_of_lt hcount)
      exact lists_comma nofun hclose
  | cons module rest ih =>
      obtain ⟨count, rfl⟩ := Nat.exists_eq_add_one_of_ne_zero (Nat.ne_zero_of_lt hcount)
      obtain ⟨hfits, hrest⟩ := List.forall_mem_cons.mp hmodules
      exact .cons nofun rfl (runs_entry hfits)
        (ih hrest (Nat.lt_of_succ_lt_succ hcount))

theorem runs_registry (hmodules : ∀ module ∈ modules, Fits (fuel + 4) bodies module)
    (hcount : modules.length ≤ count) (hclose : (sight.token 0 0).isSign .braceClose = true) :
    Runs inBody (commaList count .braceClose (objectMember (read (fuel + 6)) (fuel + 6)))
      (registrySymbols modules (.token sight :: more))
      (.items (.token sight :: more) (modules.map (entryNode bodies)) !modules.isEmpty) := by
  cases modules with
  | nil => exact runs_commaList_nil hclose
  | cons module rest =>
      obtain ⟨hfits, hrest⟩ := List.forall_mem_cons.mp hmodules
      exact runs_commaList (.string ..) rfl (runs_entry hfits)
        (lists_registry hrest hcount hclose)

theorem listFails_registry {earlier : List Module}
    (hmodules : ∀ module ∈ earlier, Fits (fuel + 4) bodies module)
    (hcount : earlier.length < count) :
    ListFails inBody .braceClose (objectMember (read (fuel + 6)) (fuel + 6)) count
      (.sign .comma :: registrySymbols earlier (frontSymbols module ++ .wrong :: more)) := by
  induction earlier generalizing count with
  | nil =>
      obtain ⟨count, rfl⟩ := Nat.exists_eq_add_one_of_ne_zero (Nat.ne_zero_of_lt hcount)
      exact listFails_item nofun rfl runs_entry_fails
  | cons first rest ih =>
      obtain ⟨count, rfl⟩ := Nat.exists_eq_add_one_of_ne_zero (Nat.ne_zero_of_lt hcount)
      obtain ⟨hfits, hrest⟩ := List.forall_mem_cons.mp hmodules
      exact .cons nofun rfl (runs_entry hfits)
        (ih hrest (Nat.lt_of_succ_lt_succ hcount))

theorem runs_registry_fails {earlier : List Module}
    (hmodules : ∀ module ∈ earlier, Fits (fuel + 4) bodies module)
    (hcount : earlier.length ≤ count) :
    Runs inBody (commaList count .braceClose (objectMember (read (fuel + 6)) (fuel + 6)))
      (registrySymbols earlier (frontSymbols module ++ .wrong :: more)) .fails := by
  cases earlier with
  | nil => exact runs_commaList_of_item (.string ..) rfl runs_entry_fails.stop
  | cons first rest =>
      obtain ⟨hfits, hrest⟩ := List.forall_mem_cons.mp hmodules
      exact runs_commaList_of_item (.string ..) rfl <| (runs_entry hfits).bind fun value _ =>
        listFails_registry hrest hcount [value]

/-! ### The statements of a bundle -/

/-- The registry, with a function for each module. The number is there if a comma stands behind the
last entry. -/
def registryNode (bodies : Module → List Node) (modules : List Module) : Node :=
  .of (.declaration ⟨"var", false⟩) [.of .declarator [.of (.name modulesName) [],
    .of (.object (if modules.isEmpty then none else some 0)) (modules.map (entryNode bodies))]]

theorem runs_registryStatement (hmodules : ∀ module ∈ modules, Fits (fuel + 4) bodies module)
    (hcount : modules.length ≤ fuel + 6) :
    Runs inBody (read (fuel + 9) (.statement false))
      (openingSights.map .token ++ registrySymbols modules
        (closingSights.map .token ++ .token sight :: more))
      (.tree (.token sight :: more) (registryNode bodies modules)) := by
  have hitems : Runs inBody
      (commaList (fuel + 6) .braceClose (objectMember (read (fuel + 6)) (fuel + 6)))
      (registrySymbols modules (closingSights.map .token ++ .token sight :: more))
      (.items (closingSights.map .token ++ .token sight :: more) (modules.map (entryNode bodies))
        !modules.isEmpty) := runs_registry hmodules hcount rfl
  -- the token behind the brace shows only once it is known whether there is a module
  cases modules <;>
    exact runs_var ordinary_inBody (.inl rfl) rfl <| runs_value (.brace _) nofun (.semicolon _) <|
      runs_leftSide (runs_primary_object ordinary_inBody hitems)
        (links_end (.of_stops (.of_closes (.semicolon _))))

theorem runs_returnStatement {id : String} :
    Runs inBody (read (fuel + 8) (.statement false))
      ((returnSights id).map .token ++ .token sight :: more)
      (.tree (.token sight :: more) (.of .return_ [requireNode id])) :=
  runs_return ordinary_inBody rfl (.of_opens (.name ..)) rfl <|
    runs_expression rfl (runs_requireCall ordinary_inBody (.semicolon _))

/-! ### The call of a function -/

/-- A function of some statements that is called at once. -/
def runNode (statements : List Node) : Node :=
  .of .expressionStatement [.of (.call false false) [.of .parenthesized
    [.of (.function { plainShape true with isParenthesized := true })
      [.absent, .absent, .of .parameters [], .absent, .of .functionBody statements]],
    .absent, .list []]]

theorem runs_called {statements : List Node} (hplain : NoDirective statements)
    (hlist : Series inBody (fuel + 2) (fuel + 2) (.token sight :: more)
      (endSights.map .token) statements) :
    Runs Program.atTop (read (fuel + 8) (.statement false))
      (headSights.map .token ++ .token sight :: more)
      (.tree [.token ⟨.endOfText, true⟩] (runNode statements)) := by
  have hbody : Runs Program.atTop (functionBody (read (fuel + 2)) (fuel + 2) false false)
      (.sign .braceOpen :: .token sight :: more) (.tree (endSights.tail.map .token)
        (.of .functionBody statements)) := runs_functionBody hlist hplain
  have hfunction : Runs Program.atTop (read (fuel + 4) (.assignment true))
      (headSights.tail.map .token ++ .token sight :: more)
      (.tree (endSights.tail.map .token) (.of (.function (plainShape true))
        [.absent, .absent, .of .parameters [], .absent, .of .functionBody statements])) :=
    runs_value (.function_ ..) nofun (.paren _) <| runs_leftSide
      (runs_functionExpression Program.ordinary_atTop
        (runs_parameters fun _ _ => runs_commaList_nil rfl) hbody)
      (links_end (.of_stops (.of_closes (.paren _))))
  refine runs_statement <| .here fun _ => .token fun _ _ => runs_expressionStatement <|
    runs_expression rfl <| runs_assignment (.of_opens (.paren _)) runs_guessArrow_function
      (.semicolon _) <| runs_binary (.paren _) (.inl (.of_closes (.semicolon _))) <|
    runs_leftSide (runs_parenthesized_function (.function_ ..) rfl hfunction) <|
    .call Program.ordinary_atTop nofun (runs_commaList_nil rfl) <|
    links_end (.of_stops (.of_closes (.semicolon _)))

/-- The statements of a bundle: the registry, the cache, the function that requires a module, and
the call for the module of the entry. -/
def statements (bodies : Module → List Node) (chunk : Chunk) : List Node :=
  [registryNode bodies chunk.modules, cacheNode,
    functionNode (rawQuote "Cannot find module '") (rawQuote "'"),
    .of .return_ [requireNode chunk.entryModule.id]]

theorem runs_bundle {chunk : Chunk}
    (hmodules : ∀ module ∈ chunk.modules, Fits (fuel + 11) bodies module)
    (hcount : chunk.modules.length ≤ fuel + 13) :
    Runs Program.atTop (read (fuel + 22) (.statement false)) (bundleSymbols chunk)
      (.tree [.token ⟨.endOfText, true⟩] (runNode (statements bodies chunk))) := by
  refine runs_called (.of_kind nofun) ?_
  exact .cons (.name ..) (runs_registryStatement hmodules hcount) <|
    .cons (.name ..) (isStatement_cache (fuel + 11) _ _ rfl) <|
    .cons (.name ..) (isStatement_require _ _ fuel _ _ rfl) <|
    .cons (.name ..) runs_returnStatement series_end

theorem runs_called_fails (hstarts : Starts sight)
    (h : Runs inBody (read (fuel + 2) (.statement false)) (.token sight :: more) .fails) :
    Runs Program.atTop (read (fuel + 8) (.statement false))
      (headSights.map .token ++ .token sight :: more) .fails := by
  have hfunction : Runs Program.atTop (read (fuel + 4) (.assignment true))
      (headSights.tail.map .token ++ .token sight :: more) .fails :=
    runs_value (.function_ ..) nofun trivial <| runs_leftSide_fails <|
      runs_functionExpression_fails Program.ordinary_atTop
        (runs_parameters fun _ _ => runs_commaList_nil rfl) (runs_functionBody_fails hstarts h)
  refine runs_statement <| .here fun _ => .token fun _ _ => .here fun _ => .stop <|
    runs_expression trivial <| runs_assignment (.of_opens (.paren _)) runs_guessArrow_function
      trivial <| runs_binary (.paren _) trivial <| runs_leftSide_fails <|
    runs_parenthesized_fails (.function_ ..) rfl hfunction

/-- A bundle up to a module with what is no token in the place of its code. -/
theorem runs_bundle_fails {earlier : List Module}
    (hmodules : ∀ module ∈ earlier, Fits (fuel + 4) bodies module)
    (hcount : earlier.length ≤ fuel + 6) :
    Runs Program.atTop (read (fuel + 15) (.statement false))
      (headSights.map .token ++ (openingSights.map .token ++
        registrySymbols earlier (frontSymbols module ++ .wrong :: more))) .fails := by
  refine runs_called_fails (.name ..) ?_
  have hitems := @runs_registry_fails fuel (fuel + 6) more module bodies earlier hmodules hcount
  cases earlier <;>
    exact runs_var_fails (.inl rfl) <| runs_value (.brace _) nofun trivial <|
      runs_leftSide_fails <| runs_primary_object_fails ordinary_inBody hitems

/-! ### Reading the text of a bundle -/

theorem length_bodyText_lt_entry (module : Module) :
    (bodyText module).length < (entryText module).length := by
  simp only [entryText, enclosed, List.length_append, List.length_cons]
  omega

theorem length_bodyText_lt {modules : List Module} (h : module ∈ modules) :
    (bodyText module).length < (modules.flatMap entryText).length := by
  obtain ⟨earlier, later, rfl⟩ := List.append_of_mem h
  have := length_bodyText_lt_entry module
  rw [List.flatMap_append, List.flatMap_cons, List.length_append, List.length_append]
  omega

/-- The text of a bundle is longer than its registry. -/
theorem length_registry_lt (chunk : Chunk) :
    (chunk.modules.flatMap entryText).length < (render chunk).toList.length := by
  rw [toList_render]
  simp only [List.length_append, List.length_cons]
  omega

/-- A bundle leaves enough depth for what it consists of. -/
theorem exists_depth_eq (chunk : Chunk) : ∃ fuel, Program.depth (render chunk).toList = fuel + 22 ∧
    (∀ module ∈ chunk.modules, Program.depth (bodyText module) ≤ fuel) ∧
    chunk.modules.length ≤ fuel := by
  have hregistry := length_registry_lt chunk
  have hcount : chunk.modules.length ≤ (chunk.modules.flatMap entryText).length :=
    length_le_flatMap (fun _ => List.cons_ne_nil _ _) _
  refine ⟨Program.depth (render chunk).toList - 22, ?_, fun module hmodule => ?_, ?_⟩
  · unfold Program.depth
    omega
  · have hbody := length_bodyText_lt hmodule
    unfold Program.depth
    omega
  · unfold Program.depth
    omega

theorem splitHashbang_render (chunk : Chunk) :
    Program.splitHashbang (render chunk).toList = (none, ⟨(render chunk).toList, 0⟩) := by
  have hhead : headText = '(' :: 'f' :: headText.drop 2 := by decide
  rw [toList_render, hhead]
  rfl

theorem render_fails {chunk : Chunk}
    (hbodies : ∀ module ∈ chunk.modules,
      HasHashbang module ∨ IsBody (bodyText module) (bodies module))
    (hhashbang : ∃ module ∈ chunk.modules, HasHashbang module) :
    ∃ place, Program.read .plain (render chunk).toList = .error place := by
  obtain ⟨module, hfirst⟩ : ∃ module, chunk.modules.find? (HasHashbang ·) = some module :=
    Option.isSome_iff_exists.mp (List.find?_isSome.mpr (by simpa using hhashbang))
  obtain ⟨hmodule, earlier, later, hmodules, hearlier⟩ := List.find?_eq_some_iff_append.mp hfirst
  simp only [decide_eq_true_eq, Bool.not_eq_true', decide_eq_false_iff_not] at hmodule hearlier
  obtain ⟨fuel, hdepth, hfuel, hcount⟩ := exists_depth_eq chunk
  have hmem {other : Module} (hother : other ∈ earlier) : other ∈ chunk.modules :=
    hmodules ▸ List.mem_append_left _ hother
  have hfits : ∀ other ∈ earlier, Fits (fuel + 7 + 4) bodies other := fun other hother =>
    ⟨(hbodies other (hmem hother)).resolve_left (hearlier other hother),
      (hfuel other (hmem hother)).trans (by omega)⟩
  have hlength : earlier.length ≤ fuel + 7 + 6 := by
    have : earlier.length ≤ chunk.modules.length := by simp [hmodules]
    omega
  exact Program.read_fails (splitHashbang_render chunk) (spans_render_hashbang hmodules hmodule)
    (.paren _) (hdepth ▸ runs_bundle_fails hfits hlength)

theorem render_reads {chunk : Chunk}
    (hbodies : ∀ module ∈ chunk.modules, IsBody (bodyText module) (bodies module)) :
    ∃ program, Program.read .plain (render chunk).toList = .ok program ∧
      program.tree.unplaced = .of (.program none) [runNode (statements bodies chunk)] := by
  obtain ⟨fuel, hdepth, hfuel, hcount⟩ := exists_depth_eq chunk
  have hfits : ∀ module ∈ chunk.modules, Fits (fuel + 11) bodies module := fun module hmodule =>
    ⟨hbodies module hmodule, (hfuel module hmodule).trans (by omega)⟩
  exact Program.read_expression (splitHashbang_render chunk) (spans_render chunk) (.paren _)
    (hdepth ▸ runs_bundle hfits (by omega)) rfl (noDirective_expression nofun)

end Bundle

end Bundler
