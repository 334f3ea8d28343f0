import Bundler.Proofs.Script.Order.Type
import Bundler.Script.Reader.Class

/-! Functions and classes are read in the order of the text. -/

namespace Bundler.Script.Parser

variable {parts : Parts} {place : Nat} {before : List Nat}

/-! ### Marks -/

theorem starts_markDirectives (statements : List Node) :
    (Node.startsAll (markDirectives statements)).Sublist (Node.startsAll statements) := by
  fun_induction markDirectives statements with
  | case1 start stop value _ raw _ _ _ _ children rest ih =>
      simp only [Node.startsAll_cons]
      exact (List.nil_sublist _).append ih
  | case2 => exact .refl _

theorem starts_markFunction (node : Node) : (markFunction node).starts = node.starts := by
  unfold markFunction
  split <;> simp [Node.starts_mk, Node.starts_node, Node.ownPlaces]

theorem starts_markConstant (node : Node) : (markConstant node).starts = node.starts := by
  unfold markConstant
  split <;> simp [Node.starts_mk, Node.starts_node, Node.ownPlaces, starts_markFunction]

theorem starts_markDeclared (node : Node) : (markDeclared node).starts = node.starts := by
  unfold markDeclared
  split <;> simp [Node.starts_mk, Node.starts_node, Node.ownPlaces, starts_markFunction,
    starts_markConstant]

/-! ### Functions -/

theorem reads_statementList (h : parts.Ordered) (fuel : Nat) : Reads (statementList parts fuel) :=
  reads_many (fun _ _ => .step quiet_token fun current => by
    split
    · exact .done (by simp)
    · exact .done (by simp)
    · exact (h _).some.takes) fuel

theorem reads_functionBody (h : parts.Ordered) (fuel : Nat) (isAsync isGenerator : Bool) :
    Reads (functionBody parts fuel isAsync isGenerator) := fun _ before =>
  .step quiet_here fun _ => .step (quiet_expect _) fun _ =>
    .read (reads_statementList h fuel).within fun statements => .step (quiet_expect _) fun _ =>
    .finish rfl ((starts_markDirectives statements).append_left before)

theorem takes_functionRest (h : parts.Ordered) (fuel : Nat) (owner : ParameterOwner)
    (shape : FunctionShape) (start : Nat) (name : Node) :
    Takes place (before ++ name.starts) (functionRest parts fuel owner shape start name)
      fun node => before ++ places node :=
  .read (reads_typeParameters h fuel) fun _ => .read (reads_parameters h fuel owner).within fun _ =>
    .read (reads_ownResult h owner) fun _ => .step (quiet_atSign _) fun _ => .ite
      (.step quiet_context fun _ => .ite
        (.step quiet_here fun _ => .step (quiet_fault _) fun _ =>
          .read (reads_functionBody h fuel _ _) fun _ => .finish rfl (by simp))
        (.read (reads_functionBody h fuel _ _) fun _ => .finish rfl (by simp))) <|
      .step quiet_dialect fun _ => .ite
        (.node before rfl (by simp) fun _ => .step quiet_semicolon fun _ => .done (.refl _))
        (takes_failAt _)

theorem reads_methodFunction (h : parts.Ordered) (fuel : Nat) (owner : ParameterOwner)
    (isAsync isGenerator : Bool) :
    Reads (methodFunction parts fuel owner isAsync isGenerator) := fun _ _ =>
  .step quiet_here fun _ => (takes_functionRest h fuel owner _ _ Node.absent).weaken (by simp)
    fun _ => .refl _

theorem reads_function (h : parts.Ordered) (fuel : Nat) (isExpression needsName isDeclare : Bool)
    (start : Nat) : Reads (function parts fuel isExpression needsName isDeclare start) :=
  fun place before => .step (quiet_eatWord _) fun _ => .step (quiet_expectWord _) fun _ =>
    .step quiet_here fun _ => .step (quiet_eat _) fun _ => .step quiet_context fun _ =>
    .when (quiet_fault _) fun _ => .step quiet_token fun current => by
      extract_lets inside jp stop
      have hjp (name : Node) : Takes place (before ++ places name) (jp name)
          fun node => before ++ places node := takes_functionRest h fuel _ _ _ name
      have hstop (value : Unit) : Takes place before (stop value)
          fun node => before ++ places node := .read reads_absent hjp
      exact .ite (.read reads_identifier.within hjp) <| .ite
        (.ite (.step (quiet_fault _) hstop) (.ite (.step (quiet_failAt _) hstop) (hstop ())))
        (hstop ())

theorem quiet_atAsyncFunction : Quiet atAsyncFunction :=
  .bind (quiet_atWord _) fun _ => .ite (quiet_next _) (.done _)

theorem quiet_guessArrow : Quiet guessArrow := by
  intro state value later hsound hdone
  unfold guessArrow at hdone
  dsimp only at hdone
  split at hdone
  · split at hdone <;> obtain ⟨-, rfl⟩ := Reading.done.inj hdone <;>
      exact ⟨hsound, fun hnone => ⟨hnone, Nat.le_refl _⟩⟩
  · obtain ⟨-, rfl⟩ := Reading.done.inj hdone
    exact ⟨hsound, fun hnone => ⟨hnone, Nat.le_refl _⟩⟩

theorem quiet_atAsyncArrow : Quiet atAsyncArrow :=
  .bind (quiet_atWord _) fun _ => .ite (quiet_foresee _) (.done _)

theorem takes_arrowRest (h : parts.Ordered) (fuel : Nat) (isAsync resultTypes : Bool) (start : Nat)
    (generics inputs result : Node) :
    Takes place (before ++ (generics.starts ++ (inputs.starts ++ result.starts)))
      (arrowRest parts fuel isAsync resultTypes start generics inputs result)
      fun node => before ++ places node :=
  .step quiet_token fun _ => .when (quiet_fault _) fun _ => .step (quiet_expect _) fun _ =>
    .step (quiet_atSign _) fun _ => .ite
      (.read (reads_functionBody h fuel _ _) fun _ => .finish rfl (by simp))
      (.read (h _).within fun _ => .finish rfl (by simp))

theorem reads_arrowFunction (h : parts.Ordered) (fuel : Nat) (resultTypes : Bool) :
    Reads (arrowFunction parts fuel resultTypes) := fun _ before =>
  .step quiet_here fun _ => .step (quiet_eatWord _) fun _ =>
    .read (reads_typeParameters h fuel).within fun generics =>
    .read (reads_parameters h fuel _).within fun inputs => .step quiet_dialect fun _ =>
    .step (quiet_atSign _) fun _ => .read (reads_resultMark h) fun result =>
    .bind ((takes_arrowRest h fuel _ resultTypes _ generics inputs result).weaken (by simp)
      fun _ => .refl _) fun _ =>
    .step (quiet_atSign _) fun _ => .ite takes_unexpected (.done (.refl _))

theorem takes_arrowOfName (h : parts.Ordered) (fuel : Nat) (isAsync resultTypes : Bool)
    (start : Nat) (name : Node) :
    Takes place (before ++ name.starts) (arrowOfName parts fuel isAsync resultTypes start name)
      fun node => before ++ places node :=
  (takes_arrowRest h fuel _ _ _ _ _ _).weaken (by simp [Node.starts_mk, Node.ownPlaces])
    fun _ => .refl _

theorem reads_possibleArrow (h : parts.Ordered) (fuel : Nat) (resultTypes : Bool) :
    Reads (possibleArrow parts fuel resultTypes) := fun _ _ =>
  .step quiet_here fun _ => .step quiet_get fun _ => .ite (.done (by simp)) <|
    .read (reads_arrowFunction h fuel resultTypes).attempt fun found => by
      split
      · exact .done (.refl _)
      · exact .step (quiet_modify (fun _ => rfl) (fun _ => rfl) fun _ => id) fun _ =>
          .done (by simp)

theorem reads_arrowFunction? (h : parts.Ordered) (fuel : Nat) (resultTypes : Bool) :
    Reads (arrowFunction? parts fuel resultTypes) := fun _ _ =>
  .step quiet_guessArrow fun guess => by
    split
    · exact .done (by simp)
    · exact (reads_arrowFunction h fuel resultTypes).some.takes
    · exact (reads_possibleArrow h fuel resultTypes).takes

theorem reads_asyncArrow (h : parts.Ordered) (fuel : Nat) (resultTypes : Bool) :
    Reads (asyncArrow parts fuel resultTypes) := fun _ _ =>
  .step quiet_here fun _ => .step quiet_advance fun _ => .read reads_identifier.within fun name =>
    takes_arrowOfName h fuel _ _ _ name

/-! ### Members of classes -/

theorem quiet_checkDefault (role : MethodRole) (inputs : Node) :
    Quiet (checkDefault role inputs) := by
  unfold checkDefault
  split
  · exact .bind quiet_dialect fun _ => .ite (quiet_fault _) (.done _)
  · exact .done _

theorem quiet_checkAccessor (role : MethodRole) (method : Node) :
    Quiet (checkAccessor role method) := by
  unfold checkAccessor
  split
  · exact .bind (quiet_checkAccess _ _) fun _ => quiet_checkDefault _ _
  · exact .done _

theorem quiet_checkMember (found : List Qualifier) (isMethod isGenerator : Bool)
    (role : MethodRole) (computed : Bool) (key : Node) :
    Quiet (checkMember found isMethod isGenerator role computed key) := by
  unfold checkMember
  extract_lets name isStatic jp prototype
  have hjp (value : Unit) : Quiet (jp value) := by
    unfold jp
    split
    · exact quiet_fault _
    · exact .done _
  have hprototype (value : Unit) : Quiet (prototype value) := .when (quiet_fault _) hjp
  exact .ite (.when (quiet_fault _) hprototype) (hprototype ())

theorem quiet_fieldEnd : Quiet fieldEnd :=
  .bind quiet_token fun _ => .ite (.bind (quiet_eat _) fun _ => .done _) quiet_unexpected

theorem reads_memberKey (h : parts.Ordered) (found : List Qualifier) :
    Reads (memberKey parts found) := fun _ _ =>
  .step quiet_token fun current => by
    split
    · exact .step (quiet_forM fun _ => .ite (quiet_fault _) (.done _)) fun _ =>
        (reads_propertyKey h _).takes
    · exact (reads_propertyKey h _).takes

theorem takes_constructorRest (h : parts.Ordered) (fuel : Nat) (start : Nat) (marks : Node)
    (found : List Qualifier) :
    Takes place (before ++ marks.starts) (constructorRest parts fuel start marks found)
      fun node => before ++ places node :=
  .both (reads_propertyKey h _) fun key _ =>
  .read (reads_methodFunction h fuel _ _ _) fun method => by
    have hrest : Takes place
        (before ++ marks.starts ++ (key.starts ++ places false) ++ places method)
        (checkMember found true false .constructor false key >>= fun _ =>
          checkQualifiers [.public_, .private_, .protected_] found >>= fun _ =>
            finish (.method .constructor false (modifiersOf found false)) start
              [marks, key, method]) fun node => before ++ places node :=
      .step (quiet_checkMember _ _ _ _ _ _) fun _ => .step (quiet_checkQualifiers _ _) fun _ =>
        .finish rfl (by simp)
    split
    · exact .when (quiet_fault _) fun _ => .when (quiet_fault _) fun _ => hrest
    · exact hrest

theorem takes_methodRest (h : parts.Ordered) (fuel : Nat) (start : Nat) (marks : Node)
    (found : List Qualifier) (role : MethodRole) (isGenerator computed isOptional : Bool)
    (key : Node) :
    Takes place (before ++ (marks.starts ++ key.starts))
      (methodRest parts fuel start marks found role isGenerator computed isOptional key)
      fun node => before ++ places node :=
  .step (quiet_checkMember _ _ _ _ _ _) fun _ => .read (reads_methodFunction h fuel _ _ _) fun _ =>
    .step (quiet_checkAccessor _ _) fun _ => .when (quiet_fault _) fun _ =>
    .step (quiet_checkQualifiers _ _) fun _ => .finish rfl (by simp)

theorem takes_fieldRest (h : parts.Ordered) (start : Nat) (marks : Node) (found : List Qualifier)
    (computed isOptional : Bool) (key : Node) :
    Takes place (before ++ (marks.starts ++ key.starts))
      (fieldRest parts start marks found computed isOptional key)
      fun node => before ++ places node :=
  .step (quiet_checkMember _ _ _ _ _ _) fun _ => .read (reads_typeMark h) fun _ =>
    .read (reads_initializer h).within fun _ => .node before rfl (by simp) fun _ =>
    .step quiet_fieldEnd fun _ => .when (quiet_fault _) fun _ =>
    .step (quiet_checkQualifiers _ _) fun _ => .done (.refl _)

theorem takes_propertyRest (h : parts.Ordered) (fuel : Nat) (start : Nat) (marks : Node)
    (found : List Qualifier) :
    Takes place (before ++ marks.starts) (propertyRest parts fuel start marks found)
      fun node => before ++ places node :=
  .step (quiet_eat _) fun _ => .both (reads_memberKey h found) fun key _ =>
    .step quiet_here fun _ => .step (quiet_eat _) fun _ => .step (quiet_atSign _) fun _ =>
    .step (quiet_atSign _) fun _ => .ite
      ((takes_methodRest h fuel _ marks _ _ _ _ _ key).weaken (by simp) fun _ => .refl _) <|
      .step quiet_token fun _ => .pick (.done _) (quiet_eat _) fun _ =>
        .when (quiet_fault _) fun _ =>
        (takes_fieldRest h _ marks _ _ _ key).weaken (by simp) fun _ => .refl _

theorem quiet_accessRole : Quiet accessRole :=
  .bind quiet_token fun _ => .ite (.bind (quiet_next _) fun _ => .done _) (.done _)

theorem quiet_atConstructor : Quiet atConstructor :=
  .bind quiet_token fun current => by
    split
    · exact .done _
    · exact quiet_next _
    · exact .done _

theorem takes_staticBlock (h : parts.Ordered) (fuel : Nat) (start : Nat) (marks : Node)
    (found : List Qualifier) :
    Takes place (before ++ marks.starts) (staticBlock parts fuel start marks found)
      fun node => before ++ places node :=
  .step (quiet_forM fun _ => quiet_fault _) fun _ => .step (quiet_checkQualifiers _ _) fun _ =>
    .step quiet_advance fun _ => .step (quiet_expect _) fun _ =>
    .read (reads_statementList h fuel).within fun _ => .step (quiet_expect _) fun _ =>
    .finish rfl (by simp)

theorem reads_member (h : parts.Ordered) (fuel : Nat) : Reads (member parts fuel) := fun _ _ =>
  .step (quiet_eat _) fun _ => .ite (.done (by simp)) <|
    .step quiet_here fun _ => .read (reads_decorators h fuel) fun marks =>
    .step (quiet_qualifiers _ _ _ _) fun found => .step (quiet_next _) fun _ =>
    .step (quiet_atWord _) fun _ => .ite (takes_staticBlock h fuel _ marks found) <|
    .step quiet_accessRole fun role => by
      split
      · refine .step quiet_atConstructor fun _ =>
          .ite (takes_constructorRest h fuel _ marks found) ?_
        exact .step quiet_dialect fun _ => .step quiet_atIndexSignature fun _ => .ite
          (.read (reads_indexSignature h fuel _ _) fun _ => .step quiet_fieldEnd fun _ =>
            .step (quiet_checkQualifiers _ _) fun _ => .done (by simp))
          (takes_propertyRest h fuel _ marks found)
      · exact .step quiet_advance fun _ => .both (reads_memberKey h found) fun key _ =>
          (takes_methodRest h fuel _ marks _ _ _ _ _ key).weaken (by simp) fun _ => .refl _

/-! ### Classes -/

theorem reads_classBody (h : parts.Ordered) (fuel : Nat) : Reads (classBody parts fuel) :=
  fun _ before => .step quiet_here fun _ => .step (quiet_expect _) fun _ =>
    .read (reads_many (fun _ _ => .step (quiet_atSign _) fun _ =>
      .ite (.done (by simp)) (reads_member h fuel).some.takes) fuel) fun _ =>
    .step (quiet_expect _) fun _ =>
    .finish rfl ((Node.startsAll_sublist List.filter_sublist).append_left before)

theorem reads_baseWithArguments (h : parts.Ordered) (fuel : Nat) :
    Reads (baseWithArguments parts fuel) := fun _ _ =>
  .read (h _) fun base => by
    split
    · exact .done (by simp [Node.starts_node])
    · exact .step quiet_dialect fun _ => .step (quiet_atSign _) fun _ => .ite
        (.read (reads_typeArguments h fuel) fun _ => .done (by simp))
        (.done (by simp))

theorem reads_classBase (h : parts.Ordered) (fuel : Nat) : Reads (classBase parts fuel) :=
  fun _ _ => .step quiet_advance fun _ => .read (reads_baseWithArguments h fuel) fun _ =>
    .step (quiet_many (.bind (quiet_eat _) fun _ => .ite
      (.bind quiet_here fun _ => .bind (reads_baseWithArguments h fuel).quiet fun _ =>
        .bind (quiet_fault _) fun _ => .done _) (.done _)) fuel) fun _ => .done (.refl _)

theorem reads_classInterfaces (h : parts.Ordered) (fuel : Nat) :
    Reads (classInterfaces parts fuel) := fun _ _ =>
  .step quiet_advance fun _ => .read (reads_typeReference h fuel) fun _ =>
    .read (reads_many (fun _ _ => .step (quiet_eat _) fun _ =>
      .ite (reads_typeReference h fuel).some.takes (.done (by simp))) fuel) fun _ =>
    .done (by simp)

instance : Placed Heritage := ⟨fun found => places found.base ++ places found.interfaces⟩

theorem places_heritage (found : Heritage) :
    places found = places found.base ++ places found.interfaces := rfl

theorem quiet_heritage (h : parts.Ordered) (fuel count : Nat) (found : Heritage) :
    Quiet (heritage parts fuel count found) := by
  induction count generalizing found with
  | zero => exact .done _
  | succ count ih =>
      exact .bind quiet_token fun _ => .ite
        (.when (quiet_fault _) fun _ => .bind (reads_classBase h fuel).quiet fun _ => ih _) <| .ite
        (.when (quiet_fault _) fun _ => .bind (reads_classInterfaces h fuel).quiet fun _ => ih _)
        (.done _)

/-- A base comes before all interfaces, and there is one base. -/
theorem takes_heritage (h : parts.Ordered) (fuel count : Nat) (found : Heritage) :
    Takes place (before ++ places found) (heritage parts fuel count found)
      fun after => before ++ places after := by
  induction count generalizing found with
  | zero => exact .done (.refl _)
  | succ count ih =>
      refine .step quiet_token fun current => .ite ?_ (.ite ?_ (.done (.refl _)))
      · extract_lets jp
        have hquiet (value : Unit) : Quiet (jp value) :=
          .bind (reads_classBase h fuel).quiet fun base => quiet_heritage h fuel count _
        split
        · exact .spoil _ hquiet
        · next hnone =>
          obtain ⟨hbase, hinterfaces⟩ : found.base = none ∧ found.interfaces = none := by
            simpa using hnone
          exact .read (reads_classBase h fuel) fun base =>
            (ih { found with base := some base }).weaken
              (by simp [places_heritage, hbase, hinterfaces]) fun _ => .refl _
      · exact .when (quiet_fault _) fun _ => .read (reads_classInterfaces h fuel) fun more =>
          (ih { found with interfaces := some (found.interfaces.getD [] ++ more) }).weaken
            (by cases hinterfaces : found.interfaces <;> simp [places_heritage, hinterfaces])
            fun _ => .refl _

theorem reads_heritage (h : parts.Ordered) (fuel count : Nat) :
    Reads (heritage parts fuel count ⟨none, none⟩) := fun _ _ =>
  (takes_heritage h fuel count ⟨none, none⟩).weaken (by simp [places_heritage]) fun _ => .refl _

theorem takes_classFrom (h : parts.Ordered) (fuel : Nat) (shape : ClassShape) (start : Nat)
    (marks : Node) :
    Takes place (before ++ marks.starts) (classFrom parts fuel shape start marks)
      fun node => before ++ places node :=
  .step (quiet_expectWord _) fun _ => .step quiet_token fun _ =>
    .either reads_bindingName reads_absent fun _ => .read (reads_typeParameters h fuel) fun _ =>
    .read (reads_heritage h fuel fuel) fun found => by
      obtain ⟨_ | ⟨base, arguments⟩, interfaces⟩ := found <;>
        exact .read (reads_classBody h fuel).within fun _ =>
          .finish rfl (by cases interfaces <;> simp [places_heritage])

end Bundler.Script.Parser
