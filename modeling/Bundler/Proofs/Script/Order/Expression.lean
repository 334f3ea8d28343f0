import Bundler.Proofs.Script.Order.Literal
import Bundler.Proofs.Script.Order.Markup
import Bundler.Script.Reader.Expression

/-! Expressions are read in the order of the text. A call begins where what it calls begins, so
that the place of a call of a name is known once its first sign was read. -/

namespace Bundler.Script

/-! ### Places of calls -/

/-- The places in something that is called where it begins. -/
def Node.calledPlaces (start : Nat) (callee : Node) : List Nat :=
  ownPlaces (.call false false) start [callee] ++ callee.starts

namespace Node

variable {start stop : Nat} {callee generics : Node}

theorem ownPlaces_call (optional isEffectFree : Bool) (more : List Node) :
    ownPlaces (.call optional isEffectFree) start (callee :: more) =
      ownPlaces (.call false false) start [callee] := by
  obtain ⟨kind, _, _, _, _⟩ := callee
  cases kind <;> rfl

theorem ownPlaces_instantiation (more : List Node) :
    ownPlaces .instantiation start (callee :: more) =
      ownPlaces (.call false false) start [callee] := by
  obtain ⟨kind, _, _, _, _⟩ := callee
  cases kind <;> rfl

/-- Behind a sign that comes after a callee there is room for the place of its call. -/
theorem ascends_calledPlaces (h : Ascends start callee.starts stop) :
    Ascends start (calledPlaces start callee) (stop + 1) := by
  obtain ⟨kind, place, _, _, children⟩ := callee
  cases kind with
  | name text =>
      cases children with
      | nil => exact ⟨Nat.le_refl _, Nat.succ_le_succ h⟩
      | cons child rest =>
          have hle : place + 1 ≤ place := h.2.1
          omega
  | _ => exact h.extend (Nat.le_succ stop)

/-- A callee that has type arguments has the place of its call already. -/
theorem ascends_of_instantiation {place stop' : Nat} {value : Unit}
    (h : Ascends start (starts (.node .instantiation place stop' value [callee, generics])) stop) :
    Ascends start (calledPlaces start callee ++ generics.starts) (stop + 1) := by
  rw [starts_node, ownPlaces_instantiation] at h
  obtain ⟨kind, _, _, _, _⟩ := callee
  refine Ascends.extend ?_ (Nat.le_succ stop)
  cases kind with
  | name text => exact Ascends.restart (by simpa [ownPlaces] using h)
  | _ => simpa [calledPlaces, ownPlaces] using h

end Node

namespace Parser

variable {parts : Parts} {place start : Nat} {before : List Nat}

theorem starts_markCall (node : Node) : (markCall node).starts = node.starts := by
  fun_induction markCall node with
  | case1 optional _ start stop _ children =>
      rw [Node.starts_mk, Node.starts_node]
      cases children with
      | nil => rfl
      | cons callee rest => rw [Node.ownPlaces_call, ← Node.ownPlaces_call optional]
  | _ => simp_all [Node.starts_mk, Node.starts_node, Node.ownPlaces]

/-! ### Calls and accesses -/

theorem takes_callArguments (h : parts.Ordered) (fuel : Nat) {more : List Nat}
    (hopen : Takes place before (expect .parenOpen) fun _ => more) :
    Takes place before (callArguments parts fuel) fun node => more ++ places node :=
  .step quiet_here fun _ => hopen.bind fun _ => .both (reads_commaList (fun _ _ =>
      .step (quiet_atSign _) fun _ => .ite (reads_spread h).takes (h _).takes) _ _).within
    fun _ _ => .step (quiet_expect _) fun _ => .finish rfl (by simp)

theorem reads_callArguments (h : parts.Ordered) (fuel : Nat) : Reads (callArguments parts fuel) :=
  fun _ _ => takes_callArguments h fuel (quiet_expect _).takes

theorem takes_call (h : parts.Ordered) (fuel : Nat) {optional : Bool} {callee generics : Node}
    (hopen : Takes start before (expect .parenOpen) fun _ =>
      Node.calledPlaces start callee ++ generics.starts) :
    Takes start before (do
        let items ← callArguments parts fuel
        finish (.call optional false) start [callee, generics, items]) places :=
  (takes_callArguments h fuel hopen).bind fun _ => takes_finish [] (by
    simp [Node.calledPlaces, Node.ownPlaces_call])

theorem takes_callOf (h : parts.Ordered) (fuel : Nat) (callee : Node) :
    Takes start callee.starts (callOf parts fuel start false callee Node.absent) places := by
  unfold callOf
  split
  · exact takes_call h fuel (takes_expect fun _ => Node.ascends_of_instantiation)
  · exact takes_call h fuel (takes_expect fun _ hcallee => by
      simpa using Node.ascends_calledPlaces hcallee)

theorem takes_optionalCall (h : parts.Ordered) (fuel : Nat) {callee generics : Node}
    (hopen : Takes start before (expect .parenOpen) fun _ =>
      Node.calledPlaces start callee ++ generics.starts) :
    Takes start before (callOf parts fuel start true callee generics) places := by
  unfold callOf
  split
  · next hfalse => cases hfalse
  · exact takes_call h fuel hopen

theorem takes_taggedTemplate (h : parts.Ordered) (fuel : Nat) (start : Nat) (chained : Bool)
    (tag : Node) : Takes place tag.starts (taggedTemplate parts fuel start chained tag) places := by
  unfold taggedTemplate
  extract_lets jp
  have hjp (value : Unit) : Takes place tag.starts (jp value) places :=
    .read (reads_templateLiteral h fuel true) fun template => by
      split
      · exact .whole rfl (by simp [Node.starts_node])
      · exact .whole rfl (by simp)
  exact .ite (.step quiet_here fun _ => .step (quiet_fault _) hjp) (hjp ())

theorem quiet_checkAccessed (object : Node) : Quiet (checkAccessed object) := by
  unfold checkAccessed
  split
  · exact quiet_fault _
  · exact .done _

theorem reads_memberName : Reads memberName := fun _ _ =>
  .step quiet_token fun current => by
    split
    · exact (reads_leaf _).takes
    · exact reads_anyName.takes

theorem reads_elementKey (h : parts.Ordered) : Reads (elementKey parts) := fun _ _ =>
  .step quiet_advance fun _ => .read (h _).within fun _ => .step (quiet_expect _) fun _ =>
    .done (.refl _)

theorem takes_optionalLink (h : parts.Ordered) (fuel : Nat) (object : Node) :
    Takes start object.starts (optionalLink parts fuel start object) places :=
  .step quiet_advance fun _ => .step quiet_token fun current => by
    split
    · exact .read (reads_elementKey h) fun _ => .whole rfl (by simp)
    · exact takes_optionalCall h fuel (takes_expect fun _ hobject => by
        simpa using Node.ascends_calledPlaces hobject)
    · exact takes_taggedTemplate h fuel start true object
    · exact .step (quiet_checkAccessed _) fun _ => .read reads_memberName fun _ =>
        .whole rfl (by simp)
    · exact .step (quiet_checkAccessed _) fun _ => .read reads_memberName fun _ =>
        .whole rfl (by simp)
    · refine .bind (takes_expressionTypeArguments h fuel
        (takes_expect fun _ => Node.ascends_calledPlaces)) fun found => ?_
      cases found with
      | none => exact takes_unexpected
      | some generics => exact takes_optionalCall h fuel (quiet_expect _).takes

theorem takes_nextLink (h : parts.Ordered) (fuel : Nat) (calls : Bool) (left : Node)
    (chained : Bool) :
    Takes start left.starts (nextLink parts fuel calls start left chained)
      fun found => (found.map fun link => places link.1).getD left.starts :=
  .step quiet_token fun current => .step quiet_dialect fun _ => by
    split
    · exact .step (quiet_checkAccessed _) fun _ => .step quiet_advance fun _ =>
        .read reads_memberName fun _ => .bind (.whole rfl (by simp)) fun _ => .done (.refl _)
    · exact .ite (.bind (takes_optionalLink h fuel left) fun _ => .done (.refl _)) (takes_failAt _)
    · exact .step quiet_context fun _ => .ite (.done (.refl _)) <|
        .read (reads_elementKey h) fun _ => .bind (.whole rfl (by simp)) fun _ => .done (.refl _)
    · exact .ite (.step quiet_advance fun _ => .bind (.whole rfl (by simp)) fun _ =>
        .done (.refl _)) (.done (.refl _))
    · exact .bind (takes_taggedTemplate h fuel start chained left) fun _ => .done (.refl _)
    · exact .ite (.bind (takes_callOf h fuel left) fun _ => .done (.refl _)) (.done (.refl _))
    · refine .bind (takes_expressionTypeArguments h fuel
        (takes_expect fun _ => Node.ascends_calledPlaces)) fun found => ?_
      cases found with
      | none => exact .done (.refl _)
      | some generics =>
          exact .bind (takes_finish [] (by
            simp [Node.calledPlaces, Node.ownPlaces_instantiation])) fun _ => .done (.refl _)
    · exact .done (.refl _)

theorem takes_links (h : parts.Ordered) (fuel : Nat) (calls : Bool) (count : Nat) (left : Node)
    (chained : Bool) :
    Takes start left.starts (links parts fuel calls start count left chained)
      fun link => places link.1 := by
  induction count generalizing left chained with
  | zero => exact .done (.refl _)
  | succ count ih =>
      refine .bind (takes_nextLink h fuel calls left chained) fun found => ?_
      cases found with
      | none => exact .done (.refl _)
      | some link => exact ih link.1 link.2

/-! ### Expressions without operators -/

/-- An import keeps the first two of the values in its parentheses. -/
theorem startsAll_firstTwo (items : List Node) :
    (Node.startsAll [items.head?.getD Node.absent, (items.drop 1).head?.getD Node.absent]).Sublist
      (Node.startsAll items) := by
  rcases items with _ | ⟨source, _ | ⟨options, rest⟩⟩ <;> simp

theorem reads_importExpression (h : parts.Ordered) (fuel : Nat) :
    Reads (importExpression parts fuel) := fun place before =>
  .step quiet_here fun start => .step quiet_advance fun _ => .step (quiet_eat _) fun _ => by
    extract_lets jp
    have hjp (phase : Option String) : Takes place before (jp phase)
        fun node => before ++ places node := by
      refine .ite ?_ (.when quiet_advance fun _ => .step (quiet_expect _) fun _ => ?_)
      · exact .step quiet_advance fun _ =>
          .step (quiet_modify (fun _ => rfl) (fun _ => rfl) fun _ => id) fun _ =>
          .finish rfl (by simp)
      · exact .both (reads_commaList (h _) _ _).within fun items _ =>
          .step (quiet_expect _) fun _ => .ite (.fail _) <| .when (quiet_fault _) fun _ =>
          .finish rfl (by simpa using startsAll_firstTwo items)
    refine .ite (.step quiet_token fun current => ?_) (.step (.done _) hjp)
    split
    · exact .step (.done _) hjp
    · exact .step (.done _) hjp
    · exact .step (.done _) hjp
    · exact .step quiet_unexpected hjp

theorem reads_primary_succ (h : parts.Ordered) {fuel depth : Nat}
    (hconstruction : Reads (construction parts fuel depth)) :
    Reads (primary parts fuel (depth + 1)) := by
  intro place before
  refine .step quiet_token fun current => ?_
  split
  · exact (reads_leaf _).takes
  · exact (reads_leaf _).takes
  · exact (reads_leaf _).takes
  · exact (reads_templateLiteral h fuel false).takes
  · exact (reads_parenthesized h fuel).takes
  · exact (reads_arrayLiteral h fuel).takes
  · exact (reads_objectLiteral h fuel).takes
  · exact reads_regexLiteral.takes
  · exact reads_regexLiteral.takes
  · exact .step quiet_dialect fun _ => .ite (h _).takes takes_unexpected
  · exact .read (reads_decorators h fuel) fun marks => takes_classFrom h fuel _ _ marks
  · exact .step quiet_advance fun _ => .finish rfl (by simp)
  · exact .step quiet_advance fun _ => .finish rfl (by simp)
  · exact .step quiet_advance fun _ => .finish rfl (by simp)
  · exact .step quiet_advance fun _ => .finish rfl (by simp)
  · refine .step quiet_advance fun _ => .step quiet_token fun following => ?_
    have hsuper : Takes place before (finish .super current.start [])
        fun node => before ++ places node := .finish rfl (by simp)
    split
    · exact hsuper
    · exact hsuper
    · exact hsuper
    · exact .step (quiet_fault _) fun _ => hsuper
  · exact (reads_function h fuel _ _ _ _).takes
  · exact .step quiet_atAsyncFunction fun _ => .ite (reads_function h fuel _ _ _ _).takes
      reads_identifier.takes
  · exact (takes_classFrom h fuel _ _ (Node.list [])).weaken (by simp) fun _ => .refl _
  · exact (reads_importExpression h fuel).takes
  · exact hconstruction.takes
  · exact reads_identifier.takes

theorem reads_construction_succ (h : parts.Ordered) {fuel depth : Nat}
    (hprimary : Reads (primary parts fuel depth)) :
    Reads (construction parts fuel (depth + 1)) := by
  intro place before
  refine .step quiet_here fun start => .step quiet_advance fun _ =>
    .step (quiet_eat _) fun _ => .ite ?_ ?_
  · exact .step (quiet_eatWord _) fun _ => .ite (.finish rfl (by simp)) (takes_failAt _)
  · refine .from_here fun first => .read hprimary fun base =>
      .bind (takes_links h fuel false fuel base false) fun link =>
      .step (quiet_atSign _) fun _ => ?_
    have hnoItems : Reads (pure (Node.list []) : Parser Node) := fun _ _ => .done (by simp)
    refine .either (reads_callArguments h fuel) hnoItems fun items => ?_
    beta_reduce
    extract_lets jp
    have hjp (value : Unit) :
        Takes first (places link.1 ++ places items) (jp value) places := by
      unfold jp
      split
      · next heq => exact .whole rfl (by simp [heq, Node.starts_node])
      · exact .whole rfl (by simp)
    split
    · exact .step (quiet_fault _) hjp
    · exact hjp ()

theorem reads_primary_construction (h : parts.Ordered) (fuel depth : Nat) :
    Reads (primary parts fuel depth) ∧ Reads (construction parts fuel depth) := by
  induction depth with
  | zero => exact ⟨reads_unexpected, reads_unexpected⟩
  | succ depth ih => exact ⟨reads_primary_succ h ih.2, reads_construction_succ h ih.1⟩

theorem reads_leftSide (h : parts.Ordered) (fuel : Nat) : Reads (leftSide parts fuel) :=
  fun _ _ => .from_here fun start => .read (reads_primary_construction h fuel fuel).1 fun base =>
    .bind (takes_links h fuel true fuel base false) fun _ => .ite (.whole rfl (by simp))
      (.done (.refl _))

/-! ### Operators -/

theorem quiet_nameOrLiteralFollows : Quiet nameOrLiteralFollows := quiet_next _

theorem quiet_atAwait : Quiet atAwait :=
  .bind (quiet_atWord _) fun _ => .ite
    (.bind quiet_context fun _ => .ite (.done _) quiet_nameOrLiteralFollows) (.done _)

theorem reads_awaiting (h : parts.Ordered) : Reads (awaiting parts) := fun _ _ =>
  .step quiet_here fun _ => .step quiet_context fun _ => .step quiet_dialect fun _ =>
    .when (quiet_fault _) fun _ => .step quiet_advance fun _ => .read (h _).within fun _ =>
    .finish rfl (by simp)

theorem reads_counted (h : parts.Ordered) (fuel : Nat) : Reads (counted parts fuel) :=
  fun _ _ => .step quiet_here fun _ => .step quiet_token fun current => by
    split
    · exact .step quiet_advance fun _ => .read (h _) fun inner =>
        .bind (narrows_placeTarget inner).takes fun _ => .finish rfl (by simp)
    · refine .read (reads_leftSide h fuel) fun operand => .step quiet_token fun following => ?_
      split
      · exact .ite (.done (.refl _)) <| .bind (narrows_placeTarget operand).takes fun _ =>
          .step quiet_advance fun _ => .finish rfl (by simp)
      · exact .done (.refl _)

theorem reads_unary (h : parts.Ordered) (fuel : Nat) : Reads (unary parts fuel) := fun _ _ =>
  .step quiet_here fun _ => .step quiet_token fun current => by
    split
    · exact .step quiet_advance fun _ => .step quiet_token fun _ => .read (h _) fun inner =>
        .finish rfl (by split <;> simp [starts_markCall])
    · refine .step quiet_atAwait fun _ => .ite (reads_awaiting h).takes ?_
      exact .step quiet_dialect fun _ => .ite
        (.when (quiet_fault _) fun _ => .step quiet_advance fun _ => .read (h _) fun _ =>
          .step (quiet_expect _) fun _ => .read (h _) fun _ => .finish rfl (by simp))
        (reads_counted h fuel).takes

theorem quiet_joinGreater : Quiet joinGreater := by
  intro state value later hsound hdone
  obtain ⟨seen, same, hget, hrest⟩ := bind_eq_done.mp hdone
  obtain ⟨rfl, rfl⟩ := Reading.done.inj hget
  dsimp only at hrest
  split at hrest
  · next hsign =>
    have hlt := hsound.lt _ (isSign_iff.mp hsign)
    obtain ⟨hlater, hstart, hfaults⟩ := sound_retoken
      (Nat.le_trans hsound.le (Nat.le_add_right _ _))
      (fun _ _ => Nat.lt_of_lt_of_le hlt (Nat.le_add_right _ _)) hrest
    exact ⟨hlater, fun hnone => ⟨hfaults.symm.trans hnone, Nat.le_of_eq hstart.symm⟩⟩
  · exact Quiet.done () hsound hrest

theorem quiet_checkMixture (op : BinaryOp) (start : Nat) (left right : Node) :
    Quiet (checkMixture op start left right) := by
  unfold checkMixture
  extract_lets mixes jp
  have hjp (value : Unit) : Quiet (jp value) := by
    refine .ite ?_ (.done _)
    split
    · exact quiet_fault _
    · exact quiet_fault _
    · exact quiet_fault _
    · exact .done _
  exact .when (quiet_fault _) hjp

theorem takes_operations (h : parts.Ordered) (fuel : Nat) (above : Precedence) (start count : Nat)
    (left : Node) : Takes place (before ++ left.starts)
      (operations parts fuel above start count left) fun node => before ++ places node := by
  induction count generalizing left with
  | zero => exact .done (.refl _)
  | succ count ih =>
      refine .step quiet_joinGreater fun _ => .step quiet_token fun current => .ite ?_ ?_
      · exact .step quiet_advance fun _ => .read (h _) fun _ => .step quiet_dialect fun _ =>
          .when (quiet_fault _) fun _ =>
          .node before (by split <;> rfl) (by simp) fun node => ih node
      · split
        · exact .done (.refl _)
        · exact .step quiet_context fun _ => .ite (.done (.refl _)) <|
            .step quiet_advance fun _ => .read (h _) fun _ =>
            .step (quiet_checkMixture _ _ _ _) fun _ =>
            .node before rfl (by simp) fun node => ih node

theorem reads_binary (h : parts.Ordered) (fuel : Nat) (above : Precedence) :
    Reads (binary parts fuel above) := fun _ before =>
  .step quiet_here fun _ => .step quiet_token fun current => .step quiet_context fun outer => by
    split
    · exact .read reads_privateName fun _ => .step (quiet_expectWord _) fun _ =>
        .read (h _) fun _ => .when (quiet_failAt _) fun _ => .node before rfl (by simp) fun node =>
        takes_operations h fuel above _ fuel node
    · exact .read (reads_unary h fuel) fun first =>
        (takes_operations h fuel above _ fuel _).weaken (by split <;> simp [starts_markCall])
          fun _ => .refl _

/-! ### Assignments -/

theorem quiet_atYield : Quiet atYield :=
  .bind (quiet_atWord _) fun _ => .ite
    (.bind quiet_context fun _ => .ite (.done _) quiet_nameOrLiteralFollows) (.done _)

theorem reads_yielding (h : parts.Ordered) : Reads (yielding parts) := fun _ _ =>
  .step quiet_here fun _ => .step quiet_advance fun _ => .step quiet_context fun _ =>
    .when (quiet_fault _) fun _ => .step quiet_token fun _ => .ite (.finish rfl (by simp)) <|
    .step (quiet_eat _) fun _ => .step quiet_token fun _ => .ite
      (.read (h _) fun _ => .finish rfl (by simp)) (.finish rfl (by simp))

theorem takes_assignmentRest (h : parts.Ordered) (fuel : Nat) (resultTypes : Bool) (start : Nat)
    (left : Node) : Takes place (before ++ left.starts)
      (assignmentRest parts fuel resultTypes start left) fun node => before ++ places node :=
  .step quiet_token fun current => by
    split
    · exact takes_arrowOfName h fuel false resultTypes start left
    · split
      · next op _ =>
        refine .ite (.bind (narrows_target left).takes fun _ => ?_)
          (.bind (narrows_placeTarget left).takes fun _ => ?_) <;>
        exact .step quiet_advance fun _ => .read (h _) fun _ => .finish rfl (by simp)
      · exact .ite
          (.step quiet_advance fun _ => .read (h _).within fun _ => .step (quiet_expect _) fun _ =>
            .read (h _) fun _ => .finish rfl (by simp))
          (.done (.refl _))

theorem reads_assignment (h : parts.Ordered) (fuel : Nat) (resultTypes : Bool) :
    Reads (assignment parts fuel resultTypes) := fun place before =>
  .step quiet_here fun start => .step quiet_token fun opening => by
    extract_lets mark
    have hmark (node : Node) : (mark node).starts = node.starts := by
      unfold mark
      split
      · exact starts_markFunction node
      · rfl
    refine .step quiet_atYield fun _ => .ite (reads_yielding h).takes <|
      .read (reads_arrowFunction? h fuel resultTypes) fun found => ?_
    split
    · exact .done (by simp [hmark])
    · refine .step quiet_atAsyncArrow fun _ => .ite ?_ ?_
      · exact .read (reads_asyncArrow h fuel resultTypes) fun node => .done (by simp [hmark])
      · exact .read (h _) fun left => .bind (takes_assignmentRest h fuel resultTypes start left)
          fun whole => .done (by split <;> simp [hmark, starts_markCall])

theorem reads_expression (h : parts.Ordered) (fuel : Nat) : Reads (expression parts fuel) :=
  fun _ _ => .step quiet_here fun _ => .read (h _) fun _ => .step (quiet_atSign _) fun _ => .ite
    (.read (reads_many (fun _ _ => .step (quiet_eat _) fun _ =>
      .ite (h _).some.takes (.done (by simp))) fuel) fun _ => .finish rfl (by simp))
    (.done (.refl _))

end Parser

end Bundler.Script
