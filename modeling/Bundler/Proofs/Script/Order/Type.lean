import Bundler.Proofs.Script.Order.Pattern
import Bundler.Script.Reader.Type

/-! Types are read in the order of the text. -/

namespace Bundler.Script.Parser

variable {parts : Parts} {place : Nat} {before : List Nat}

/-! ### Arguments and parameters -/

/-- Type arguments add the places in them to what there is behind the sign that they begin with. -/
theorem takes_typeArguments (h : parts.Ordered) (fuel : Nat) {more : List Nat}
    (hopen : Takes place before (expect .less) fun _ => more) :
    Takes place before (typeArguments parts fuel) fun node => more ++ places node :=
  .step quiet_here fun _ => hopen.bind fun _ =>
    .both (reads_commaList (h _) _ _) fun _ _ => .step (quiet_expect _) fun _ =>
    .when (quiet_fault _) fun _ => .finish rfl (by simp)

theorem reads_typeArguments (h : parts.Ordered) (fuel : Nat) : Reads (typeArguments parts fuel) :=
  fun _ _ => takes_typeArguments h fuel (quiet_expect _).takes

theorem reads_typeArgumentsHere (h : parts.Ordered) (fuel : Nat) :
    Reads (typeArgumentsHere parts fuel) := fun _ _ =>
  .step quiet_token fun _ => .ite (reads_typeArguments h fuel).takes (.done (by simp))

/-- Type arguments in an expression, if they are there. -/
theorem takes_expressionTypeArguments (h : parts.Ordered) (fuel : Nat) {more : List Nat}
    (hopen : Takes place before (expect .less) fun _ => more) :
    Takes place before (expressionTypeArguments parts fuel) fun found =>
      (found.map fun node => more ++ places node).getD before :=
  .step quiet_dialect fun _ => .step (quiet_atSign _) fun _ => .ite
    (.attempt <| (takes_typeArguments h fuel hopen).bind fun _ => .step quiet_token fun _ =>
      .ite (.done (.refl _)) takes_unexpected)
    (.done (.refl _))

theorem reads_typeParameter (h : parts.Ordered) (fuel : Nat) : Reads (typeParameter parts fuel) :=
  fun _ _ => .step quiet_here fun _ => .step (quiet_qualifiers _ _ _ _) fun _ =>
    .step (quiet_checkQualifiers _ _) fun _ => .read reads_bindingName fun _ =>
    .step (quiet_eatWord _) fun _ => .either (h _) reads_absent fun _ =>
    .step (quiet_eat _) fun _ => .either (h _) reads_absent fun _ => .finish rfl (by simp)

theorem reads_typeParameters (h : parts.Ordered) (fuel : Nat) :
    Reads (typeParameters parts fuel) := fun _ _ =>
  .step quiet_dialect fun _ => .step (quiet_atSign _) fun _ => .ite
    (.step quiet_here fun _ => .step quiet_advance fun _ =>
      .both (reads_commaList (reads_typeParameter h fuel) _ _) fun _ _ =>
      .step (quiet_expect _) fun _ => .when (quiet_fault _) fun _ => .finish rfl (by simp))
    (.done (by simp))

theorem reads_resultType (h : parts.Ordered) : Reads (resultType parts) := fun _ _ =>
  .step quiet_here fun _ => .step quiet_token fun _ => .step (quiet_next _) fun _ => .ite
    (.either (reads_leaf _) reads_identifier fun _ => .step quiet_advance fun _ =>
      .read (h _) fun _ => .finish rfl (by simp))
    (h _).takes

theorem reads_resultMark (h : parts.Ordered) : Reads <| resultAnnotation parts := fun _ _ =>
  .step quiet_dialect fun _ => .step (quiet_atSign _) fun _ => .ite
    (.step quiet_advance fun _ => (reads_resultType h).within.takes)
    (.done (by simp))

theorem reads_ownResult (h : parts.Ordered) (owner : ParameterOwner) :
    Reads (ownResult parts owner) := fun _ _ =>
  .step quiet_here fun _ => .read (reads_resultMark h) fun _ =>
    .when (quiet_fault _) fun _ => .done (.refl _)

/-! ### References -/

theorem takes_qualifiedName (fuel : Nat) (first : Node) :
    Takes place (before ++ first.starts) (qualifiedName fuel first)
      fun node => before ++ places node := by
  unfold qualifiedName
  induction fuel generalizing first with
  | zero => exact .done (.refl _)
  | succ fuel ih =>
      exact .step (quiet_eat _) fun _ => .ite
        (.read reads_anyName fun _ => .node before rfl (by simp) fun node => ih node)
        (.done (.refl _))

theorem reads_typeReference (h : parts.Ordered) (fuel : Nat) : Reads (typeReference parts fuel) :=
  fun _ _ => .step quiet_here fun _ => .read reads_anyName fun first =>
    .bind (takes_qualifiedName fuel first) fun _ => .read (reads_typeArgumentsHere h fuel) fun _ =>
    .finish rfl (by simp)

/-! ### Members -/

theorem quiet_typeMemberEnd : Quiet typeMemberEnd :=
  .bind (quiet_eat _) fun _ => .ite (.done _) (.bind (quiet_eat _) fun _ => .done _)

theorem quiet_atIndexSignature : Quiet atIndexSignature := quiet_foresee _

theorem reads_indexParameter (h : parts.Ordered) : Reads (indexParameter parts) := fun _ _ =>
  .read reads_bindingName fun _ => .step (quiet_atSign _) fun _ =>
    .when quiet_unexpected fun _ => .read (reads_typeMark h) fun _ => .done (by simp)

theorem reads_indexSignature (h : parts.Ordered) (fuel : Nat) (isReadonly : Bool) (start : Nat) :
    Reads (indexSignature parts fuel isReadonly start) := fun _ _ =>
  .step (quiet_expect _) fun _ => .both (reads_commaList (reads_indexParameter h) _ _) fun _ _ =>
    .step (quiet_expect _) fun _ => .read (reads_typeMark h) fun type => by
      split
      · exact .when (quiet_fault _) fun _ =>
          .finish rfl (by simp [Node.starts_node, Node.ownPlaces])
      · exact .step (quiet_fault _) fun _ => .finish rfl (by simp)

theorem quiet_checkAccess (role : MethodRole) (inputs : Node) :
    Quiet (checkAccess role inputs) := by
  unfold checkAccess
  split
  · exact quiet_fault _
  · exact quiet_fault _
  · exact .done _
  · exact quiet_fault _
  · exact .done _

theorem reads_callableRest (h : parts.Ordered) (fuel : Nat) (owner : ParameterOwner) :
    Reads (callableRest parts fuel owner) := fun _ _ =>
  .read (reads_typeParameters h fuel) fun _ => .read (reads_parameters h fuel owner) fun _ =>
    .read (reads_ownResult h owner) fun _ => .done (by simp)

theorem reads_keyedMember (h : parts.Ordered) (fuel : Nat) (found : List Qualifier)
    (start : Nat) : Reads (keyedMember parts fuel found start) := fun _ _ =>
  .step quiet_token fun _ => .step (quiet_next _) fun _ => .pick (.done _) (.done _) fun _ =>
    .when quiet_advance fun _ => .both (reads_propertyKey h _) fun _ _ =>
    .pick (quiet_eat _) (.done _) fun _ => .step (quiet_atSign _) fun _ =>
    .step (quiet_atSign _) fun _ => .ite
      (.step (quiet_forM fun _ => quiet_fault _) fun _ =>
        .read (reads_callableRest h fuel _) fun rest => by
          split
          · exact .step (quiet_checkAccess _ _) fun _ => .finish rfl (by simp)
          · exact .finish rfl (by simp))
      (.read (reads_typeMark h) fun _ => .finish rfl (by simp))

theorem reads_typeMember (h : parts.Ordered) (fuel : Nat) : Reads (typeMember parts fuel) :=
  fun _ before => .step quiet_here fun _ => .step quiet_token fun _ => .step (quiet_next _) fun _ =>
    .ite
      (.read (reads_callableRest h fuel _) fun _ => .node before rfl (by simp) fun _ =>
        .step quiet_typeMemberEnd fun _ => .done (.refl _)) <|
    .ite
      (.step quiet_advance fun _ => .read (reads_callableRest h fuel _) fun _ =>
        .node before rfl (by simp) fun _ => .step quiet_typeMemberEnd fun _ => .done (.refl _)) <|
      .step (quiet_qualifiers _ _ _ _) fun _ => .step (quiet_checkQualifiers _ _) fun _ =>
      .step quiet_atIndexSignature fun _ =>
      .either (reads_indexSignature h fuel _ _) (reads_keyedMember h fuel _ _) fun _ =>
      .step quiet_typeMemberEnd fun _ => .done (.refl _)

theorem reads_typeMembers (h : parts.Ordered) (fuel : Nat) : Reads (typeMembers parts fuel) :=
  fun _ _ => .step (quiet_expect _) fun _ =>
    .read (reads_manyUntil (reads_typeMember h fuel) fuel _) fun _ =>
    .step (quiet_expect _) fun _ => .done (.refl _)

theorem quiet_mappedMark (atMark : Token → Bool) : Quiet (mappedMark atMark) :=
  .bind quiet_token fun _ => .ite (.bind quiet_advance fun _ => .done _) <| .ite
    (.bind (quiet_next _) fun _ => .ite
      (.bind quiet_advance fun _ => .bind quiet_advance fun _ => .done _) (.done _))
    (.done _)

theorem quiet_atMappedType : Quiet atMappedType := quiet_foresee _

theorem reads_mappedType (h : parts.Ordered) : Reads (mappedType parts) := fun _ _ =>
  .step quiet_here fun _ => .step (quiet_expect _) fun _ => .step (quiet_mappedMark _) fun _ =>
    .step (quiet_expect _) fun _ => .read reads_bindingName fun _ =>
    .step (quiet_expectWord _) fun _ => .read (h _) fun _ => .step (quiet_eatWord _) fun _ =>
    .either (h _) reads_absent fun _ => .step (quiet_expect _) fun _ =>
    .step (quiet_mappedMark _) fun _ => .read (reads_typeMark h) fun _ =>
    .step (quiet_eat _) fun _ => .step (quiet_expect _) fun _ => .finish rfl (by simp)

theorem reads_namedElement (h : parts.Ordered) : Reads (namedElement parts) := fun _ _ =>
  .read reads_anyName fun _ => .step (quiet_eat _) fun _ => .step (quiet_expect _) fun _ =>
    .read (h _) fun _ => .finish rfl (by simp)

theorem quiet_atNamedElement : Quiet atNamedElement := quiet_foresee _

theorem reads_tupleElement (h : parts.Ordered) : Reads (tupleElement parts) := fun _ _ =>
  .step quiet_here fun _ => .step (quiet_eat _) fun _ => .ite
    (.step quiet_atNamedElement fun _ => .either (reads_namedElement h) (h _) fun type => by
      beta_reduce
      split
      · exact .step (quiet_fault _) fun _ => .finish rfl (by simp)
      · exact .finish rfl (by simp)) <|
    .step quiet_atNamedElement fun _ => .ite (reads_namedElement h).takes <|
      .read (h _) fun type => by
        split
        · exact .finish rfl (by simp [Node.starts_node, Node.ownPlaces])
        · exact .done (.refl _)

theorem reads_tupleType (h : parts.Ordered) (fuel : Nat) : Reads (tupleType parts fuel) :=
  fun _ _ => .step quiet_here fun _ => .step quiet_advance fun _ =>
    .both (reads_commaList (reads_tupleElement h) _ _) fun _ _ => .step (quiet_expect _) fun _ =>
    .step (quiet_forM fun _ => .ite (.done _) (quiet_fault _)) fun _ => .finish rfl (by simp)

/-! ### Types without operators -/

theorem templateKind_ne_sign (found : Scanned (List Char × Bool × TemplateEnd)) (sign : Sign) :
    templateKind found ≠ .sign sign := by
  unfold templateKind
  split <;> simp

theorem takes_templateParts (place : Nat) (before : List Nat) {inner : Parser Node}
    {onPiece : Bool → Nat → Parser Unit} (h : Reads inner)
    (honPiece : ∀ ok stop, Quiet (onPiece ok stop)) (fuel : Nat) (seen : List Node) :
    Takes place (before ++ Node.startsAll seen.reverse)
      (templateParts inner onPiece fuel seen) fun nodes => before ++ places nodes := by
  induction fuel generalizing seen with
  | zero => exact .done (.refl _)
  | succ fuel ih =>
      refine .step quiet_token fun current => ?_
      split
      case h_2 => exact takes_unexpected
      refine .step (honPiece _ _) fun _ => .read (reads_leaf _) fun piece => ?_
      refine .ite (.done (by simp)) (.read h fun value => .step (quiet_atSign _) fun _ => ?_)
      refine .ite (.retoken ?_ fun _ _ => .step quiet_token fun _ => ?_)
        (.step quiet_here fun _ => takes_failAt _)
      · exact fun state hsound => ⟨Nat.le_trans hsound.le (offset_le_scanTemplate _),
          fun sign hsign => absurd hsign (templateKind_ne_sign _ sign)⟩
      · split
        · simpa using ih (value :: piece :: seen)
        · exact .step quiet_here fun _ => takes_failAt _

theorem reads_templateParts {inner : Parser Node} {onPiece : Bool → Nat → Parser Unit}
    (h : Reads inner) (honPiece : ∀ ok stop, Quiet (onPiece ok stop)) (fuel : Nat) :
    Reads (templateParts inner onPiece fuel []) := fun place before => by
  simpa using takes_templateParts place before h honPiece fuel []

theorem reads_importTypeOptions (h : parts.Ordered) : Reads (importTypeOptions parts) :=
  fun _ _ => .step (quiet_atSign _) fun _ => .when quiet_unexpected fun _ =>
    .read (h _) fun options => by
      split
      · exact .when (quiet_fault _) fun _ => .done (.refl _)
      · exact .step (quiet_fault _) fun _ => .done (.refl _)
      · exact .done (.refl _)

theorem reads_importType (h : parts.Ordered) (fuel : Nat) : Reads (importType parts fuel) :=
  fun place before => .step quiet_here fun start => .step quiet_advance fun _ =>
    .step (quiet_expect _) fun _ => .read (h _) fun source => .step (quiet_eat _) fun _ =>
    .either (reads_importTypeOptions h) reads_absent fun options => .step (quiet_expect _) fun _ =>
    .step (quiet_eat _) fun _ => by
      extract_lets jp
      have hjp (qualifier : Node) :
          Takes place (before ++ places source ++ places options ++ places qualifier)
            (jp qualifier) fun node => before ++ places node :=
        .read (reads_typeArgumentsHere h fuel) fun _ => .finish rfl (by simp)
      exact .ite
        (.read reads_anyName fun first => .bind (takes_qualifiedName fuel first) hjp)
        (.read reads_absent hjp)

theorem reads_negativeType : Reads negativeType := fun _ before =>
  .step quiet_here fun _ => .step (quiet_next _) fun _ => .when quiet_unexpected fun _ =>
    .step quiet_advance fun _ => .step quiet_token fun _ => by
      split
      · exact .read (reads_leaf _) fun _ => .node before rfl (by simp) fun _ =>
          .finish rfl (by simp)
      · exact .read (reads_leaf _) fun _ => .node before rfl (by simp) fun _ =>
          .finish rfl (by simp)
      · exact .read reads_unexpected fun _ => .node before rfl (by simp) fun _ =>
          .finish rfl (by simp)

theorem reads_plainType (h : parts.Ordered) (fuel : Nat) : Reads (plainType parts fuel) :=
  fun place before => by
    have hliteral (kind : Kind) (start : Nat) : Takes place before
        (leaf kind >>= fun literal => finish .literalType start [literal])
        fun node => before ++ places node :=
      .read (reads_leaf _) fun _ => .finish rfl (by simp)
    refine .step quiet_here fun start => .step quiet_token fun current => ?_
    split
    · exact hliteral _ _
    · exact hliteral _ _
    · exact hliteral _ _
    · exact .read (reads_templateParts (h _) (fun _ _ => .done _) fuel) fun _ =>
        .finish rfl (by simp)
    · exact reads_negativeType.takes
    · exact .step quiet_advance fun _ => .step quiet_token fun _ => .ite (.finish rfl (by simp))
        (.read (h _) fun _ => .finish rfl (by simp))
    · exact .step quiet_advance fun _ => .read (h _) fun _ => .finish rfl (by simp)
    · exact .step quiet_atMappedType fun _ => .ite (reads_mappedType h).takes
        (.read (reads_typeMembers h fuel) fun _ => .finish rfl (by simp))
    · exact (reads_tupleType h fuel).takes
    · exact .step quiet_advance fun _ => .read (h _) fun _ => .step (quiet_expect _) fun _ =>
        .finish rfl (by simp)
    · refine .step (quiet_next _) fun dotted => ?_
      split
      · exact hliteral _ _
      · exact hliteral _ _
      · exact (reads_leaf _).takes
      · exact (reads_importType h fuel).takes
      · refine .step quiet_advance fun _ => .step (quiet_atWord _) fun _ => ?_
        extract_lets jp
        have hjp (name : Node) : Takes place (before ++ places name) (jp name)
            fun node => before ++ places node :=
          .read (reads_typeArgumentsHere h fuel) fun _ => .finish rfl (by simp)
        exact .ite (.read (reads_importType h fuel) hjp) <|
          .step (quiet_atWord _) fun _ => .either (reads_leaf _) reads_anyName fun first =>
            .bind (takes_qualifiedName fuel first) hjp
      · refine .step (quiet_next _) fun _ => .ite ?_ (reads_typeReference h fuel).takes
        exact .step quiet_advance fun _ => .step (quiet_atWord _) fun _ =>
          .either (reads_leaf _) reads_identifier fun _ => .step (quiet_eatWord _) fun _ =>
          .either (h _) reads_absent fun _ => .finish rfl (by simp)
      · split
        · exact .ite (reads_typeReference h fuel).takes (reads_leaf _).takes
        · exact (reads_typeReference h fuel).takes
    · exact takes_unexpected

/-! ### Types with operators -/

theorem takes_typeSuffixes (h : parts.Ordered) (fuel : Nat) (type : Node) :
    Takes place (before ++ type.starts) (typeSuffixes parts fuel type)
      fun node => before ++ places node := by
  induction fuel generalizing type with
  | zero => exact .done (.refl _)
  | succ fuel ih =>
      exact .step quiet_token fun _ => .ite (.done (.refl _)) <| .ite
        (.step quiet_advance fun _ => .step (quiet_eat _) fun _ => .ite
          (.node before rfl (by simp) fun node => ih node)
          (.read (h _) fun _ => .step (quiet_expect _) fun _ =>
            .node before rfl (by simp) fun node => ih node)) <| .ite
        (.step quiet_advance fun _ => .node before rfl (by simp) fun node => ih node) <|
        .step (quiet_next _) fun _ => .ite
          (.step quiet_advance fun _ => .node before rfl (by simp) fun node => ih node)
          (.done (.refl _))

theorem reads_postfixType (h : parts.Ordered) (fuel : Nat) : Reads (postfixType parts fuel) :=
  Reads.within fun _ _ => .read (reads_plainType h fuel) fun type => takes_typeSuffixes h fuel type

theorem reads_inferredType (h : parts.Ordered) : Reads (inferredType parts) := fun _ _ =>
  .step quiet_here fun _ => .step quiet_advance fun _ => .read reads_bindingName fun _ =>
    .step quiet_context fun _ => .read (Reads.attempt fun _ _ => .step (quiet_expectWord _) fun _ =>
      .read (h _).within fun _ => .step (quiet_atSign _) fun _ =>
      .ite takes_unexpected (.done (.refl _)))
    fun bound => .finish rfl (by cases bound <;> simp)

theorem reads_operatorType (h : parts.Ordered) (depth fuel : Nat) :
    Reads (operatorType parts depth fuel) := by
  induction depth with
  | zero => exact reads_postfixType h fuel
  | succ depth ih =>
      intro place before
      refine .step quiet_here fun _ => .step quiet_token fun current => ?_
      split
      · exact .step quiet_advance fun _ => .read ih fun _ => .finish rfl (by simp)
      · exact .step quiet_advance fun _ => .read ih fun _ => .finish rfl (by simp)
      · exact .step quiet_advance fun _ => .read ih fun _ => .finish rfl (by simp)
      · exact (reads_inferredType h).takes
      · exact (reads_postfixType h fuel).takes

theorem reads_joinedTypes {item : Parser Node} (h : Reads item) (sign : Sign) {kind : Kind}
    (hkind : ∀ start children, Node.ownPlaces kind start children = []) (fuel : Nat) :
    Reads (joinedTypes sign kind item fuel) := fun _ _ =>
  .step quiet_here fun _ => .step (quiet_eat _) fun _ => .read h fun _ =>
    .step (quiet_atSign _) fun _ => .ite
      (.read (reads_many (fun _ _ => .step (quiet_eat _) fun _ =>
        .ite h.some.takes (.done (by simp))) fuel) fun _ => .finish (hkind _ _) (by simp))
      (.done (.refl _))

theorem quiet_atFunctionType (parts : Parts) : Quiet (atFunctionType parts) := quiet_foresee _

theorem reads_functionType (h : parts.Ordered) (fuel : Nat) : Reads (functionType parts fuel) :=
  fun _ _ => .step quiet_here fun _ => .step (quiet_eatWord _) fun _ =>
    .step (quiet_eatWord _) fun _ => .read (reads_typeParameters h fuel) fun _ =>
    .read (reads_parameters h fuel _) fun _ => .step (quiet_expect _) fun _ =>
    .read (reads_resultType h) fun _ => .finish (by split <;> rfl) (by simp)

theorem reads_unionType (h : parts.Ordered) (fuel : Nat) : Reads (unionType parts fuel) :=
  reads_joinedTypes (reads_joinedTypes (reads_operatorType h fuel fuel) _ (fun _ _ => rfl) fuel) _
    (fun _ _ => rfl) fuel

theorem reads_type (h : parts.Ordered) (fuel : Nat) : Reads (type parts fuel) := fun place before =>
  .step quiet_here fun start => .step quiet_token fun current => by
    extract_lets jp
    have hjp (isFunction : Bool) :
        Takes place before (jp isFunction) fun node => before ++ places node :=
      .ite (reads_functionType h fuel).takes <|
        .read (reads_unionType h fuel) fun _ => .step quiet_token fun _ =>
        .step quiet_context fun _ => .ite
          (.step quiet_advance fun _ => .read (h _).within fun _ => .step (quiet_expect _) fun _ =>
            .read (h _).within fun _ => .step (quiet_expect _) fun _ =>
            .read (h _).within fun _ => .finish rfl (by simp))
          (.done (.refl _))
    exact .ite (.step (.done _) hjp) <| .ite (.step (quiet_next _) hjp) <|
      .pick (quiet_atFunctionType parts) (.done _) hjp

end Bundler.Script.Parser
