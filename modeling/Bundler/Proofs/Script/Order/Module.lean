import Bundler.Proofs.Script.Order.Statement
import Bundler.Script.Reader.Module

/-! Declarations of types, imports and exports are read in the order of the text. -/

namespace Bundler.Script.Parser

variable {parts : Parts} {place : Nat} {before : List Nat}

/-! ### Declarations of types -/

theorem quiet_atTypedDeclaration (fuel : Nat) : Quiet (atTypedDeclaration fuel) :=
  .bind quiet_token fun _ => .bind quiet_dialect fun _ => .ite (quiet_foresee _) (.done _)

theorem reads_interfaceDeclaration (h : parts.Ordered) (fuel : Nat) (isDeclare : Bool)
    (start : Nat) : Reads (interfaceDeclaration parts fuel isDeclare start) := by
  intro place before
  refine .step quiet_advance fun _ => .read reads_bindingName fun name =>
    .read (reads_typeParameters h fuel) fun generics => ?_
  extract_lets base jp
  have hbase : Reads base := fun _ _ =>
    .step quiet_here fun _ => .both (reads_baseWithArguments h fuel) fun _ _ =>
      .finish rfl (by simp)
  have hjp (bases : List Node) :
      Takes place (before ++ places name ++ places generics ++ places bases) (jp bases)
        fun node => before ++ places node :=
    .read (reads_typeMembers h fuel) fun _ => .finish rfl (by simp)
  refine .step (quiet_eatWord _) fun _ => .ite (.read hbase fun first => ?_)
    (.bind (.done (by simp)) hjp)
  exact .read (reads_many (fun _ _ => .step (quiet_eat _) fun _ =>
    .ite hbase.some.takes (.done (by simp))) fuel) fun _ => .bind (.done (by simp)) hjp

theorem reads_aliasDeclaration (h : parts.Ordered) (fuel : Nat) (isDeclare : Bool) (start : Nat) :
    Reads (aliasDeclaration parts fuel isDeclare start) := fun _ _ =>
  .step quiet_advance fun _ => .read reads_bindingName fun _ =>
    .read (reads_typeParameters h fuel) fun _ => .step (quiet_expect _) fun _ =>
    .read (h _) fun _ => .step quiet_semicolon fun _ => .finish rfl (by simp)

theorem quiet_checkEnumKey (computed : Bool) (key : Node) : Quiet (checkEnumKey computed key) := by
  unfold checkEnumKey
  split
  · exact .done _
  · exact .done _
  · exact quiet_fault _
  · exact quiet_fault _
  · exact quiet_fault _
  · exact .done _

theorem reads_enumMember (h : parts.Ordered) : Reads (enumMember parts) := fun _ _ =>
  .step quiet_here fun _ => .both (reads_propertyKey h _) fun _ _ =>
    .step (quiet_checkEnumKey _ _) fun _ => .read (reads_initializer h) fun _ =>
    .finish rfl (by simp)

theorem reads_enumDeclaration (h : parts.Ordered) (fuel : Nat) (isConst isDeclare : Bool)
    (start : Nat) : Reads (enumDeclaration parts fuel isConst isDeclare start) := fun _ _ =>
  .step quiet_advance fun _ => .read reads_bindingName fun _ => .step (quiet_expect _) fun _ =>
    .both (reads_commaList (reads_enumMember h) _ _) fun _ _ => .step (quiet_expect _) fun _ =>
    .finish rfl (by simp)

theorem reads_namespaceBody (h : parts.Ordered) (fuel : Nat) (isDeclare : Bool) :
    Reads (namespaceBody parts fuel isDeclare) := fun _ before =>
  .step quiet_here fun _ => .step (quiet_expect _) fun _ =>
    .read (reads_statementList h fuel).within fun statements => .step (quiet_expect _) fun _ =>
    .finish rfl ((starts_markDirectives statements).append_left before)

theorem reads_namespaceDeclaration (h : parts.Ordered) (fuel : Nat) (isDeclare : Bool)
    (start : Nat) : Reads (namespaceDeclaration parts fuel isDeclare start) := fun place before =>
  .step quiet_token fun current => by
    extract_lets keyword body
    have hbody (name : Node) : Takes place (before ++ places name) (body name)
        fun node => before ++ places node :=
      .step (quiet_atSign _) fun _ => .ite
        (.read (reads_namespaceBody h fuel isDeclare) fun _ => .finish rfl (by simp))
        (.step quiet_semicolon fun _ => .finish rfl (by simp))
    refine .ite (.read (reads_leaf _) hbody) <|
      .step quiet_advance fun _ => .step quiet_token fun following => ?_
    split
    · exact .when quiet_unexpected fun _ => .read (reads_leaf _) hbody
    · exact .read reads_bindingName fun name => .bind (takes_qualifiedName fuel name) fun _ =>
        .read (reads_namespaceBody h fuel isDeclare) fun _ => .finish rfl (by simp)

theorem takes_importEquals (fuel : Nat) (start : Nat) (name : Node) :
    Takes place (before ++ name.starts) (importEquals fuel start name)
      fun node => before ++ places node :=
  .step (quiet_expect _) fun _ => .step quiet_here fun from_ => .step (quiet_atWord _) fun _ =>
    .pick (quiet_next _) (.done _) fun isExternal => by
      beta_reduce
      extract_lets jp
      have hjp (reference : Node) : Takes place (before ++ name.starts ++ places reference)
          (jp reference) fun node => before ++ places node :=
        .step quiet_semicolon fun _ => .step quiet_dialect fun _ => .when (quiet_fault _) fun _ =>
        .finish rfl (by simp)
      refine .ite (.step quiet_advance fun _ => .step (quiet_expect _) fun _ => ?_)
        (.read reads_identifier fun first => .bind (takes_qualifiedName fuel first) hjp)
      exact .read reads_stringLiteral fun _ => .step (quiet_expect _) fun _ =>
        .node (before ++ name.starts) rfl (by simp) hjp

theorem quiet_qualifiesDeclaration (word : Word) : Quiet (qualifiesDeclaration word) := by
  unfold qualifiesDeclaration
  split
  · exact .done _
  · exact quiet_next _
  · exact quiet_next _
  · exact quiet_next _
  · exact .ite (quiet_next _) (.done _)

theorem quiet_declarationQualifiers (fuel : Nat) (seen : List Qualifier) :
    Quiet (declarationQualifiers fuel seen) := by
  induction fuel generalizing seen with
  | zero => exact .done _
  | succ fuel ih =>
      refine .bind quiet_token fun current => ?_
      split
      · exact .done _
      · exact .bind (quiet_qualifiesDeclaration _) fun _ => .ite
          (.when (quiet_fault _) fun _ => .bind quiet_advance fun _ => ih _) (.done _)

theorem reads_declaredImport (fuel : Nat) (start : Nat) : Reads (declaredImport fuel start) :=
  fun _ _ => .step quiet_advance fun _ => .step (quiet_next _) fun _ =>
    .step (quiet_atWord _) fun _ => .when quiet_advance fun _ => .read reads_bindingName fun name =>
    takes_importEquals fuel start name

theorem takes_typedDeclaration (h : parts.Ordered) (fuel : Nat) (marks : Node) (start : Nat) :
    Takes place (before ++ marks.starts) (typedDeclaration parts fuel marks start)
      fun node => before ++ places node :=
  .step (quiet_declarationQualifiers _ _) fun found => .step quiet_token fun current => by
    split
    · exact .bind (takes_classFrom h fuel _ start marks) fun _ =>
        .step (quiet_checkQualifiers _ _) fun _ => .done (.refl _)
    · extract_lets jp
      have hjp (whole : Node) : Takes place (before ++ marks.starts ++ places whole) (jp whole)
          fun node => before ++ places node :=
        .step (quiet_checkQualifiers _ _) fun _ => .done (by simp)
      split
      · exact .read (reads_interfaceDeclaration h fuel _ start) hjp
      · exact .read (reads_aliasDeclaration h fuel _ start) hjp
      · exact .read (reads_enumDeclaration h fuel _ _ start) hjp
      · exact .read (reads_namespaceDeclaration h fuel _ start) hjp
      · exact .read (reads_namespaceDeclaration h fuel _ start) hjp
      · exact .read (reads_namespaceDeclaration h fuel _ start) hjp
      · exact .read (reads_function h fuel _ _ _ start) hjp
      · exact .read (reads_function h fuel _ _ _ start) hjp
      · exact .read (reads_bindings h fuel _ _ _ start) hjp
      · exact .read (reads_bindings h fuel _ _ _ start) hjp
      · exact .step (quiet_next _) fun _ => .ite
          (.step quiet_advance fun _ => .read (reads_enumDeclaration h fuel _ _ start) hjp)
          (.read (reads_bindings h fuel _ _ _ start) hjp)
      · exact .read (reads_declaredImport fuel start) hjp
      · exact .read reads_unexpected hjp

/-! ### Imports -/

theorem quiet_noteModule : Quiet noteModule :=
  quiet_modify (fun _ => rfl) (fun _ => rfl) fun _ => id

theorem reads_importAttribute : Reads importAttribute := fun place before =>
  .step quiet_here fun start => .step quiet_token fun current => by
    extract_lets jp
    have hjp (key : Node) : Takes place (before ++ places key) (jp key)
        fun node => before ++ places node :=
      .step (quiet_expect _) fun _ => .read reads_stringLiteral fun _ => .finish rfl (by simp)
    split
    · exact .read (reads_leaf _) hjp
    · exact .read reads_anyName hjp

theorem quiet_checkAttributes (nodes seen : List Node) : Quiet (checkAttributes nodes seen) := by
  induction nodes generalizing seen with
  | nil => exact .done _
  | cons node rest ih =>
      unfold checkAttributes
      split
      · next heq =>
        cases heq
        split
        · exact .bind (quiet_fault _) fun _ => ih _
        · exact ih _
      · exact .done _

theorem reads_importAttributes (fuel : Nat) : Reads (importAttributes fuel) := fun _ _ =>
  .step quiet_here fun _ => .step quiet_token fun _ => .ite
    (.step quiet_advance fun _ => .step (quiet_expect _) fun _ =>
      .both (reads_commaList reads_importAttribute _ _) fun _ _ => .step (quiet_expect _) fun _ =>
      .step (quiet_checkAttributes _ _) fun _ => .finish rfl (by simp))
    (.done (by simp))

theorem quiet_typeMarks : Quiet typeMarks :=
  .bind quiet_dialect fun _ => .bind (quiet_atWord _) fun _ => .ite (quiet_foresee _) (.done _)

/-- A name that stands for two occurs twice in a specifier. -/
theorem reads_importSpecifier : Reads importSpecifier := fun _ _ =>
  .step quiet_here fun _ => .step quiet_typeMarks fun _ => .when quiet_advance fun _ =>
    .step quiet_token fun _ => .knowing quiet_moduleName yields_moduleName fun imported hnone =>
    .step (quiet_eatWord _) fun _ => .ite
      (.read reads_bindingName fun _ => .finish rfl (by simp [hnone]))
      (.ite (.finish rfl (by simp [hnone])) (takes_failAt _))

theorem reads_importNamespace : Reads importNamespace := fun _ _ =>
  .step quiet_here fun _ => .step quiet_advance fun _ => .step (quiet_expectWord _) fun _ =>
    .read reads_bindingName fun _ => .finish rfl (by simp)

theorem reads_importSpecifiers (fuel : Nat) : Reads (importSpecifiers fuel) := fun _ _ =>
  .step (quiet_atSign _) fun _ => .ite (.read reads_importNamespace fun _ => .done (by simp)) <|
    .step (quiet_expect _) fun _ => .both (reads_commaList reads_importSpecifier _ _) fun _ _ =>
    .step (quiet_expect _) fun _ => .done (by simp)

theorem takes_importFrom (fuel : Nat) (start : Nat) (phase : Option String) (typeOnly : Bool)
    (specifiers : Node) :
    Takes place (before ++ specifiers.starts) (importFrom fuel start phase typeOnly specifiers)
      fun node => before ++ places node :=
  .step quiet_noteModule fun _ => .read reads_stringLiteral fun _ =>
    .read (reads_importAttributes fuel) fun _ => .step quiet_semicolon fun _ =>
    .finish rfl (by simp)

theorem quiet_checkPhase (phase : Option Qualifier) (specifiers : List Node) :
    Quiet (checkPhase phase specifiers) := by
  unfold checkPhase
  split
  · exact .done _
  · split
    · exact .done _
    · exact .done _
    · exact quiet_fault _

theorem quiet_checkTypeOnly (specifiers : List Node) : Quiet (checkTypeOnly specifiers) := by
  unfold checkTypeOnly
  extract_lets jp
  have hjp (value : Unit) : Quiet (jp value) :=
    quiet_forM fun specifier => by
      split
      · exact quiet_fault _
      · exact quiet_fault _
      · exact .done _
  split
  · exact .bind (quiet_fault _) hjp
  · exact hjp ()

theorem quiet_importQualifies : Quiet importQualifies :=
  .bind (quiet_next _) fun _ => .ite (.done _) (quiet_foresee _)

theorem takes_importClause (fuel : Nat) (default : Option Node) :
    Takes place (before ++ places default) (importClause fuel default)
      fun nodes => before ++ places nodes := by
  unfold importClause
  split
  · exact ((reads_importSpecifiers fuel).takes).weaken (by simp) fun _ => .refl _
  · have hnone : Reads (pure [] : Parser (List Node)) := fun _ _ => .done (by simp)
    exact .step (quiet_eat _) fun _ => .either (reads_importSpecifiers fuel) hnone fun _ =>
      .done (by simp [Node.starts_mk, Node.ownPlaces])

theorem reads_importDeclaration (fuel : Nat) : Reads (importDeclaration fuel) := fun place before =>
  .step quiet_here fun start => .step quiet_advance fun _ => .step quiet_token fun current => by
    split
    · exact (takes_importFrom fuel start none false Node.absent).weaken (by simp) fun _ => .refl _
    · refine .step quiet_token fun first => .step quiet_importQualifies fun _ =>
        .step quiet_dialect fun _ => .when quiet_advance fun _ => .step quiet_token fun _ => ?_
      extract_lets jp
      have hjp (name : Option Node) : Takes place (before ++ places name) (jp name)
          fun node => before ++ places node := by
        refine .step (quiet_atSign _) fun equal => ?_
        split
        · exact .step quiet_noteModule fun _ => takes_importEquals fuel start _
        · exact .bind (takes_importClause fuel name) fun specifiers =>
            .step (quiet_expectWord _) fun _ =>
            .bind ((takes_importFrom fuel start _ _ (Node.list specifiers)).weaken (by simp)
              fun _ => .refl _) fun _ =>
            .step (quiet_checkPhase _ _) fun _ => .when (quiet_checkTypeOnly _) fun _ =>
            .done (.refl _)
      have hnone : Reads (pure none : Parser (Option Node)) := fun _ _ => .done (by simp)
      exact .ite (.read reads_bindingName.some hjp) (.read hnone hjp)

/-! ### Exports -/

theorem reads_exportSpecifier : Reads exportSpecifier := fun _ _ =>
  .step quiet_here fun _ => .step quiet_typeMarks fun _ => .when quiet_advance fun _ =>
    .knowing quiet_moduleName yields_moduleName fun name hnone =>
    .step (quiet_eatWord _) fun _ => .ite
      (.read reads_moduleName fun _ => .finish rfl (by simp [hnone]))
      (.finish rfl (by simp [hnone]))

theorem quiet_checkLocals (nodes : List Node) : Quiet (checkLocals nodes) := by
  induction nodes with
  | nil => exact .done _
  | cons node rest ih =>
      unfold checkLocals
      split
      · next heq => cases heq
      · next heq =>
        cases heq
        split
        · exact .bind (quiet_fault _) fun _ => ih
        · exact .when (quiet_fault _) fun _ => ih
        · exact ih
      · next heq =>
        cases heq
        exact ih

theorem reads_exportNames (fuel : Nat) (typeOnly : Bool) (start : Nat) :
    Reads (exportNames fuel typeOnly start) := fun _ _ =>
  .step (quiet_expect _) fun _ => .both (reads_commaList reads_exportSpecifier _ _) fun _ _ =>
    .step (quiet_expect _) fun _ => .when (quiet_checkTypeOnly _) fun _ =>
    .step (quiet_eatWord _) fun _ => .ite
      (.read reads_stringLiteral fun _ => .read (reads_importAttributes fuel) fun _ =>
        .step quiet_semicolon fun _ => .finish rfl (by simp))
      (.step (quiet_checkLocals _) fun _ => .step quiet_semicolon fun _ => .finish rfl (by simp))

theorem reads_exportAll (fuel : Nat) (typeOnly : Bool) (start : Nat) :
    Reads (exportAll fuel typeOnly start) := fun _ _ =>
  .step quiet_advance fun _ => .step (quiet_eatWord _) fun _ =>
    .either reads_moduleName reads_absent fun _ => .step (quiet_expectWord _) fun _ =>
    .read reads_stringLiteral fun _ => .read (reads_importAttributes fuel) fun _ =>
    .step quiet_semicolon fun _ => .finish rfl (by simp)

theorem takes_exportDefault (h : parts.Ordered) (fuel : Nat) (start : Nat) (marks : Node) :
    Takes place (before ++ marks.starts) (exportDefault parts fuel start marks)
      fun node => before ++ places node := by
  have hclass (shape : ClassShape) (word first : Nat) : Takes place (before ++ marks.starts) (do
      let inner ← classFrom parts fuel shape first marks
      finish (.exportDefault word) start [inner]) fun node => before ++ places node :=
    .bind (takes_classFrom h fuel shape first marks) fun _ => .finish rfl (by simp)
  refine .step quiet_here fun word => .step quiet_advance fun _ => .step quiet_here fun first =>
    .step quiet_token fun current => .step quiet_dialect fun _ => .ite (hclass _ _ _) <| .ite ?_ <|
    .step quiet_atAsyncFunction fun _ => .ite ?_ <| .step (quiet_next _) fun _ => .ite ?_ <|
    .step (quiet_next _) fun _ => .ite ?_ ?_
  · exact .read (reads_decorators h fuel) fun marks =>
      .bind (takes_classFrom h fuel _ first marks) fun _ => .finish rfl (by simp)
  · exact .read (reads_function h fuel _ _ _ first) fun inner =>
      .finish rfl (by split <;> simp [starts_markFunction])
  · exact .step quiet_advance fun _ => hclass _ _ _
  · exact .read (reads_interfaceDeclaration h fuel _ first) fun _ => .finish rfl (by simp)
  · exact .read (h _).within fun _ => .step quiet_semicolon fun _ => .finish rfl (by simp)

theorem takes_exportDeclaration (h : parts.Ordered) (fuel : Nat) (start : Nat) (marks : Node) :
    Takes place (before ++ marks.starts) (exportDeclaration parts fuel start marks)
      fun node => before ++ places node :=
  .step quiet_here fun first => .step quiet_token fun current => by
    extract_lets jp
    have hmarked {more : List Nat} (hmore : before.Sublist more) (inner : Node) :
        Takes place (more ++ places inner) (jp inner) fun node => before ++ places node :=
      .node before rfl (by simpa using hmore) fun _ =>
        .done (by split <;> simp [starts_markDeclared])
    have hjp := hmarked (List.sublist_append_left before marks.starts)
    split
    · exact .read (reads_bindings h fuel _ _ _ first) hjp
    · exact .read (reads_bindings h fuel _ _ _ first) hjp
    · exact .read (reads_function h fuel _ _ _ first) hjp
    · exact .bind (takes_classFrom h fuel _ first marks) (hmarked (.refl _))
    · exact .step quiet_atAsyncFunction fun _ => .ite
        (.read (reads_function h fuel _ _ _ first) hjp) (.read reads_unexpected hjp)
    · exact .step quiet_dialect fun _ => .step (quiet_next _) fun _ => .ite
        (.bind (takes_typedDeclaration h fuel marks first) (hmarked (.refl _)))
        (.read (reads_bindings h fuel _ _ _ first) hjp)
    · exact .ite
        (.read (reads_decorators h fuel) fun marks =>
          .bind (takes_classFrom h fuel _ first marks) (hmarked (List.sublist_append_left _ _))) <|
        .step (quiet_atTypedDeclaration _) fun _ => .ite
          (.bind (takes_typedDeclaration h fuel marks first) (hmarked (.refl _)))
          (.read reads_unexpected hjp)

theorem takes_exportStatement (h : parts.Ordered) (fuel : Nat) (start : Nat) (marks : Node) :
    Takes place (before ++ marks.starts) (exportStatement parts fuel start marks)
      fun node => before ++ places node := by
  have hplain {parser : Parser Node} (hread : Reads parser) :
      Takes place (before ++ marks.starts) parser fun node => before ++ places node :=
    hread.takes.weaken (List.sublist_append_left _ _) fun _ => .refl _
  refine .step quiet_advance fun _ => .step quiet_noteModule fun _ => .step quiet_token fun _ =>
    .step quiet_dialect fun _ => .ite (takes_exportDefault h fuel start marks) <|
    .ite (hplain (reads_exportAll fuel _ start)) <|
    .ite (hplain (reads_exportNames fuel _ start)) <| .ite ?_ <| .ite ?_ <| .ite ?_ <|
    .step (quiet_next _) fun _ => .ite ?_ <| .step (quiet_next _) fun _ => .ite ?_ <|
    takes_exportDeclaration h fuel start marks
  · exact .step quiet_advance fun _ => .read (h _) fun _ => .step quiet_semicolon fun _ =>
      .finish rfl (by simp)
  · exact .step quiet_advance fun _ => .step (quiet_expectWord _) fun _ =>
      .read reads_bindingName fun _ => .step quiet_semicolon fun _ => .finish rfl (by simp)
  · exact .step quiet_here fun first => .read (reads_declaredImport fuel first) fun _ =>
      .finish rfl (by simp)
  · exact .step quiet_advance fun _ => hplain (reads_exportNames fuel _ start)
  · exact .step quiet_advance fun _ => hplain (reads_exportAll fuel _ start)

end Bundler.Script.Parser
