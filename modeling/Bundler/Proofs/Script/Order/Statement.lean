import Bundler.Proofs.Script.Order.Expression
import Bundler.Script.Reader.Statement

/-! Statements are read in the order of the text. -/

namespace Bundler.Script.Parser

variable {parts : Parts} {place : Nat} {before : List Nat}

/-! ### Declarations of names -/

theorem reads_declarator (h : parts.Ordered) : Reads (declarator parts) := fun _ _ =>
  .step quiet_here fun _ => .read (h _) fun pattern => .step quiet_dialect fun _ =>
    .step quiet_token fun _ => .pick (quiet_eat _) (.done _) fun _ =>
    .bind (takes_typedPattern h _ pattern) fun _ => .read (reads_initializer h) fun _ =>
    .finish rfl (by simp)

theorem quiet_checkValues (inLoop : Bool) (keyword : String) (nodes : List Node) :
    Quiet (checkValues inLoop keyword nodes) := by
  induction nodes with
  | nil => exact .done _
  | cons node rest ih =>
      unfold checkValues
      split
      · next heq => cases heq
      · next heq =>
        cases heq
        exact .when (quiet_fault _) fun _ => .when (quiet_fault _) fun _ => ih
      · next heq =>
        cases heq
        exact ih

theorem reads_declarators (h : parts.Ordered) (fuel : Nat) (shape : DeclarationShape)
    (start : Nat) : Reads (declarators parts fuel shape start) := fun _ _ =>
  .read (reads_declarator h) fun _ => .read (reads_many (fun _ _ => .step (quiet_eat _) fun _ =>
    .ite (reads_declarator h).some.takes (.done (by simp))) fuel) fun _ => .finish rfl (by simp)

theorem reads_bindings (h : parts.Ordered) (fuel : Nat) (keyword : String)
    (isDeclare alone : Bool) (start : Nat) :
    Reads (bindings parts fuel keyword isDeclare alone start) := fun _ before =>
  .step quiet_advance fun _ => .when quiet_advance fun _ =>
    .read (reads_declarators h fuel _ start).within fun found => .step quiet_context fun _ =>
    .when (quiet_checkValues _ _ _) fun _ => .step quiet_semicolon fun _ =>
    .when (quiet_fault _) fun _ => by
      obtain ⟨kind, start, stop, _, children⟩ := found
      exact takes_finish before (by simp [Node.starts_node])

/-! ### Plain statements -/

theorem reads_expressionStatement (h : parts.Ordered) : Reads (expressionStatement parts) :=
  fun _ _ => .step quiet_here fun _ => .read (h _) fun inner => .step (quiet_atSign _) fun _ => by
    split
    · exact .step quiet_advance fun _ => .read (h _) fun _ => .finish rfl (by simp)
    · exact .step quiet_semicolon fun _ => .finish rfl (by simp)

theorem reads_letStatement (h : parts.Ordered) (fuel : Nat) (alone : Bool) :
    Reads (letStatement parts fuel alone) := fun _ _ =>
  .step quiet_here fun _ => .step (quiet_next _) fun _ => .step (quiet_next _) fun _ =>
    .ite (reads_expressionStatement h).takes <| .ite
      (.read reads_identifier fun _ => .step quiet_semicolon fun _ => .finish rfl (by simp))
      (reads_bindings h fuel _ _ _ _).takes

theorem reads_block (h : parts.Ordered) (fuel : Nat) : Reads (block parts fuel) := fun _ _ =>
  .step quiet_here fun _ => .step (quiet_expect _) fun _ => .read (reads_statementList h fuel)
    fun _ => .step (quiet_expect _) fun _ => .finish rfl (by simp)

theorem reads_ifStatement (h : parts.Ordered) : Reads (ifStatement parts) := fun _ _ =>
  .step quiet_here fun _ => .step quiet_advance fun _ => .read (reads_condition h) fun _ =>
    .read (h _) fun _ => .step (quiet_eatWord _) fun _ => .either (h _) reads_absent fun _ =>
    .finish rfl (by simp)

theorem reads_doStatement (h : parts.Ordered) : Reads (doStatement parts) := fun _ _ =>
  .step quiet_here fun _ => .step quiet_advance fun _ => .read (h _) fun _ =>
    .step (quiet_expectWord _) fun _ => .read (reads_condition h) fun _ =>
    .step (quiet_eat _) fun _ => .finish rfl (by simp)

theorem reads_whileStatement (h : parts.Ordered) : Reads (whileStatement parts) := fun _ _ =>
  .step quiet_here fun _ => .step quiet_advance fun _ => .read (reads_condition h) fun _ =>
    .read (h _) fun _ => .finish rfl (by simp)

theorem reads_jump {kind : Kind}
    (hkind : ∀ start children, Node.ownPlaces kind start children = []) :
    Reads (jump kind) := fun _ _ =>
  .step quiet_here fun _ => .step quiet_advance fun _ => .step quiet_token fun _ =>
    .either reads_absent reads_identifier fun _ => .step quiet_semicolon fun _ =>
    .finish (hkind _ _) (by simp)

theorem reads_returnStatement (h : parts.Ordered) : Reads (returnStatement parts) := fun _ _ =>
  .step quiet_here fun _ => .step quiet_context fun _ => .when (quiet_fault _) fun _ =>
    .step quiet_advance fun _ => .step quiet_token fun _ =>
    .either reads_absent (h _).within fun _ => .step quiet_semicolon fun _ => .finish rfl (by simp)

theorem reads_withStatement (h : parts.Ordered) : Reads (withStatement parts) := fun _ _ =>
  .step quiet_here fun _ => .step quiet_advance fun _ => .read (reads_condition h) fun _ =>
    .read (h _) fun _ => .finish rfl (by simp)

theorem reads_throwStatement (h : parts.Ordered) : Reads (throwStatement parts) := fun _ _ =>
  .step quiet_here fun _ => .step quiet_advance fun _ => .step quiet_token fun _ =>
    .when (quiet_fault _) fun _ => .read (h _) fun _ => .step quiet_semicolon fun _ =>
    .finish rfl (by simp)

/-! ### Loops over values -/

theorem takes_forOver (h : parts.Ordered) (start : Nat) (awaits : Bool) (left : Node) :
    Takes place (before ++ left.starts) (forOver parts start awaits left)
      fun node => before ++ places node :=
  .step (quiet_eatWord _) fun _ => .ite
    (.when (quiet_fault _) fun _ => .when (quiet_fault _) fun _ => .read (h _).within fun _ =>
      .step (quiet_expect _) fun _ => .read (h _) fun _ => .finish rfl (by simp))
    (.step quiet_advance fun _ => .read (h _).within fun _ => .step (quiet_expect _) fun _ =>
      .read (h _) fun _ => .finish rfl (by simp))

theorem takes_forCount (h : parts.Ordered) (start : Nat) (awaits : Bool) (first : Node) :
    Takes place (before ++ first.starts) (forCount parts start awaits first)
      fun node => before ++ places node :=
  .step (quiet_expect _) fun _ => .step (quiet_atSign _) fun _ => .step (quiet_atSign _) fun _ =>
    .either reads_absent (h _).within fun _ => .step (quiet_expect _) fun _ =>
    .step (quiet_atSign _) fun _ => .either reads_absent (h _).within fun _ =>
    .step (quiet_expect _) fun _ => .when (quiet_fault _) fun _ => .read (h _) fun _ =>
    .finish rfl (by simp)

theorem quiet_forKeyword? : Quiet forKeyword? :=
  .bind quiet_token fun current => by
    split
    · exact .done _
    · exact .done _
    · exact .bind (quiet_next _) fun _ => .done _
    · exact .bind (quiet_foresee _) fun _ => .done _
    · exact .bind (quiet_foresee _) fun _ => .done _
    · exact .done _

theorem quiet_atForOver : Quiet atForOver :=
  .bind (quiet_atWord _) fun _ => .bind (quiet_atWord _) fun _ => .done _

theorem reads_forStatement (h : parts.Ordered) (fuel : Nat) : Reads (forStatement parts fuel) :=
  fun place before => .step quiet_here fun start => .step quiet_advance fun _ =>
    .step quiet_here fun awaitPlace => .step quiet_context fun outer =>
    .step (quiet_atWord _) fun awaits => by
      extract_lets loop loop'
      have hloop (value : Unit) : Takes place before (loop value)
          fun node => before ++ places node := by
        refine .step (quiet_expect _) fun _ => .step (quiet_atSign _) fun _ => .ite
          ((takes_forCount h start awaits Node.absent).weaken (by simp) fun _ => .refl _) <|
          .step quiet_forKeyword? fun found => ?_
        split
        · refine .step quiet_here fun first => .step quiet_advance fun _ =>
            .when quiet_advance fun _ => .read (reads_declarators h fuel _ first).within fun left =>
            .step quiet_atForOver fun _ => .ite ?_ <|
              .step (quiet_checkValues _ _ _) fun _ => takes_forCount h start awaits left
          split
          · exact takes_forOver h start awaits left
          · exact .step (quiet_fault _) fun _ => takes_forOver h start awaits left
        · refine .step quiet_token fun word => .read (h _).within fun left =>
            .step quiet_atForOver fun _ => .ite ?_ (takes_forCount h start awaits left)
          refine .step (quiet_atWord _) fun _ => .bind (narrows_target left).takes fun left => ?_
          split <;> exact .when (quiet_fault _) fun _ => takes_forOver h start awaits left
      have hloop' (value : Unit) : Takes place before (loop' value)
          fun node => before ++ places node := .step quiet_advance hloop
      exact .ite
        (.ite (.step quiet_dialect fun _ => .pick (quiet_scriptFault _) (quiet_fault _) hloop')
          (hloop' ()))
        (hloop ())

/-! ### Choices and failures -/

theorem reads_switchCase (h : parts.Ordered) (fuel : Nat) : Reads (switchCase parts fuel) :=
  fun place before => .step quiet_here fun start => .step quiet_token fun current => by
    extract_lets jp
    have hjp (test : Node) : Takes place (before ++ places test) (jp test)
        fun node => before ++ places node := by
      refine .step (quiet_expect _) fun _ => .read (reads_many (fun _ _ => ?_) fuel) fun _ =>
        .finish rfl (by simp)
      refine .step quiet_token fun current => .ite (.done (by simp)) ?_
      split
      · exact .done (by simp)
      · exact .read (h _) fun _ => .when (quiet_fault _) fun _ => .done (.refl _)
    exact .ite (.step quiet_advance fun _ => .read reads_absent hjp) <| .ite
      (.step quiet_advance fun _ => .read (h _).within hjp) (.fail _)

theorem reads_switchStatement (h : parts.Ordered) (fuel : Nat) :
    Reads (switchStatement parts fuel) := fun _ _ =>
  .step quiet_here fun _ => .step quiet_advance fun _ => .read (reads_condition h) fun _ =>
    .step (quiet_expect _) fun _ => .read (reads_many (fun _ _ => .step (quiet_atSign _) fun _ =>
      .ite (.done (by simp)) (reads_switchCase h fuel).some.takes) fuel) fun _ =>
    .step (quiet_expect _) fun _ => .finish rfl (by simp)

theorem reads_tryStatement (h : parts.Ordered) (fuel : Nat) : Reads (tryStatement parts fuel) :=
  fun place before => .step quiet_here fun start => .step quiet_advance fun _ =>
    .read (reads_block h fuel) fun body => .step quiet_here fun catchPlace =>
    .step (quiet_eatWord _) fun _ => by
      extract_lets last handle
      have hlast (found : Node × Node) :
          Takes place (before ++ places body ++ (places found.1 ++ places found.2)) (last found)
            fun node => before ++ places node :=
        .step (quiet_eatWord _) fun _ => .either (reads_block h fuel) reads_absent fun _ =>
        .when (quiet_fault _) fun _ => .finish rfl (by simp)
      have hhandle (parameter : Node) :
          Takes place (before ++ places body ++ places parameter) (handle parameter)
            fun node => before ++ places node :=
        .read (reads_block h fuel) fun _ => .bind (.done (by simp)) hlast
      refine .ite (.step (quiet_eat _) fun _ => .ite ?_ (.read reads_absent hhandle))
        (.bind (.done (by simp)) hlast)
      exact .read (h _) fun pattern => .bind (takes_typedPattern h false pattern) fun _ =>
        .step (quiet_expect _) fun _ => .bind (.done (.refl _)) hhandle

/-! ### Functions and classes -/

theorem reads_functionStatement (h : parts.Ordered) (fuel : Nat) (alone : Bool) :
    Reads (functionStatement parts fuel alone) := fun _ _ =>
  .step quiet_here fun _ => .read (reads_function h fuel _ _ _ _) fun whole => by
    split
    · exact .when (quiet_fault _) fun _ => .done (.refl _)
    · exact .done (.refl _)

theorem takes_classStatement (h : parts.Ordered) (fuel : Nat) (alone : Bool) (start : Nat)
    (marks : Node) :
    Takes place (before ++ marks.starts) (classStatement parts fuel alone start marks)
      fun node => before ++ places node :=
  .bind (takes_classFrom h fuel _ start marks) fun _ => .when (quiet_fault _) fun _ =>
    .done (.refl _)

end Bundler.Script.Parser
