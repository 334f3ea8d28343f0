import Bundler.Proofs.Script.Order.Module
import Bundler.Script.Reader.Program

/-! Programs are read in the order of the text: the calls that require are in the tree in the order
in which they begin. -/

namespace Bundler.Script

namespace Parser

variable {parts : Parts} {place : Nat} {before : List Nat}

theorem reads_plainStatement (h : parts.Ordered) (fuel : Nat) (alone : Bool) :
    Reads (plainStatement parts fuel alone) := fun place before =>
  .step quiet_here fun start => .step quiet_token fun current => by
    have htyped : Takes place before (typedDeclaration parts fuel (Node.list []) start)
        fun node => before ++ places node :=
      (takes_typedDeclaration h fuel (Node.list []) start).weaken (by simp) fun _ => .refl _
    have hexpression : Takes place before (expressionStatement parts)
        fun node => before ++ places node := (reads_expressionStatement h).takes
    split
    · exact (reads_block h fuel).takes
    · exact .step quiet_advance fun _ => .finish rfl (by simp)
    · exact .read (reads_decorators h fuel) fun marks => .step (quiet_atWord _) fun _ => .ite
        (takes_exportStatement h fuel start marks) <|
        .step quiet_dialect fun _ => .step (quiet_atTypedDeclaration _) fun _ => .ite
          (takes_typedDeclaration h fuel marks start)
          (takes_classStatement h fuel alone start marks)
    · split
      · exact (reads_ifStatement h).takes
      · exact (reads_doStatement h).takes
      · exact (reads_whileStatement h).takes
      · exact (reads_forStatement h fuel).takes
      · exact (reads_jump fun _ _ => rfl).takes
      · exact (reads_jump fun _ _ => rfl).takes
      · exact (reads_returnStatement h).takes
      · exact (reads_withStatement h).takes
      · exact (reads_switchStatement h fuel).takes
      · exact (reads_throwStatement h).takes
      · exact (reads_tryStatement h fuel).takes
      · exact .step quiet_advance fun _ => .step quiet_semicolon fun _ => .finish rfl (by simp)
      · exact (takes_classStatement h fuel alone start (Node.list [])).weaken (by simp)
          fun _ => .refl _
      · exact (reads_functionStatement h fuel alone).takes
      · exact (takes_exportStatement h fuel start (Node.list [])).weaken (by simp) fun _ => .refl _
      · exact (reads_bindings h fuel _ _ _ start).takes
      · exact .step quiet_dialect fun _ => .step (quiet_next _) fun _ => .ite htyped
          (reads_bindings h fuel _ _ _ start).takes
      · exact .ite hexpression (reads_letStatement h fuel alone).takes
      · exact .step quiet_atAsyncFunction fun _ => .ite
          (reads_functionStatement h fuel alone).takes hexpression
      · exact .step (quiet_next _) fun _ => .ite hexpression (reads_importDeclaration fuel).takes
      · refine .step quiet_forKeyword? fun found => ?_
        split
        · exact (reads_bindings h fuel _ _ _ start).takes
        · exact hexpression
      · refine .step quiet_forKeyword? fun found => ?_
        split
        · exact (reads_bindings h fuel _ _ _ start).takes
        · exact hexpression
      · exact .step (quiet_atTypedDeclaration _) fun _ => .ite htyped hexpression
    · exact hexpression

theorem reads_statement (h : parts.Ordered) (fuel : Nat) (alone : Bool) :
    Reads (statement parts fuel alone) := fun _ _ =>
  .step quiet_token fun _ => .read (reads_plainStatement h fuel alone) fun _ =>
    .done (by split <;> simp [starts_markDeclared])

theorem ordered_step (h : parts.Ordered) (fuel : Nat) : (step parts fuel).Ordered := by
  intro part
  cases part with
  | statement alone => exact reads_statement h fuel alone
  | expression => exact reads_expression h fuel
  | assignment resultTypes => exact reads_assignment h fuel resultTypes
  | binary above => exact reads_binary h fuel above
  | unary => exact reads_unary h fuel
  | leftSide => exact reads_leftSide h fuel
  | pattern => exact reads_pattern h fuel
  | type => exact reads_type h fuel
  | plainType => exact reads_plainType h fuel
  | markup between =>
      refine reads_markupFrom h fuel ?_
      split
      · exact quiet_skipToChild
      · exact quiet_advance

/-- However deep parts are nested, they are read in the order of the text. -/
theorem ordered_read (fuel : Nat) : (read fuel).Ordered := by
  induction fuel with
  | zero => exact fun _ => reads_unexpected
  | succ fuel ih => exact ordered_step ih fuel

theorem reads_program (h : parts.Ordered) (fuel : Nat) (hashbang : Option String) :
    Reads (program parts fuel hashbang) := fun _ before =>
  .read (reads_many (fun _ _ => .step quiet_token fun current => by
    split
    · exact .done (by simp)
    · exact (h _).some.takes) fuel) fun statements => .step quiet_here fun _ => .done (by
      have hsublist := (starts_markDirectives statements).append_left before
      simpa [Node.starts_mk, Node.ownPlaces] using hsublist)

end Parser

namespace Program

variable {dialect : Dialect} {awaits : Bool} {source : List Char} {tree : Node}
  {state : ReaderState} {found : Program}

/-- What comes of reading a text without a fault has its places in order. -/
theorem ascends_of_run (hrun : run dialect awaits source = .done tree state)
    (hfaults : state.faults = []) : ∃ place, Ascends place tree.starts state.token.start := by
  unfold run at hrun
  obtain ⟨hle, hlt⟩ := Parser.sound_scanLexeme
    ⟨(splitHashbang source).1.isNone, false, dialect.allowsArrows⟩ (splitHashbang source).2
  obtain ⟨hlater, -⟩ := (Parser.reads_program (Parser.ordered_read _) _ _).takes
    (ReaderState.Sound.passed ⟨hle, hlt⟩) hrun
  exact ⟨_, hlater.ascends hfaults⟩

theorem of_ofReading {reading : Reading Node} (h : ofReading reading = .ok found) :
    ∃ state, reading = .done found.tree state ∧ state.faults = [] := by
  cases reading with
  | failed place state => cases h
  | done tree state =>
      unfold ofReading at h
      dsimp only at h
      split at h
      · cases h
      · cases h
      · next hnone _ =>
        cases h
        have hfaults : state.tokenFaults = [] ∧ state.faults = [] ∧ state.openDefaults = [] := by
          simpa [faults] using hnone
        exact ⟨state, rfl, hfaults.2.1⟩

theorem ascends_of_ofReading (h : ofReading (run dialect awaits source) = .ok found) :
    ∃ place stop, Ascends place found.tree.starts stop := by
  obtain ⟨state, hrun, hfaults⟩ := of_ofReading h
  obtain ⟨place, hascends⟩ := ascends_of_run hrun hfaults
  exact ⟨place, _, hascends⟩

/-- The calls that require are in the tree of a program in the order of the text. -/
theorem calls_ascend (h : read dialect source = .ok found) :
    (found.tree.calls.map Tree.start).Pairwise (· < ·) := by
  have hascends : ∃ place stop, Ascends place found.tree.starts stop := by
    unfold read at h
    dsimp only at h
    split at h
    · split at h
      · exact ascends_of_ofReading h
      · exact ascends_of_ofReading h
    · exact ascends_of_ofReading h
  obtain ⟨place, stop, hascends⟩ := hascends
  exact Node.pairwise_calls hascends

end Program

end Bundler.Script
