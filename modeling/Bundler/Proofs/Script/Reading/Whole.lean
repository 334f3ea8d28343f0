import Bundler.Proofs.Script.Reading.Stuck

/-! Reading a whole text that is a single statement. -/

namespace Bundler.Script

namespace Program

open Script.Parser

variable {source : List Char} {sight : Sight} {more : List Symbol} {node : Node} {fuel : Nat}

/-- Where a program begins. -/
def atTop : Context := surroundings .plain false

theorem ordinary_atTop : Ordinary atTop := ⟨rfl, rfl, rfl⟩

/-- A text without a hashbang line is read from its first token on. -/
theorem exists_run_eq (hplain : splitHashbang source = (none, ⟨source, 0⟩))
    (hspans : Spans (.token sight :: more) source) :
    ∃ state, At atTop (.token sight :: more) state ∧
      run .plain false source = program (Parser.read (depth source)) (depth source) none state := by
  obtain ⟨rest, hscans, hmore⟩ := hspans
  obtain ⟨start, hfaults, hrest, htoken⟩ := hscans ⟨true, false, true⟩ 0
  refine ⟨_, ⟨rfl, rfl, rfl, ?_, rfl, rfl, rfl, ?_, sight, more, start, _, rfl, htoken, ?_⟩,
    by rw [run, hplain]⟩
  · change (scanLexeme ⟨true, false, true⟩ ⟨source, 0⟩).faults.foldl _ [] = []
    rw [hfaults, List.foldl_nil]
  · exact fun place hplace => absurd hplace List.not_mem_nil
  · change Spans more (scanLexeme ⟨true, false, true⟩ ⟨source, 0⟩).after.rest
    rw [hrest]
    exact hmore

/-- A statement, unless the text ends. -/
def topItem (fuel : Nat) : Parser (Option Node) := do
  match (← token).kind with
  | .endOfText => return none
  | _ => some <$> Parser.read fuel (.statement false)

/-- A statement up to the end of the text. -/
theorem runs_program {outer : Context} {afterBreak : Bool} (hstarts : Starts sight)
    (h : Runs outer (Parser.read (fuel + 2) (.statement false)) (.token sight :: more)
      (.tree [.token ⟨.endOfText, afterBreak⟩] node))
    (hplain : NoDirective [node]) :
    Runs outer (program (Parser.read (fuel + 2)) (fuel + 2) none) (.token sight :: more)
      (.tree [.token ⟨.endOfText, afterBreak⟩] (.of (.program none) [node])) := by
  have hitem : Runs outer (topItem (fuel + 2)) (.token sight :: more)
      (.goes [.token ⟨.endOfText, afterBreak⟩] fun value =>
        value.map Node.unplaced = some node) := by
    refine .token fun _ _ => ?_
    cases hstarts <;> exact h.bind fun value hvalue => .done (by simp [hvalue])
  have hlist : Runs outer (many (fuel + 2) (topItem (fuel + 2))) (.token sight :: more)
      (.goes [.token ⟨.endOfText, afterBreak⟩] fun values =>
        values.map Node.unplaced = [node]) := by
    refine hitem.bind fun value hvalue => ?_
    obtain ⟨found, rfl, hfound⟩ := Option.map_eq_some_iff.mp hvalue
    exact Runs.known none (.token fun _ _ => .done rfl) (.done (by simp [hfound]))
  refine hlist.bind fun values hvalues => .here fun _ => .done ?_
  rw [markDirectives_eq hvalues hplain, Node.unplaced_mk, hvalues]
  rfl

theorem runs_program_fails {outer : Context} (hstarts : Starts sight)
    (h : Runs outer (Parser.read (fuel + 1) (.statement false)) (.token sight :: more) .fails) :
    Runs outer (program (Parser.read (fuel + 1)) (fuel + 1) none) (.token sight :: more)
      .fails := by
  refine Runs.stop (Runs.stop (.token fun _ _ => ?_))
  cases hstarts <;> exact h.stop

/-- A reader that has come to the end of the text without a fault leaves a program. -/
theorem ofReading_done {symbols : List Symbol} {tree : Node} {state : ReaderState}
    (h : At atTop symbols state)
    (hexports : ExportedName.faults tree.children = []) :
    ofReading (.done tree state) = .ok ⟨tree, state.comments.reverse⟩ := by
  have hfaults : faults none state = [] := by
    simp [faults, h.tokenFaults, h.faults, h.openDefaults]
  have hwhole : wholeFaults tree state = [] := by
    simp [wholeFaults, h.dialect, h.isScript, h.scriptFaults, hexports]
  rw [ofReading, hfaults, hwhole]

/-- An expression statement exports nothing. -/
theorem exportFaults_expression {value : Node} (h : value.kind = .expressionStatement) :
    ExportedName.faults [value] = [] := by
  obtain ⟨kind, start, stop, info, children⟩ := value
  obtain rfl : kind = .expressionStatement := h
  rfl

/-- A text that is one expression statement is a program. -/
theorem read_expression {afterBreak : Bool} (hplain : splitHashbang source = (none, ⟨source, 0⟩))
    (hspans : Spans (.token sight :: more) source) (hstarts : Starts sight)
    (h : Runs atTop (Parser.read (depth source) (.statement false)) (.token sight :: more)
      (.tree [.token ⟨.endOfText, afterBreak⟩] node))
    (hkind : node.kind = .expressionStatement) (hdirective : NoDirective [node]) :
    ∃ program, read .plain source = .ok program ∧
      program.tree.unplaced = .of (.program none) [node] := by
  obtain ⟨fuel, hfuel⟩ : ∃ fuel, depth source = fuel + 2 :=
    Nat.exists_eq_add_of_le' (by unfold depth; omega)
  obtain ⟨state, hat, hrun⟩ := exists_run_eq hplain hspans
  rw [hfuel] at h hrun
  obtain ⟨tree, later, hdone, hlater, htree⟩ :=
    Outcome.exists_of_goes (runs_program hstarts h hdirective state hat)
  obtain ⟨value, hchildren, hvalue⟩ : ∃ value : Node, tree.children = [value] ∧
      value.unplaced = node := by
    have hmap : tree.children.map Node.unplaced = [node] := by
      rw [← Node.children_unplaced, htree]
      rfl
    exact List.map_eq_singleton_iff.mp hmap
  have hvalueKind : value.kind = .expressionStatement :=
    (Node.kind_eq_of_unplaced hvalue (by rw [hkind]; rfl)).trans hkind
  have hexports : ExportedName.faults tree.children = [] := by
    rw [hchildren]
    exact exportFaults_expression hvalueKind
  have hok := ofReading_done hlater hexports
  refine ⟨⟨tree, later.comments.reverse⟩, ?_, htree⟩
  rw [← hok]
  unfold read
  simp only [show (Dialect.plain.kind == .module) = false from rfl, hrun, hdone, hlater.isScript]
  simp

/-- A text whose first statement fails is no program. -/
theorem read_fails (hplain : splitHashbang source = (none, ⟨source, 0⟩))
    (hspans : Spans (.token sight :: more) source) (hstarts : Starts sight)
    (h : Runs atTop (Parser.read (depth source) (.statement false)) (.token sight :: more) .fails) :
    ∃ place, read .plain source = .error place := by
  obtain ⟨fuel, hfuel⟩ : ∃ fuel, depth source = fuel + 1 :=
    Nat.exists_eq_add_of_le' (by unfold depth; omega)
  obtain ⟨state, hat, hrun⟩ := exists_run_eq hplain hspans
  rw [hfuel] at h hrun
  obtain ⟨place, later, hfailed⟩ := Outcome.exists_of_fails (runs_program_fails hstarts h state hat)
  refine ⟨report later ((faults (some place) later).head?.getD place), ?_⟩
  unfold read
  simp only [show (Dialect.plain.kind == .module) = false from rfl, hrun, hfailed]
  rfl

end Program

end Bundler.Script
