import Bundler.Proofs.Script.Reading.Whole
import Bundler.Script.Printer

/-! What is printed for a tree of which only the shape is known. Where no comments are left, the
text of a node is put together from the texts of its parts, wherever they stood. -/

namespace Bundler.Script

namespace Output

variable {output : Output} {text more : List Char}

/-- The output with a text behind it. -/
def extend (output : Output) (text : List Char) : Output :=
  { output with
    reversed := text.reverse ++ output.reversed
    length := output.length + text.length }

@[simp]
theorem extend_nil : output.extend [] = output := rfl

@[simp]
theorem extend_extend : (output.extend text).extend more = output.extend (text ++ more) := by
  simp [extend, Nat.add_assoc]

/-- The output where the expression of a statement begins. -/
def begin (output : Output) : Output := { output with statementStart := some output.length }

/-- Nothing stands in the way of the next piece: no comment is to come, and the piece cannot run
into what was written last. -/
structure Ready (output : Output) : Prop where
  comments : output.comments = []
  numberEnd : output.numberEnd = none
  regexEnd : output.regexEnd = none
  last : ∀ c ∈ output.reversed.head?, continuesName c = false

theorem Ready.extend (h : output.Ready) {c : Char} (hc : continuesName c = false) :
    (output.extend (text ++ [c])).Ready := by
  refine ⟨h.comments, h.numberEnd, h.regexEnd, fun d hd => ?_⟩
  obtain rfl : c = d := by simpa [Output.extend] using hd
  exact hc

end Output

namespace Tree

@[simp]
theorem writeFree_eq (tree : Laid) : tree.writeFree = tree.write .free := rfl

@[simp]
theorem writeItem_eq (tree : Laid) : tree.writeItem = tree.write .item := rfl

@[simp]
theorem write_node (kind : Kind) (start stop : Nat) (layout : Layout) (parts : List Laid) :
    Tree.write (.node kind start stop layout parts) = layout := rfl

end Tree

namespace Writer

@[simp]
theorem run_chars (text : List Char) (output : Output) :
    (chars text).run output = pure ((), output.extend text) := by
  unfold chars Output.extend
  rw [← List.foldl_flip_cons_eq_append']
  rfl

@[simp]
theorem run_text (piece : String) (output : Output) :
    (text piece).run output = pure ((), output.extend piece.toList) := run_chars ..

theorem run_name {output : Output} (h : output.Ready) (piece : String) :
    (name piece).run output = pure ((), output.extend piece.toList) := by
  have hseparate : separateName.run output = pure ((), output) := by
    unfold separateName
    rcases hreversed : output.reversed with _ | ⟨c, rest⟩
    · simp [hreversed]
    · have hc := h.last c (by simp [hreversed])
      simp [hreversed, hc, h.regexEnd]
  simp [name, hseparate]

@[simp]
theorem wrap_false (inner : Writer Unit) : wrap false inner = inner := by
  simp [wrap]

theorem takeComments_eq {output : Output} (h : output.comments = []) (place : Nat) :
    (takeComments place).run output = pure ([], output) := by
  simp [takeComments, h]

theorem hasComments_eq {output : Output} (h : output.comments = []) (place : Nat) :
    (hasComments place).run output = pure (false, output) := by
  simp [hasComments, h]

end Writer

/-- A tree is printed as a text, wherever its parts stand. -/
def Prints (around : Surroundings) (node : Node) (text : List Char) : Prop :=
  ∀ tree : Node, tree.unplaced = node → ∀ output : Output, output.Ready →
    ((tree.annotate Layout.ofParts).write around).run output = pure ((), output.extend text)

variable {around : Surroundings} {front inner : List Char} {object value : Node}

theorem prints_name (text : String) : Prints around (.of (.name text) []) text.toList := by
  intro tree htree output hready
  obtain ⟨start, stop, parts, rfl, hparts⟩ := Node.exists_of_unplaced htree rfl
  exact Writer.run_name hready text

theorem prints_string (value raw : String) (lone : Bool) :
    Prints around (.of (.string value raw lone) []) (Quote.text value lone) := by
  intro tree htree output hready
  obtain ⟨start, stop, parts, rfl, hparts⟩ := Node.exists_of_unplaced htree rfl
  exact Writer.run_chars ..

theorem Prints.member {name : String} (h : Prints (around.callsOnly .postfixed) object front) :
    Prints around (.of (.member false) [object, .of (.name name) []])
      (front ++ '.' :: name.toList) := by
  intro tree htree output hready
  obtain ⟨start, stop, parts, rfl, hparts⟩ := Node.exists_of_unplaced htree rfl
  obtain ⟨left, rest, rfl, hleft, hrest⟩ := List.map_eq_cons_iff.mp hparts
  obtain ⟨right, rfl, hright⟩ := List.map_eq_singleton_iff.mp hrest
  have hwrite := h left hleft output hready
  have hname := @prints_name .free name right hright (output.extend (front ++ ['.']))
    (hready.extend (by decide))
  change (Layout.member false (left.annotate Layout.ofParts) (right.annotate Layout.ofParts)
    around).run output = _
  have hnumber : (output.extend front).numberEnd = none := hready.numberEnd
  simp [Layout.member, hwrite, hnumber, hname]

/-- A call keeps the marks of where an expression began. -/
theorem run_reopen (output : Output) :
    (Layout.reopen (output.statementStart == some output.length)
      (output.defaultStart == some output.length)).run output = pure ((), output) := by
  have hsame : (if output.defaultStart == some output.length then
        { output with defaultStart := some output.length }
      else if output.statementStart == some output.length then
        { output with statementStart := some output.length }
      else output) = output := by
    split
    · rename_i h
      rw [← eq_of_beq h]
    · split
      · rename_i h
        rw [← eq_of_beq h]
      · rfl
  exact congrArg (Prod.mk ()) hsame

theorem run_arguments {item : Laid} {output : Output} (stop : Nat)
    (hcomments : output.comments = [])
    (h : (item.write .item).run (output.extend ['(']) =
      pure ((), output.extend ('(' :: inner))) :
    (Layout.arguments [item] stop).run output =
      pure ((), output.extend ('(' :: inner ++ [')'])) := by
  have hnone := Writer.hasComments_eq hcomments
  simp [Layout.arguments, hnone, Writer.commas, Writer.separated, h]

/-- A call with one argument. -/
theorem Prints.call (hcallee : Prints (.of .postfixed) object front)
    (hitem : Prints .item value inner) (haround : around.precedence < Precedence.new_)
    (hcalls : around.forbidsCall = false) :
    Prints around (.of (.call false false) [object, .absent, .list [value]])
      (front ++ '(' :: inner ++ [')']) := by
  intro tree htree output hready
  obtain ⟨start, stop, parts, rfl, hparts⟩ := Node.exists_of_unplaced htree rfl
  obtain ⟨callee, rest, rfl, hplain, hrest⟩ := List.map_eq_cons_iff.mp hparts
  obtain ⟨generics, rest, rfl, hgenerics, hrest⟩ := List.map_eq_cons_iff.mp hrest
  obtain ⟨items, rfl, hitems⟩ := List.map_eq_singleton_iff.mp hrest
  obtain ⟨_, _, _, rfl, -⟩ := @Node.exists_of_unplaced _ .absent _ hgenerics rfl
  obtain ⟨_, _, list, rfl, hlist⟩ := @Node.exists_of_unplaced _ .list _ hitems rfl
  obtain ⟨item, rfl, hone⟩ := List.map_eq_singleton_iff.mp hlist
  have hwrite := hcallee callee hplain output hready
  have hinner := hitem item hone (output.extend (front ++ ['('])) (hready.extend (by decide))
  have harguments : (Layout.arguments [item.annotate Layout.ofParts] stop).run
      (output.extend front) = pure ((), (output.extend front).extend ('(' :: inner ++ [')'])) :=
    run_arguments stop hready.comments (by simpa using hinner)
  change (Layout.call false false stop (callee.annotate Layout.ofParts)
    (.node .absent _ _ Layout.nothing _) (.node .list _ _ _ [item.annotate Layout.ofParts])
    around).run output = _
  have hlow : decide (Precedence.new_ ≤ around.precedence) = false := by simpa using haround
  simp [Layout.call, hlow, hcalls, Layout.noteEffectFree, run_reopen, hwrite, Tree.children,
    harguments, Layout.nothing]

theorem Prints.assign {op : AssignOp} (htarget : Prints .item object front)
    (hvalue : Prints (around.at_ .comma) value inner)
    (haround : around.precedence < Precedence.assign) (hkind : object.kind ≠ .objectTarget) :
    Prints around (.of (.assign op) [object, value])
      (front ++ (" " ++ op.text ++ " ").toList ++ inner) := by
  intro tree htree output hready
  obtain ⟨start, stop, parts, rfl, hparts⟩ := Node.exists_of_unplaced htree rfl
  obtain ⟨target, rest, rfl, hplain, hrest⟩ := List.map_eq_cons_iff.mp hparts
  obtain ⟨right, rfl, hright⟩ := List.map_eq_singleton_iff.mp hrest
  have hwrite := htarget target hplain output hready
  have hinner := hvalue right hright (output.extend (front ++ (" " ++ op.text).toList ++ [' ']))
    (hready.extend (by decide))
  change (Layout.assign op (target.annotate Layout.ofParts) (right.annotate Layout.ofParts)
    around).run output = _
  have hlow : decide (Precedence.assign ≤ around.precedence) = false := by simpa using haround
  have hobject : Layout.isObjectTarget (target.annotate Layout.ofParts) = false := by
    obtain ⟨kind, first, last, ⟨⟩, children⟩ := target
    rw [← hplain] at hkind
    cases kind <;> first | rfl | exact absurd rfl hkind
  simp at hinner
  simp [Layout.assign, Layout.atBlockPlace, hwrite, hlow, hobject, hinner]

/-! ### Programs -/

theorem run_leadingComments {output : Output} (h : output.comments = []) (place : Nat) :
    (Writer.leadingComments place).run output = pure ((), output) := by
  simp [Writer.leadingComments, Writer.takeComments_eq h, Writer.comments]

/-- An expression as a statement on a line of its own. -/
theorem run_statement {expression : Node} {output : Output} (first last : Nat)
    (h : Prints .free value inner) (hplain : expression.unplaced = value) (hready : output.Ready)
    (hindent : output.indent = 0) (hspace : output.spaceNext = false) :
    (Writer.statement ((Node.mk .expressionStatement first last [expression]).annotate
      Layout.ofParts)).run output = pure ((), output.begin.extend (inner ++ [';', '\n'])) := by
  have hwrite : (Layout.expressionStatement (expression.annotate Layout.ofParts) .free).run output =
      pure ((), output.begin.extend inner) :=
    h expression hplain output.begin
      ⟨hready.comments, hready.numberEnd, hready.regexEnd, hready.last⟩
  change (Writer.statement (.node .expressionStatement first last
    (Layout.expressionStatement (expression.annotate Layout.ofParts))
    [expression.annotate Layout.ofParts])).run output = _
  simp [Writer.statement, Tree.start, Tree.kind, run_leadingComments hready.comments,
    Writer.startLine, hindent, hspace, Writer.declaresEffectFree, hwrite, Writer.ending,
    Kind.ending, Writer.endStatement]

/-- A program of one assignment, without comments. -/
theorem render_assign {program : Program} {markup : Bool} {op : AssignOp} {children : List Node}
    (h : Prints .free (.of (.assign op) children) inner) (hcomments : program.comments = [])
    (htree : program.tree.unplaced =
      .of (.program none) [.of .expressionStatement [.of (.assign op) children]]) :
    Program.render program markup = String.ofList (inner ++ [';', '\n']) := by
  obtain ⟨tree, comments⟩ := program
  obtain rfl : comments = [] := hcomments
  obtain ⟨start, stop, parts, rfl, hparts⟩ := @Node.exists_of_unplaced tree _ _ htree rfl
  obtain ⟨statement, rfl, hstatement⟩ := List.map_eq_singleton_iff.mp hparts
  obtain ⟨first, last, parts, rfl, hexpression⟩ := Node.exists_of_unplaced hstatement rfl
  obtain ⟨expression, rfl, hassign⟩ := List.map_eq_singleton_iff.mp hexpression
  have hrun := @run_statement _ _ expression (Program.blank [] markup) first last h hassign
    ⟨rfl, rfl, rfl, nofun⟩ rfl rfl
  obtain ⟨start', stop', parts, rfl, -⟩ := Node.exists_of_unplaced hassign rfl
  have hprogram : (Layout.program none stop
      [(Node.mk .expressionStatement first last [.mk (.assign op) start' stop' parts]).annotate
        Layout.ofParts] .free).run (Program.blank [] markup) =
      pure ((), (Program.blank [] markup).begin.extend (inner ++ [';', '\n'])) := by
    have hone : Writer.statements
        [(Node.mk .expressionStatement first last [.mk (.assign op) start' stop' parts]).annotate
          Layout.ofParts] = (do
        Writer.statement ((Node.mk .expressionStatement first last
          [.mk (.assign op) start' stop' parts]).annotate Layout.ofParts)
        return ()) := rfl
    have hlast : (Writer.leadingComments stop).run
        ((Program.blank [] markup).begin.extend (inner ++ [';', '\n'])) = _ :=
      run_leadingComments rfl stop
    simp [Layout.program, hone, hrun, hlast]
  refine (congrArg (fun written => String.ofList written.2.reversed.reverse) hprogram).trans ?_
  change String.ofList ((inner ++ [';', '\n']).reverse ++ []).reverse = _
  simp

end Bundler.Script
