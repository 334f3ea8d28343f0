import Bundler.Loader
import Bundler.Proofs.Script.Leftover
import Bundler.Proofs.Script.Printing
import Bundler.Proofs.Script.Reading.Bare

/-! A JSON document on its way into the output. It goes into a string literal, the text with the
literal is read as a program, and the program is printed with a literal of the printer's own. -/

namespace Bundler

namespace Script

/-! ### Requirements of a tree without places -/

theorem Node.requires_unplaced (node : Node) : node.unplaced.requires = node.requires := by
  obtain ⟨kind, start, stop, ⟨⟩, children⟩ := node
  cases children with
  | nil => cases kind <;> rfl
  | cons first rest =>
      obtain ⟨inner, _, _, ⟨⟩, _⟩ := first
      cases kind <;> first | rfl | (cases inner <;> rfl)

mutual

theorem Node.nodes_unplaced : ∀ node : Node, node.unplaced.nodes = node.nodes.map unplaced
  | .node kind start stop _ children => by
      rw [Node.unplaced, Tree.nodes, Tree.nodes, Node.nodesAll_unplaced children]
      rfl

theorem Node.nodesAll_unplaced : ∀ nodes : List Node,
    Tree.nodesAll (unplacedAll nodes) = (Tree.nodesAll nodes).map unplaced
  | [] => rfl
  | node :: rest => by
      rw [unplacedAll, Tree.nodesAll, Tree.nodesAll, List.map_append, Node.nodes_unplaced node,
        Node.nodesAll_unplaced rest]

end

/-- Extensions of files that are read in a language of their own. -/
def scriptExtensions : List String := ["mjs", "cjs", "jsx", "ts", "mts", "cts", "tsx"]

theorem ofPath_eq_plain {path : Path}
    (h : ∀ extension ∈ path.extension?, extension ∉ scriptExtensions) :
    Dialect.ofPath path = .plain := by
  unfold Dialect.ofPath
  split
  · rename_i name extension _ hextension
    have hnone := h extension hextension
    unfold Dialect.ofName
    split <;> first | rfl | exact absurd (by decide) hnone
  · rfl

/-! ### The module made of a document -/

namespace Document

/-- What stands before the literal. -/
def front : List Char := "module.exports = JSON.parse(".toList

/-- What stands behind the literal. -/
def back : List Char := ");\n".toList

/-- The text of the module, around its literal. -/
def code (literal : List Char) : List Char := front ++ literal ++ back

/-- The tokens of the text. -/
def sights (value raw : String) : List Sight :=
  [.word "module" .module_, .sign .dot, .name "exports", .sign .equal, .name "JSON", .sign .dot,
    .name "parse", .sign .parenOpen, ⟨.string value raw false, false⟩, .sign .parenClose,
    .sign .semicolon, ⟨.endOfText, true⟩]

/-- What is assigned to. -/
def exports : Node := .of (.member false) [.of (.name "module") [], .of (.name "exports") []]

/-- What is called. -/
def parse : Node := .of (.member false) [.of (.name "JSON") [], .of (.name "parse") []]

/-- The call, with the literal alone as its argument. -/
def parsed (value raw : String) : Node :=
  .of (.call false false) [parse, .absent, .list [.of (.string value raw false) []]]

/-- The program whose only statement assigns what `JSON.parse` makes of the literal to
`module.exports`. -/
def tree (value raw : String) : Node :=
  .of (.program none) [.of .expressionStatement [.of (.assign .plain) [exports, parsed value raw]]]

variable {source part : List Char} {text raw : String}

open Script.Parser in
/-- The tokens are read as the program. -/
theorem read_of_meetsAll {after : Cursor}
    (hplain : Program.splitHashbang source = (none, ⟨source, 0⟩))
    (h : MeetsAll (sights text raw) ⟨source, 0⟩ after) :
    ∃ program, Program.read .plain source = .ok program ∧ program.comments = [] ∧
      program.tree.unplaced = tree text raw := by
  obtain ⟨s₀, a₀, h₀, s₁, a₁, h₁, s₂, a₂, h₂, s₃, a₃, h₃, s₄, a₄, h₄, s₅, a₅, h₅, s₆, a₆, h₆,
    s₇, a₇, h₇, s₈, a₈, h₈, s₉, a₉, h₉, s₁₀, a₁₀, h₁₀, s₁₁, a₁₁, h₁₁, -⟩ := h
  obtain ⟨fuel, hfuel⟩ : ∃ fuel, Program.depth source = fuel + 8 :=
    Nat.exists_eq_add_of_le' (by unfold Program.depth; omega)
  -- the states of the reader at `module`, `=`, `JSON`, `(` and the literal
  let state := Program.opening (.word "module" .module_) s₀ a₀
  let assigned := ((state.onto (.sign .dot) s₁ a₁).onto (.name "exports") s₂ a₂).onto
    (.sign .equal) s₃ a₃
  let value := assigned.onto (.name "JSON") s₄ a₄
  let called := ((value.onto (.sign .dot) s₅ a₅).onto (.name "parse") s₆ a₆).onto
    (.sign .parenOpen) s₇ a₇
  let argument := called.onto ⟨.string text raw false, false⟩ s₈ a₈
  have hexports : Gives (leftSide (read (fuel + 4)) (fuel + 4)) state exports assigned :=
    .leftSide (primary_name (.inr rfl) rfl h₁) <| .dot nofun rfl h₂ h₃ <|
      chains_end rfl (.of_stops (.equal false))
  have hstring : Gives (read (fuel + 3) (.assignment true)) argument
      (.of (.string text raw false) []) (argument.onto (.sign .parenClose) s₉ a₉) :=
    .value rfl (.string text raw false false) nofun rfl (.paren false) <|
      .leftSide (primary_string rfl h₉) <|
        chains_end rfl (.of_stops (.of_closes (.paren false)))
  have hparsed : Gives (leftSide (read (fuel + 3)) (fuel + 3)) value (parsed text raw) _ :=
    .leftSide (primary_name (.inl rfl) rfl h₅) <| .dot nofun rfl h₆ h₇ <|
      .call nofun rfl (gives_callArguments ⟨rfl, rfl, rfl⟩ rfl h₈ (.string text raw false false)
        hstring rfl rfl h₁₀) <|
        chains_end rfl (.of_stops (.of_closes (.semicolon false)))
  have hassign : Gives (read (fuel + 6) (.assignment true)) state
      (.of (.assign .plain) [exports, parsed text raw]) _ :=
    .assign rfl (.module_ _ _) nofun rfl hexports rfl h₄ <|
      .value rfl (.name _ _) nofun rfl (.semicolon false) hparsed
  have hstatement : Gives (read (fuel + 8) (.statement false)) state _ _ :=
    .statement rfl rfl (.expressionStatement hassign rfl h₁₁)
  rw [← hfuel] at hstatement
  refine @Program.read_of_gives _ _ _ _ _ _ true hplain h₀ hstatement ?_ rfl rfl
    (noDirective_expression nofun)
  exact ⟨rfl, rfl, rfl, rfl, rfl, rfl, rfl, nofun, _, _, _, _, rfl, rfl, trivial⟩

theorem plainTokens_front : plainTokens 8 front =
    ([.word "module" .module_, .sign .dot, .name "exports", .sign .equal, .name "JSON",
      .sign .dot, .name "parse", .sign .parenOpen], []) := by
  decide +kernel

theorem plainTokens_back :
    plainTokens 2 back = ([.sign .parenClose, .sign .semicolon], ['\n']) := by
  decide +kernel

/-- The text consists of its tokens, whatever its literal holds. -/
theorem exists_meetsAll (hadds : Adds part ('"' :: back) (text.toList.map Unit16.char)) :
    ∃ raw after, MeetsAll (sights text raw) ⟨code ('"' :: part ++ ['"']), 0⟩ after := by
  obtain ⟨stop, hfront⟩ := exists_meetsAll_plain plainTokens_front ('"' :: part ++ '"' :: back) 0
  obtain ⟨raw, start, stop', hstring⟩ := exists_meets_string hadds stop
  obtain ⟨last, hback⟩ := exists_meetsAll_plain plainTokens_back [] stop'
  obtain ⟨_, _, hend⟩ := @leads_end ['\n'] (by decide) last
  have htext : code ('"' :: part ++ ['"']) = front ++ ('"' :: part ++ '"' :: back) := by
    simp [code]
  rw [List.append_nil] at hback
  rw [htext]
  exact ⟨raw, _, hfront.append ⟨_, _, hstring, hback.append ⟨_, _, hend, rfl⟩⟩⟩

/-- The text has no hashbang line. -/
theorem splitHashbang_code (literal : List Char) :
    Program.splitHashbang (code literal) = (none, ⟨code literal, 0⟩) := by
  obtain ⟨rest, hfront⟩ : ∃ rest, front = 'm' :: 'o' :: rest :=
    ⟨front.drop 2, by decide +kernel⟩
  rw [code, hfront]
  rfl

theorem exists_read_code (hadds : Adds part ('"' :: back) (text.toList.map Unit16.char)) :
    ∃ program raw, Program.read .plain (code ('"' :: part ++ ['"'])) = .ok program ∧
      program.comments = [] ∧ program.tree.unplaced = tree text raw := by
  obtain ⟨raw, after, hmeets⟩ := exists_meetsAll hadds
  obtain ⟨program, hread⟩ := read_of_meetsAll (splitHashbang_code _) hmeets
  exact ⟨program, raw, hread⟩

/-- Nothing in the document is a requirement. -/
theorem not_requires {node : Node} (h : node.unplaced = tree text raw) :
    ∀ call ∈ node.nodes, Node.requires call = false := by
  intro call hcall
  have hall : (tree text raw).nodes.all (fun node => !Node.requires node) = true := rfl
  rw [← h, Node.nodes_unplaced, List.all_map, List.all_eq_true] at hall
  simpa [Node.requires_unplaced] using hall call hcall

/-- The program is printed as the text that it was read from, but for the way in which the literal
is written. -/
theorem render_eq {program : Program} {markup : Bool} (hcomments : program.comments = [])
    (htree : program.tree.unplaced = tree text raw) :
    program.render markup = String.ofList (code (Quote.text text false)) := by
  have hexports : Prints .item exports ("module".toList ++ '.' :: "exports".toList) :=
    (prints_name "module").member
  have hparse : Prints (.of .postfixed) parse ("JSON".toList ++ '.' :: "parse".toList) :=
    (prints_name "JSON").member
  have hparsed : Prints .item (parsed text raw)
      ("JSON".toList ++ '.' :: "parse".toList ++ '(' :: Quote.text text false ++ [')']) :=
    hparse.call (prints_string text raw false) (by decide) rfl
  have hassign := @Prints.assign .free _ _ exports (parsed text raw) .plain hexports hparsed
    (by decide) nofun
  rw [render_assign hassign hcomments htree]
  have hfront : front =
      "module".toList ++ '.' :: "exports".toList ++ (" " ++ AssignOp.plain.text ++ " ").toList ++
        ("JSON".toList ++ '.' :: "parse".toList ++ ['(']) := by
    decide +kernel
  have hback : back = [')', ';', '\n'] := by decide +kernel
  rw [code, hfront, hback]
  simp only [List.append_assoc, List.cons_append, List.nil_append]

end Document

end Script

namespace Loader

open Script

/-- A text is a program of one statement, which assigns what `JSON.parse` makes of a string literal
to `module.exports`, and the literal denotes the document. -/
def Exports (code document : String) : Prop :=
  ∃ program raw, Program.read .plain code.toList = .ok program ∧
    program.tree.unplaced = Document.tree document raw

theorem json_eq_ok {source output : String} {context : LoaderContext}
    (h : (json source context).result = .ok output) :
    output.toList = Document.code (Json.quote (withoutMark source)).toList := by
  cases hparse : Json.parse (withoutMark source) with
  | error reason =>
      simp only [json, hparse] at h
      cases h
  | ok value =>
      simp only [json, hparse] at h
      obtain rfl := Except.ok.inj h
      unfold Document.code Document.front Document.back
      rw [← String.toList_append, ← String.toList_append]
      rfl

/-- A document gets through its loader, the reader and the printer as it is, and without a
dependency. What is printed is read as the same program again. -/
theorem json_exports_document {disk : Disk} {resolver : Resolver} {context : LoaderContext}
    {source output id : String} {path : Path}
    (hpath : ∀ extension ∈ path.extension?, extension ∉ scriptExtensions)
    (hload : (json source context).result = .ok output) :
    Exports output (withoutMark source) ∧
      ∃ literal, StandsFor literal (withoutMark source) ∧
        (Script.rewrite disk resolver output path id).result =
          .ok ⟨String.ofList (Document.code literal), .empty⟩ ∧
        Exports (String.ofList (Document.code literal)) (withoutMark source) := by
  have houtput := json_eq_ok hload
  rw [Json.quote, String.toList_ofList, Json.quoteChars] at houtput
  have hdialect : Dialect.ofPath path = .plain := ofPath_eq_plain hpath
  obtain ⟨program, raw, hread, hcomments, htree⟩ :=
    @Document.exists_read_code _ (withoutMark source) (adds_quoteChars _ _)
  obtain ⟨again, raw', hagain, -, htree'⟩ :=
    @Document.exists_read_code _ (withoutMark source) (adds_plain _ _).1
  rw [← houtput] at hread
  refine ⟨⟨program, raw, hread, htree⟩, _, standsFor_text (withoutMark source), ?_, again, raw',
    ?_, htree'⟩
  · rw [rewrite_eq_of_not_requires (by rw [hdialect]; exact hread) (Document.not_requires htree),
      Document.render_eq hcomments htree]
  · rw [String.toList_ofList]
    exact hagain

set_option maxRecDepth 100000 in
/-- A document that holds a mark, quotes, escapes, line breaks and what would be a requirement. -/
theorem json_exports_document_quoted :
    let document : String :=
      "\x7b\"a\\\"\\n\": \"require('./x') // <\u2028\u2029/script>\"\x7d\r\n"
    let source : String := "\uFEFF" ++ document
    let path : Path := ⟨"/r/data.json"⟩
    ∃ output code, (json source ⟨path, ⟨"/r"⟩, "main"⟩).result = .ok output ∧
      (Script.rewrite ⟨⟨[]⟩, []⟩ (.ofRoot ⟨"/r"⟩ [".js"]) output path "./data.json").result =
        .ok ⟨code, .empty⟩ ∧ Exports output document ∧ Exports code document := by
  intro document source path
  have hok : (json source ⟨path, ⟨"/r"⟩, "main"⟩).result.isOk = true := by decide +kernel
  have hdocument : withoutMark source = document := by decide +kernel
  obtain ⟨output, hload⟩ := exists_eq_ok hok
  obtain ⟨houtput, literal, -, hrewrite, hcode⟩ :=
    @json_exports_document ⟨⟨[]⟩, []⟩ (.ofRoot ⟨"/r"⟩ [".js"]) _ source output "./data.json" path
      (by decide +kernel) hload
  rw [hdocument] at houtput hcode
  exact ⟨output, _, hload, hrewrite, houtput, hcode⟩

end Loader
end Bundler
