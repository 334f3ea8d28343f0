import Bundler.Proofs.Script.Dependencies

/-! The calls that rewriting leaves. No call of the bare name is left in the tree. A call whose
callee stands in parentheses is passed over, and as parentheses are not written, it is written like
a call of the bare name. -/

namespace Bundler.Script

/-! ### The nodes of a tree -/

namespace Tree

variable {α : Type}

mutual

/-- All nodes of a tree, each before its parts. -/
def nodes : Tree α → List (Tree α)
  | .node kind start stop value children =>
    .node kind start stop value children :: nodesAll children

def nodesAll : List (Tree α) → List (Tree α)
  | [] => []
  | tree :: rest => nodes tree ++ nodesAll rest

end

theorem mem_nodesAll_iff {trees : List (Tree α)} {node : Tree α} :
    node ∈ nodesAll trees ↔ ∃ tree ∈ trees, node ∈ tree.nodes := by
  induction trees with
  | nil => simp [nodesAll]
  | cons tree rest ih => simp [nodesAll, ih]

/-- The nodes of a tree are those that stand at some place in it. -/
theorem mem_nodes_of_at? {path : List Nat} {tree node : Tree α} (h : tree.at? path = some node) :
    node ∈ tree.nodes := by
  induction path generalizing tree with
  | nil =>
      obtain rfl := Option.some.inj h
      cases tree
      exact List.mem_cons_self
  | cons index path ih =>
      obtain ⟨kind, start, stop, value, children⟩ := tree
      obtain ⟨child, hchild, hat⟩ := Option.bind_eq_some_iff.mp h
      rw [nodes]
      have hmem : child ∈ children := List.mem_of_getElem? hchild
      exact List.mem_cons_of_mem _ (mem_nodesAll_iff.mpr ⟨child, hmem, ih hat⟩)

mutual

theorem exists_at?_of_mem_nodes {node : Tree α} :
    ∀ tree : Tree α, node ∈ tree.nodes → ∃ path, tree.at? path = some node
  | .node kind start stop value children, h => by
      rw [nodes] at h
      rcases List.mem_cons.mp h with rfl | h
      · exact ⟨[], rfl⟩
      · obtain ⟨index, child, path, hchild, hat⟩ := exists_at?_of_mem_nodesAll children h
        exact ⟨index :: path, Option.bind_eq_some_iff.mpr ⟨child, hchild, hat⟩⟩

theorem exists_at?_of_mem_nodesAll {node : Tree α} :
    ∀ trees : List (Tree α), node ∈ nodesAll trees →
      ∃ (index : Nat) (tree : Tree α) (path : List Nat), trees[index]? = some tree ∧
        tree.at? path = some node
  | [], h => by simp [nodesAll] at h
  | tree :: rest, h => by
      rw [nodesAll] at h
      rcases List.mem_append.mp h with h | h
      · obtain ⟨path, hat⟩ := exists_at?_of_mem_nodes tree h
        exact ⟨0, tree, path, rfl, hat⟩
      · obtain ⟨index, other, path, hother, hat⟩ := exists_at?_of_mem_nodesAll rest h
        exact ⟨index + 1, other, path, hother, hat⟩

end

end Tree

/-! ### Callees -/

/-- Whether a callee of this kind calls what its first part is. -/
def Kind.wraps : Kind → Bool
  | .parenthesized | .instantiation => true
  | _ => false

namespace Node

/-- A callee without parentheses and arguments for types around it. -/
def core : Node → Node
  | .node kind start stop value (inner :: rest) =>
    if kind.wraps then core inner else .node kind start stop value (inner :: rest)
  | node => node

/-- The name that a call calls, bare or not. -/
def calledName? : Node → Option String
  | .node (.call _ _) _ _ _ (callee :: _) =>
    match (core callee).kind with
    | .name text => some text
    | _ => none
  | _ => none

/-- Whether a call requires a module by a name that is not bare. -/
def hidesRequire (node : Node) : Bool :=
  node.calledName? == some requireName && !node.requires

/-- The names that are called in a program. -/
def calledNames (tree : Node) : List String :=
  tree.nodes.filterMap calledName?

end Node

theorem core_of_not_wraps {kind : Kind} (h : kind.wraps = false) (start stop : Nat)
    (children : List Node) :
    Node.core (.node kind start stop () children) = .node kind start stop () children := by
  cases children with
  | nil => rfl
  | cons first rest => rw [Node.core, if_neg (by simp [h])]

theorem core_of_wraps {kind : Kind} (h : kind.wraps = true) (start stop : Nat) (first : Node)
    (rest : List Node) :
    Node.core (.node kind start stop () (first :: rest)) = first.core := by
  rw [Node.core, if_pos h]

theorem isRequire_of_wraps {kind : Kind} (h : kind.wraps = true) (children : List Node) :
    isRequire kind children = false := by
  rw [Bool.eq_false_iff, ne_eq, isRequire_iff]
  rintro ⟨optional, effectFree, _, _, rfl, -⟩
  cases h

namespace Requirer

variable {requirer : Requirer} {table : Table Path}

theorem core_kind_of_rewrite : ∀ (node : Node) {table : Table Path} {after : Node},
    (requirer.rewrite node table).result = .ok after → after.core.kind = node.core.kind
  | .node kind start stop () children, table, after, h => by
      cases hwraps : kind.wraps with
      | false =>
          obtain ⟨target, inner, -, -, rfl, -⟩ := rewrite_eq_ok h
          rw [core_of_not_wraps hwraps, core_of_not_wraps hwraps]
          rfl
      | true =>
          obtain ⟨middle, inner, hinner, rfl⟩ :=
            rewrite_eq_ok_of_not_require (isRequire_of_wraps hwraps children) h
          match children with
          | [] =>
              obtain rfl := Except.ok.inj hinner
              rfl
          | first :: rest =>
              obtain ⟨first', others, hfirst, -, rfl, -⟩ := rewriteAll_cons_eq_ok hinner
              rw [core_of_wraps hwraps, core_of_wraps hwraps]
              exact core_kind_of_rewrite first hfirst

/-- What a call is depends on nothing but the kinds of its callee, bare or not. -/
theorem calls_congr (kind : Kind) (start stop : Nat) {first first' : Node} (rest others : List Node)
    (hkind : first'.kind = first.kind) (hcore : first'.core.kind = first.core.kind) :
    Node.requires (.node kind start stop () (first' :: others)) =
        Node.requires (.node kind start stop () (first :: rest)) ∧
      Node.hidesRequire (.node kind start stop () (first' :: others)) =
        Node.hidesRequire (.node kind start stop () (first :: rest)) := by
  have hrequires : Node.requires (.node kind start stop () (first' :: others)) =
      Node.requires (.node kind start stop () (first :: rest)) := by
    rw [Bool.eq_iff_iff, Node.requires, Node.requires]
    simp only [Tree.kind, Tree.children, isRequire_iff, List.cons.injEq]
    constructor
    · rintro ⟨optional, effectFree, callee, parts, hcall, ⟨rfl, -⟩, hname⟩
      exact ⟨optional, effectFree, first, rest, hcall, ⟨rfl, rfl⟩, hkind.symm.trans hname⟩
    · rintro ⟨optional, effectFree, callee, parts, hcall, ⟨rfl, -⟩, hname⟩
      exact ⟨optional, effectFree, first', others, hcall, ⟨rfl, rfl⟩, hkind.trans hname⟩
  have hcalled : Node.calledName? (.node kind start stop () (first' :: others)) =
      Node.calledName? (.node kind start stop () (first :: rest)) := by
    cases kind with
    | call optional effectFree => simp only [Node.calledName?, hcore]
    | _ => rfl
  exact ⟨hrequires, by rw [Node.hidesRequire, Node.hidesRequire, hcalled, hrequires]⟩

/-- A call that is redirected requires no more, and nothing in it changes between hiding what it
requires and not. -/
theorem nodes_redirect {optional effectFree : Bool} {start stop : Nat} {id value raw : String}
    {lone : Bool} {callee generics : Node} {kind : Kind} {s e a b : Nat} {parts rest : List Node}
    (hcallee : callee.kind = .name requireName) :
    let inner := [callee, generics,
      .node kind s e () (.node (.string value raw lone) a b () parts :: rest)]
    let summary (node : Node) := (node.hidesRequire, node.requires)
    summary (.node (.call optional effectFree) start stop () (redirect id inner)) ::
        (Tree.nodesAll (redirect id inner)).map summary =
      (false, false) :: (Tree.nodesAll inner).map summary := by
  intro inner summary
  obtain ⟨calleeKind, c, d, v, calleeParts⟩ := callee
  obtain rfl : calleeKind = .name requireName := hcallee
  have hroot : summary (.node (.call optional effectFree) start stop () (redirect id inner)) =
      (false, false) := by
    have hcalled : Node.calledName? (.node (.call optional effectFree) start stop ()
        (redirect id inner)) = some runtimeName := by
      simp only [inner, redirect, Tree.withKind, Node.calledName?]
      rw [core_of_not_wraps rfl]
      rfl
    have hname : (some runtimeName == some requireName) = false := by decide
    refine Prod.ext ?_ ?_
    · simp only [summary, Node.hidesRequire, hcalled, hname, Bool.false_and]
    · rfl
  have hlist : ∀ text, summary (.node kind s e () (.node (.string text raw lone) a b () parts ::
      rest)) = (false, false) := by
    intro text
    cases kind with
    | call optional effectFree =>
        have hcalled : Node.calledName? (.node (.call optional effectFree) s e ()
            (.node (.string text raw lone) a b () parts :: rest)) = none := by
          simp only [Node.calledName?]
          rw [core_of_not_wraps rfl]
          rfl
        refine Prod.ext ?_ rfl
        simp [summary, Node.hidesRequire, hcalled]
    | _ => rfl
  rw [hroot]
  simp only [inner, redirect, Tree.withKind, Tree.nodesAll, Tree.nodes, List.map_append,
    List.map_cons, hlist, List.cons_append]
  rfl

mutual

/-- Calls that hide what they require are passed over, and none that require are left. -/
theorem nodes_rewrite : ∀ (node : Node) {table : Table Path} {after : Node},
    (requirer.rewrite node table).result = .ok after →
      after.nodes.map (fun node : Node => (node.hidesRequire, node.requires)) =
        node.nodes.map fun node : Node => (node.hidesRequire, false)
  | .node kind start stop () children, table, after, h => by
      obtain ⟨target, inner, htarget, hinner, rfl, -⟩ := rewrite_eq_ok h
      have hparts := nodes_rewriteAll children hinner
      rw [Tree.nodes, Tree.nodes, List.map_cons, List.map_cons]
      have htarget' := target?_eq_ok htarget
      by_cases hrequire : isRequire kind children = true
      · rw [if_pos hrequire] at htarget'
        obtain ⟨text, id, hs, rfl, -⟩ := htarget'
        obtain ⟨optional, effectFree, first, others, rfl, rfl, hname⟩ := isRequire_iff.mp hrequire
        obtain ⟨callee, generics, k, s, e, raw, lone, a, b, parts, rest, rfl, -⟩ :=
          rewriteAll_of_specifier hs hinner
        obtain ⟨first', _, hfirst, -, hsame, -⟩ := rewriteAll_cons_eq_ok hinner
        obtain rfl := (List.cons.inj hsame).1
        have hcallee : callee.kind = .name requireName := (kind_of_rewrite hfirst).trans hname
        have hhides : Node.hidesRequire
            (.node (.call optional effectFree) start stop () (first :: others)) = false := by
          rw [Node.hidesRequire, Node.requires]
          simp [Tree.kind, Tree.children, hrequire]
        rw [hhides, ← hparts]
        exact nodes_redirect hcallee
      · rw [if_neg hrequire] at htarget'
        subst htarget'
        refine List.cons_eq_cons.mpr ⟨?_, hparts⟩
        rw [Bool.not_eq_true] at hrequire
        match children with
        | [] =>
            obtain rfl := Except.ok.inj hinner
            exact Prod.ext rfl hrequire
        | first :: rest =>
            obtain ⟨first', others, hfirst, -, rfl, -⟩ := rewriteAll_cons_eq_ok hinner
            obtain ⟨hrequires, hhides⟩ := calls_congr kind start stop rest others
              (kind_of_rewrite hfirst) (core_kind_of_rewrite first hfirst)
            exact Prod.ext hhides (hrequires.trans hrequire)

theorem nodes_rewriteAll : ∀ (nodes : List Node) {table : Table Path} {after : List Node},
    (requirer.rewriteAll nodes table).result = .ok after →
      (Tree.nodesAll after).map (fun node : Node => (node.hidesRequire, node.requires)) =
        (Tree.nodesAll nodes).map fun node : Node => (node.hidesRequire, false)
  | [], table, after, h => by
      obtain rfl := Except.ok.inj h
      rfl
  | node :: rest, table, after, h => by
      obtain ⟨first, others, hfirst, hothers, rfl, -⟩ := rewriteAll_cons_eq_ok h
      rw [Tree.nodesAll, Tree.nodesAll, List.map_append, List.map_append, nodes_rewrite node hfirst,
        nodes_rewriteAll rest hothers]

end

theorem hidesRequire_rewrite {node after : Node}
    (h : (requirer.rewrite node table).result = .ok after) :
    after.nodes.map Node.hidesRequire = node.nodes.map Node.hidesRequire := by
  have hall := congrArg (List.map Prod.fst) (nodes_rewrite node h)
  simpa [List.map_map, Function.comp_def] using hall

theorem not_requires_of_rewrite {node after : Node}
    (h : (requirer.rewrite node table).result = .ok after) :
    ∀ call ∈ after.nodes, Node.requires call = false := by
  have hall := congrArg (List.map Prod.snd) (nodes_rewrite node h)
  simp only [List.map_map, Function.comp_def] at hall
  intro call hc
  have hmem : Node.requires call ∈ after.nodes.map Node.requires := List.mem_map_of_mem hc
  rw [hall] at hmem
  obtain ⟨_, -, heq⟩ := List.mem_map.mp hmem
  exact heq.symm

mutual

/-- A tree without calls that require stays as it is, and adds no dependency. -/
theorem rewrite_of_not_requires (table : Table Path) : ∀ node : Node,
    (∀ call ∈ node.nodes, Node.requires call = false) →
      (requirer.rewrite node table).result = .ok node ∧
        (requirer.rewrite node table).state = table
  | .node kind start stop () children, h => by
      rw [Tree.nodes] at h
      obtain ⟨hroot, hparts⟩ := List.forall_mem_cons.mp h
      have htarget : requirer.target? kind start children table = Action.ok none table := by
        rw [target?, if_neg (by rw [Bool.not_eq_true]; exact hroot)]
      have hnone : (requirer.target? kind start children table).result = .ok none := by
        rw [htarget]
        rfl
      have hsame : (requirer.target? kind start children table).state = table := by
        rw [htarget]
        rfl
      obtain ⟨hresult, hstate⟩ := rewriteAll_of_not_requires table children hparts
      rw [rewrite, (Action.bind_of_ok _ hnone).1, (Action.bind_of_ok _ hnone).2, hsame,
        (Action.bind_of_ok _ hresult).1, (Action.bind_of_ok _ hresult).2, hstate]
      exact ⟨rfl, rfl⟩

theorem rewriteAll_of_not_requires (table : Table Path) : ∀ nodes : List Node,
    (∀ call ∈ Tree.nodesAll nodes, Node.requires call = false) →
      (requirer.rewriteAll nodes table).result = .ok nodes ∧
        (requirer.rewriteAll nodes table).state = table
  | [], _ => ⟨rfl, rfl⟩
  | node :: rest, h => by
      rw [Tree.nodesAll] at h
      obtain ⟨hresult, hstate⟩ := rewrite_of_not_requires table node
        fun call hc => h call (List.mem_append_left _ hc)
      obtain ⟨hresult', hstate'⟩ := rewriteAll_of_not_requires table rest
        fun call hc => h call (List.mem_append_right _ hc)
      rw [rewriteAll, (Action.bind_of_ok _ hresult).1, (Action.bind_of_ok _ hresult).2, hstate,
        (Action.bind_of_ok _ hresult').1, (Action.bind_of_ok _ hresult').2, hstate']
      exact ⟨rfl, rfl⟩

end

end Requirer

/-! ### What is written -/

/-- Parentheses are not written. -/
theorem write_bare (node : Node) :
    (node.annotate Layout.ofParts).write = (node.bare.annotate Layout.ofParts).write := by
  fun_induction Tree.bare node with
  | case1 start stop value inner ih => exact ih
  | case2 => rfl

theorem write_call_bare (optional effectFree : Bool) (start stop : Nat)
    (callee generics items : Node) :
    ((Tree.node (.call optional effectFree) start stop () [callee, generics, items]).annotate
        Layout.ofParts).write =
      ((Tree.node (.call optional effectFree) start stop () [callee.bare, generics, items]).annotate
        Layout.ofParts).write := by
  change Layout.call optional effectFree stop (callee.annotate Layout.ofParts)
      (generics.annotate Layout.ofParts) (items.annotate Layout.ofParts) =
    Layout.call optional effectFree stop (callee.bare.annotate Layout.ofParts)
      (generics.annotate Layout.ofParts) (items.annotate Layout.ofParts)
  unfold Layout.call
  rw [write_bare callee]

/-! ### Programs -/

theorem calledName?_of_requires {call : Node} (h : call.requires = true) :
    call.calledName? = some requireName := by
  obtain ⟨kind, start, stop, value, children⟩ := call
  obtain ⟨optional, effectFree, callee, rest, hkind, hchildren, hname⟩ := isRequire_iff.mp h
  obtain rfl : kind = .call optional effectFree := hkind
  obtain rfl : children = callee :: rest := hchildren
  obtain ⟨calleeKind, a, b, v, parts⟩ := callee
  obtain rfl : calleeKind = .name requireName := hname
  simp only [Node.calledName?]
  rw [core_of_not_wraps rfl]
  rfl

theorem hidesRequire_iff {call : Node} : call.hidesRequire = true ↔
    call.calledName? = some requireName ∧ call.requires = false := by
  simp [Node.hidesRequire]

theorem Node.mem_calledNames_iff {tree : Node} {name : String} :
    name ∈ tree.calledNames ↔ ∃ call ∈ tree.nodes, Node.calledName? call = some name := by
  simp [Node.calledNames]

/-- A tree in which nothing is called by the name requires nothing. -/
theorem Node.not_requires_of_not_mem {tree : Node} (h : requireName ∉ tree.calledNames) :
    ∀ call ∈ tree.nodes, Node.requires call = false := by
  intro call hc
  rw [Bool.eq_false_iff]
  intro hcall
  exact h (Node.mem_calledNames_iff.mpr ⟨call, hc, calledName?_of_requires hcall⟩)

/-- Where something is called by the name and nothing is hidden, something is required. -/
theorem Node.exists_requires_of_mem {tree : Node} (h : requireName ∈ tree.calledNames)
    (hplain : ∀ call ∈ tree.nodes, Node.hidesRequire call = false) :
    ∃ call ∈ tree.nodes, Node.requires call = true := by
  obtain ⟨call, hc, hcalled⟩ := Node.mem_calledNames_iff.mp h
  refine ⟨call, hc, ?_⟩
  rw [← Bool.not_eq_false]
  intro hnot
  have hhides := hidesRequire_iff.mpr ⟨hcalled, hnot⟩
  rw [hplain call hc] at hhides
  cases hhides

/-- Where nothing is required, all that is called by the name is hidden. -/
theorem Node.mem_calledNames_iff_of_not_requires {tree : Node}
    (h : ∀ call ∈ tree.nodes, Node.requires call = false) :
    requireName ∈ tree.calledNames ↔ true ∈ tree.nodes.map Node.hidesRequire := by
  rw [Node.mem_calledNames_iff, List.mem_map]
  refine exists_congr fun call => and_congr_right fun hc => ?_
  rw [hidesRequire_iff, and_iff_left (h call hc)]

section Rewriting

variable {disk : Disk} {resolver : Resolver} {source id : String} {path : Path} {program : Program}

theorem rewrite_of_read {tree : Node}
    (hread : Program.read (.ofPath path) source.toList = .ok program)
    (htree : (Requirer.rewrite ⟨disk, resolver, source.toList, id, path.parent?.getD resolver.root⟩
      program.tree .empty).result = .ok tree) :
    (Script.rewrite disk resolver source path id).result =
      .ok ⟨Program.render ⟨tree, program.comments⟩ (Dialect.ofPath path).markup,
        (Requirer.rewrite ⟨disk, resolver, source.toList, id, path.parent?.getD resolver.root⟩
          program.tree .empty).state⟩ := by
  unfold Script.rewrite
  simp only [hread, htree]

/-- A program that requires nothing is printed as it is, and no dependency is found. -/
theorem rewrite_eq_of_not_requires
    (hread : Program.read (.ofPath path) source.toList = .ok program)
    (h : ∀ call ∈ program.tree.nodes, Node.requires call = false) :
    (Script.rewrite disk resolver source path id).result =
      .ok ⟨program.render (Dialect.ofPath path).markup, .empty⟩ := by
  let requirer : Requirer := ⟨disk, resolver, source.toList, id, path.parent?.getD resolver.root⟩
  have hsame : (requirer.rewrite program.tree .empty).result = .ok program.tree ∧
      (requirer.rewrite program.tree .empty).state = .empty :=
    Requirer.rewrite_of_not_requires .empty program.tree h
  have hrewrite := rewrite_of_read hread hsame.1
  rw [hsame.2] at hrewrite
  exact hrewrite

/-- A program in which no dependency is found requires nothing. -/
theorem not_requires_of_rewrite_eq_empty {code : String}
    (hread : Program.read (.ofPath path) source.toList = .ok program)
    (h : (Script.rewrite disk resolver source path id).result = .ok ⟨code, .empty⟩) :
    ∀ call ∈ program.tree.nodes, Node.requires call = false := by
  obtain ⟨other, tree, hother, htree, -, htable⟩ := rewrite_eq_ok h
  obtain rfl := Except.ok.inj (hread.symm.trans hother)
  intro call hc
  rw [Bool.eq_false_iff]
  intro hcall
  obtain ⟨place, hat⟩ := Tree.exists_at?_of_mem_nodes program.tree hc
  obtain ⟨_, target, _, -, -, htarget⟩ := Requirer.exists_redirected htree hat hcall
  rw [← htable] at htarget
  exact absurd htarget List.not_mem_nil

end Rewriting

/-- No call of the bare name is left in a tree that is written, but each call that hides what it
requires is left where it was, and is written without the parentheses of its callee. So where the
text is read again with the same names called in it, the program that is read requires nothing if no
call was hidden; otherwise it requires something, unless it hides that again. -/
theorem rewrite_leaves_hidden {disk : Disk} {resolver : Resolver} {source id : String} {path : Path}
    {rewritten : Rewritten}
    (h : (Script.rewrite disk resolver source path id).result = .ok rewritten) :
    let requirer : Requirer :=
      ⟨disk, resolver, source.toList, id, path.parent?.getD resolver.root⟩
    ∃ program tree, Program.read (.ofPath path) source.toList = .ok program ∧
      (requirer.rewrite program.tree .empty).result = .ok tree ∧
      rewritten.code = Program.render ⟨tree, program.comments⟩ (Dialect.ofPath path).markup ∧
      (∀ (place : List Nat) (call : Node), tree.at? place = some call → call.requires = false) ∧
      tree.nodes.map Node.hidesRequire = program.tree.nodes.map Node.hidesRequire ∧
      (∀ (optional effectFree : Bool) (start stop : Nat) (callee generics items : Node),
        ((Tree.node (.call optional effectFree) start stop () [callee, generics, items]).annotate
            Layout.ofParts).write =
          ((Tree.node (.call optional effectFree) start stop ()
            [callee.bare, generics, items]).annotate Layout.ofParts).write) ∧
      ∀ again, Program.read (.ofPath path) rewritten.code.toList = .ok again →
        (∀ name, name ∈ Node.calledNames again.tree ↔ name ∈ Node.calledNames tree) →
        let second := Script.rewrite disk resolver rewritten.code path id
        ((∀ call ∈ program.tree.nodes, Node.hidesRequire call = false) →
          (∀ call ∈ again.tree.nodes, Node.requires call = false) ∧
            ∃ code, second.result = .ok ⟨code, .empty⟩) ∧
        ((∃ call ∈ program.tree.nodes, Node.hidesRequire call = true) →
          (∀ call ∈ again.tree.nodes, Node.hidesRequire call = false) →
          (∃ call ∈ again.tree.nodes, Node.requires call = true) ∧
            ∀ code, second.result ≠ .ok ⟨code, .empty⟩) := by
  intro requirer
  obtain ⟨program, tree, hread, htree, hcode, -⟩ := rewrite_eq_ok h
  have hbare := Requirer.not_requires_of_rewrite htree
  have hhidden := Requirer.hidesRequire_rewrite htree
  refine ⟨program, tree, hread, htree, hcode,
    fun place call hat => hbare call (Tree.mem_nodes_of_at? hat), hhidden, write_call_bare, ?_⟩
  intro again hagain hnames second
  have hleft : requireName ∈ Node.calledNames again.tree ↔
      ∃ call ∈ program.tree.nodes, Node.hidesRequire call = true := by
    rw [hnames, Node.mem_calledNames_iff_of_not_requires hbare, hhidden, List.mem_map]
  constructor
  · intro hnone
    have habsent : requireName ∉ Node.calledNames again.tree := by
      rw [hleft]
      rintro ⟨hider, hh, hhides⟩
      rw [hnone hider hh] at hhides
      cases hhides
    have hrequires := Node.not_requires_of_not_mem habsent
    exact ⟨hrequires, _, rewrite_eq_of_not_requires hagain hrequires⟩
  · intro hsome hplain
    obtain ⟨call, hc, hrequires⟩ := Node.exists_requires_of_mem (hleft.mpr hsome) hplain
    refine ⟨⟨call, hc, hrequires⟩, fun code hsecond => ?_⟩
    have hnot := not_requires_of_rewrite_eq_empty hagain hsecond call hc
    rw [hrequires] at hnot
    cases hnot

set_option maxRecDepth 100000 in
/-- A call that is hidden at first, and not when the text is read again. -/
theorem rewrite_leaves_hidden_parentheses :
    let disk : Disk := ⟨⟨[(["r"], .directory), (["r", "a.js"], .file "".toUTF8)]⟩, []⟩
    let rewriteOnce (source : String) :=
      Script.rewrite disk (.ofRoot ⟨"/r"⟩ [".js"]) source ⟨"/r/i.js"⟩ "./i.js"
    ∃ rewritten again, (rewriteOnce "(require)('./a');").result = .ok rewritten ∧
      rewritten.code = "require(\"./a\");\n" ∧ rewritten.dependencies.keys = [] ∧
      Program.read (.ofPath ⟨"/r/i.js"⟩) rewritten.code.toList = .ok again ∧
      (∃ call ∈ again.tree.nodes, Node.requires call = true) ∧
      ∀ code, (rewriteOnce rewritten.code).result ≠ .ok ⟨code, .empty⟩ := by
  intro disk rewriteOnce
  let source : String := "(require)('./a');"
  let dialect : Dialect := .ofPath ⟨"/r/i.js"⟩
  let requirer : Requirer := ⟨disk, .ofRoot ⟨"/r"⟩ [".js"], source.toList, "./i.js", ⟨"/r"⟩⟩
  have hok : (rewriteOnce source).result.isOk = true := by decide +kernel
  have hparts : (rewriteOnce source).result.toOption.map (fun rewritten =>
      (rewritten.code, rewritten.dependencies.keys)) = some ("require(\"./a\");\n", []) := by
    decide +kernel
  have hfirst : ((Program.read dialect source.toList).toOption.bind fun program =>
      (requirer.rewrite program.tree .empty).result.toOption.map fun tree =>
        (Node.calledNames tree, program.tree.nodes.any Node.hidesRequire)) =
      some (["require"], true) := by decide +kernel
  have hread : (Program.read dialect "require(\"./a\");\n".toList).isOk = true := by
    decide +kernel
  have hsecond : (Program.read dialect "require(\"./a\");\n".toList).toOption.map (fun again =>
      (Node.calledNames again.tree, again.tree.nodes.any Node.hidesRequire)) =
      some (["require"], false) := by decide +kernel
  obtain ⟨rewritten, h⟩ := exists_eq_ok hok
  rw [h] at hparts
  obtain ⟨hcode, hkeys⟩ := Prod.mk.inj (Option.some.inj hparts)
  obtain ⟨again, hagain⟩ := exists_eq_ok hread
  rw [hagain] at hsecond
  obtain ⟨hnames, hplain⟩ := Prod.mk.inj (Option.some.inj hsecond)
  obtain ⟨program, tree, hprogram, htree, -, -, -, -, hleft⟩ := rewrite_leaves_hidden h
  rw [hprogram] at hfirst
  change ((requirer.rewrite program.tree .empty).result.toOption.map fun tree => _) = _ at hfirst
  rw [show (requirer.rewrite program.tree .empty).result = .ok tree from htree] at hfirst
  obtain ⟨hcalled, hhides⟩ := Prod.mk.inj (Option.some.inj hfirst)
  rw [← hcode] at hagain
  obtain ⟨-, hrequires⟩ := hleft again hagain (fun name => by rw [hnames, hcalled])
  obtain ⟨hcalls, hagainst⟩ := hrequires (List.any_eq_true.mp hhides) (by simpa using hplain)
  exact ⟨rewritten, again, h, hcode, hkeys, hagain, hcalls, hagainst⟩

end Bundler.Script
