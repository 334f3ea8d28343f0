import Bundler.Proofs.Report
import Bundler.Proofs.Table
import Bundler.Script.Rewrite

/-! What becomes of the calls in a program that require a module. Each stays where it is in the
tree, and names a module that is among the dependencies in the end. -/

namespace Bundler.Script

namespace Tree

variable {α : Type}

/-- The node at the end of a path of child indices. -/
def at? : List Nat → Tree α → Option (Tree α)
  | [], tree => some tree
  | index :: path, tree => tree.children[index]?.bind (at? path)

end Tree

namespace Node

/-- What a call calls. -/
def callee? (node : Node) : Option Node := node.children.head?

/-- The first argument of a call. -/
def argument? (node : Node) : Option Node :=
  node.children[2]?.bind fun arguments => arguments.children.head?

/-- Whether a node is a call that requires a module. -/
def requires (node : Node) : Bool := isRequire node.kind node.children

end Node

/-- A call before and after it was redirected to the module of an id. Whether its argument is taken
to have marks stays as it was. -/
structure Redirected (before after : Node) (id : String) (lone : Bool) : Prop where
  kind : after.kind = before.kind
  callee : after.callee?.map Tree.kind = some (.name runtimeName)
  specifier : ∃ text raw, before.argument?.map Tree.kind = some (.string text raw lone)
  argument : ∃ raw, after.argument?.map Tree.kind = some (.string id raw lone)

theorem isRequire_iff {kind : Kind} {children : List Node} :
    isRequire kind children = true ↔
      ∃ optional effectFree callee rest, kind = .call optional effectFree ∧
        children = callee :: rest ∧ callee.kind = .name requireName := by
  unfold isRequire
  split
  · rename_i optional effectFree text start stop value parts rest
    constructor
    · intro h
      obtain rfl : text = requireName := by simpa using h
      exact ⟨optional, effectFree, _, rest, rfl, rfl, rfl⟩
    · rintro ⟨optional', effectFree', callee, rest', -, hchildren, hname⟩
      obtain ⟨rfl, -⟩ := List.cons.inj hchildren
      simpa using Kind.name.inj hname
  · rename_i hother
    constructor
    · intro h
      simp at h
    · rintro ⟨optional, effectFree, ⟨kind, start, stop, value, parts⟩, rest, rfl, rfl, hname⟩
      obtain rfl : kind = .name requireName := hname
      exact absurd rfl (hother _ _ _ _ _ _ _ _ rfl)

/-! ### The dependencies of a program -/

/-- No name is lost. -/
def Extends (before after : Table Path) : Prop :=
  ∀ id ∈ before.keys, id ∈ after.keys

theorem Extends.refl (table : Table Path) : Extends table table := fun _ h => h

theorem Extends.trans {first second third : Table Path} (h : Extends first second)
    (h' : Extends second third) : Extends first third :=
  fun id hid => h' id (h id hid)

namespace Requirer

variable {requirer : Requirer} {table : Table Path}

theorem depend_of_ok (table : Table Path) {specifier : String} {path : Path}
    (h : (requirer.resolver.resolve requirer.disk requirer.base specifier).result = .ok path) :
    (requirer.depend specifier table).result = .ok (requirer.resolver.moduleId path) ∧
      (requirer.depend specifier table).state =
        if table.contains (requirer.resolver.moduleId path) then table
        else table.insert (requirer.resolver.moduleId path) path := by
  have hfirst : (Action.ofReport (requirer.resolver.resolve requirer.disk requirer.base specifier)
      table).result = .ok path := by rw [Action.ofReport_result, h]
  obtain ⟨hstate, hresult⟩ := Action.bind_of_ok _ hfirst
  exact ⟨hresult, hstate⟩

theorem depend_of_error {specifier : String} {error : BuildError}
    (h : (requirer.resolver.resolve requirer.disk requirer.base specifier).result = .error error) :
    (requirer.depend specifier table).result = .error error ∧
      (requirer.depend specifier table).state = table := by
  have hfirst : (Action.ofReport (requirer.resolver.resolve requirer.disk requirer.base specifier)
      table).result = .error error := by rw [Action.ofReport_result, h]
  obtain ⟨hstate, hresult⟩ := Action.bind_of_error _ hfirst
  exact ⟨hresult, hstate⟩

theorem extends_depend (requirer : Requirer) (specifier : String) (table : Table Path) :
    Extends table (requirer.depend specifier table).state := by
  cases h : (requirer.resolver.resolve requirer.disk requirer.base specifier).result with
  | error error =>
      rw [(depend_of_error h).2]
      exact .refl table
  | ok path =>
      rw [(depend_of_ok table h).2]
      intro id hid
      split
      · exact hid
      · exact Table.mem_keys_insert.mpr (.inl hid)

theorem mem_keys_depend {specifier id : String}
    (h : (requirer.depend specifier table).result = .ok id) :
    id ∈ (requirer.depend specifier table).state.keys := by
  cases hr : (requirer.resolver.resolve requirer.disk requirer.base specifier).result with
  | error error =>
      rw [(depend_of_error hr).1] at h
      cases h
  | ok path =>
      obtain ⟨hresult, hstate⟩ := depend_of_ok table hr
      rw [hresult] at h
      obtain rfl := Except.ok.inj h
      rw [hstate]
      split
      · rename_i hthere
        exact Table.contains_iff.mp hthere
      · exact Table.mem_keys_insert.mpr (.inr rfl)

section Tables

variable {rel : Table Path → Table Path → Prop}

theorem rel_target? (refl : ∀ table, rel table table)
    (hdepend : ∀ specifier table, rel table (requirer.depend specifier table).state) (kind : Kind)
    (start : Nat) (children : List Node) (table : Table Path) :
    rel table (requirer.target? kind start children table).state := by
  unfold target?
  by_cases hrequire : isRequire kind children = true
  · rw [if_pos hrequire]
    cases specifier? children with
    | none => exact refl table
    | some specifier =>
        change rel table ((some <$> requirer.depend specifier) table).state
        rw [Action.map_state]
        exact hdepend specifier table
  · rw [if_neg hrequire]
    exact refl table

mutual

/-- What one call does to the dependencies, all calls of a program do. -/
theorem rel_rewrite (refl : ∀ table, rel table table)
    (trans : ∀ {a b c}, rel a b → rel b c → rel a c)
    (hdepend : ∀ specifier table, rel table (requirer.depend specifier table).state)
    (table : Table Path) : ∀ node : Node, rel table (requirer.rewrite node table).state
  | .node kind start stop () children => by
      rw [rewrite]
      refine Action.rel_bind rel trans (rel_target? refl hdepend kind start children table) ?_
      intro target
      exact Action.rel_bind rel trans (rel_rewriteAll refl trans hdepend _ children)
        fun _ => refl _

theorem rel_rewriteAll (refl : ∀ table, rel table table)
    (trans : ∀ {a b c}, rel a b → rel b c → rel a c)
    (hdepend : ∀ specifier table, rel table (requirer.depend specifier table).state)
    (table : Table Path) : ∀ nodes : List Node, rel table (requirer.rewriteAll nodes table).state
  | [] => refl table
  | node :: rest => by
      rw [rewriteAll]
      refine Action.rel_bind rel trans (rel_rewrite refl trans hdepend table node) fun first => ?_
      exact Action.rel_bind rel trans (rel_rewriteAll refl trans hdepend _ rest) fun _ => refl _

end

end Tables

theorem extends_rewriteAll (requirer : Requirer) (table : Table Path) (nodes : List Node) :
    Extends table (requirer.rewriteAll nodes table).state :=
  rel_rewriteAll Extends.refl Extends.trans (extends_depend requirer) table nodes

/-- A call that requires a module is redirected to a dependency, and nothing else is. -/
theorem target?_eq_ok {kind : Kind} {start : Nat} {children : List Node} {target : Option String}
    (h : (requirer.target? kind start children table).result = .ok target) :
    if isRequire kind children then
      ∃ specifier id, specifier? children = some specifier ∧ target = some id ∧
        id ∈ (requirer.target? kind start children table).state.keys
    else target = none := by
  unfold target? at h ⊢
  by_cases hrequire : isRequire kind children = true
  · rw [if_pos hrequire] at h ⊢
    rw [if_pos hrequire]
    cases hs : specifier? children with
    | none =>
        rw [hs] at h
        cases h
    | some specifier =>
        rw [hs] at h
        change ((some <$> requirer.depend specifier) table).result = .ok target at h
        change ∃ text id, some specifier = some text ∧ target = some id ∧
          id ∈ ((some <$> requirer.depend specifier) table).state.keys
        rw [Action.map_result] at h
        rw [Action.map_state]
        cases hd : (requirer.depend specifier table).result with
        | error error =>
            rw [hd] at h
            cases h
        | ok id =>
            rw [hd] at h
            exact ⟨specifier, id, rfl, (Except.ok.inj h).symm, mem_keys_depend hd⟩
  · rw [if_neg hrequire] at h ⊢
    exact (Except.ok.inj h).symm

/-! ### Trees -/

theorem rewrite_eq_ok {kind : Kind} {start stop : Nat} {children : List Node} {after : Node}
    (h : (requirer.rewrite (.node kind start stop () children) table).result = .ok after) :
    ∃ target inner,
      (requirer.target? kind start children table).result = .ok target ∧
      (requirer.rewriteAll children (requirer.target? kind start children table).state).result =
        .ok inner ∧
      after = .node kind start stop () (redirected target inner) ∧
      (requirer.rewrite (.node kind start stop () children) table).state =
        (requirer.rewriteAll children
          (requirer.target? kind start children table).state).state := by
  rw [rewrite] at h ⊢
  obtain ⟨target, htarget, h, hstate⟩ := Action.bind_eq_ok h
  obtain ⟨inner, hinner, h, hstate'⟩ := Action.bind_eq_ok h
  exact ⟨target, inner, htarget, hinner, (Except.ok.inj h).symm, hstate.trans hstate'⟩

theorem rewriteAll_cons_eq_ok {node : Node} {rest after : List Node}
    (h : (requirer.rewriteAll (node :: rest) table).result = .ok after) :
    ∃ first others, (requirer.rewrite node table).result = .ok first ∧
      (requirer.rewriteAll rest (requirer.rewrite node table).state).result = .ok others ∧
      after = first :: others ∧
      (requirer.rewriteAll (node :: rest) table).state =
        (requirer.rewriteAll rest (requirer.rewrite node table).state).state := by
  rw [rewriteAll] at h ⊢
  obtain ⟨first, hfirst, h, hstate⟩ := Action.bind_eq_ok h
  obtain ⟨others, hothers, h, hstate'⟩ := Action.bind_eq_ok h
  exact ⟨first, others, hfirst, hothers, (Except.ok.inj h).symm, hstate.trans hstate'⟩

/-- Every child is rewritten in its place. -/
theorem getElem?_rewriteAll {nodes after : List Node}
    (h : (requirer.rewriteAll nodes table).result = .ok after) {index : Nat} {node : Node}
    (hnode : nodes[index]? = some node) :
    ∃ middle node', (requirer.rewrite node middle).result = .ok node' ∧
      after[index]? = some node' ∧
      Extends (requirer.rewrite node middle).state (requirer.rewriteAll nodes table).state := by
  induction nodes generalizing table after index with
  | nil => simp at hnode
  | cons first rest ih =>
      obtain ⟨first', others, hfirst, hothers, rfl, hstate⟩ := rewriteAll_cons_eq_ok h
      rw [hstate]
      cases index with
      | zero =>
          obtain rfl := Option.some.inj hnode
          exact ⟨table, first', hfirst, rfl, extends_rewriteAll requirer _ rest⟩
      | succ index => exact ih hothers hnode

theorem kind_of_rewrite {node after : Node}
    (h : (requirer.rewrite node table).result = .ok after) : after.kind = node.kind := by
  obtain ⟨kind, start, stop, value, children⟩ := node
  obtain ⟨target, inner, -, -, rfl, -⟩ := rewrite_eq_ok h
  rfl

/-- A node that does not require keeps its place, and its parts are rewritten. -/
theorem rewrite_eq_ok_of_not_require {kind : Kind} {start stop : Nat} {children : List Node}
    {after : Node} (hkind : isRequire kind children = false)
    (h : (requirer.rewrite (.node kind start stop () children) table).result = .ok after) :
    ∃ middle inner, (requirer.rewriteAll children middle).result = .ok inner ∧
      after = .node kind start stop () inner := by
  obtain ⟨target, inner, htarget, hinner, rfl, -⟩ := rewrite_eq_ok h
  have hnone := target?_eq_ok htarget
  rw [hkind, if_neg (by simp)] at hnone
  exact ⟨_, inner, hinner, by rw [hnone]; rfl⟩

/-- The parts of a call whose first argument is a string: the string stays as it is. -/
theorem rewriteAll_of_specifier {children inner : List Node} {text : String}
    (hs : specifier? children = some text)
    (h : (requirer.rewriteAll children table).result = .ok inner) :
    ∃ callee generics kind start stop raw lone a b parts rest,
      inner = [callee, generics,
        .node kind start stop () (.node (.string text raw lone) a b () parts :: rest)] ∧
      (Node.argument? (.node kind start stop () children)).map Tree.kind =
        some (.string text raw lone) := by
  unfold specifier? at hs
  split at hs
  · rename_i callee generics kind start stop _ value raw lone a b _ parts rest
    obtain rfl := Option.some.inj hs
    obtain ⟨callee', others, -, hothers, rfl, -⟩ := rewriteAll_cons_eq_ok h
    obtain ⟨generics', others, -, hlast, rfl, -⟩ := rewriteAll_cons_eq_ok hothers
    obtain ⟨arguments', others, harguments, hnil, rfl, -⟩ := rewriteAll_cons_eq_ok hlast
    obtain rfl := Except.ok.inj hnil
    have hlist : isRequire kind (.node (.string value raw lone) a b () parts :: rest) = false := by
      rw [Bool.eq_false_iff, ne_eq, isRequire_iff]
      rintro ⟨_, _, first, _, -, hfirst, hname⟩
      obtain ⟨rfl, -⟩ := List.cons.inj hfirst
      cases hname
    obtain ⟨_, inner, hinner, rfl⟩ := rewrite_eq_ok_of_not_require hlist harguments
    obtain ⟨string', rest', hstring, -, rfl, -⟩ := rewriteAll_cons_eq_ok hinner
    obtain ⟨_, parts', -, rfl⟩ := rewrite_eq_ok_of_not_require rfl hstring
    exact ⟨callee', generics', kind, start, stop, raw, lone, a, b, parts', rest', rfl, rfl⟩
  · cases hs

/-- A call that requires is redirected to one of the dependencies. -/
theorem redirected_rewrite {call after : Node} (hcall : call.requires = true)
    (h : (requirer.rewrite call table).result = .ok after) :
    ∃ id lone, Redirected call after id lone ∧ id ∈ (requirer.rewrite call table).state.keys := by
  obtain ⟨kind, start, stop, value, children⟩ := call
  obtain ⟨target, inner, htarget, hinner, rfl, hstate⟩ := rewrite_eq_ok h
  have hsome := target?_eq_ok htarget
  have hrequire : isRequire kind children = true := hcall
  rw [if_pos hrequire] at hsome
  obtain ⟨text, id, hs, rfl, hid⟩ := hsome
  obtain ⟨callee, generics, k, s, e, raw, lone, a, b, parts, rest, rfl, hargument⟩ :=
    rewriteAll_of_specifier hs hinner
  refine ⟨id, lone, ⟨rfl, ?_, ⟨text, raw, hargument⟩, ⟨raw, rfl⟩⟩, ?_⟩
  · cases callee
    rfl
  · rw [hstate]
    exact extends_rewriteAll requirer _ children id hid

/-- Redirecting a call leaves the calls inside it where they are. -/
theorem at?_redirect (id : String) {inner : List Node} {index : Nat} {path : List Nat} {node : Node}
    {optional effectFree : Bool} {name other : String}
    (hhead : inner.head?.map Tree.kind = some (.name other))
    (hnode : inner[index]?.bind (Tree.at? path) = some node)
    (hkind : node.kind = .call optional effectFree)
    (hcallee : node.callee?.map Tree.kind = some (.name name)) :
    (redirect id inner)[index]?.bind (Tree.at? path) = some node := by
  unfold redirect
  split
  · rename_i callee generics kind start stop _ value raw lone a b _ parts rest
    obtain ⟨calleeKind, c, d, v, calleeParts⟩ := callee
    obtain rfl : calleeKind = .name other := Option.some.inj hhead
    match index, path with
    | 0, [] =>
        obtain rfl := Option.some.inj hnode
        cases hkind
    | 0, _ :: _ => exact hnode
    | 1, _ => exact hnode
    | 2, [] =>
        obtain rfl := Option.some.inj hnode
        cases hcallee
    | 2, [0] =>
        obtain rfl := Option.some.inj hnode
        cases hkind
    | 2, 0 :: _ :: _ => exact hnode
    | 2, (_ + 1) :: _ => exact hnode
    | index + 3, _ => simp at hnode
  · exact hnode

/-- Every call that requires is redirected in its place. -/
theorem exists_redirected {tree after : Node} (h : (requirer.rewrite tree table).result = .ok after)
    {path : List Nat} {call : Node} (hat : tree.at? path = some call)
    (hcall : call.requires = true) :
    ∃ call' id lone, after.at? path = some call' ∧ Redirected call call' id lone ∧
      id ∈ (requirer.rewrite tree table).state.keys := by
  induction path generalizing tree after table with
  | nil =>
      obtain rfl := Option.some.inj hat
      obtain ⟨id, lone, hredirected, hid⟩ := redirected_rewrite hcall h
      exact ⟨after, id, lone, rfl, hredirected, hid⟩
  | cons index path ih =>
      obtain ⟨kind, start, stop, value, children⟩ := tree
      obtain ⟨child, hchild, hat⟩ := Option.bind_eq_some_iff.mp hat
      obtain ⟨target, inner, htarget, hinner, rfl, hstate⟩ := rewrite_eq_ok h
      obtain ⟨middle, child', hchild', hindex, hextends⟩ := getElem?_rewriteAll hinner hchild
      obtain ⟨call', id, lone, hat', hredirected, hid⟩ := ih hchild' hat
      refine ⟨call', id, lone, ?_, hredirected, by rw [hstate]; exact hextends id hid⟩
      have hinside : inner[index]?.bind (Tree.at? path) = some call' := by
        rw [hindex]
        exact hat'
      have htarget' := target?_eq_ok htarget
      split at htarget'
      · rename_i hrequire
        obtain ⟨-, other, -, rfl, -⟩ := htarget'
        obtain ⟨-, -, callee, rest, -, rfl, hname⟩ := isRequire_iff.mp hrequire
        have hzero : (callee :: rest)[0]? = some callee := rfl
        obtain ⟨_, callee', hcallee, hfirst, -⟩ := getElem?_rewriteAll hinner hzero
        have hhead : inner.head?.map Tree.kind = some (.name requireName) := by
          rw [List.head?_eq_getElem?, hfirst, Option.map_some, kind_of_rewrite hcallee, hname]
        obtain ⟨optional, effectFree, -, -, hkind, -⟩ := isRequire_iff.mp hcall
        exact at?_redirect other hhead hinside (hredirected.kind.trans hkind) hredirected.callee
      · rw [htarget']
        exact hinside

end Requirer

end Bundler.Script
