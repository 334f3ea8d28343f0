import Bundler.Proofs.Script.Leftover

/-! The specifiers in a program. Rewriting looks at no files but to find out what these denote, so
that on any disk on which they denote the same files a program is rewritten in the same way. -/

namespace Bundler.Script

/-- The specifier of a call that requires a module. -/
def Node.specifier? (node : Node) : Option String :=
  if node.requires then Script.specifier? node.children else none

/-- The specifiers of the calls in a program that require a module. -/
def specifiers (program : Node) : List String :=
  program.nodes.filterMap Node.specifier?

/-- The specifiers in the program that a text is. -/
def specifiersOf (path : Path) (source : String) : List String :=
  match Program.read (.ofPath path) source.toList with
  | .ok program => specifiers program.tree
  | .error _ => []

variable {kind : Kind} {start stop : Nat} {children : List Node} {specifier : String}

theorem Node.specifier?_eq_some {node : Node} : node.specifier? = some specifier ↔
    node.requires = true ∧ Script.specifier? node.children = some specifier := by
  unfold specifier?
  by_cases hrequires : node.requires = true
  · rw [if_pos hrequires, and_iff_right hrequires]
  · simp [hrequires]

theorem mem_specifiers_node :
    specifier ∈ specifiers (.node kind start stop () children) ↔
      (isRequire kind children = true ∧ specifier? children = some specifier) ∨
        ∃ child ∈ children, specifier ∈ specifiers child := by
  have hhead : Node.specifier? (.node kind start stop () children) = some specifier ↔
      isRequire kind children = true ∧ specifier? children = some specifier :=
    Node.specifier?_eq_some
  have htail : (∃ node ∈ Tree.nodesAll children, Node.specifier? node = some specifier) ↔
      ∃ child ∈ children, specifier ∈ specifiers child := by
    simp only [Tree.mem_nodesAll_iff, specifiers, List.mem_filterMap]
    constructor
    · rintro ⟨node, ⟨child, hchild, hnode⟩, hspecifier⟩
      exact ⟨child, hchild, node, hnode, hspecifier⟩
    · rintro ⟨child, hchild, node, hnode, hspecifier⟩
      exact ⟨node, ⟨child, hchild, hnode⟩, hspecifier⟩
  rw [specifiers, Tree.nodes, List.mem_filterMap, ← htail, ← hhead]
  simp only [List.mem_cons, exists_eq_or_imp]

namespace Requirer

variable {requirer other : Requirer}

theorem target?_congr (hid : requirer.id = other.id) (hsource : requirer.source = other.source)
    (hdepend : ∀ specifier, isRequire kind children = true → specifier? children = some specifier →
      requirer.depend specifier = other.depend specifier) :
    requirer.target? kind start children = other.target? kind start children := by
  unfold target?
  by_cases hrequire : isRequire kind children = true
  · rw [if_pos hrequire, if_pos hrequire]
    cases hspecifier : specifier? children with
    | none => rw [hid, hsource]
    | some specifier =>
        have hsame := hdepend specifier hrequire hspecifier
        dsimp only
        rw [hsame]
  · rw [if_neg hrequire, if_neg hrequire]

mutual

/-- What a program is rewritten to depends on nothing but what becomes of its specifiers. -/
theorem rewrite_congr (requirer other : Requirer) (hid : requirer.id = other.id)
    (hsource : requirer.source = other.source) :
    ∀ node : Node, (∀ specifier ∈ specifiers node,
      requirer.depend specifier = other.depend specifier) →
        requirer.rewrite node = other.rewrite node
  | .node kind start stop () children, h => by
      have htarget : requirer.target? kind start children = other.target? kind start children :=
        target?_congr hid hsource fun specifier hrequire hspecifier =>
          h specifier (mem_specifiers_node.mpr (.inl ⟨hrequire, hspecifier⟩))
      have hinner : requirer.rewriteAll children = other.rewriteAll children :=
        rewriteAll_congr requirer other hid hsource children fun child hchild specifier hmem =>
          h specifier (mem_specifiers_node.mpr (.inr ⟨child, hchild, hmem⟩))
      rw [rewrite, rewrite, htarget, hinner]

theorem rewriteAll_congr (requirer other : Requirer) (hid : requirer.id = other.id)
    (hsource : requirer.source = other.source) :
    ∀ nodes : List Node, (∀ node ∈ nodes, ∀ specifier ∈ specifiers node,
      requirer.depend specifier = other.depend specifier) →
        requirer.rewriteAll nodes = other.rewriteAll nodes
  | [], _ => rfl
  | node :: rest, h => by
      have hfirst : requirer.rewrite node = other.rewrite node :=
        rewrite_congr requirer other hid hsource node (h node List.mem_cons_self)
      have hothers : requirer.rewriteAll rest = other.rewriteAll rest :=
        rewriteAll_congr requirer other hid hsource rest fun child hchild =>
          h child (List.mem_cons_of_mem node hchild)
      rw [rewriteAll, rewriteAll, hfirst, hothers]

end

end Requirer

/-- A text is rewritten in the same way on disks on which its specifiers denote the same files. -/
theorem rewrite_congr {disk after : Disk} {resolver : Resolver} {source : String} {path : Path}
    (id : String) (h : ∀ specifier ∈ specifiersOf path source,
      resolver.resolve after (path.parent?.getD resolver.root) specifier =
        resolver.resolve disk (path.parent?.getD resolver.root) specifier) :
    rewrite after resolver source path id = rewrite disk resolver source path id := by
  unfold rewrite
  unfold specifiersOf at h
  cases hread : Program.read (.ofPath path) source.toList with
  | error place => simp only [hread]
  | ok program =>
      rw [hread] at h
      let requirer (disk : Disk) : Requirer :=
        ⟨disk, resolver, source.toList, id, path.parent?.getD resolver.root⟩
      have hprogram : (requirer after).rewrite program.tree =
          (requirer disk).rewrite program.tree := by
        have hdepend : ∀ specifier ∈ specifiers program.tree,
            (requirer after).depend specifier = (requirer disk).depend specifier := by
          intro specifier hspecifier
          unfold Requirer.depend
          dsimp only [requirer]
          rw [h specifier hspecifier]
        exact Requirer.rewrite_congr (requirer after) (requirer disk) rfl rfl program.tree hdepend
      simp only [hread]
      rw [hprogram]

end Bundler.Script
