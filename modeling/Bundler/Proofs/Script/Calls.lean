import Bundler.Proofs.Script.Specifiers
import Mathlib.Data.List.Induction

/-! The calls that require a module, one after the other. Rewriting a program visits them in their
order, each before those inside it, and the first one that cannot be redirected ends it. -/

namespace Bundler

namespace Action

variable {σ ε κ : Type} {run : κ → Action σ ε Unit} {start : σ}

/-- An action does to the state what some calls do, and fails where they fail. -/
def Matches {α : Type} (action : Action σ ε α) (calls : Action σ ε Unit) (start : σ) : Prop :=
  (action start).state = (calls start).state ∧
    (action start).result.map (fun _ => ()) = (calls start).result

theorem Matches.bind {α β : Type} {first : Action σ ε α} {calls later : Action σ ε Unit}
    {next : α → Action σ ε β} (h : Matches first calls start)
    (h' : ∀ value, Matches (next value) later (first start).state) :
    Matches (first >>= next) (calls >>= fun _ => later) start := by
  obtain ⟨hstate, hresult⟩ := h
  cases hfirst : (first start).result with
  | error error =>
      rw [hfirst] at hresult
      obtain ⟨hstop, herror⟩ := bind_of_error next hfirst
      obtain ⟨hstop', herror'⟩ := bind_of_error (fun _ => later) hresult.symm
      exact ⟨hstop.trans (hstate.trans hstop'.symm), by rw [herror, herror']; rfl⟩
  | ok value =>
      rw [hfirst] at hresult
      obtain ⟨hgo, hok⟩ := bind_of_ok next hfirst
      obtain ⟨hgo', hok'⟩ := bind_of_ok (fun _ => later) hresult.symm
      rw [Matches, hgo, hok, hgo', hok', ← hstate]
      exact h' value

theorem Matches.map {α β : Type} {action : Action σ ε α} {calls : Action σ ε Unit}
    (h : Matches action calls start) (f : α → β) :
    Matches (action >>= fun value => ok (f value)) calls start := by
  obtain ⟨hstate, hresult⟩ := h
  cases haction : (action start).result with
  | error error =>
      obtain ⟨hstop, herror⟩ := bind_of_error (fun value => ok (f value)) haction
      rw [haction] at hresult
      exact ⟨hstop.trans hstate, by rw [herror]; exact hresult⟩
  | ok value =>
      obtain ⟨hgo, hok⟩ := bind_of_ok (fun value => ok (f value)) haction
      rw [haction] at hresult
      exact ⟨hgo.trans hstate, by rw [hok]; exact hresult⟩

theorem ok_bind {α β : Type} (value : α) (next : α → Action σ ε β) :
    (ok value >>= next) = next value := by
  funext state
  change (ok value).andThen next state = next value state
  simp [andThen, ok]

theorem bind_assoc {α β γ : Type} (first : Action σ ε α) (next : α → Action σ ε β)
    (last : β → Action σ ε γ) :
    first >>= next >>= last = first >>= fun value => next value >>= last := by
  funext state
  change (first.andThen next).andThen last state =
    first.andThen (fun value => (next value).andThen last) state
  simp only [andThen]
  cases hfirst : (first state).result with
  | error error => simp
  | ok value =>
      cases hnext : (next value (first state).state).result <;> simp [hnext, List.append_assoc]

/-- Some calls, and then others. -/
theorem each_append (run : κ → Action σ ε Unit) (earlier later : List κ) :
    each run (earlier ++ later) = each run earlier >>= fun _ => each run later := by
  induction earlier with
  | nil => exact (ok_bind () (fun _ => each run later)).symm
  | cons call rest ih => rw [List.cons_append, each, each, ih, bind_assoc]

end Action

theorem Table.get?_eq_none_iff {α : Type} {table : Table α} {key : String} :
    table.get? key = none ↔ key ∉ table.keys := by
  rw [get?, List.lookup_eq_none_iff, keys, names, List.mem_map]
  refine ⟨fun h => ?_, fun h entry he => ?_⟩
  · rintro ⟨entry, he, rfl⟩
    simpa using h entry he
  · simpa using fun hsame => h ⟨entry, he, Eq.symm hsame⟩

namespace Script

namespace Node

/-- The calls in a tree that require a module, each before those inside it. -/
def calls (tree : Node) : List Node := tree.nodes.filter Node.requires

def callsAll (trees : List Node) : List Node := (Tree.nodesAll trees).filter Node.requires

variable {kind : Kind} {start stop : Nat} {children : List Node}

theorem calls_of_requires (h : isRequire kind children = true) :
    calls (.node kind start stop () children) =
      .node kind start stop () children :: callsAll children :=
  List.filter_cons_of_pos h

theorem calls_of_not_requires (h : isRequire kind children = false) :
    calls (.node kind start stop () children) = callsAll children :=
  List.filter_cons_of_neg (by rw [Bool.not_eq_true]; exact h)

@[simp] theorem callsAll_nil : callsAll [] = [] := rfl

@[simp] theorem callsAll_cons (node : Node) (rest : List Node) :
    callsAll (node :: rest) = node.calls ++ callsAll rest :=
  List.filter_append _ _

end Node

namespace Requirer

/-- Records the module that a call requires. -/
def visit (requirer : Requirer) (call : Node) : Action (Table Path) BuildError Unit :=
  (fun _ => ()) <$> requirer.target? call.kind call.start call.children

mutual

/-- Rewriting a tree visits its calls one after the other. -/
theorem matches_rewrite (requirer : Requirer) (table : Table Path) : ∀ node : Node,
    Action.Matches (requirer.rewrite node) (Action.each requirer.visit node.calls) table
  | .node kind start stop () children => by
      rw [rewrite]
      by_cases hrequire : isRequire kind children = true
      · rw [Node.calls_of_requires hrequire, Action.each]
        refine Action.Matches.bind ⟨?_, ?_⟩ fun target => ?_
        · exact (Action.map_state _ _ _).symm
        · exact (Action.map_result _ _ _).symm
        · exact (matches_rewriteAll requirer _ children).map _
      · rw [Bool.not_eq_true] at hrequire
        have hnone : requirer.target? kind start children = Action.ok none := by
          rw [target?, if_neg (by simp [hrequire])]
        rw [Node.calls_of_not_requires hrequire, hnone, Action.ok_bind]
        exact (matches_rewriteAll requirer table children).map _

theorem matches_rewriteAll (requirer : Requirer) (table : Table Path) : ∀ nodes : List Node,
    Action.Matches (requirer.rewriteAll nodes) (Action.each requirer.visit (Node.callsAll nodes))
      table
  | [] => ⟨rfl, rfl⟩
  | node :: rest => by
      rw [rewriteAll, Node.callsAll_cons, Action.each_append]
      refine (matches_rewrite requirer table node).bind fun first => ?_
      exact (matches_rewriteAll requirer _ rest).map _

end

/-! ### Visits -/

/-- The file that the specifier of a call denotes. -/
def found (requirer : Requirer) (specifier : String) : Except BuildError Path :=
  (requirer.resolver.resolve requirer.disk requirer.base specifier).result

/-- The file that a call requires, or why it requires none. -/
def required (requirer : Requirer) (call : Node) : Except BuildError Path :=
  match Script.specifier? call.children with
  | some specifier => requirer.found specifier
  | none =>
    .error (.dynamicRequire requirer.id (Text.Location.ofOffset requirer.source call.start))

/-- Adds a file to the dependencies, unless there is one with its id. -/
def record (requirer : Requirer) (table : Table Path) (path : Path) : Table Path :=
  let id := requirer.resolver.moduleId path
  if table.contains id then table else table.insert id path

variable {requirer : Requirer} {table : Table Path} {call : Node} {calls : List Node}

theorem visit_eq (hcall : call.requires = true) :
    requirer.visit call =
      match Script.specifier? call.children with
      | some specifier => (fun _ => ()) <$> some <$> requirer.depend specifier
      | none => (fun _ => ()) <$> (Action.fail (.dynamicRequire requirer.id
          (Text.Location.ofOffset requirer.source call.start)) :
            Action (Table Path) BuildError (Option String)) := by
  have hrequire : isRequire call.kind call.children = true := hcall
  rw [visit, target?, if_pos hrequire]
  cases Script.specifier? call.children <;> rfl

theorem visit_of_ok {path : Path} (table : Table Path) (hcall : call.requires = true)
    (h : requirer.required call = .ok path) :
    (requirer.visit call table).result = .ok () ∧
      (requirer.visit call table).state = requirer.record table path := by
  rw [visit_eq hcall]
  unfold required at h
  cases hspecifier : Script.specifier? call.children with
  | none =>
      rw [hspecifier] at h
      cases h
  | some specifier =>
      rw [hspecifier] at h
      obtain ⟨hresult, hstate⟩ := depend_of_ok table h
      simp only [Action.map_result, Action.map_state, hresult, hstate]
      exact ⟨rfl, rfl⟩

theorem visit_of_error {error : BuildError} (table : Table Path) (hcall : call.requires = true)
    (h : requirer.required call = .error error) :
    (requirer.visit call table).result = .error error := by
  rw [visit_eq hcall]
  unfold required at h
  cases hspecifier : Script.specifier? call.children with
  | none =>
      rw [hspecifier] at h
      obtain rfl := Except.error.inj h
      rfl
  | some specifier =>
      rw [hspecifier] at h
      simp only [Action.map_result, (depend_of_error h).1]
      rfl

/-- Calls that require files are recorded one after the other, up to the first that requires
none. -/
theorem each_visit (requirer : Requirer) (table : Table Path)
    (hcalls : ∀ call ∈ calls, call.requires = true) :
    (Action.each requirer.visit calls table).result =
        (calls.mapM requirer.required).map (fun _ => ()) ∧
      ∀ paths, calls.mapM requirer.required = .ok paths →
        (Action.each requirer.visit calls table).state = paths.foldl requirer.record table := by
  induction calls generalizing table with
  | nil =>
      refine ⟨rfl, fun paths hpaths => ?_⟩
      obtain rfl := Except.ok.inj hpaths
      rfl
  | cons call rest ih =>
      obtain ⟨hcall, hrest⟩ := List.forall_mem_cons.mp hcalls
      rw [List.mapM_cons, Action.each]
      cases hrequired : requirer.required call with
      | error error =>
          have hstop := Action.bind_of_error (fun _ => Action.each requirer.visit rest)
            (visit_of_error table hcall hrequired)
          exact ⟨hstop.2, fun paths hpaths => by cases hpaths⟩
      | ok path =>
          obtain ⟨hok, hstate⟩ := visit_of_ok table hcall hrequired
          obtain ⟨hgo, hresult⟩ := Action.bind_of_ok (fun _ => Action.each requirer.visit rest) hok
          rw [hgo, hresult, hstate]
          obtain ⟨hall, hstates⟩ := ih (requirer.record table path) hrest
          rw [hall]
          cases hfiles : rest.mapM requirer.required with
          | error error => exact ⟨rfl, fun paths hpaths => by cases hpaths⟩
          | ok files =>
              refine ⟨rfl, fun paths hpaths => ?_⟩
              obtain rfl := Except.ok.inj hpaths
              exact hstates files hfiles

/-- What rewriting a tree comes to: the files that its calls require, in their order, or the error
of the first call that requires none. -/
theorem rewrite_calls (requirer : Requirer) (tree : Node) :
    (requirer.rewrite tree .empty).result.map (fun _ => ()) =
        (tree.calls.mapM requirer.required).map (fun _ => ()) ∧
      ∀ paths, tree.calls.mapM requirer.required = .ok paths →
        (requirer.rewrite tree .empty).state = paths.foldl requirer.record .empty := by
  obtain ⟨hstate, hresult⟩ := matches_rewrite requirer .empty tree
  have hcalls : ∀ call ∈ tree.calls, call.requires = true := fun call hcall =>
    (List.mem_filter.mp hcall).2
  obtain ⟨hall, hstates⟩ := each_visit requirer .empty hcalls
  exact ⟨hresult.trans hall, fun paths hpaths => hstate.trans (hstates paths hpaths)⟩

/-- In a tree that is rewritten every call requires a file, and these are what is recorded. -/
theorem exists_paths {requirer : Requirer} {tree after : Node}
    (h : (requirer.rewrite tree .empty).result = .ok after) :
    ∃ paths, tree.calls.mapM requirer.required = .ok paths ∧
      (requirer.rewrite tree .empty).state = paths.foldl requirer.record .empty := by
  obtain ⟨hmap, hrecords⟩ := requirer.rewrite_calls tree
  cases hpaths : tree.calls.mapM requirer.required with
  | error error =>
      rw [hpaths, h] at hmap
      cases hmap
  | ok paths => exact ⟨paths, rfl, hrecords paths hpaths⟩

/-! ### Dependencies -/

/-- The dependencies have each id once, in the order of the first files with them. -/
theorem keys_foldl_record (requirer : Requirer) (paths : List Path) :
    (paths.foldl requirer.record .empty).keys =
      (paths.map requirer.resolver.moduleId).eraseDups := by
  induction paths using List.reverseRecOn with
  | nil => rfl
  | append_singleton paths path ih =>
      have hthere : (paths.foldl requirer.record .empty).contains
          (requirer.resolver.moduleId path) = true ↔
            requirer.resolver.moduleId path ∈ paths.map requirer.resolver.moduleId := by
        rw [Table.contains_iff, ih, List.mem_eraseDups]
      rw [List.foldl_append, List.map_append, List.map_singleton, eraseDups_concat, ← ih,
        List.foldl_cons, List.foldl_nil, record]
      simp only [hthere]
      split
      · rfl
      · next hnew => rw [Table.keys_insert, if_neg (mt Table.contains_iff.mpr (mt hthere.mp hnew))]

/-- Under each id there is the first file with it. -/
theorem get?_foldl_record (requirer : Requirer) (paths : List Path) (id : String) :
    (paths.foldl requirer.record .empty).get? id =
      paths.find? fun path => requirer.resolver.moduleId path == id := by
  induction paths using List.reverseRecOn with
  | nil => rfl
  | append_singleton paths path ih =>
      rw [List.foldl_append, List.find?_append, ← ih, List.foldl_cons, List.foldl_nil, record]
      by_cases hid : requirer.resolver.moduleId path = id
      · by_cases hthere : (paths.foldl requirer.record .empty).contains
            (requirer.resolver.moduleId path) = true
        · have hsome := mt Table.get?_eq_none_iff.mp (not_not_intro (Table.contains_iff.mp hthere))
          obtain ⟨first, hfirst⟩ := Option.ne_none_iff_exists'.mp hsome
          rw [if_pos hthere, ← hid, hfirst, Option.some_or]
        · have hnone := Table.get?_eq_none_iff.mpr (mt Table.contains_iff.mpr hthere)
          rw [if_neg hthere, Table.get?_insert, ← hid, hnone]
          simp
      · have hkept : (requirer.record (paths.foldl requirer.record .empty) path).get? id =
            (paths.foldl requirer.record .empty).get? id := by
          rw [record]
          split
          · rfl
          · rw [Table.get?_insert, if_neg (Ne.symm hid)]
        rw [← record, hkept]
        simp [hid]

/-! ### Trees -/

/-- A tree before and after its calls were redirected. A node that is no call that requires stays
what it is, where it is, and has as many parts. Of a call that requires, the callee is renamed and
the specifier gives way to the id of the file that it denotes. -/
inductive Turns (requirer : Requirer) : Node → Node → Prop
  | kept {kind : Kind} {start stop : Nat} {children others : List Node}
      (hkind : isRequire kind children = false)
      (hparts : List.Forall₂ (Turns requirer) children others) :
      Turns requirer (.node kind start stop () children) (.node kind start stop () others)
  | redirected {optional effectFree lone : Bool} {specifier raw : String} {path : Path}
      {kind : Kind} {start stop a b c d e f : Nat} {generics generics' : Node}
      {callee callee' literal literal' rest rest' : List Node}
      (hpath : requirer.found specifier = .ok path)
      (hcallee : List.Forall₂ (Turns requirer) callee callee')
      (hgenerics : Turns requirer generics generics')
      (hliteral : List.Forall₂ (Turns requirer) literal literal')
      (hrest : List.Forall₂ (Turns requirer) rest rest') :
      Turns requirer
        (.node (.call optional effectFree) start stop ()
          [.node (.name requireName) a b () callee, generics,
            .node kind c d () (.node (.string specifier raw lone) e f () literal :: rest)])
        (.node (.call optional effectFree) start stop ()
          [.node (.name runtimeName) a b () callee', generics',
            .node kind c d ()
              (.node (.string (requirer.resolver.moduleId path) raw lone) e f () literal' ::
                rest')])

theorem Turns.kept_of {kind : Kind} {start stop : Nat} {children : List Node} {after : Node}
    (h : requirer.Turns (.node kind start stop () children) after)
    (hkind : isRequire kind children = false) :
    ∃ others, after = .node kind start stop () others ∧
      List.Forall₂ requirer.Turns children others := by
  cases h with
  | kept _ hparts => exact ⟨_, rfl, hparts⟩
  | redirected => cases hkind

theorem target?_eq_ok_of_requires {kind : Kind} {start : Nat} {children : List Node}
    {target : Option String} (hrequire : isRequire kind children = true)
    (h : (requirer.target? kind start children table).result = .ok target) :
    ∃ specifier path, Script.specifier? children = some specifier ∧
      requirer.found specifier = .ok path ∧ target = some (requirer.resolver.moduleId path) := by
  rw [target?, if_pos hrequire] at h
  cases hspecifier : Script.specifier? children with
  | none =>
      rw [hspecifier] at h
      cases h
  | some specifier =>
      simp only [hspecifier, Action.map_result] at h
      cases hfound : requirer.found specifier with
      | error error =>
          rw [(depend_of_error hfound).1] at h
          cases h
      | ok path =>
          rw [(depend_of_ok table hfound).1] at h
          exact ⟨specifier, path, rfl, hfound, (Except.ok.inj h).symm⟩

/-- A call that requires is redirected once its parts have been rewritten. -/
theorem Turns.redirect {optional effectFree : Bool} {start stop : Nat}
    {children inner : List Node} {specifier : String} {path : Path}
    (hrequire : isRequire (.call optional effectFree) children = true)
    (hspecifier : Script.specifier? children = some specifier)
    (hpath : requirer.found specifier = .ok path)
    (hinner : List.Forall₂ requirer.Turns children inner) :
    requirer.Turns (.node (.call optional effectFree) start stop () children)
      (.node (.call optional effectFree) start stop ()
        (Script.redirect (requirer.resolver.moduleId path) inner)) := by
  unfold Script.specifier? at hspecifier
  split at hspecifier
  · rename_i callee generics kind c d _ value raw lone e f _ literal rest
    obtain rfl := Option.some.inj hspecifier
    obtain ⟨_, _, _, _, -, hcons, hname⟩ := isRequire_iff.mp hrequire
    obtain ⟨rfl, -⟩ := List.cons.inj hcons
    obtain ⟨calleeKind, a, b, v, calleeParts⟩ := callee
    obtain rfl : calleeKind = .name requireName := hname
    cases hinner with
    | cons hcallee hrest =>
    cases hrest with
    | cons hgenerics hrest =>
    cases hrest with
    | cons harguments hnil =>
    cases hnil
    obtain ⟨callee', rfl, hparts⟩ := hcallee.kept_of rfl
    have hlist : isRequire kind (.node (.string value raw lone) e f () literal :: rest) =
        false := by
      rw [Bool.eq_false_iff, ne_eq, isRequire_iff]
      rintro ⟨_, _, first, _, -, hfirst, hname⟩
      obtain ⟨rfl, -⟩ := List.cons.inj hfirst
      cases hname
    obtain ⟨arguments', rfl, hitems⟩ := harguments.kept_of hlist
    cases hitems with
    | cons hliteral hrest =>
    obtain ⟨literal', rfl, hinside⟩ := hliteral.kept_of rfl
    exact .redirected hpath hparts hgenerics hinside hrest
  · cases hspecifier

mutual

/-- Rewriting redirects the calls that require, and nothing else. -/
theorem turns_rewrite : ∀ (node : Node) {table : Table Path} {after : Node},
    (requirer.rewrite node table).result = .ok after → requirer.Turns node after
  | .node kind start stop () children, table, after, h => by
      obtain ⟨target, inner, htarget, hinner, rfl, -⟩ := rewrite_eq_ok h
      have hparts := turns_rewriteAll children hinner
      by_cases hrequire : isRequire kind children = true
      · obtain ⟨specifier, path, hspecifier, hpath, rfl⟩ :=
          target?_eq_ok_of_requires hrequire htarget
        obtain ⟨optional, effectFree, -, -, rfl, -⟩ := isRequire_iff.mp hrequire
        exact Turns.redirect hrequire hspecifier hpath hparts
      · have hnone := target?_eq_ok htarget
        rw [if_neg hrequire] at hnone
        rw [hnone]
        exact .kept (by simpa using hrequire) hparts

theorem turns_rewriteAll : ∀ (nodes : List Node) {table : Table Path} {after : List Node},
    (requirer.rewriteAll nodes table).result = .ok after →
      List.Forall₂ requirer.Turns nodes after
  | [], table, after, h => by
      obtain rfl := Except.ok.inj h
      exact .nil
  | node :: rest, table, after, h => by
      obtain ⟨first, others, hfirst, hothers, rfl, -⟩ := rewriteAll_cons_eq_ok h
      exact .cons (turns_rewrite node hfirst) (turns_rewriteAll rest hothers)

end

end Requirer

end Script

end Bundler
