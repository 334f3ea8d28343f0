import Bundler.Proofs.Path.Relative
import Bundler.Proofs.Settings

/-! The paths that options hold after any number of changes. They are absolute and in normal form
from the start on, and each is where the last path that was given for it leads from the context,
which no change moves. -/

namespace Bundler

section Lookup

variable {α β : Type} [BEq α] [LawfulBEq α] {entries others : List (α × β)}

/-- Where no key comes twice, what is found under a key is what is listed with it. -/
theorem lookup_eq_some_iff_mem (h : (entries.map Prod.fst).Nodup) {key : α} {value : β} :
    entries.lookup key = some value ↔ (key, value) ∈ entries := by
  rw [List.lookup_eq_some_iff]
  constructor
  · rintro ⟨before, rest, rfl, -⟩
    simp
  · intro hmem
    obtain ⟨before, rest, rfl⟩ := List.append_of_mem hmem
    rw [List.map_append, List.map_cons] at h
    have hearlier := (List.nodup_append.mp h).2.2
    refine ⟨before, rest, rfl, fun entry he => ?_⟩
    rw [bne_iff_ne]
    exact Ne.symm (hearlier entry.1 (List.mem_map_of_mem he) key List.mem_cons_self)

/-- Where no key comes twice, the order makes no difference to what is found. -/
theorem lookup_eq_of_perm (hperm : others.Perm entries) (h : (entries.map Prod.fst).Nodup)
    (key : α) : others.lookup key = entries.lookup key := by
  have hothers : (others.map Prod.fst).Nodup := (hperm.map Prod.fst).nodup_iff.mpr h
  refine Option.ext fun value => ?_
  rw [lookup_eq_some_iff_mem hothers, lookup_eq_some_iff_mem h, hperm.mem_iff]

end Lookup

namespace Path

variable {path : Path} {name : String}

theorem isNormal_normalize (h : path.isAbsolute = true) : path.normalize.IsNormal :=
  ⟨isAbsolute_normalize h, normalize_normalize path⟩

/-- A name may be put behind a normal form as it is. -/
theorem IsNormal.join_name (h : path.IsNormal) (hname : IsName name) :
    (path.join ⟨name⟩).IsNormal := by
  obtain ⟨names, hnames, hpath, -⟩ := exists_rooted h.absolute
  have hall : ∀ other ∈ names ++ [name], IsName other := by
    intro other ho
    rcases List.mem_append.mp ho with ho | ho
    · exact hnames other ho
    · exact List.mem_singleton.mp ho ▸ hname
  rw [← h.normal, hpath, ← rooted_snoc]
  exact ⟨isAbsolute_rooted hall, normalize_rooted hall⟩

end Path

namespace Options

variable {options : Options} {start : Path}

/-- What options hold a path for besides the context: an entry, or the output directory. -/
inductive Slot where
  | entry (name : String)
  | output
deriving DecidableEq

def path? (options : Options) : Slot → Option Path
  | .entry name => options.entries.get? name
  | .output => some options.outputPath

/-! ### Changes -/

/-- One change to options. -/
inductive Change where
  | entry (name : String) (path : Path)
  | outputPath (path : Path)
  | filename (template : String)
  | extensions (tried : List String)
  | rule (added : Rule)

namespace Change

def apply (options : Options) : Change → Options
  | .entry name path => options.withEntry name path
  | .outputPath path => options.withOutputPath path
  | .filename template => options.withFilename template
  | .extensions tried => options.withExtensions tried
  | .rule added => options.withRule added

/-- The path that a change gives, and what it is given for. -/
def given? : Change → Option (Slot × Path)
  | .entry name path => some (.entry name, path)
  | .outputPath path => some (.output, path)
  | .filename _ | .extensions _ | .rule _ => none

end Change

/-- The options after some changes, one after the other. -/
def after (options : Options) (changes : List Change) : Options :=
  changes.foldl Change.apply options

/-- The paths that some changes give, the last one first. -/
def given (changes : List Change) : List (Slot × Path) :=
  (changes.filterMap Change.given?).reverse

theorem after_concat (options : Options) (changes : List Change) (change : Change) :
    options.after (changes ++ [change]) = change.apply (options.after changes) := by
  simp [after]

theorem given_concat (changes : List Change) (change : Change) :
    given (changes ++ [change]) = change.given?.toList ++ given changes := by
  rw [given, given, List.filterMap_append, List.reverse_append]
  cases hgiven : change.given? <;> simp [hgiven]

theorem context_apply (options : Options) (change : Change) :
    (change.apply options).context = options.context := by
  cases change <;> rfl

theorem context_after (options : Options) (changes : List Change) :
    (options.after changes).context = options.context := by
  induction changes using List.reverseRecOn with
  | nil => rfl
  | append_singleton changes change ih => rw [after_concat, context_apply, ih]

theorem absolute_after (options : Options) (changes : List Change) :
    (options.after changes).absolute = options.absolute := by
  funext path
  rw [absolute, absolute, context_after]

/-- One step: a change moves the path that it gives, and no other. -/
theorem path?_apply (options : Options) (change : Change) (slot : Slot) :
    (change.apply options).path? slot =
      ((change.given?.toList.lookup slot).map options.absolute).or (options.path? slot) := by
  cases change with
  | entry name path =>
      cases slot with
      | output => rfl
      | entry other =>
          change (options.entries.insert name (options.absolute path)).get? other = _
          rw [Table.get?_insert]
          by_cases hother : other = name
          · simp [Change.given?, hother]
          · have hslot : Slot.entry other ≠ .entry name := fun h => hother (Slot.entry.inj h)
            simp [Change.given?, List.lookup_cons, beq_false_of_ne hslot, hother, path?]
  | outputPath path => cases slot <;> rfl
  | filename => cases slot <;> rfl
  | extensions => cases slot <;> rfl
  | rule => cases slot <;> rfl

/-- Each path is where the last one that was given for it leads from the context. -/
theorem path?_after (options : Options) (changes : List Change) (slot : Slot) :
    (options.after changes).path? slot =
      (((given changes).lookup slot).map options.absolute).or (options.path? slot) := by
  induction changes using List.reverseRecOn with
  | nil => rfl
  | append_singleton changes change ih =>
      rw [after_concat, path?_apply, ih, absolute_after, given_concat, List.lookup_append,
        Option.map_or, Option.or_assoc]

theorem outputPath_after (options : Options) (changes : List Change) :
    (options.after changes).outputPath =
      (((given changes).lookup .output).map options.absolute).getD options.outputPath := by
  have houtput := path?_after options changes .output
  rw [path?, path?, Option.or_some] at houtput
  exact Option.some.inj houtput

/-- The order of changes that give no path twice makes no difference to the paths. -/
theorem path?_after_of_perm {changes others : List Change} (hperm : others.Perm changes)
    (h : ((given changes).map Prod.fst).Nodup) (slot : Slot) :
    (options.after others).path? slot = (options.after changes).path? slot := by
  have hgiven : (given others).Perm (given changes) :=
    (List.reverse_perm _).trans ((hperm.filterMap Change.given?).trans (List.reverse_perm _).symm)
  rw [path?_after, path?_after, lookup_eq_of_perm hgiven h]

/-! ### Normal paths -/

/-- All paths of the options are absolute and in normal form. -/
structure IsNormal (options : Options) : Prop where
  context : options.context.IsNormal
  paths : ∀ slot path, options.path? slot = some path → path.IsNormal

/-- Every path is absolute and in normal form where it leads from a context that is. -/
theorem isNormal_absolute (h : options.context.IsNormal) (path : Path) :
    (options.absolute path).IsNormal :=
  Path.isNormal_normalize (Path.isAbsolute_join path h.absolute)

namespace IsNormal

/-- One step: what a change gives is brought into normal form. -/
theorem apply (h : options.IsNormal) (change : Change) : (change.apply options).IsNormal where
  context := by
    rw [context_apply]
    exact h.context
  paths := by
    intro slot path hpath
    rw [path?_apply, Option.or_eq_some_iff] at hpath
    rcases hpath with hgiven | ⟨-, hold⟩
    · obtain ⟨given, -, rfl⟩ := Option.map_eq_some_iff.mp hgiven
      exact isNormal_absolute h.context given
    · exact h.paths slot path hold

/-- Any number of steps. -/
theorem after (h : options.IsNormal) (changes : List Change) :
    (options.after changes).IsNormal := by
  induction changes using List.reverseRecOn with
  | nil => exact h
  | append_singleton changes change ih =>
      rw [after_concat]
      exact ih.apply change

end IsNormal

/-- The directory that bundles are written to by default is joined to the context as it is, and
leads there. -/
theorem isNormal_join_dist (h : start.isAbsolute = true) :
    (start.normalize.join ⟨"dist"⟩).IsNormal :=
  (Path.isNormal_normalize h).join_name ⟨by decide, by decide⟩

theorem isNormal_ofContext (h : start.isAbsolute = true) : (ofContext start).IsNormal where
  context := Path.isNormal_normalize h
  paths := by
    intro slot path hpath
    cases slot with
    | entry name => cases hpath
    | output =>
        obtain rfl := Option.some.inj hpath
        exact isNormal_join_dist h

theorem outputPath_ofContext (h : start.isAbsolute = true) :
    (ofContext start).outputPath = (ofContext start).absolute ⟨"dist"⟩ :=
  (isNormal_join_dist h).normal.symm

end Options

namespace Settings

variable {settings : Settings} {options : Options} {home : String} {base : Path}

theorem isAbsolute_contextPath (hbase : base.isAbsolute = true) :
    (settings.contextPath home base).isAbsolute = true := by
  rw [contextPath]
  split
  · exact Path.isAbsolute_join _ hbase
  · exact hbase

/-- The paths of the options that settings stand for: those that are set, seen from the context. -/
theorem path?_of_toOptions (hbase : base.isAbsolute = true)
    (h : settings.toOptions home base = .ok options) :
    options.context = (settings.contextPath home base).normalize ∧
      ∃ entry, settings.entry = some entry ∧
        (∀ name, options.path? (.entry name) =
          (entry.toTable.get? name).map fun path => options.absolute ⟨expandHome home path⟩) ∧
        options.outputPath =
          options.absolute ⟨(settings.outputPath.map (expandHome home)).getD "dist"⟩ := by
  obtain ⟨entry, rules, hentry, -, -, rfl⟩ := toOptions_eq_ok_iff.mp h
  refine ⟨rfl, entry, hentry, get?_entriesOf settings home base entry, ?_⟩
  change settings.outputDirectory home base = _
  rw [outputDirectory]
  cases settings.outputPath with
  | none => exact Options.outputPath_ofContext (isAbsolute_contextPath hbase)
  | some path => rfl

theorem isNormal_of_toOptions (hbase : base.isAbsolute = true)
    (h : settings.toOptions home base = .ok options) : options.IsNormal := by
  obtain ⟨hcontext, entry, -, hentries, houtput⟩ := path?_of_toOptions hbase h
  have hnormal : options.context.IsNormal := by
    rw [hcontext]
    exact Path.isNormal_normalize (isAbsolute_contextPath hbase)
  refine ⟨hnormal, fun slot path hpath => ?_⟩
  cases slot with
  | entry name =>
      rw [hentries] at hpath
      obtain ⟨text, -, rfl⟩ := Option.map_eq_some_iff.mp hpath
      exact Options.isNormal_absolute hnormal _
  | output =>
      obtain rfl := Option.some.inj hpath
      rw [houtput]
      exact Options.isNormal_absolute hnormal _

end Settings

end Bundler
