import Bundler.Proofs.Alike
import Bundler.Proofs.Path.Canonical
import Bundler.Resolver

/-! What a specifier denotes: the first file among the path that it is joined to and that path with
each extension behind it. Nothing else of the directory and the specifier matters than the normal
form of the two joined, and extensions that are tried later change nothing that was found. -/

namespace Bundler

namespace Path

variable {base base' next next' : Path}

/-- How a directory and a path from there are spelled makes no difference to where they lead, and
the directory makes none to an absolute path. -/
theorem normalize_join_congr
    (hbase : base'.normalize = base.normalize ∨ next.isAbsolute = true)
    (hnext : next'.normalize = next.normalize) :
    (base'.join next').normalize = (base.join next).normalize := by
  rw [normalize_eq_iff_trail] at hbase hnext ⊢
  rw [trail_join, trail_join, hnext]
  rcases hbase with hbase | habsolute
  · rw [hbase]
  · obtain ⟨names, -, htrail⟩ := trail_of_absolute habsolute
    rw [htrail]
    rfl

end Path

namespace Resolver

variable {resolver : Resolver} {disk : Disk} {base base' path : Path}
variable {specifier specifier' : String}

/-- The path that a specifier is joined to with an extension behind it. -/
def candidate (base : Path) (specifier extension : String) : Path :=
  ⟨(base.join ⟨specifier⟩).normalize.text ++ extension⟩

theorem candidates_eq (resolver : Resolver) (base : Path) (specifier : String) :
    resolver.candidates base specifier =
      ("" :: resolver.extensions).map (candidate base specifier) :=
  rfl

theorem resolve_eq_ok_iff_find? : (resolver.resolve disk base specifier).result = .ok path ↔
    (resolver.candidates base specifier).find? disk.isFile = some path := by
  unfold resolve
  split
  · next found hfound => simp [hfound]
  · next hnone => simp [hnone, Report.fail]

theorem resolve_eq_ok (h : (resolver.resolve disk base specifier).result = .ok path) :
    path ∈ resolver.candidates base specifier ∧ disk.isFile path = true := by
  have hfound := resolve_eq_ok_iff_find?.mp h
  exact ⟨List.mem_of_find?_eq_some hfound, List.find?_some hfound⟩

/-- A specifier denotes the first candidate that is a file. -/
theorem resolve_eq_ok_iff :
    (resolver.resolve disk base specifier).result = .ok path ↔ ∃ earlier extension later,
      "" :: resolver.extensions = earlier ++ extension :: later ∧
      path = candidate base specifier extension ∧ disk.isFile path = true ∧
      ∀ other ∈ earlier, disk.isFile (candidate base specifier other) = false := by
  rw [resolve_eq_ok_iff_find?, candidates_eq, List.find?_eq_some_iff_append]
  constructor
  · rintro ⟨hfile, before, after, hsplit, hbefore⟩
    obtain ⟨earlier, rest, hall, rfl, hrest⟩ := List.map_eq_append_iff.mp hsplit
    obtain ⟨extension, later, rfl, rfl, -⟩ := List.map_eq_cons_iff.mp hrest
    refine ⟨earlier, extension, later, hall, rfl, hfile, fun other ho => ?_⟩
    simpa using hbefore _ (List.mem_map_of_mem ho)
  · rintro ⟨earlier, extension, later, hall, rfl, hfile, hearlier⟩
    refine ⟨hfile, earlier.map (candidate base specifier), later.map (candidate base specifier),
      by rw [hall, List.map_append, List.map_cons], fun other ho => ?_⟩
    obtain ⟨before, hbefore, rfl⟩ := List.mem_map.mp ho
    simp [hearlier before hbefore]

/-- A specifier denotes nothing if no candidate is a file, and the error says which specifier in
which directory. -/
theorem resolve_eq_error_iff {error : BuildError} :
    (resolver.resolve disk base specifier).result = .error error ↔
      error = .moduleNotFound specifier base ∧
      ∀ extension ∈ "" :: resolver.extensions,
        disk.isFile (candidate base specifier extension) = false := by
  have hnone : (resolver.candidates base specifier).find? disk.isFile = none ↔
      ∀ extension ∈ "" :: resolver.extensions,
        disk.isFile (candidate base specifier extension) = false := by
    rw [candidates_eq, List.find?_eq_none, List.forall_mem_map]
    simp
  rw [← hnone]
  unfold resolve
  split
  · next found hfound => simp [hfound]
  · next h => simp [h, Report.fail, eq_comm]

/-- Specifiers that are joined to the same path denote the same file, or both denote none. -/
theorem resolve_alike_of_joined (resolver : Resolver) (disk : Disk)
    (h : (base'.join ⟨specifier'⟩).normalize = (base.join ⟨specifier⟩).normalize) :
    Alike Eq (resolver.resolve disk base specifier).result
      (resolver.resolve disk base' specifier').result := by
  have hcandidate : candidate base' specifier' = candidate base specifier := by
    funext extension
    rw [candidate, candidate, h]
  cases hfound : (resolver.resolve disk base specifier).result with
  | ok path =>
      have hagain : (resolver.resolve disk base' specifier').result = .ok path := by
        rw [resolve_eq_ok_iff, hcandidate, ← resolve_eq_ok_iff, hfound]
      rw [hagain]
      exact .ok rfl
  | error error =>
      have hagain : (resolver.resolve disk base' specifier').result =
          .error (.moduleNotFound specifier' base') := by
        rw [resolve_eq_error_iff, hcandidate]
        exact ⟨rfl, (resolve_eq_error_iff.mp hfound).2⟩
      rw [hagain]
      exact .error _ _

/-- Extensions that are tried after all others do not change what is found before them. -/
theorem resolve_of_more (more : List String)
    (h : (resolver.resolve disk base specifier).result = .ok path) :
    (({ resolver with extensions := resolver.extensions ++ more } : Resolver).resolve disk base
      specifier).result = .ok path := by
  obtain ⟨earlier, extension, later, hall, hpath⟩ := resolve_eq_ok_iff.mp h
  refine resolve_eq_ok_iff.mpr ⟨earlier, extension, later ++ more, ?_, hpath⟩
  rw [← List.cons_append, hall, List.append_assoc, List.cons_append]

/-- A specifier denotes the first file among the path that it is joined to and that path with each
extension behind it; a directory is none. If none of these is a file, the error says which specifier
in which directory. What is found, and its id, does not depend on how the two are spelled, nor on
extensions behind those that are tried before. -/
theorem resolve_first_match (resolver : Resolver) (disk : Disk) (base : Path)
    (specifier : String) :
    let joined := (base.join ⟨specifier⟩).normalize
    let result := (resolver.resolve disk base specifier).result
    (∀ path, result = .ok path ↔ ∃ earlier extension later,
      "" :: resolver.extensions = earlier ++ extension :: later ∧
      path = ⟨joined.text ++ extension⟩ ∧ disk.isFile path = true ∧
      ∀ other ∈ earlier, disk.isFile ⟨joined.text ++ other⟩ = false) ∧
    (∀ error, result = .error error ↔ error = .moduleNotFound specifier base ∧
      ∀ extension ∈ "" :: resolver.extensions, disk.isFile ⟨joined.text ++ extension⟩ = false) ∧
    (∀ path, disk.isDirectory path = true → result ≠ .ok path) ∧
    (∀ (base' : Path) (specifier' : String), (base'.join ⟨specifier'⟩).normalize = joined →
      let result' := (resolver.resolve disk base' specifier').result
      Alike Eq result result' ∧
        Alike Eq (result.map resolver.moduleId) (result'.map resolver.moduleId)) ∧
    (∀ (base' : Path) (specifier' : String),
      (base'.normalize = base.normalize ∨ Path.isAbsolute ⟨specifier⟩ = true) →
      Path.normalize ⟨specifier'⟩ = Path.normalize ⟨specifier⟩ →
      (base'.join ⟨specifier'⟩).normalize = joined) ∧
    ∀ more path, result = .ok path →
      (({ resolver with extensions := resolver.extensions ++ more } : Resolver).resolve disk base
        specifier).result = .ok path := by
  refine ⟨fun path => resolve_eq_ok_iff, fun error => resolve_eq_error_iff,
    fun path hdirectory hfound => ?_, fun base' specifier' hjoined => ?_,
    fun base' specifier' => Path.normalize_join_congr, fun more path => resolve_of_more more⟩
  · have hfile := (resolve_eq_ok hfound).2
    unfold Disk.isFile at hfile
    unfold Disk.isDirectory at hdirectory
    split at hfile
    · next bytes hlookup => simp [hlookup] at hdirectory
    · cases hfile
  · have halike := resolve_alike_of_joined resolver disk hjoined
    exact ⟨halike, halike.map fun _ _ => congrArg resolver.moduleId⟩

set_option maxRecDepth 100000 in
theorem resolve_first_match_spelled :
    let resolver : Resolver := .ofRoot ⟨"/r"⟩ [".js", ".ts"]
    let disk : Disk := ⟨⟨[(["r"], .directory), (["r", "src"], .directory),
      (["r", "lib"], .directory), (["r", "lib.ts"], .file "2".toUTF8),
      (["r", "lib.js"], .file "1".toUTF8)]⟩, []⟩
    disk.isDirectory ⟨"/r/lib"⟩ = true ∧
      (resolver.resolve disk ⟨"/r/src"⟩ "../lib").result = .ok ⟨"/r/lib.js"⟩ ∧
      Path.normalize ⟨"/r/./src/x/.."⟩ = Path.normalize ⟨"/r/src"⟩ ∧
      Path.normalize ⟨"./../y/../lib/"⟩ = Path.normalize ⟨"../lib"⟩ ∧
      Alike Eq (resolver.resolve disk ⟨"/r/src"⟩ "../lib").result
        (resolver.resolve disk ⟨"/r/./src/x/.."⟩ "./../y/../lib/").result ∧
      (({ resolver with extensions := resolver.extensions ++ ["", ".json"] } : Resolver).resolve
        disk ⟨"/r/src"⟩ "../lib").result = .ok ⟨"/r/lib.js"⟩ := by
  intro resolver disk
  obtain ⟨-, -, -, hspelled, hjoined, hmore⟩ :=
    resolve_first_match resolver disk ⟨"/r/src"⟩ "../lib"
  have hfound : (resolver.resolve disk ⟨"/r/src"⟩ "../lib").result = .ok ⟨"/r/lib.js"⟩ := by
    decide +kernel
  have hbase : Path.normalize ⟨"/r/./src/x/.."⟩ = Path.normalize ⟨"/r/src"⟩ := by decide +kernel
  have hspecifier : Path.normalize ⟨"./../y/../lib/"⟩ = Path.normalize ⟨"../lib"⟩ := by
    decide +kernel
  exact ⟨by decide +kernel, hfound, hbase, hspecifier,
    (hspelled _ _ (hjoined _ _ (.inl hbase) hspecifier)).1, hmore _ _ hfound⟩

end Resolver

end Bundler
