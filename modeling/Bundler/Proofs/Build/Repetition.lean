import Bundler.Proofs.Build.Confinement
import Bundler.Proofs.Build.Saving
import Bundler.Proofs.Module.Sources
import Mathlib.Logic.Function.Iterate

/-! Runs that are repeated. What a run writes may be seen by the next one only below the output
directory. Where nothing is looked for there, the next run compiles the same, and it writes over the
files of the first one what they hold already. -/

namespace Bundler

/-- Outside of the directory the files are those that were there. -/
theorem Disk.ConfinedTo.sameFileAt {directory path : Path} {disk after : Disk}
    (h : Disk.ConfinedTo directory disk after)
    (houtside : ¬ directory.place disk.workingDirectory <+: path.place disk.workingDirectory) :
    Disk.SameFileAt disk after path := by
  intro bytes
  rcases h.changed (path.place disk.workingDirectory) with hsame | hin | ⟨-, hnone, hmade⟩
  · rw [hsame]
  · exact absurd hin houtside
  · simp [hnone, hmade]

namespace Workshop

variable {shop : Workshop} {after : Disk}

namespace Attempt

variable {attempt : Attempt}

/-- The paths that a try looks at: its own file, and the candidates for what each specifier in the
file denotes, up to the first that is a file. -/
def lookedAt (attempt : Attempt) : List Path :=
  attempt.visit.path ::
    attempt.specifiers.flatMap (attempt.shop.resolver.probed attempt.shop.disk attempt.base)

/-- A try that succeeds goes the same way where no directory is lost and all files that it looks at
are those that were there. -/
theorem outcome_on_of_keeps (hsound : attempt.shop.disk.IsSound)
    (hextensions : ∀ extension ∈ attempt.shop.resolver.extensions, '/' ∉ extension.toList)
    (hkeeps : attempt.shop.disk.Keeps after)
    (hsame : ∀ path ∈ attempt.lookedAt, Disk.SameFileAt attempt.shop.disk after path)
    (hok : attempt.succeeds = true) : (attempt.on after).outcome = attempt.outcome := by
  obtain ⟨hfile, hprobed⟩ := List.forall_mem_cons.mp hsame
  obtain ⟨⟨module, dependencies⟩, hbuilt⟩ := exists_eq_ok hok
  obtain ⟨source, _, _, hsource, -⟩ := buildModule_inversion hbuilt
  refine outcome_on ?_ fun specifier hspecifier => Resolver.resolve_congr fun path hpath => ?_
  · rw [hsource, hkeeps.readText hfile hsource]
  · have hthere := hprobed path (List.mem_flatMap.mpr ⟨specifier, hspecifier, hpath⟩)
    have hstraight := Resolver.isStraight_of_mem_candidates hextensions
      (Resolver.mem_candidates_of_mem_probed hpath)
    exact hkeeps.isFile_eq hthere hsound hstraight

end Attempt

end Workshop

namespace Compiler

variable {compiler : Compiler} {disk after : Disk}

/-- The tries of a run to build its modules. -/
def attempts (compiler : Compiler) (disk : Disk) : List Workshop.Attempt :=
  compiler.prepared.attempts disk compiler.setup.loaders

/-- A compilation that succeeds is the same on every disk that holds what it looks at. -/
theorem compile_on {compilation : Compilation}
    (h : (compiler.compile disk).result = .ok compilation)
    (hsame : ∀ attempt ∈ compiler.attempts disk, attempt.succeeds = true →
      (attempt.on after).outcome = attempt.outcome) :
    compiler.compile after = compiler.compile disk := by
  obtain ⟨hbuilt, -, -⟩ := compile_eq_ok h
  have hstages : compiler.stages after (.ofOptions compiler.setup.options) =
      compiler.stages disk (.ofOptions compiler.setup.options) := by
    unfold stages
    refine Action.bind_congr rfl fun _ _ => Action.bind_congr rfl fun _ _ => ?_
    refine Action.bind_congr rfl fun _ _ => ?_
    exact Action.bind_congr (Compilation.buildModules_on hbuilt hsame) fun _ _ => rfl
  unfold compile
  rw [hstages]

/-- A run that succeeds can be repeated any number of times, if no file that it reads or looks for
is below its output directory. Every later run calls the taps on a compilation that is as fresh as
the first one, compiles the same, gives the same summary, and leaves the disk exactly as the first
run left it. -/
theorem build_repeats {stats : Stats} (hsound : disk.IsSound)
    (hextensions : ∀ extension ∈ compiler.prepared.resolver.extensions, '/' ∉ extension.toList)
    (houtside : ∀ compilation, (compiler.compile disk).result = .ok compilation →
      ∀ attempt ∈ compiler.attempts disk, ∀ path ∈ attempt.lookedAt,
        ¬ compilation.options.outputPath.place disk.workingDirectory <+:
          path.place disk.workingDirectory)
    (h : (compiler.build disk).result = .ok stats) (runs : ℕ) :
    let run (here : Disk) : Disk := (compiler.build here).state
    let here := run^[runs] (run disk)
    here = run disk ∧ compiler.compile here = compiler.compile disk ∧
      compiler.build here = ⟨run disk, (compiler.build disk).events, .ok stats⟩ := by
  intro run here
  obtain ⟨compilation, hcompile, hwritten, -, hstate⟩ := build_eq_ok h
  obtain ⟨hagain, hkeeps⟩ := Site.writeAssets_again ⟨compilation, disk⟩ hsound hwritten
  have hconfined := Site.confinedTo_writeAssets ⟨compilation, disk⟩
  have hafter : run disk = (Site.writeAssets ⟨compilation, disk⟩).state.disk := hstate
  rw [← hafter] at hagain hkeeps
  rw [Site.ConfinedTo, ← hafter] at hconfined
  have hcompiled : compiler.compile (run disk) = compiler.compile disk := by
    refine compile_on hcompile fun attempt hattempt hok => ?_
    have hshop := Workshop.shop_of_mem_attempts hattempt
    have hdisk : attempt.shop.disk = disk := congrArg Workshop.disk hshop
    refine attempt.outcome_on_of_keeps (hdisk ▸ hsound) ?_ (hdisk ▸ hkeeps) ?_ hok
    · rw [show attempt.shop.resolver = compiler.prepared.resolver from
        congrArg Workshop.resolver hshop]
      exact hextensions
    · intro path hpath
      rw [hdisk]
      exact hconfined.sameFileAt (houtside compilation hcompile attempt hattempt path hpath)
  have hwrite : write compilation (run disk) = write compilation disk := by
    unfold write
    rw [hagain]
  have hbuild : compiler.build (run disk) = compiler.build disk := by
    simp only [build, bind, Action.andThen, Action.get, Action.ofReport, hcompiled, hcompile,
      hwrite]
  have hhere : here = run disk := Function.iterate_fixed (congrArg Outcome.state hbuild) runs
  rw [hhere]
  refine ⟨rfl, hcompiled, ?_⟩
  rw [hbuild, ← h]

set_option maxRecDepth 100000 in
theorem build_repeats_tapped :
    let disk : Disk := ⟨⟨[(["r"], .directory), (["r", "a.js"], .file "require('./b');".toUTF8),
      (["r", "b.js"], .file "exports.x = 1;".toUTF8)]⟩, []⟩
    let options := (Options.ofContext ⟨"/r"⟩).withEntry "main" ⟨"a.js"⟩
    let versioned : Tap AssetPathTap := ⟨"versioned", fun _ path => .ok ("v1/" ++ path)⟩
    let paths : Tap CompilationTap := ⟨"paths", fun _ => Compilation.tapAssetPath versioned⟩
    let compiler : Compiler :=
      ⟨⟨options, .empty⟩, .ofKind .run, ⟨.compilation, [paths]⟩, .ofKind .emit, .ofKind .done⟩
    let run (here : Disk) : Disk := (compiler.build here).state
    (compiler.attempts disk).flatMap Workshop.Attempt.lookedAt =
        [⟨"/r/a.js"⟩, ⟨"/r/b"⟩, ⟨"/r/b.js"⟩, ⟨"/r/b.js"⟩] ∧
      ∃ stats, (compiler.build disk).result = .ok stats ∧ stats.files = ["v1/main.js"] ∧
        run^[2] (run disk) = run disk ∧
        (compiler.build (run^[2] (run disk))).result = .ok stats := by
  intro disk options versioned paths compiler run
  have hlooked : (compiler.attempts disk).flatMap Workshop.Attempt.lookedAt =
      [⟨"/r/a.js"⟩, ⟨"/r/b"⟩, ⟨"/r/b.js"⟩, ⟨"/r/b.js"⟩] := by decide +kernel
  have hsound : disk.IsSound :=
    ⟨FileTree.isSound_of_entries (by decide +kernel), rfl⟩
  have hextensions : ∀ extension ∈ compiler.prepared.resolver.extensions,
      '/' ∉ extension.toList := by decide +kernel
  have houtput : ((compiler.compile disk).result.map fun compilation =>
      compilation.options.outputPath).toOption = some ⟨"/r/dist"⟩ := by decide +kernel
  have hfiles : ((compiler.build disk).result.map Stats.files).toOption =
      some ["v1/main.js"] := by decide +kernel
  have hplaces : ∀ path ∈ (compiler.attempts disk).flatMap Workshop.Attempt.lookedAt,
      ¬ (Path.mk "/r/dist").place [] <+: path.place [] := by
    rw [hlooked]
    decide +kernel
  have houtside : ∀ compilation, (compiler.compile disk).result = .ok compilation →
      ∀ attempt ∈ compiler.attempts disk, ∀ path ∈ attempt.lookedAt,
        ¬ compilation.options.outputPath.place [] <+: path.place [] := by
    intro compilation hcompile attempt hattempt path hpath
    rw [hcompile] at houtput
    have hdirectory : compilation.options.outputPath = ⟨"/r/dist"⟩ := Option.some.inj houtput
    rw [hdirectory]
    exact hplaces path (List.mem_flatMap.mpr ⟨attempt, hattempt, hpath⟩)
  obtain ⟨stats, hstats⟩ : ∃ stats, (compiler.build disk).result = .ok stats :=
    exists_eq_ok (by decide +kernel)
  rw [hstats] at hfiles
  obtain ⟨hsame, -, hbuild⟩ := build_repeats hsound hextensions houtside hstats 2
  exact ⟨hlooked, stats, hstats, Option.some.inj hfiles, hsame, congrArg Outcome.result hbuild⟩

end Compiler

end Bundler
