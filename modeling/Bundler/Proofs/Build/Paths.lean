import Bundler.Proofs.Module.Sources
import Bundler.Proofs.Options
import Bundler.Proofs.Script.Requirements

/-! The paths of options and the modules of entries. However a file is spelled where it is required,
it is recorded under the id that it has as an entry, since both ids are made from the same normal
form. -/

namespace Bundler

namespace Resolver

variable {resolver : Resolver} {disk : Disk} {base path : Path} {specifier : String}

/-- A specifier that is joined to the path of a file denotes that file, whatever the extensions. -/
theorem resolve_of_isFile (hjoined : (base.join ⟨specifier⟩).normalize = path)
    (hfile : disk.isFile path = true) :
    (resolver.resolve disk base specifier).result = .ok path := by
  have hliteral : path = candidate base specifier "" := by
    rw [candidate, hjoined, String.append_empty]
  have hnone : ∀ other ∈ ([] : List String), disk.isFile (candidate base specifier other) = false :=
    fun other ho => absurd ho List.not_mem_nil
  exact resolve_eq_ok_iff.mpr ⟨[], "", resolver.extensions, rfl, hliteral, hfile, hnone⟩

end Resolver

namespace Script

variable {disk : Disk} {resolver : Resolver} {source id specifier : String} {path file : Path}
variable {rewritten : Rewritten}

/-- Every specifier in a program is that of a call that requires. -/
theorem exists_call_of_mem_specifiers {program : Node} (h : specifier ∈ specifiers program) :
    ∃ call ∈ program.calls, Script.specifier? call.children = some specifier := by
  obtain ⟨call, hcall, hspecifier⟩ := List.mem_filterMap.mp h
  obtain ⟨hrequires, hspecifier⟩ := Node.specifier?_eq_some.mp hspecifier
  exact ⟨call, List.mem_filter.mpr ⟨hcall, hrequires⟩, hspecifier⟩

/-- The file that a specifier in a text denotes is a dependency, under the id of the file. -/
theorem moduleId_mem_keys (h : (rewrite disk resolver source path id).result = .ok rewritten)
    (hspecifier : specifier ∈ specifiersOf path source)
    (hfile : (resolver.resolve disk (path.parent?.getD resolver.root) specifier).result =
      .ok file) : resolver.moduleId file ∈ rewritten.dependencies.keys := by
  obtain ⟨program, tree, hread, htree, -, htable⟩ := rewrite_eq_ok h
  let requirer : Requirer := ⟨disk, resolver, source.toList, id, path.parent?.getD resolver.root⟩
  obtain ⟨paths, hpaths, hrecords⟩ := Requirer.exists_paths htree
  rw [specifiersOf, hread] at hspecifier
  obtain ⟨call, hcall, hliteral⟩ := exists_call_of_mem_specifiers hspecifier
  have hrequired : requirer.required call = .ok file := by
    rw [Requirer.required, hliteral]
    exact hfile
  rw [htable, hrecords, Requirer.keys_foldl_record, List.mem_eraseDups]
  exact List.mem_map_of_mem (mem_of_mapM_eq_ok hpaths hcall hrequired)

end Script

namespace Workshop.Attempt

variable {attempt : Attempt} {module : Module} {dependencies : List Visit} {specifier : String}
variable {file : Path}

/-- The file that a specifier in a module denotes is a dependency, under the id of the file. -/
theorem moduleId_mem_dependencies (h : attempt.outcome.result = .ok (module, dependencies))
    (hspecifier : specifier ∈ attempt.specifiers)
    (hfile : (attempt.shop.resolver.resolve attempt.shop.disk attempt.base specifier).result =
      .ok file) : attempt.shop.resolver.moduleId file ∈ module.dependencies := by
  obtain ⟨source, loaded, rewritten, hsource, hloaded, hrewritten, rfl, -⟩ :=
    buildModule_inversion h
  rw [specifiers_eq hsource hloaded] at hspecifier
  exact Script.moduleId_mem_keys hrewritten hspecifier hfile

end Workshop.Attempt

namespace Options

variable {options : Options}

theorem IsNormal.root_resolver (h : options.IsNormal) :
    (Compilation.ofOptions options).resolver.root = options.context :=
  h.context.normal

/-- The paths of options are absolute and in normal form, after any changes to fresh ones as well as
where a configuration stands for them. A path that is given is where it leads from the context, an
absolute one its own normal form, in whatever order the paths are given. So a file has the id of the
entry at its path however it is spelled where it is required. -/
theorem paths_stay_normal :
    (∀ (start : Path) (changes : List Change), start.isAbsolute = true →
      let options := (ofContext start).after changes
      options.IsNormal ∧ options.context = start.normalize ∧
      (∀ name, options.path? (.entry name) =
        ((given changes).lookup (.entry name)).map options.absolute) ∧
      options.outputPath = options.absolute (((given changes).lookup .output).getD ⟨"dist"⟩) ∧
      ∀ others : List Change, others.Perm changes → ((given changes).map Prod.fst).Nodup →
        ∀ slot, ((ofContext start).after others).path? slot = options.path? slot) ∧
    (∀ (settings : Settings) (home : String) (base : Path) (options : Options),
      base.isAbsolute = true → settings.toOptions home base = .ok options →
      options.IsNormal ∧ options.context = (settings.contextPath home base).normalize ∧
      ∃ entry, settings.entry = some entry ∧
        (∀ name, options.path? (.entry name) = (entry.toTable.get? name).map fun path =>
          options.absolute ⟨Settings.expandHome home path⟩) ∧
        options.outputPath = options.absolute
          ⟨(settings.outputPath.map (Settings.expandHome home)).getD "dist"⟩) ∧
    (∀ (options : Options) (path : Path),
      options.absolute path = (options.context.join path).normalize ∧
      (path.isAbsolute = true → options.absolute path = path.normalize)) ∧
    ∀ (options : Options) (name : String) (path : Path), options.IsNormal →
      options.path? (.entry name) = some path →
      let resolver := (Compilation.ofOptions options).resolver
      resolver.root = options.context ∧
      (∀ (shop : Workshop) (graph : Graph) (id : String), shop.resolver = resolver →
        (shop.buildEntry name path graph).result = .ok id → id = resolver.moduleId path) ∧
      (∀ (requirer : Script.Requirer) (specifier : String), requirer.resolver = resolver →
        (requirer.base.join ⟨specifier⟩).normalize = path.normalize →
        requirer.disk.isFile path = true →
        (resolver.resolve requirer.disk requirer.base specifier).result = .ok path ∧
        ∀ table, (requirer.depend specifier table).result = .ok (resolver.moduleId path)) ∧
      ∀ (attempt : Workshop.Attempt) (module : Module) (dependencies : List Visit),
        attempt.shop.resolver = resolver →
        attempt.outcome.result = .ok (module, dependencies) →
        ∀ specifier ∈ attempt.specifiers,
          (attempt.base.join ⟨specifier⟩).normalize = path.normalize →
          attempt.shop.disk.isFile path = true → resolver.moduleId path ∈ module.dependencies := by
  refine ⟨fun start changes hstart => ?_, fun settings home base options hbase hoptions => ?_,
    fun options path => ⟨rfl, fun habsolute => ?_⟩, fun options name path h hpath => ?_⟩
  · intro options
    have hcontext : options.context = (ofContext start).context := context_after _ changes
    have habsolute : options.absolute = (ofContext start).absolute := absolute_after _ changes
    refine ⟨(isNormal_ofContext hstart).after changes, hcontext, fun name => ?_, ?_,
      fun others hperm hnodup => path?_after_of_perm hperm hnodup⟩
    · rw [habsolute, path?_after]
      exact Option.or_none
    · rw [habsolute, outputPath_after, outputPath_ofContext hstart, Option.getD_map]
  · exact ⟨Settings.isNormal_of_toOptions hbase hoptions,
      Settings.path?_of_toOptions hbase hoptions⟩
  · rw [absolute, Path.join_of_isAbsolute _ habsolute]
  · have hnormal : path.normalize = path := (h.paths _ _ hpath).normal
    rw [hnormal]
    refine ⟨h.root_resolver, ?_, ?_, ?_⟩
    · rintro shop graph id hresolver hbuilt
      rw [(Workshop.buildEntry_eq_ok hbuilt).1, hresolver]
    · intro requirer specifier hresolver hjoined hfile
      have hfound : (requirer.resolver.resolve requirer.disk requirer.base specifier).result =
          .ok path := Resolver.resolve_of_isFile hjoined hfile
      rw [← hresolver]
      exact ⟨hfound, fun table => (Script.Requirer.depend_of_ok table hfound).1⟩
    · intro attempt module dependencies hresolver hbuilt specifier hspecifier hjoined hfile
      rw [← hresolver]
      exact Workshop.Attempt.moduleId_mem_dependencies hbuilt hspecifier
        (Resolver.resolve_of_isFile hjoined hfile)

/-- An entry, given by a detour, that another entry's file requires by another one. -/
theorem paths_stay_normal_spelled :
    let start : Path := ⟨"/app/./x/.."⟩
    let changes : List Change :=
      [.entry "main" ⟨"src/../a.js"⟩, .outputPath ⟨"../out/./"⟩, .extensions [".ts"],
        .entry "other" ⟨"/app/lib//b.js"⟩, .filename "[name].mjs"]
    let options := (ofContext start).after changes
    let settings : Settings :=
      ⟨some "~/app", some (.single "./src/../a.js"), none, none, none, [], []⟩
    let disk : Disk := ⟨⟨[(["app"], .directory), (["app", "lib"], .directory),
      (["app", "a.js"], .file "exports.x = 1;".toUTF8),
      (["app", "lib", "b.js"], .file "require('./../lib/.././a.js');".toUTF8)]⟩, []⟩
    let resolver := (Compilation.ofOptions options).resolver
    let requirer : Script.Requirer := ⟨disk, resolver, [], "./lib/b.js", ⟨"/app/lib"⟩⟩
    let attempt : Workshop.Attempt :=
      ⟨⟨disk, resolver, [], .empty⟩, "other", ⟨"./lib/b.js", ⟨"/app/lib/b.js"⟩⟩⟩
    options.IsNormal ∧ options.context = ⟨"/app"⟩ ∧
      options.path? (.entry "main") = some ⟨"/app/a.js"⟩ ∧
      options.path? (.entry "other") = some ⟨"/app/lib/b.js"⟩ ∧
      options.outputPath = ⟨"/out"⟩ ∧
      options.absolute ⟨"/app/lib//b.js"⟩ = Path.normalize ⟨"/app/lib//b.js"⟩ ∧
      (∀ slot, ((ofContext start).after changes.reverse).path? slot = options.path? slot) ∧
      (∃ set, settings.toOptions "/home/me" ⟨"/etc"⟩ = .ok set ∧ set.IsNormal ∧
        set.context = ⟨"/home/me/app"⟩ ∧ set.outputPath = set.absolute ⟨"dist"⟩) ∧
      (∃ id, (attempt.shop.buildEntry "main" ⟨"/app/a.js"⟩ .empty).result = .ok id ∧
        id = "./a.js") ∧
      (∀ table, (requirer.depend "./../lib/.././a.js" table).result = .ok "./a.js") ∧
      ∃ module dependencies, attempt.outcome.result = .ok (module, dependencies) ∧
        "./a.js" ∈ module.dependencies := by
  intro start changes options settings disk resolver requirer attempt
  obtain ⟨hchanges, hsettings, hleads, hids⟩ := paths_stay_normal
  obtain ⟨hnormal, hcontext, hentries, houtput, hreorder⟩ := hchanges start changes (by decide)
  have hmain : options.path? (.entry "main") = some ⟨"/app/a.js"⟩ :=
    (hentries "main").trans (by decide +kernel)
  obtain ⟨-, hentry, hrequirer, hattempt⟩ := hids options "main" ⟨"/app/a.js"⟩ hnormal hmain
  have hid : resolver.moduleId ⟨"/app/a.js"⟩ = "./a.js" := by decide +kernel
  have hfile : disk.isFile ⟨"/app/a.js"⟩ = true := by decide +kernel
  rw [hid] at hentry hrequirer hattempt
  refine ⟨hnormal, hcontext.trans (by decide +kernel), hmain,
    (hentries "other").trans (by decide +kernel), houtput.trans (by decide +kernel),
    (hleads options _).2 (by decide),
    hreorder changes.reverse changes.reverse_perm (by decide +kernel), ?_, ?_,
    (hrequirer requirer "./../lib/.././a.js" rfl (by decide +kernel) hfile).2, ?_⟩
  · have hrun : (settings.toOptions "/home/me" ⟨"/etc"⟩).isOk = true := by decide +kernel
    obtain ⟨set, hset⟩ := exists_eq_ok hrun
    obtain ⟨hsetNormal, hsetContext, _, -, -, hsetOutput⟩ :=
      hsettings settings "/home/me" ⟨"/etc"⟩ set (by decide) hset
    exact ⟨set, hset, hsetNormal, hsetContext.trans (by decide +kernel), hsetOutput⟩
  · have hrun : (attempt.shop.buildEntry "main" ⟨"/app/a.js"⟩ .empty).result.isOk = true := by
      decide +kernel
    obtain ⟨id, hbuilt⟩ := exists_eq_ok hrun
    exact ⟨id, hbuilt, hentry attempt.shop .empty id rfl hbuilt⟩
  · have hrun : attempt.outcome.result.isOk = true := by decide +kernel
    obtain ⟨⟨module, dependencies⟩, hbuilt⟩ := exists_eq_ok hrun
    have hspecifiers : attempt.specifiers = ["./../lib/.././a.js"] := by decide +kernel
    exact ⟨module, dependencies, hbuilt, hattempt attempt module dependencies rfl hbuilt
      "./../lib/.././a.js" (hspecifiers ▸ List.mem_singleton.mpr rfl) (by decide +kernel) hfile⟩

end Options

end Bundler
