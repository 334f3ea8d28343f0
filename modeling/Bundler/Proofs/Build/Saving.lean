import Bundler.Proofs.Build.Assets
import Bundler.Proofs.Disk.Saving

/-! Writing assets is saving their texts below the output directory. A run that has written all of
its assets writes them once more without changing the disk. -/

namespace Bundler.Site

variable {site : Site} {directory : Path} {name source : String} {assets : List (String × String)}
  {made after : Disk}

/-- The file that each asset is written to, and its text. -/
def targets (directory : Path) (assets : List (String × String)) : List (Path × String) :=
  assets.map fun asset => (directory.join ⟨asset.1⟩, asset.2)

/-! ### One asset -/

theorem makeParent_of_makeAbove {target : Path} (h : site.disk.makeAbove target = .ok made) :
    makeParent target site = ⟨{ site with disk := made }, [], .ok ()⟩ := by
  unfold Disk.makeAbove at h
  unfold makeParent
  cases hparent : target.parent? with
  | none =>
      rw [hparent] at h
      obtain rfl := Except.ok.inj h
      rfl
  | some above =>
      rw [hparent] at h
      cases hok : (site.disk.makeDirectories above).2 with
      | error error =>
          simp only [hok] at h
          cases h
      | ok =>
          simp only [hok] at h
          obtain rfl := Except.ok.inj h
          simp only [makeDirectories, hok]
          rfl

theorem makeAbove_of_makeParent {target : Path} (h : (makeParent target site).result = .ok ()) :
    site.disk.makeAbove target = .ok (makeParent target site).state.disk := by
  unfold makeParent at h ⊢
  unfold Disk.makeAbove
  cases hparent : target.parent? with
  | none => rfl
  | some above =>
      rw [hparent] at h
      have hok : (site.disk.makeDirectories above).2 = .ok () := mapError_eq_ok h
      simp only [makeDirectories, hok]
      rfl

/-- An asset is written by saving its text. -/
theorem writeAsset_of_save (site : Site)
    (h : site.disk.save (directory.join ⟨name⟩) source = .ok after) :
    writeAsset directory name source site =
      ⟨⟨{ site.compilation with files := site.compilation.files ++ [name] }, after⟩,
        [.fileWritten (directory.join ⟨name⟩)], .ok ()⟩ := by
  obtain ⟨made, hmade, hwrite⟩ := bind_eq_ok_iff.mp h
  have hparent := makeParent_of_makeAbove hmade
  have hfile : writeFile (directory.join ⟨name⟩) source { site with disk := made } =
      ⟨{ site with disk := after }, [], .ok ()⟩ := by
    rw [writeFile, hwrite]
  simp [writeAsset, bind, Action.andThen, hparent, hfile, Action.log, record, Action.modify]

theorem save_of_writeAsset (h : (writeAsset directory name source site).result = .ok ()) :
    ∃ after, site.disk.save (directory.join ⟨name⟩) source = .ok after := by
  rw [writeAsset] at h
  obtain ⟨_, hparent, h, -⟩ := Action.bind_eq_ok h
  obtain ⟨_, hfile, -, -⟩ := Action.bind_eq_ok h
  refine ⟨_, bind_eq_ok_iff.mpr ⟨_, makeAbove_of_makeParent hparent, (writeFile_eq_ok hfile).1⟩⟩

/-! ### All assets -/

theorem writeAll_of_saveAll (site : Site)
    (h : site.disk.saveAll (targets directory assets) = .ok after) :
    writeAll directory assets site =
      ⟨⟨{ site.compilation with files := site.compilation.files ++ Table.names assets }, after⟩,
        (targets directory assets).map fun write => .fileWritten write.1, .ok ()⟩ := by
  induction assets generalizing site with
  | nil =>
      obtain rfl := Except.ok.inj h
      simp [writeAll, Action.ok, targets, Table.names]
  | cons asset rest ih =>
      obtain ⟨name, source⟩ := asset
      obtain ⟨middle, hfirst, hrest⟩ := bind_eq_ok_iff.mp h
      have hasset := writeAsset_of_save site hfirst
      have hlater := ih ⟨{ site.compilation with
        files := site.compilation.files ++ [name] }, middle⟩ hrest
      simp [writeAll, bind, Action.andThen, hasset, hlater, targets, Table.names]

theorem saveAll_of_writeAll (h : (writeAll directory assets site).result = .ok ()) :
    ∃ after, site.disk.saveAll (targets directory assets) = .ok after := by
  induction assets generalizing site with
  | nil => exact ⟨site.disk, rfl⟩
  | cons asset rest ih =>
      obtain ⟨name, source⟩ := asset
      rw [writeAll] at h
      obtain ⟨_, hasset, hrest, -⟩ := Action.bind_eq_ok h
      obtain ⟨middle, hsave⟩ := save_of_writeAsset hasset
      obtain ⟨after, hafter⟩ := ih hrest
      rw [writeAsset_of_save site hsave] at hafter
      exact ⟨after, bind_eq_ok_iff.mpr ⟨middle, hsave, hafter⟩⟩

theorem writeAssets_of_saveAll (site : Site)
    (hnames : checkNames site.compilation.assets.keys = .ok ())
    (hmake : site.disk.makeDirectories site.compilation.options.outputPath = (made, .ok ()))
    (hsave : made.saveAll (targets site.compilation.options.outputPath
      site.compilation.assets.entries) = .ok after) :
    writeAssets site =
      ⟨⟨{ site.compilation with
          files := site.compilation.files ++ site.compilation.assets.keys }, after⟩,
        (targets site.compilation.options.outputPath site.compilation.assets.entries).map
          fun write => .fileWritten write.1, .ok ()⟩ := by
  have hdirectory : makeDirectories site.compilation.options.outputPath site =
      ⟨{ site with disk := made }, [], .ok ()⟩ := by
    simp only [makeDirectories, hmake]
    rfl
  have hall := writeAll_of_saveAll { site with disk := made } hsave
  change _ = Outcome.mk (Site.mk { site.compilation with
    files := site.compilation.files ++ site.compilation.assets.keys } after) _ _ at hall
  simp [writeAssets, Action.get, bind, Action.andThen, Action.ofExcept, hnames, hdirectory, hall]

theorem writeAssets_eq_ok (h : (writeAssets site).result = .ok ()) :
    ∃ made after, checkNames site.compilation.assets.keys = .ok () ∧
      site.disk.makeDirectories site.compilation.options.outputPath = (made, .ok ()) ∧
      made.saveAll (targets site.compilation.options.outputPath
        site.compilation.assets.entries) = .ok after := by
  rw [writeAssets] at h
  obtain ⟨_, hget, h, -⟩ := Action.bind_eq_ok h
  obtain rfl := Except.ok.inj hget
  obtain ⟨_, hnames, h, -⟩ := Action.bind_eq_ok h
  obtain ⟨_, hmake, hall, -⟩ := Action.bind_eq_ok h
  obtain ⟨after, hafter⟩ := saveAll_of_writeAll hall
  have hmade : (site.disk.makeDirectories site.compilation.options.outputPath).2 = .ok () :=
    mapError_eq_ok hmake
  exact ⟨_, after, hnames, Prod.ext rfl hmade, hafter⟩

/-- Assets that were written are written once more, and nothing changes. No directory is lost on the
way. -/
theorem writeAssets_again (site : Site) (hsound : site.disk.IsSound)
    (h : (writeAssets site).result = .ok ()) :
    writeAssets { site with disk := (writeAssets site).state.disk } = writeAssets site ∧
      site.disk.Keeps (writeAssets site).state.disk := by
  obtain ⟨made, after, hnames, hmake, hsave⟩ := writeAssets_eq_ok h
  have halong := Disk.madeAlong_makeDirectories site.disk site.compilation.options.outputPath
  rw [hmake] at halong
  have hmade : made.IsMade site.compilation.options.outputPath := by
    have hok := Disk.isMade_of_makeDirectories (congrArg Prod.snd hmake)
    rwa [hmake] at hok
  have hsaved := (halong.sound hsound).saved_nil.saveAll hsave
  rw [List.nil_append] at hsaved
  have hkeeps := Disk.keeps_saveAll hsave
  rw [writeAssets_of_saveAll site hnames hmake hsave]
  refine ⟨?_, halong.grows.keeps.trans hkeeps⟩
  have hthere := Disk.makeDirectories_of_isMade hsaved.sound (hkeeps.isMade hmade)
  exact writeAssets_of_saveAll { site with disk := after } hnames hthere hsaved.again

end Bundler.Site
