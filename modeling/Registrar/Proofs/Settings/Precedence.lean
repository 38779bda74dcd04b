import Registrar.Proofs.Catalog.Declared
import Registrar.Proofs.Command.Output
import Registrar.Proofs.Config.Layout
import Registrar.Proofs.Config.Nearest
import Registrar.Proofs.Files.Inside

/-! # Where the settings come from

Each setting is taken from the arguments, or else from the configuration file, or else it has its
standard value, and no setting depends on where another one comes from. A path to the library that
leads to no folder is a fault, whoever gives it; nothing else is tried then. What an argument
overrides may stand in the configuration file in any way.
-/

namespace Registrar

open Registrar.Files Registrar.Json

variable {d : Disk} {profile : Profile} {arguments : Arguments} {verbose : Option String}
  {start root : FilePath} {loaded : LoadedConfig} {draft : Config.Draft}

/-! ## The configuration file -/

/-- What the configuration file says that holds for a folder; nothing if there is no such file. -/
inductive Config.Tells (d : Disk) (start : FilePath) : Option FilePath → Config.Draft → Prop
  | nothing : ConfigFile.find d start = none → Config.Tells d start none {}
  | file {file : FilePath} {text : String} {draft : Config.Draft} :
      ConfigFile.find d start = some file → d.readText file = .ok text →
      Reader.run Draft.reader text = .ok draft → Config.Tells d start (some file) draft

theorem LoadedConfig.exists_tells (h : load d start = .ok loaded) :
    ∃ draft, Config.Tells d start loaded.path draft ∧ loaded.config = draft.complete := by
  unfold load at h
  cases hfind : ConfigFile.find d start with
  | none =>
    rw [hfind] at h
    obtain rfl := Except.ok.inj h
    exact ⟨{}, .nothing hfind, rfl⟩
  | some file =>
    rw [hfind] at h
    obtain ⟨text, htext, h⟩ := bind_eq_ok_iff.1 h
    obtain ⟨config, hconfig, h⟩ := bind_eq_ok_iff.1 h
    rw [mapError_eq_ok_iff] at htext hconfig
    obtain ⟨draft, hdraft, rfl⟩ := Config.read_eq_ok_iff.1 hconfig
    split at h
    · cases h
    · obtain rfl := Except.ok.inj h
      exact ⟨draft, .file hfind htext hdraft, rfl⟩

theorem ConfigFile.exists_join_of_find {file : FilePath} (h : find d start = some file) :
    ∃ folder : FilePath, file = folder.join fileName := by
  have hamong (folders : List FilePath) (h : findAmong d folders = some file) :
      ∃ folder : FilePath, file = folder.join fileName := by
    induction folders with
    | nil => cases h
    | cons folder folders ih =>
      rw [findAmong] at h
      split at h
      · exact ⟨folder, (Option.some.inj h).symm⟩
      · split at h
        · cases h
        · exact ih h
  exact hamong _ h

theorem ConfigFile.exists_parent? {file : FilePath} (h : find d start = some file) :
    ∃ base, file.parent? = some base := by
  obtain ⟨folder, rfl⟩ := exists_join_of_find h
  cases hparent : (folder.join fileName).parent? with
  | some base => exact ⟨base, rfl⟩
  | none =>
    have hway := FilePath.way_of_parent?_eq_none hparent
    rw [FilePath.way_join isName_fileName] at hway
    simp at hway

theorem LoadedConfig.exists_parent? {path : String} (h : load d start = .ok loaded)
    (hpath : loaded.config.libraryRoot = some path) :
    ∃ file base, loaded.path = some file ∧ file.parent? = some base := by
  obtain ⟨draft, htells, hconfig⟩ := exists_tells h
  obtain ⟨config, file⟩ := loaded
  cases htells with
  | nothing =>
    rw [hconfig] at hpath
    cases hpath
  | @file file text draft hfind =>
    obtain ⟨base, hbase⟩ := ConfigFile.exists_parent? hfind
    exact ⟨file, base, rfl, hbase⟩

/-! ## The library -/

/-- The path at which the library is asked for: an argument that is not empty, or else what the
configuration says, seen from the folder of its file. -/
inductive Settings.AsksFor (arguments : Arguments) (loaded : LoadedConfig) :
    Option FilePath → Prop
  | argument {path : String} : arguments.libraryRoot = some path → path ≠ "" →
      AsksFor arguments loaded (some ⟨path⟩)
  | absolute {path : String} : (∀ given ∈ arguments.libraryRoot, given = "") →
      loaded.config.libraryRoot = some path → FilePath.isAbsolute ⟨path⟩ = true →
      AsksFor arguments loaded (some ⟨path⟩)
  | relative {path : String} {file base : FilePath} :
      (∀ given ∈ arguments.libraryRoot, given = "") → loaded.config.libraryRoot = some path →
      FilePath.isAbsolute ⟨path⟩ = false → loaded.path = some file → file.parent? = some base →
      AsksFor arguments loaded (some (base.join path))
  | nothing : (∀ given ∈ arguments.libraryRoot, given = "") → loaded.config.libraryRoot = none →
      AsksFor arguments loaded none

theorem Arguments.givenLibrary?_eq_some_iff {path : String} :
    arguments.givenLibrary? = some path ↔ arguments.libraryRoot = some path ∧ path ≠ "" := by
  simp [givenLibrary?, Option.filter_eq_some_iff]

theorem Arguments.givenLibrary?_eq_none_iff :
    arguments.givenLibrary? = none ↔ ∀ given ∈ arguments.libraryRoot, given = "" := by
  simp [givenLibrary?, Option.filter_eq_none_iff]

theorem Settings.asksFor_given (h : LoadedConfig.load d start = .ok loaded) :
    AsksFor arguments loaded
      ((arguments.givenLibrary?.map FilePath.mk).or loaded.libraryRoot?) := by
  cases hgiven : arguments.givenLibrary? with
  | some path =>
    obtain ⟨hpath, hne⟩ := Arguments.givenLibrary?_eq_some_iff.1 hgiven
    exact .argument hpath hne
  | none =>
    have hnone := Arguments.givenLibrary?_eq_none_iff.1 hgiven
    rw [Option.map_none, Option.none_or]
    cases hpath : loaded.config.libraryRoot with
    | none =>
      rw [LoadedConfig.libraryRoot?, hpath, Option.map_none]
      exact .nothing hnone hpath
    | some path =>
      obtain ⟨file, base, hfile, hbase⟩ := LoadedConfig.exists_parent? h hpath
      have hroot : loaded.libraryRoot? = some (base.join path) := by
        simp only [LoadedConfig.libraryRoot?, hpath, hfile, hbase, Option.map_some,
          Option.bind_some]
      rw [hroot]
      cases habsolute : FilePath.isAbsolute ⟨path⟩ with
      | false => exact .relative hnone hpath habsolute hfile hbase
      | true =>
        rw [FilePath.join, if_pos habsolute]
        exact .absolute hnone hpath habsolute

/-- There is one path at which the library is asked for, or none. -/
theorem Settings.AsksFor.eq {candidate : Option FilePath} (h : AsksFor arguments loaded candidate) :
    (arguments.givenLibrary?.map FilePath.mk).or loaded.libraryRoot? = candidate := by
  cases h with
  | argument hpath hne =>
    rw [Arguments.givenLibrary?_eq_some_iff.2 ⟨hpath, hne⟩]
    rfl
  | @absolute path hnone hpath habsolute =>
    have hjoin (base : FilePath) : base.join path = ⟨path⟩ := if_pos habsolute
    rw [Arguments.givenLibrary?_eq_none_iff.2 hnone, LoadedConfig.libraryRoot?, hpath]
    cases loaded.path.bind FilePath.parent? <;> simp [hjoin]
  | relative hnone hpath _ hfile hbase =>
    rw [Arguments.givenLibrary?_eq_none_iff.2 hnone, LoadedConfig.libraryRoot?, hpath]
    simp [hfile, hbase]
  | nothing hnone hpath =>
    rw [Arguments.givenLibrary?_eq_none_iff.2 hnone, LoadedConfig.libraryRoot?, hpath]
    rfl

/-- What is installed in the nearest of a folder and the folders around it, as its path without
links names them. -/
inductive Library.IsNearest (d : Disk) (profile : Profile) (start : FilePath) : FilePath → Prop
  | mk {canonical folder : FilePath} {inner outer : List FilePath} :
      d.canonical start = .ok canonical → canonical.ancestors = inner ++ folder :: outer →
      (∀ passed ∈ inner, d.isFolder (installed profile passed) = false) →
      d.isFolder (installed profile folder) = true →
      IsNearest d profile start (installed profile folder)

/-- The library at a path that is asked for. It is the package in there if the path itself has no
components and there is such a folder, and it has components if either of the two has. -/
structure Library.IsAt (d : Disk) (profile : Profile) (path root : FilePath) : Prop where
  isFolder : d.isFolder path = true
  eq : root = if isRoot d profile path = false ∧ d.isFolder (path.join profile.package) = true then
      path.join profile.package
    else path
  isRoot : Library.isRoot d profile path = true ∨
    Library.isRoot d profile (path.join profile.package) = true →
      Library.isRoot d profile root = true

theorem Library.isNearest_of_locate (h : locate d profile start = .ok root) :
    IsNearest d profile start root := by
  unfold locate at h
  cases hcanonical : d.canonical start with
  | error fault =>
    rw [hcanonical] at h
    cases h
  | ok canonical =>
    rw [hcanonical] at h
    dsimp only at h
    cases hfind : (canonical.ancestors.map (installed profile)).find? d.isFolder with
    | none =>
      rw [hfind] at h
      cases h
    | some found =>
      rw [hfind] at h
      obtain rfl := Except.ok.inj h
      obtain ⟨hfolder, passed, others, hall, hpassed⟩ := List.find?_eq_some_iff_append.1 hfind
      obtain ⟨inner, behind, hancestors, rfl, hbehind⟩ := List.map_eq_append_iff.1 hall
      obtain ⟨folder, outer, rfl, rfl, -⟩ := List.map_eq_cons_iff.1 hbehind
      refine .mk hcanonical hancestors ?_ hfolder
      intro p hp
      simpa using hpassed _ (List.mem_map_of_mem hp)

theorem Library.isFolder_of_isRoot {path : FilePath} (hne : path.text ≠ "")
    (h : isRoot d profile path = true) (hnone : isRoot d profile start = false) :
    d.isFolder path = true := by
  cases habsolute : FilePath.isAbsolute ⟨profile.componentsFile⟩ with
  | false => exact Disk.isFolder_of_isFile_join habsolute hne h
  | true =>
    -- the components are declared at the same place whatever the library is
    have hjoin (base : FilePath) : base.join profile.componentsFile = ⟨profile.componentsFile⟩ :=
      if_pos habsolute
    rw [isRoot, Profile.componentsPath, hjoin] at h hnone
    rw [h] at hnone
    cases hnone

theorem Library.isAt_of_resolve {path : FilePath}
    (h : resolve d profile (some path) start = .ok root) : IsAt d profile path root := by
  unfold resolve at h
  dsimp only at h
  split at h
  · next hfolder =>
    have hne : (path.join profile.package).text ≠ "" :=
      FilePath.join_ne_empty_of_base (Disk.ne_empty_of_isFolder hfolder) _
    split at h
    · next hnested =>
      obtain rfl := Except.ok.inj h
      rw [Bool.and_eq_true, Bool.not_eq_true'] at hnested
      refine ⟨hfolder, (if_pos hnested).symm, ?_⟩
      rintro (hroot | hroot)
      · rw [hroot] at hnested
        exact absurd hnested.1 (by decide)
      · exact hroot
    · next hnested =>
      obtain rfl := Except.ok.inj h
      rw [Bool.and_eq_true, Bool.not_eq_true'] at hnested
      refine ⟨hfolder, (if_neg hnested).symm, ?_⟩
      rintro (hroot | hroot)
      · exact hroot
      · by_contra hnone
        rw [Bool.not_eq_true] at hnone
        exact hnested ⟨hnone, isFolder_of_isRoot hne hroot hnone⟩
  · cases h

theorem Library.resolve_of_not_isFolder {path : FilePath} (h : d.isFolder path = false) :
    resolve d profile (some path) start = .error (.noFolder path) := by
  simp [resolve, h]

/-! ## The settings -/

namespace Settings

/-- The two configurations agree but for what the arguments override. -/
structure Overrides (arguments : Arguments) (config config' : Config) : Prop where
  libraryRoot : (∀ given ∈ arguments.libraryRoot, given = "") →
    config'.libraryRoot = config.libraryRoot
  wrapLimit : arguments.wrapLimit = none → config'.wrapLimit = config.wrapLimit
  indentSize : arguments.indentSize = none → config'.indentSize = config.indentSize
  extensions : config'.extensions = config.extensions
  ignores : config'.ignores = config.ignores
  verbose : config'.verbose = config.verbose

/-- What settings are made of: the configuration file, and for each setting the first of its
sources. -/
structure ComesFrom (d : Disk) (profile : Profile) (arguments : Arguments) (settings : Settings)
    (loaded : LoadedConfig) (draft : Config.Draft) : Prop where
  load : LoadedConfig.load d ⟨arguments.markupRoot⟩ = .ok loaded
  source : Config.Tells d ⟨arguments.markupRoot⟩ loaded.path draft
  config : loaded.config = draft.complete
  wrapLimit : settings.options.layout.wrapLimit =
    (arguments.wrapLimit.or draft.wrapLimit).getD Layout.standard.wrapLimit
  indentSize : settings.options.layout.indentSize =
    (arguments.indentSize.or draft.indentSize).getD Layout.standard.indentSize
  library : ∃ candidate, AsksFor arguments loaded candidate ∧
    match candidate with
    | some path => Library.IsAt d profile path settings.options.libraryRoot
    | none => Library.IsNearest d profile ⟨arguments.markupRoot⟩ settings.options.libraryRoot

theorem exists_comesFrom {settings : Settings}
    (h : resolve d profile arguments verbose = .ok settings) :
    ∃ loaded draft, ComesFrom d profile arguments settings loaded draft := by
  have hlevel (given said : Option Nat) (other : Nat) :
      given.getD (said.getD other) = (given.or said).getD other := by cases given <;> rfl
  obtain ⟨⟨config, file⟩, root, hload, hlibrary, rfl⟩ := exists_of_resolve h
  obtain ⟨draft, htells, rfl⟩ := LoadedConfig.exists_tells hload
  refine ⟨_, draft, hload, htells, rfl, hlevel _ _ _, hlevel _ _ _, _, asksFor_given hload, ?_⟩
  split
  · next hpath =>
    rw [hpath] at hlibrary
    exact Library.isAt_of_resolve hlibrary
  · next hnone =>
    rw [hnone] at hlibrary
    exact Library.isNearest_of_locate hlibrary

theorem resolve_of_not_isFolder {path : FilePath}
    (hfolder : d.isFolder ⟨arguments.markupRoot⟩ = true)
    (hload : LoadedConfig.load d ⟨arguments.markupRoot⟩ = .ok loaded)
    (hasks : AsksFor arguments loaded (some path)) (hpath : d.isFolder path = false) :
    resolve d profile arguments verbose = .error (.library (.noFolder path)) := by
  simp only [resolve, hfolder, hload, hasks.eq, Library.resolve_of_not_isFolder hpath,
    Except.mapError, bind, Except.bind, Bool.not_true, Bool.false_eq_true, if_false]

theorem resolve_rewrite {location : Location} {text text' : String} {config config' : Config}
    (hread : Config.read text = .ok config) (hread' : Config.read text' = .ok config')
    (h : Overrides arguments config config') (d : Disk) (profile : Profile)
    (verbose : Option String) :
    resolve (d.rewrite location text.toUTF8) profile arguments verbose =
      resolve (d.rewrite location text'.toUTF8) profile arguments verbose := by
  have hfault : config'.fault? = config.fault? := by
    simp only [Config.fault?, h.ignores, h.extensions]
  have hgetD {given : Option Nat} {n n' : Nat} (h : given = none → n' = n) :
      given.getD n' = given.getD n := by
    cases given with
    | none => exact h rfl
    | some _ => rfl
  have hlayout : layout arguments config' = layout arguments config := by
    rw [layout, layout, hgetD h.wrapLimit, hgetD h.indentSize]
  have hgiven (file : Option FilePath) :
      (arguments.givenLibrary?.map FilePath.mk).or (LoadedConfig.libraryRoot? ⟨config', file⟩) =
        (arguments.givenLibrary?.map FilePath.mk).or
          (LoadedConfig.libraryRoot? ⟨config, file⟩) := by
    cases hlibrary : arguments.givenLibrary? with
    | some path => rfl
    | none =>
      have hsame := h.libraryRoot (Arguments.givenLibrary?_eq_none_iff.1 hlibrary)
      simp only [LoadedConfig.libraryRoot?, hsame]
  simp only [resolve, Disk.isFolder_rewrite, Library.resolve_rewrite]
  rcases LoadedConfig.load_rewrite_cases hread hread' hfault d location ⟨arguments.markupRoot⟩ with
    hsame | ⟨file, hc, hc'⟩
  · rw [hsame]
  · simp only [hc, hc', hlayout, hgiven, h.extensions, h.ignores, h.verbose, Except.mapError, bind,
      Except.bind]

/-- Every setting comes from the first of its sources. A path to the library that leads to no folder
is a fault, and what an argument overrides does not matter. -/
theorem resolve_precedence (d : Disk) (profile : Profile) (arguments : Arguments)
    (verbose : Option String) :
    (∀ settings, resolve d profile arguments verbose = .ok settings →
      ∃ loaded draft, ComesFrom d profile arguments settings loaded draft) ∧
    (∀ loaded path, d.isFolder ⟨arguments.markupRoot⟩ = true →
      LoadedConfig.load d ⟨arguments.markupRoot⟩ = .ok loaded →
      AsksFor arguments loaded (some path) → d.isFolder path = false →
      resolve d profile arguments verbose = .error (.library (.noFolder path))) ∧
    ∀ location text text' config config', Config.read text = .ok config →
      Config.read text' = .ok config' → Overrides arguments config config' →
      resolve (d.rewrite location text.toUTF8) profile arguments verbose =
        resolve (d.rewrite location text'.toUTF8) profile arguments verbose := by
  refine ⟨?_, ?_, ?_⟩
  · intro settings h
    exact exists_comesFrom h
  · intro loaded path hfolder hload hasks hpath
    exact resolve_of_not_isFolder hfolder hload hasks hpath
  · intro location text text' config config' hread hread' h
    exact resolve_rewrite hread hread' h d profile verbose

theorem resolve_precedence_shared :
    (∃ settings loaded draft,
      ComesFrom (sharedDisk.rewrite ["m", ".bvtrimrc.json"] "\x7b\x7d".toUTF8) bootstrapVue
        ⟨"m", some "l", none, none⟩ settings loaded draft) ∧
    resolve (sharedDisk.rewrite ["m", ".bvtrimrc.json"] "\x7b\x7d".toUTF8) bootstrapVue
      ⟨"m", some "x", none, none⟩ none = .error (.library (.noFolder ⟨"x"⟩)) ∧
    resolve (sharedDisk.rewrite ["m", ".bvtrimrc.json"] "\x7b\x7d".toUTF8) bootstrapVue
        ⟨"m", some "l", none, none⟩ none =
      resolve (sharedDisk.rewrite ["m", ".bvtrimrc.json"] "\x7b\"libraryRoot\":\"x\"\x7d".toUTF8)
        bootstrapVue ⟨"m", some "l", none, none⟩ none := by
  have hread : Config.read "\x7b\x7d" = .ok .standard := sharedDisk.read_config.1
  have hread' : Config.read "\x7b\"libraryRoot\":\"x\"\x7d" =
      .ok { Config.standard with libraryRoot := some "x" } :=
    ok_of_toOption (by decide +kernel)
  have hload := (sharedDisk.load_config hread rfl).1
  have hfolder : (sharedDisk.rewrite ["m", ".bvtrimrc.json"] "\x7b\x7d".toUTF8).isFolder ⟨"m"⟩ =
      true := by
    rw [Disk.isFolder_rewrite, sharedDisk.isFolder_markup.1]
  have hnone : (sharedDisk.rewrite ["m", ".bvtrimrc.json"] "\x7b\x7d".toUTF8).isFolder ⟨"x"⟩ =
      false := by
    have hnames : pathNames "x" = ["x"] := by decide +kernel
    rw [Disk.isFolder_rewrite]
    simp +decide [Disk.isFolder, Disk.node, Disk.find, hnames, FileTree.follow, FileTree.lookup,
      sharedDisk, Except.map]
  refine ⟨⟨_, (resolve_precedence _ _ _ none).1 _ (sharedDisk.resolve_eq (.inl rfl) hload)⟩, ?_, ?_⟩
  · exact (resolve_precedence _ _ ⟨"m", some "x", none, none⟩ none).2.1 _ _ hfolder hload
      (.argument rfl (by decide)) hnone
  · refine (resolve_precedence _ _ _ none).2.2 _ _ _ _ _ hread hread' ⟨?_, ?_, ?_, rfl, rfl, rfl⟩
    · intro hempty
      exact absurd (hempty "l" rfl) (by decide)
    · exact fun _ => rfl
    · exact fun _ => rfl

end Settings

end Registrar
