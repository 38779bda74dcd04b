import Registrar.Command
import Registrar.Proofs.Generation.Sources
import Registrar.Proofs.Generation.Usage
import Registrar.Proofs.Markup.Opaque

/-! # The standard output

What the command writes to the standard output and its exit status do not depend on whether notes
are wanted. The file of the configuration may say so as well, as long as the run reads that file for
nothing else. Nothing keeps a run from that: a configuration may be among the files that its own
extensions select, and it may be a link to a file of the library.
-/

namespace Registrar

open Registrar.Files

variable {d : Disk} {location : Location} {content : ByteArray} {profile : Profile}
  {arguments : Arguments}

/-! ## Settings -/

theorem Library.resolve_rewrite (d : Disk) (location : Location) (content : ByteArray)
    (profile : Profile) (given : Option FilePath) (start : FilePath) :
    resolve (d.rewrite location content) profile given start = resolve d profile given start := by
  have hfolder : (d.rewrite location content).isFolder = d.isFolder :=
    funext Disk.isFolder_rewrite
  simp only [resolve, locate, isRoot, Disk.canonical_rewrite, Disk.isFile_rewrite, hfolder]
  rfl

theorem ConfigFile.find_rewrite (d : Disk) (location : Location) (content : ByteArray)
    (start : FilePath) : find (d.rewrite location content) start = find d start := by
  have hfind (folders : List FilePath) :
      findAmong (d.rewrite location content) folders = findAmong d folders := by
    induction folders with
    | nil => rfl
    | cons folder folders ih => simp only [findAmong, Disk.has_rewrite, ih]
  exact hfind _

/-- A file that is rewritten is the configuration file of a folder, or else it does not matter for
its configuration. -/
theorem LoadedConfig.load_rewrite_cases {text text' : String} {config config' : Config}
    (hread : Config.read text = .ok config) (hread' : Config.read text' = .ok config')
    (hfault : config'.fault? = config.fault?) (d : Disk) (location : Location) (start : FilePath) :
    load (d.rewrite location text.toUTF8) start = load (d.rewrite location text'.toUTF8) start ∨
      ∃ file, load (d.rewrite location text.toUTF8) start = .ok ⟨config, some file⟩ ∧
        load (d.rewrite location text'.toUTF8) start = .ok ⟨config', some file⟩ := by
  unfold load
  rw [ConfigFile.find_rewrite, ConfigFile.find_rewrite]
  cases ConfigFile.find d start with
  | none => exact .inl rfl
  | some file =>
    rcases Disk.readText_rewrite_cases d location file with hsame | hfile
    · left
      simp only [ofFile, hsame]
    · simp only [ofFile, hfile, hread, hread', hfault, bind, Except.bind, Except.mapError]
      cases config.fault? with
      | some fault => exact .inl rfl
      | none => exact .inr ⟨file, rfl, rfl⟩

def LoadedConfig.quiet (loaded : LoadedConfig) : LoadedConfig :=
  { loaded with config := { loaded.config with verbose := false } }

theorem LoadedConfig.load_rewrite {text text' : String} {config : Config} {flag : Bool}
    (hread : Config.read text = .ok config)
    (hread' : Config.read text' = .ok { config with verbose := flag }) (d : Disk)
    (location : Location) (start : FilePath) :
    (load (d.rewrite location text.toUTF8) start).map quiet =
      (load (d.rewrite location text'.toUTF8) start).map quiet := by
  have hfault : Config.fault? { config with verbose := flag } = config.fault? := rfl
  rcases load_rewrite_cases hread hread' hfault d location start with hsame | ⟨file, hc, hc'⟩
  · rw [hsame]
  · rw [hc, hc']
    rfl

namespace Settings

def quiet (settings : Settings) : Settings := { settings with verbose := false }

theorem options_quiet (settings : Settings) : settings.quiet.options = settings.options := rfl

/-- All but the wish for notes is settled without it. -/
theorem map_quiet_resolve (d : Disk) (profile : Profile) (arguments : Arguments)
    (verbose : Option String) :
    (resolve d profile arguments verbose).map quiet =
      if d.isFolder ⟨arguments.markupRoot⟩ then do
        let loaded ← ((LoadedConfig.load d ⟨arguments.markupRoot⟩).map
          LoadedConfig.quiet).mapError .config
        let libraryRoot ← (Library.resolve d profile
          ((arguments.givenLibrary?.map FilePath.mk).or loaded.libraryRoot?)
            ⟨arguments.markupRoot⟩).mapError .library
        return ⟨⟨⟨arguments.markupRoot⟩, libraryRoot, loaded.config.extensions,
          loaded.config.ignores, layout arguments loaded.config⟩, false, loaded.path⟩
      else .error (.noMarkupFolder ⟨arguments.markupRoot⟩) := by
  simp only [resolve]
  cases d.isFolder ⟨arguments.markupRoot⟩ with
  | false => rfl
  | true =>
    cases LoadedConfig.load d ⟨arguments.markupRoot⟩ with
    | error _ => rfl
    | ok loaded =>
      have hroot : loaded.quiet.libraryRoot? = loaded.libraryRoot? := rfl
      simp only [Except.map, Except.mapError, bind, Except.bind, hroot]
      cases Library.resolve d profile
        ((arguments.givenLibrary?.map FilePath.mk).or loaded.libraryRoot?)
          ⟨arguments.markupRoot⟩ <;> rfl

theorem quiet_resolve_rewrite {text text' : String} {config : Config} {flag : Bool}
    (hread : Config.read text = .ok config)
    (hread' : Config.read text' = .ok { config with verbose := flag })
    (verbose verbose' : Option String) :
    (resolve (d.rewrite location text.toUTF8) profile arguments verbose).map quiet =
      (resolve (d.rewrite location text'.toUTF8) profile arguments verbose').map quiet := by
  simp only [map_quiet_resolve, Disk.isFolder_rewrite, Library.resolve_rewrite,
    LoadedConfig.load_rewrite hread hread' d location]

end Settings

/-! ## Outcomes -/

def Outcome.SameOutput (o o' : Outcome) : Prop := o.exitCode = o'.exitCode ∧ o.output = o'.output

namespace Command

/-- What a run generates or why it fails, unless the program ends on the way. -/
def generation (d : Disk) (profile : Profile) (arguments : Arguments) (verbose : Option String) :
    Except Text.Overflow (Except CommandFault Generation) :=
  match Settings.resolve d profile arguments verbose with
  | .error fault => .ok (.error (.settings fault))
  | .ok settings =>
    (Generation.run d profile settings.options).map (Except.mapError .generation)

theorem generation_of_settings {settings : Settings} {verbose : Option String}
    (h : Settings.resolve d profile arguments verbose = .ok settings) :
    generation d profile arguments verbose =
      (Generation.run d profile settings.options).map (Except.mapError .generation) := by
  simp only [generation, h]

/-- What is generated depends on the settings without the wish for notes. -/
theorem generation_eq_of_quiet {d' : Disk} {verbose verbose' : Option String}
    (hquiet : (Settings.resolve d profile arguments verbose).map Settings.quiet =
      (Settings.resolve d' profile arguments verbose').map Settings.quiet)
    (hrun : ∀ settings, Settings.resolve d profile arguments verbose = .ok settings →
      Generation.run d profile settings.options = Generation.run d' profile settings.options) :
    generation d profile arguments verbose = generation d' profile arguments verbose' := by
  unfold generation
  cases h : Settings.resolve d profile arguments verbose with
  | error fault =>
    cases h' : Settings.resolve d' profile arguments verbose' with
    | error fault' =>
      rw [h, h'] at hquiet
      rw [Except.error.inj hquiet]
    | ok settings' =>
      rw [h, h'] at hquiet
      cases hquiet
  | ok settings =>
    cases h' : Settings.resolve d' profile arguments verbose' with
    | error fault' =>
      rw [h, h'] at hquiet
      cases hquiet
    | ok settings' =>
      rw [h, h'] at hquiet
      have hsame : settings.quiet = settings'.quiet := by simpa [Except.map] using hquiet
      have hoptions : settings.options = settings'.options := by
        rw [← Settings.options_quiet, hsame, Settings.options_quiet]
      simp only [← hoptions, hrun settings h]

/-- A run that generates a module writes it, and any other run writes nothing. -/
theorem run_eq_generation (d : Disk) (profile : Profile) (color : Bool) (arguments : Arguments)
    (verbose : Option String) :
    ((run d profile color arguments verbose).exitCode,
        (run d profile color arguments verbose).output,
        (run d profile color arguments verbose).fault) =
      match generation d profile arguments verbose with
      | .error _ => (101, "", none)
      | .ok (.error fault) => (1, "", some fault)
      | .ok (.ok g) => (0, g.code.getD "", none) := by
  simp only [run, generation]
  cases Settings.resolve d profile arguments verbose with
  | error _ => rfl
  | ok settings =>
    dsimp only
    rcases Generation.run d profile settings.options with _ | (_ | _) <;> rfl

theorem output_of_generation_ok {color : Bool} {verbose : Option String} {g : Generation}
    (h : generation d profile arguments verbose = .ok (.ok g)) :
    (run d profile color arguments verbose).exitCode = 0 ∧
      (run d profile color arguments verbose).output = g.code.getD "" := by
  have hrun := run_eq_generation d profile color arguments verbose
  simp only [h, Prod.mk.injEq] at hrun
  exact ⟨hrun.1, hrun.2.1⟩

theorem output_of_generation_error {color : Bool} {verbose : Option String} {fault : CommandFault}
    (h : generation d profile arguments verbose = .ok (.error fault)) :
    (run d profile color arguments verbose).exitCode = 1 ∧
      (run d profile color arguments verbose).output = "" := by
  have hrun := run_eq_generation d profile color arguments verbose
  simp only [h, Prod.mk.injEq] at hrun
  exact ⟨hrun.1, hrun.2.1⟩

theorem output_of_generation_overflow {color : Bool} {verbose : Option String}
    {overflow : Text.Overflow} (h : generation d profile arguments verbose = .error overflow) :
    (run d profile color arguments verbose).exitCode = 101 ∧
      (run d profile color arguments verbose).output = "" := by
  have hrun := run_eq_generation d profile color arguments verbose
  simp only [h, Prod.mk.injEq] at hrun
  exact ⟨hrun.1, hrun.2.1⟩

theorem sameOutput_of_generation_eq {d' : Disk} {verbose verbose' : Option String}
    (h : generation d profile arguments verbose = generation d' profile arguments verbose')
    (color color' : Bool) : Outcome.SameOutput (run d profile color arguments verbose)
      (run d' profile color' arguments verbose') := by
  have hrun := run_eq_generation d profile color arguments verbose
  rw [h, ← run_eq_generation d' profile color' arguments verbose'] at hrun
  obtain ⟨hcode, hrest⟩ := Prod.mk.inj hrun
  exact ⟨hcode, (Prod.mk.inj hrest).1⟩

theorem generation_congr (d : Disk) (profile : Profile) (arguments : Arguments)
    (verbose verbose' : Option String) :
    generation d profile arguments verbose = generation d profile arguments verbose' := by
  refine generation_eq_of_quiet ?_ fun _ _ => rfl
  rw [Settings.map_quiet_resolve, Settings.map_quiet_resolve]

/-- A file that is read as a configuration only may change its wish for notes. -/
theorem generation_rewrite {text text' : String} {config : Config} {flag : Bool}
    (hread : Config.read text = .ok config)
    (hread' : Config.read text' = .ok { config with verbose := flag })
    (hother : ∀ settings,
      Settings.resolve (d.rewrite location text.toUTF8) profile arguments none = .ok settings →
        ∀ path ∈ Generation.sources d profile settings.options, d.resolve path ≠ .ok location)
    (verbose verbose' : Option String) :
    generation (d.rewrite location text.toUTF8) profile arguments verbose =
      generation (d.rewrite location text'.toUTF8) profile arguments verbose' := by
  rw [generation_congr _ _ _ verbose none]
  refine generation_eq_of_quiet (Settings.quiet_resolve_rewrite hread hread' none verbose')
    fun settings hsettings => ?_
  rw [Generation.run_rewrite (hother settings hsettings),
    Generation.run_rewrite (hother settings hsettings)]

end Command

/-! ## A configuration that is read as something else too -/

/-- A library, a folder with a configuration, and another whose configuration is a link to the
source of a directive. -/
def sharedDisk : Disk where
  tree.entries :=
    [(["l"], .folder), (["l", "src"], .folder), (["l", "src", "constants"], .folder),
      (["l", "src", "constants", "components.js"], .file "export const A='XVerboseTrueB'".toUTF8),
      (["l", "src", "directives"], .folder), (["l", "src", "directives", "d"], .folder),
      (["l", "src", "directives", "d", "d.js"], .file "\x7b\x7d".toUTF8), (["m"], .folder),
      (["m", ".bvtrimrc.json"], .file "\x7b\x7d".toUTF8), (["n"], .folder),
      (["n", ".bvtrimrc.json"], .link "../l/src/directives/d/d.js")]
  tree.increasing := by simp +decide
  tree.housed := by simp
  here := []

def flagTag (flag : String) : String := "x\",\"verbose\":" ++ flag ++ ",\"b\":\""

/-- A configuration of the files of its own kind, with a template in it. -/
def selfScanned (flag : String) : String :=
  "\x7b\"extensions\":[\"json\"],\"a\":\"<template><" ++ flagTag flag ++ "/></template>\"\x7d"

namespace sharedDisk

variable {content : ByteArray} {text folder : String} {config : Config}

theorem paths :
    (pathNames "m" = ["m"] ∧ pathNames "n" = ["n"] ∧ pathNames "l" = ["l"] ∧
      pathNames "l/src/directives" = ["l", "src", "directives"] ∧
      pathNames "m/.bvtrimrc.json" = ["m", ".bvtrimrc.json"] ∧
      pathNames "n/.bvtrimrc.json" = ["n", ".bvtrimrc.json"] ∧
      pathNames "../l/src/directives/d/d.js" = ["..", "l", "src", "directives", "d", "d.js"] ∧
      pathNames "l/src/constants/components.js" = ["l", "src", "constants", "components.js"] ∧
      pathNames "l/src/directives/d/d.js" = ["l", "src", "directives", "d", "d.js"]) ∧
    (bootstrapVue.componentsPath ⟨"l"⟩ = ⟨"l/src/constants/components.js"⟩ ∧
      bootstrapVue.directivesPath ⟨"l"⟩ = ⟨"l/src/directives"⟩ ∧
      Catalog.isEntryName bootstrapVue.sourceExtension "d" "d.js" = true ∧
      ((FilePath.mk "l/src/directives").join "d").join "d.js" = ⟨"l/src/directives/d/d.js"⟩) ∧
    ((FilePath.mk "m").ancestors = [⟨"m"⟩, ⟨""⟩] ∧ (FilePath.mk "n").ancestors = [⟨"n"⟩, ⟨""⟩]) ∧
    (FilePath.mk "m").join ConfigFile.fileName = ⟨"m/.bvtrimrc.json"⟩ ∧
    (FilePath.mk "n").join ConfigFile.fileName = ⟨"n/.bvtrimrc.json"⟩ ∧
    (FilePath.mk "m/.bvtrimrc.json").extension? = some "json" := by
  decide +kernel

theorem texts :
    Module.read? "export const A='XVerboseTrueB'" =
      some [.exportVariables [⟨some "A", some (.literal (some "XVerboseTrueB"))⟩]] ∧
    (Module.read? "\x7b\x7d" = some [.other] ∧
      Module.read? "\x7b\"verbose\":true\x7d" = none) ∧
    (Config.read "\x7b\x7d").toOption = some .standard ∧
    (Config.read "\x7b\"verbose\":true\x7d").toOption =
      some { Config.standard with verbose := true } := by
  decide +kernel

theorem find_folder {last : Bool} :
    sharedDisk.find last ⟨"m"⟩ = .ok (["m"], .folder) ∧
      sharedDisk.find last ⟨"n"⟩ = .ok (["n"], .folder) ∧
      sharedDisk.find last ⟨"l"⟩ = .ok (["l"], .folder) ∧
      sharedDisk.find last ⟨"l/src/directives"⟩ = .ok (["l", "src", "directives"], .folder) := by
  simp +decide [Disk.find, paths.1, FileTree.follow, FileTree.lookup, sharedDisk]

theorem find_config :
    sharedDisk.find true ⟨"m/.bvtrimrc.json"⟩ =
        .ok (["m", ".bvtrimrc.json"], .file "\x7b\x7d".toUTF8) ∧
      sharedDisk.find true ⟨"n/.bvtrimrc.json"⟩ =
        .ok (["l", "src", "directives", "d", "d.js"], .file "\x7b\x7d".toUTF8) := by
  simp +decide [Disk.find, paths.1, FileTree.follow, FileTree.lookup, sharedDisk, maxLinks]

theorem find_source :
    sharedDisk.find true ⟨"l/src/constants/components.js"⟩ =
        .ok (["l", "src", "constants", "components.js"],
          .file "export const A='XVerboseTrueB'".toUTF8) ∧
      sharedDisk.find true ⟨"l/src/directives/d/d.js"⟩ =
        .ok (["l", "src", "directives", "d", "d.js"], .file "\x7b\x7d".toUTF8) := by
  simp +decide [Disk.find, paths.1, FileTree.follow, FileTree.lookup, sharedDisk]

theorem components_path :
    bootstrapVue.componentsPath ⟨"l"⟩ = ⟨"l/src/constants/components.js"⟩ :=
  paths.2.1.1

theorem entryFiles_eq : Catalog.entryFiles sharedDisk bootstrapVue.sourceExtension
    (bootstrapVue.directivesPath ⟨"l"⟩) = .ok [⟨"l/src/directives/d/d.js"⟩] := by
  obtain ⟨-, ⟨-, hd, hentry, hjoin⟩, -⟩ := paths
  have hbelow : sharedDisk.below ⟨"l/src/directives"⟩ =
      [(["d"], .folder), (["d", "d.js"], .file "\x7b\x7d".toUTF8)] := by
    simp only [Disk.below, Disk.folderAt?, find_folder]
    rfl
  simp [hd, Catalog.entryFiles, Disk.isFolder, Disk.node, find_folder, hbelow, hentry, hjoin,
    Except.map]

theorem load_eq
    (hcomponents : (sharedDisk.rewrite location content).readText
      ⟨"l/src/constants/components.js"⟩ = .ok "export const A='XVerboseTrueB'")
    (hdirective : (sharedDisk.rewrite location content).readText ⟨"l/src/directives/d/d.js"⟩ =
      .ok text) :
    Catalog.load (sharedDisk.rewrite location content) bootstrapVue ⟨"l"⟩ =
      match Module.read? text with
      | some items => .ok (.ofLists ["XVerboseTrueB"] (Declarations.exportedNames items))
      | none => .error (.notModule ⟨"l/src/directives/d/d.js"⟩) := by
  obtain ⟨hparse, -⟩ := texts
  have hload : Catalog.loadComponents (sharedDisk.rewrite location content) bootstrapVue ⟨"l"⟩ =
      .ok ["XVerboseTrueB"] := by
    simp [Catalog.loadComponents, components_path, hcomponents, Catalog.parse, hparse,
      Declarations.componentNames, Declarations.itemValues, Declarations.value, bind, Except.bind,
      pure, Except.pure, Except.map, Except.mapError]
  simp only [Catalog.load, hload, Catalog.loadDirectives, Catalog.entryFiles_rewrite, entryFiles_eq,
    Catalog.entryExports, hdirective, Catalog.parse, bind, Except.bind, List.mapM_cons,
    List.mapM_nil, Except.mapError]
  cases Module.read? text <;> simp [pure, Except.pure]

theorem resolve_eq (hfolder : folder = "m" ∨ folder = "n") {path : Option FilePath}
    (hload : LoadedConfig.load (sharedDisk.rewrite location content) ⟨folder⟩ =
      .ok ⟨config, path⟩) :
    Settings.resolve (sharedDisk.rewrite location content) bootstrapVue
        ⟨folder, some "l", none, none⟩ none =
      .ok ⟨⟨⟨folder⟩, ⟨"l"⟩, config.extensions, config.ignores,
        ⟨config.wrapLimit, config.indentSize⟩⟩, config.verbose, path⟩ := by
  have hroot : sharedDisk.isFolder ⟨folder⟩ = true := by
    rcases hfolder with rfl | rfl <;> simp [Disk.isFolder, Disk.node, find_folder, Except.map]
  have hgiven : (Arguments.mk folder (some "l") none none).givenLibrary? = some "l" := by
    have hempty : ("l" : String).isEmpty = false := by decide
    simp [Arguments.givenLibrary?, hempty]
  have hlibrary : Library.resolve sharedDisk bootstrapVue (some ⟨"l"⟩) ⟨folder⟩ = .ok ⟨"l"⟩ := by
    simp [Library.resolve, Library.isRoot, components_path, Disk.isFolder, Disk.isFile, Disk.node,
      find_folder, find_source, Except.map]
  simp only [Settings.resolve, Disk.isFolder_rewrite, hroot, hload, hgiven, Library.resolve_rewrite,
    Option.map_some, Option.some_or, hlibrary, bind, Except.bind, Except.mapError]
  simp [Settings.layout, pure, Except.pure]

theorem load_config (hread : Config.read text = .ok config) (hfault : config.fault? = none) :
    LoadedConfig.load (sharedDisk.rewrite ["m", ".bvtrimrc.json"] text.toUTF8) ⟨"m"⟩ =
        .ok ⟨config, some ⟨"m/.bvtrimrc.json"⟩⟩ ∧
      LoadedConfig.load (sharedDisk.rewrite ["l", "src", "directives", "d", "d.js"] text.toUTF8)
          ⟨"n"⟩ = .ok ⟨config, some ⟨"n/.bvtrimrc.json"⟩⟩ := by
  obtain ⟨-, -, hancestors, hm, hn, -⟩ := paths
  have hfind : ConfigFile.find sharedDisk ⟨"m"⟩ = some ⟨"m/.bvtrimrc.json"⟩ ∧
      ConfigFile.find sharedDisk ⟨"n"⟩ = some ⟨"n/.bvtrimrc.json"⟩ := by
    simp [ConfigFile.find, hancestors, ConfigFile.findAmong, hm, hn, Disk.has, Disk.node,
      find_config, Except.map, Except.isOk, Except.toBool]
  have htext := Disk.readText_rewrite_self find_config.1 text
  have htext' := Disk.readText_rewrite_self find_config.2 text
  constructor
  · simp only [LoadedConfig.load, ConfigFile.find_rewrite, hfind, LoadedConfig.ofFile, htext, hread,
      hfault, bind, Except.bind, Except.mapError]
  · simp only [LoadedConfig.load, ConfigFile.find_rewrite, hfind, LoadedConfig.ofFile, htext',
      hread, hfault, bind, Except.bind, Except.mapError]

theorem below_eq : sharedDisk.below ⟨"m"⟩ = [([".bvtrimrc.json"], .file "\x7b\x7d".toUTF8)] ∧
    sharedDisk.below ⟨"n"⟩ = [([".bvtrimrc.json"], .link "../l/src/directives/d/d.js")] := by
  constructor
  · simp only [Disk.below, Disk.folderAt?, find_folder]
    rfl
  · simp only [Disk.below, Disk.folderAt?, find_folder]
    rfl

theorem scan_files :
    (Scan.run sharedDisk ⟨"m"⟩ ["json"] []).files = [⟨"m/.bvtrimrc.json"⟩] ∧
      (Scan.run sharedDisk ⟨"m"⟩ ["vue"] []).files = [] ∧
      (Scan.run sharedDisk ⟨"n"⟩ ["vue"] []).files = [] := by
  obtain ⟨-, -, -, hjoin, -, hextension⟩ := paths
  rw [ConfigFile.fileName] at hjoin
  simp [Scan.run, Scan.entries, find_folder, below_eq, Scan.selects, Scan.entryPath, Scan.patterns,
    hjoin, hextension]

open Markup in
theorem spells_flagTag {flag : String} (hflag : ∀ c ∈ flag.toList, isTagChar c = true) :
    SpellsStartTag ⟨flagTag flag, []⟩ true ('<' :: ((flagTag flag).toList ++ "/>".toList)) := by
  have htag : (flagTag flag).toList =
      'x' :: ("\",\"verbose\":".toList ++ (flag.toList ++ ",\"b\":\"".toList)) := by
    have hfront : "x\",\"verbose\":".toList = 'x' :: "\",\"verbose\":".toList := by decide
    unfold flagTag
    rw [String.toList_append, String.toList_append, hfront, List.append_assoc, List.cons_append]
  rw [← String.ofList_toList (s := flagTag flag), String.toList_ofList, htag]
  refine .mk rfl ?_ (by decide) .selfClose
  simp only [List.forall_mem_cons, List.forall_mem_append]
  exact ⟨rfl, List.all_eq_true.1 rfl, hflag, List.all_eq_true.1 rfl⟩

open Markup in
theorem read_selfScanned {flag : String} (hflag : ∀ c ∈ flag.toList, isTagChar c = true) :
    TemplateUsage.read (selfScanned flag) = .ok (.ofStartTags [⟨flagTag flag, []⟩]) := by
  have hsource : (selfScanned flag).toList = "\x7b\"extensions\":[\"json\"],\"a\":\"".toList ++
      ("<template>".toList ++ (('<' :: ((flagTag flag).toList ++ "/>".toList)) ++
        ("</template>".toList ++ "\"\x7d".toList))) := by
    have hfront : "\x7b\"extensions\":[\"json\"],\"a\":\"<template><".toList =
        "\x7b\"extensions\":[\"json\"],\"a\":\"".toList ++ ("<template>".toList ++ ['<']) := by
      decide
    have hback : "/></template>\"\x7d".toList =
        "/>".toList ++ ("</template>".toList ++ "\"\x7d".toList) := by decide
    unfold selfScanned
    rw [String.toList_append, String.toList_append, hfront, hback]
    simp only [List.append_assoc, List.cons_append, List.nil_append]
  let front : Markup.Node := .text "\x7b\"extensions\":[\"json\"],\"a\":\""
  have hfirst (rest : List Char) : Reaches ⟨.empty, 0,
      "\x7b\"extensions\":[\"json\"],\"a\":\"".toList ++ ("<template>".toList ++ rest)⟩
        ⟨⟨[], [front]⟩, 28, "<template>".toList ++ rest⟩ :=
    .single (.mk (r := ⟨_, "\x7b\"extensions\":[\"json\"],\"a\":\"".toList, _⟩) (by simp) rfl rfl)
  have hlast (o : Nat) (nodes : List Markup.Node) : Reaches ⟨⟨[], nodes⟩, o, "\"\x7d".toList⟩
      ⟨⟨[], .text "\"\x7d" :: nodes⟩, o + 2, []⟩ :=
    .single (.mk (r := ⟨_, "\"\x7d".toList, []⟩) (by decide) rfl rfl)
  have hrun := Reaches.run_eq <| (hfirst _).trans <|
    (reaches_template (spells_flagTag hflag) [front] 28 _).trans (hlast _ _)
  simp only [Progress.run_nil] at hrun
  rw [TemplateUsage.read, Document.read, hsource, hrun]
  rfl

theorem read_config : Config.read "\x7b\x7d" = .ok .standard ∧
    Config.read "\x7b\"verbose\":true\x7d" = .ok { Config.standard with verbose := true } :=
  ⟨ok_of_toOption texts.2.2.1, ok_of_toOption texts.2.2.2⟩

theorem read_module : Module.read? "\x7b\x7d" = some [.other] ∧
    Module.read? "\x7b\"verbose\":true\x7d" = none :=
  texts.2.1

theorem readText_components (h : location ≠ ["l", "src", "constants", "components.js"]) :
    (sharedDisk.rewrite location content).readText ⟨"l/src/constants/components.js"⟩ =
      .ok "export const A='XVerboseTrueB'" := by
  rw [Disk.readText_rewrite (by simp [Disk.resolve, find_source, Except.map, h.symm])]
  exact Disk.readText_of_node (by simp only [Disk.node, find_source, Except.map])

theorem readText_directive (h : location ≠ ["l", "src", "directives", "d", "d.js"]) :
    (sharedDisk.rewrite location content).readText ⟨"l/src/directives/d/d.js"⟩ =
      .ok "\x7b\x7d" := by
  rw [Disk.readText_rewrite (by simp [Disk.resolve, find_source, Except.map, h.symm])]
  exact Disk.readText_of_node (by simp only [Disk.node, find_source, Except.map])

theorem isFolder_markup : sharedDisk.isFolder ⟨"m"⟩ = true ∧ sharedDisk.isFolder ⟨"n"⟩ = true := by
  simp [Disk.isFolder, Disk.node, find_folder, Except.map]

def selfSelection (flag : String) : Selection :=
  .ofUsage (.ofTemplates [.ofStartTags [⟨flagTag flag, []⟩]]) (.ofLists ["XVerboseTrueB"] [])
    bootstrapVue.marker

theorem generation_selfScanned {flag : String} {verbose : Bool} {code : Option String}
    (hread : Config.read (selfScanned flag) =
      .ok { Config.standard with extensions := ["json"], verbose := verbose })
    (hflag : ∀ c ∈ flag.toList, Markup.isTagChar c = true)
    (hcode : Registration.generate bootstrapVue .standard (selfSelection flag) = .ok code) :
    ∃ g, Command.generation (sharedDisk.rewrite ["m", ".bvtrimrc.json"] (selfScanned flag).toUTF8)
        bootstrapVue ⟨"m", some "l", none, none⟩ none = .ok (.ok g) ∧ g.code = code := by
  let options : GenerationOptions := ⟨⟨"m"⟩, ⟨"l"⟩, ["json"], [], .standard⟩
  let after := sharedDisk.rewrite ["m", ".bvtrimrc.json"] (selfScanned flag).toUTF8
  have hprepare : Generation.prepare after bootstrapVue options =
      .ok (.ofLists ["XVerboseTrueB"] []) := by
    refine Generation.prepare_eq_ok_iff.2 ⟨?_, ?_⟩
    · rw [Disk.isFolder_rewrite, isFolder_markup.1]
    · rw [load_eq (readText_components (by decide)) (readText_directive (by decide)),
        read_module.1]
      rfl
  have hscan : (Generation.scanMarkup after options).files = [⟨"m/.bvtrimrc.json"⟩] := by
    rw [Generation.scanMarkup, Scan.run_rewrite, scan_files.1]
  have husage : Generation.readTemplates after (Generation.scanMarkup after options).files =
      .ok (.ofTemplates [.ofStartTags [⟨flagTag flag, []⟩]]) := by
    have htemplate : Generation.readTemplate after ⟨"m/.bvtrimrc.json"⟩ =
        .ok (.ofStartTags [⟨flagTag flag, []⟩]) :=
      Generation.readTemplate_eq_ok_iff.2 ⟨_, Disk.readText_rewrite_self find_config.1 _,
        read_selfScanned hflag⟩
    simp [hscan, Generation.readTemplates, htemplate, Except.map, bind, Except.bind, pure,
      Except.pure]
  refine ⟨⟨⟨selfSelection flag, .ofLists ["XVerboseTrueB"] [], Generation.scanMarkup after options⟩,
    code⟩, ?_, rfl⟩
  rw [Command.generation_of_settings (resolve_eq (.inl rfl) (load_config hread rfl).1)]
  exact congrArg (Except.map _) (Generation.run_of_generate hprepare husage hcode)

theorem generation_directive {verbose : Bool}
    (hread : Config.read text = .ok { Config.standard with verbose := verbose })
    (hmodule : Module.read? text = none) :
    Command.generation (sharedDisk.rewrite ["l", "src", "directives", "d", "d.js"] text.toUTF8)
        bootstrapVue ⟨"n", some "l", none, none⟩ none =
      .ok (.error (.generation (.catalog (.notModule ⟨"l/src/directives/d/d.js"⟩)))) := by
  have hload := load_eq (readText_components (by decide))
    (Disk.readText_rewrite_self find_source.2 text)
  rw [hmodule] at hload
  simp only [Command.generation, resolve_eq (.inr rfl) (load_config hread rfl).2, Generation.run,
    Generation.findings, Generation.prepare, Generation.checkMarkupRoot, Disk.isFolder_rewrite,
    isFolder_markup, if_true, hload, Except.map, Except.mapError, bind, Except.bind]

theorem exists_generation_eq_ok {verbose : Bool} {items : List Module.Item}
    (hread : Config.read text = .ok { Config.standard with verbose := verbose })
    (hmodule : Module.read? text = some items) :
    ∃ g, Command.generation
      (sharedDisk.rewrite ["l", "src", "directives", "d", "d.js"] text.toUTF8) bootstrapVue
        ⟨"n", some "l", none, none⟩ none = .ok (.ok g) := by
  let options : GenerationOptions := ⟨⟨"n"⟩, ⟨"l"⟩, ["vue"], [], .standard⟩
  let after := sharedDisk.rewrite ["l", "src", "directives", "d", "d.js"] text.toUTF8
  have hprepare : Generation.prepare after bootstrapVue options =
      .ok (.ofLists ["XVerboseTrueB"] (Declarations.exportedNames items)) := by
    refine Generation.prepare_eq_ok_iff.2 ⟨?_, ?_⟩
    · rw [Disk.isFolder_rewrite, isFolder_markup.2]
    · rw [load_eq (readText_components (by decide))
        (Disk.readText_rewrite_self find_source.2 text), hmodule]
  have husage : Generation.readTemplates after (Generation.scanMarkup after options).files =
      .ok (.ofTemplates []) := by
    have hscan : (Generation.scanMarkup after options).files = [] := by
      rw [Generation.scanMarkup, Scan.run_rewrite, scan_files.2.2]
    rw [hscan]
    rfl
  have hrun := Generation.run_of_generate hprepare husage rfl
  have hsettings := Command.generation_of_settings (resolve_eq (.inr rfl) (load_config hread rfl).2)
  exact ⟨_, hsettings.trans
    (congrArg (Except.map (Except.mapError CommandFault.generation)) hrun)⟩

end sharedDisk

namespace Command

/-- The standard output holds the module that is generated, and nothing if there is none or the run
fails. It is the same whether notes are wanted or not; a configuration may say so too in a file that
the run reads for nothing else. -/
theorem run_output (d : Disk) (profile : Profile) (arguments : Arguments) :
    (∀ color verbose g, generation d profile arguments verbose = .ok (.ok g) →
      (run d profile color arguments verbose).exitCode = 0 ∧
        (run d profile color arguments verbose).output = g.code.getD "") ∧
    (∀ color verbose fault, generation d profile arguments verbose = .ok (.error fault) →
      (run d profile color arguments verbose).exitCode = 1 ∧
        (run d profile color arguments verbose).output = "") ∧
    (∀ color verbose overflow, generation d profile arguments verbose = .error overflow →
      (run d profile color arguments verbose).exitCode = 101 ∧
        (run d profile color arguments verbose).output = "") ∧
    (∀ color color' verbose verbose', Outcome.SameOutput (run d profile color arguments verbose)
      (run d profile color' arguments verbose')) ∧
    ∀ (location : Location) (text text' : String) (config : Config) (flag : Bool),
      Config.read text = .ok config → Config.read text' = .ok { config with verbose := flag } →
      (∀ settings,
        Settings.resolve (d.rewrite location text.toUTF8) profile arguments none = .ok settings →
          ∀ path ∈ Generation.sources d profile settings.options, d.resolve path ≠ .ok location) →
      ∀ color color' verbose verbose',
        Outcome.SameOutput (run (d.rewrite location text.toUTF8) profile color arguments verbose)
          (run (d.rewrite location text'.toUTF8) profile color' arguments verbose') := by
  refine ⟨fun _ _ _ hg => output_of_generation_ok hg,
    fun _ _ _ hfault => output_of_generation_error hfault,
    fun _ _ _ hoverflow => output_of_generation_overflow hoverflow,
    fun color color' verbose verbose' =>
      sameOutput_of_generation_eq (generation_congr ..) color color',
    fun location text text' config flag hread hread' hother color color' verbose verbose' =>
      sameOutput_of_generation_eq (generation_rewrite hread hread' hother ..) color color'⟩

theorem run_output_configured :
    (∃ g, generation (sharedDisk.rewrite ["l", "src", "directives", "d", "d.js"]
          "\x7b\x7d".toUTF8) bootstrapVue ⟨"n", some "l", none, none⟩ none = .ok (.ok g) ∧
      (run (sharedDisk.rewrite ["l", "src", "directives", "d", "d.js"] "\x7b\x7d".toUTF8)
        bootstrapVue true ⟨"n", some "l", none, none⟩ none).output = g.code.getD "") ∧
    (run (sharedDisk.rewrite ["l", "src", "directives", "d", "d.js"]
        "\x7b\"verbose\":true\x7d".toUTF8)
      bootstrapVue true ⟨"n", some "l", none, none⟩ none).output = "" ∧
    Outcome.SameOutput
      (run (sharedDisk.rewrite ["m", ".bvtrimrc.json"] "\x7b\x7d".toUTF8)
        bootstrapVue false ⟨"m", some "l", none, none⟩ none)
      (run (sharedDisk.rewrite ["m", ".bvtrimrc.json"] "\x7b\"verbose\":true\x7d".toUTF8)
        bootstrapVue true ⟨"m", some "l", none, none⟩ (some "0")) := by
  obtain ⟨hempty, hverbose⟩ := sharedDisk.read_config
  obtain ⟨hmodule, hmodule'⟩ := sharedDisk.read_module
  obtain ⟨g, hg⟩ := sharedDisk.exists_generation_eq_ok hempty hmodule
  refine ⟨⟨g, hg, ((run_output _ _ _).1 true none g hg).2⟩,
    ((run_output _ _ _).2.1 true none _ (sharedDisk.generation_directive hverbose hmodule')).2,
    (run_output sharedDisk bootstrapVue ⟨"m", some "l", none, none⟩).2.2.2.2 ["m", ".bvtrimrc.json"]
      _ _ _ _ hempty hverbose (fun settings hsettings path hpath => ?_) _ _ _ _⟩
  rw [sharedDisk.resolve_eq (.inl rfl) (sharedDisk.load_config hempty rfl).1] at hsettings
  obtain rfl := Except.ok.inj hsettings
  have hsources : Generation.sources sharedDisk bootstrapVue
      ⟨⟨"m"⟩, ⟨"l"⟩, ["vue"], [], .standard⟩ =
        [⟨"l/src/constants/components.js"⟩, ⟨"l/src/directives/d/d.js"⟩] := by
    rw [Generation.sources, Catalog.sources, sharedDisk.components_path, sharedDisk.entryFiles_eq,
      Generation.scanMarkup, sharedDisk.scan_files.2.1]
    rfl
  have hmem : path ∈ [FilePath.mk "l/src/constants/components.js", ⟨"l/src/directives/d/d.js"⟩] :=
    hsources ▸ hpath
  simp only [List.mem_cons, List.not_mem_nil, or_false] at hmem
  rcases hmem with rfl | rfl <;>
    simp [Disk.resolve, sharedDisk.find_source, Except.map]

/-- The wish for notes makes a difference in a configuration that is scanned for templates, and in
one that is the source of a directive as well. -/
theorem run_output_ne :
    Arguments.read ["m", "l"] = .ok (.generate ⟨"m", some "l", none, none⟩) ∧
    (∃ config, Config.read (selfScanned "false") = .ok config ∧
      Config.read (selfScanned "true") = .ok { config with verbose := true }) ∧
    ¬ Outcome.SameOutput
      (run (sharedDisk.rewrite ["m", ".bvtrimrc.json"] (selfScanned "false").toUTF8)
        bootstrapVue false ⟨"m", some "l", none, none⟩ none)
      (run (sharedDisk.rewrite ["m", ".bvtrimrc.json"] (selfScanned "true").toUTF8)
        bootstrapVue false ⟨"m", some "l", none, none⟩ none) ∧
    Arguments.read ["n", "l"] = .ok (.generate ⟨"n", some "l", none, none⟩) ∧
    (∃ config, Config.read "\x7b\x7d" = .ok config ∧
      Config.read "\x7b\"verbose\":true\x7d" = .ok { config with verbose := true }) ∧
    ¬ Outcome.SameOutput
      (run (sharedDisk.rewrite ["l", "src", "directives", "d", "d.js"] "\x7b\x7d".toUTF8)
        bootstrapVue false ⟨"n", some "l", none, none⟩ none)
      (run (sharedDisk.rewrite ["l", "src", "directives", "d", "d.js"]
          "\x7b\"verbose\":true\x7d".toUTF8)
        bootstrapVue false ⟨"n", some "l", none, none⟩ none) := by
  have hfalse : Config.read (selfScanned "false") =
      .ok { Config.standard with extensions := ["json"], verbose := false } :=
    ok_of_toOption (by decide +kernel)
  have htrue : Config.read (selfScanned "true") =
      .ok { Config.standard with extensions := ["json"], verbose := true } :=
    ok_of_toOption (by decide +kernel)
  obtain ⟨hempty, hverbose⟩ := sharedDisk.read_config
  refine ⟨rfl, ⟨_, hfalse, htrue⟩, fun h => ?_, rfl, ⟨_, hempty, hverbose⟩, fun h => ?_⟩
  · have hnone : Registration.generate bootstrapVue .standard (sharedDisk.selfSelection "false") =
        .ok none := by
      decide +kernel
    have hsome : Registration.generate bootstrapVue .standard (sharedDisk.selfSelection "true") =
        .ok (some ("import Vue from 'vue';\nimport \x7b XVerboseTrueB \x7d from 'bootstrap-vue';" ++
          "\n\nVue.component('XVerboseTrueB', XVerboseTrueB);\n")) := by
      decide +kernel
    obtain ⟨g, hg, hcode⟩ :=
      sharedDisk.generation_selfScanned hfalse (List.all_eq_true.1 rfl) hnone
    obtain ⟨g', hg', hcode'⟩ :=
      sharedDisk.generation_selfScanned htrue (List.all_eq_true.1 rfl) hsome
    have houtput := h.2
    rw [(output_of_generation_ok hg).2, (output_of_generation_ok hg').2, hcode, hcode'] at houtput
    revert houtput
    decide
  · obtain ⟨hmodule, hmodule'⟩ := sharedDisk.read_module
    obtain ⟨g, hg⟩ := sharedDisk.exists_generation_eq_ok hempty hmodule
    have hfault := sharedDisk.generation_directive hverbose hmodule'
    have hcode := h.1
    rw [(output_of_generation_ok hg).1, (output_of_generation_error hfault).1] at hcode
    exact Nat.zero_ne_one hcode

end Command

end Registrar
