import Registrar.Proofs.Files.Entries
import Registrar.Proofs.Generation.Sources
import Registrar.Proofs.Generation.Usage

/-! # Why a run fails

A run fails if the root of the markup is no folder, if the catalog does not load, or if a file of
the scan can be read by no means. Of several such files the first one is blamed. What stands in the
files behind it makes no difference, but for those that the catalog is read from: nothing keeps the
sources of the library out of a scan.
-/

namespace Registrar.Generation

open Registrar.Files

variable {d d' : Disk} {path : FilePath} {profile : Profile} {options : GenerationOptions}
  {catalog : Catalog} {fault : GenerationFault} {before after : List FilePath}
  {changes : List (Location × ByteArray)}

/-! ## Faulty files -/

/-- A fault that is due to what stands in a file, or to the way there. -/
inductive Blames (d : Disk) (path : FilePath) : GenerationFault → Prop
  | unreadable {fault : Files.Fault} :
      d.readText path = .error fault → Blames d path (.unreadable path fault)
  | malformed {source : String} {fault : Markup.Fault} :
      d.readText path = .ok source → Markup.Document.read source = .error fault →
      Blames d path (.malformed path fault source)

def IsFaulty (d : Disk) (path : FilePath) : Prop := ∃ fault, Blames d path fault

theorem readTemplate_eq_error_iff : readTemplate d path = .error fault ↔ Blames d path fault := by
  unfold readTemplate
  constructor
  · intro h
    cases htext : d.readText path with
    | error fault =>
      rw [htext] at h
      cases h
      exact .unreadable htext
    | ok source =>
      cases hread : Markup.Document.read source with
      | error fault =>
        simp only [htext, Markup.TemplateUsage.read, hread, Except.map, Except.mapError] at h
        cases h
        exact .malformed htext hread
      | ok document =>
        simp only [htext, Markup.TemplateUsage.read, hread, Except.map, Except.mapError] at h
        cases h
  · rintro (htext | ⟨htext, hread⟩)
    · rw [htext]
    · simp only [htext, Markup.TemplateUsage.read, hread, Except.map, Except.mapError]

theorem exists_readTemplate_eq_ok_iff :
    (∃ template, readTemplate d path = .ok template) ↔ ¬ IsFaulty d path := by
  simp only [IsFaulty, ← readTemplate_eq_error_iff]
  cases readTemplate d path <;> simp

theorem blames_congr (h : d'.readText path = d.readText path) :
    Blames d' path fault ↔ Blames d path fault := by
  rw [← readTemplate_eq_error_iff, ← readTemplate_eq_error_iff, readTemplate, h, readTemplate]

theorem isFaulty_congr (h : d'.readText path = d.readText path) :
    IsFaulty d' path ↔ IsFaulty d path :=
  exists_congr fun _ => blames_congr h

theorem Blames.message (h : Blames d path fault) : ∃ deed ∈ ["read", "parse"], ∃ cause,
    fault.message = "Failed to " ++ deed ++ " " ++ path.text ++ ": " ++ cause := by
  cases h with
  | unreadable => exact ⟨"read", by simp, _, rfl⟩
  | malformed => exact ⟨"parse", by simp, _, rfl⟩

theorem Blames.ne_catalog (h : Blames d path fault) (cause : CatalogFault) :
    fault ≠ .catalog cause := by
  cases h <;> exact GenerationFault.noConfusion

/-! ## Failing runs -/

theorem readTemplates_eq_error_iff {files : List FilePath} :
    readTemplates d files = .error fault ↔ ∃ before path after, files = before ++ path :: after ∧
      (∀ p ∈ before, ¬ IsFaulty d p) ∧ Blames d path fault := by
  have hmap : readTemplates d files = .error fault ↔
      files.mapM (readTemplate d) = .error fault := by
    unfold readTemplates
    cases files.mapM (readTemplate d) <;> simp [Except.map]
  simp only [hmap, mapM_eq_error_iff, exists_readTemplate_eq_ok_iff, readTemplate_eq_error_iff]

theorem run_of_catalog_error {cause : CatalogFault} (hroot : d.isFolder options.markupRoot = true)
    (hload : Catalog.load d profile options.libraryRoot = .error cause) :
    run d profile options = .ok (.error (.catalog cause)) := by
  simp [run, findings, prepare, checkMarkupRoot, hroot, hload, Except.mapError, bind, Except.bind]

/-- Behind the root and the catalog only the files of the scan may be to blame. -/
theorem run_eq_error_iff (h : prepare d profile options = .ok catalog) :
    run d profile options = .ok (.error fault) ↔
      readTemplates d (scanMarkup d options).files = .error fault := by
  rw [run_eq_fault_iff]
  simp only [findings, h, bind, Except.bind]
  cases readTemplates d (scanMarkup d options).files <;> simp [pure, Except.pure]

theorem exists_run_eq_error_iff : (∃ fault, run d profile options = .ok (.error fault)) ↔
    d.isFolder options.markupRoot = false ∨
      (∃ cause, Catalog.load d profile options.libraryRoot = .error cause) ∨
        ∃ path ∈ (scanMarkup d options).files, IsFaulty d path := by
  cases hroot : d.isFolder options.markupRoot with
  | false => simp [run, findings, prepare, checkMarkupRoot, hroot, bind, Except.bind]
  | true =>
    cases hload : Catalog.load d profile options.libraryRoot with
    | error cause => simp [run_of_catalog_error hroot hload]
    | ok catalog =>
      have hprepare := prepare_eq_ok_iff.2 ⟨hroot, hload⟩
      have hall : (∃ usage, readTemplates d (scanMarkup d options).files = .ok usage) ↔
          ∀ path ∈ (scanMarkup d options).files, ¬ IsFaulty d path := by
        simp only [← exists_readTemplate_eq_ok_iff, ← exists_mapM_eq_ok_iff, readTemplates]
        cases (scanMarkup d options).files.mapM (readTemplate d) <;> simp [Except.map]
      simp only [run_eq_error_iff hprepare, reduceCtorEq, exists_false, false_or]
      cases htemplates : readTemplates d (scanMarkup d options).files with
      | error fault => simpa [htemplates] using hall
      | ok usage => simpa [htemplates] using hall

/-- A fault stays if the file to blame and those in front of it stay, unless the catalog does not
load any more. -/
theorem run_rewriteAll_eq_error_iff (hroot : d.isFolder options.markupRoot = true)
    (hfiles : (scanMarkup d options).files = before ++ path :: after)
    (hbefore : ∀ p ∈ before, ¬ IsFaulty d p) (hblames : Blames d path fault)
    (h : ∀ c ∈ changes, ∀ p ∈ before ++ [path], d.resolve p ≠ .ok c.1) :
    run (d.rewriteAll changes) profile options = .ok (.error fault) ↔
      ∃ catalog, Catalog.load (d.rewriteAll changes) profile options.libraryRoot = .ok catalog := by
  have hroot' : (d.rewriteAll changes).isFolder options.markupRoot = true := by
    rw [Disk.isFolder_rewriteAll, hroot]
  have hread : ∀ p ∈ before ++ [path], (d.rewriteAll changes).readText p = d.readText p :=
    fun p hp => Disk.readText_rewriteAll fun c hc => h c hc p hp
  constructor
  · intro hrun
    cases hload : Catalog.load (d.rewriteAll changes) profile options.libraryRoot with
    | error cause =>
      rw [run_of_catalog_error hroot' hload] at hrun
      exact absurd (Except.error.inj (Except.ok.inj hrun)).symm (hblames.ne_catalog cause)
    | ok catalog => exact ⟨catalog, rfl⟩
  · rintro ⟨catalog, hload⟩
    rw [run_eq_error_iff (prepare_eq_ok_iff.2 ⟨hroot', hload⟩), readTemplates_eq_error_iff,
      scanMarkup, Scan.run_rewriteAll]
    refine ⟨before, path, after, hfiles, fun p hp => ?_, ?_⟩
    · rw [isFaulty_congr (hread p (by simp [hp]))]
      exact hbefore p hp
    · rw [blames_congr (hread path (by simp))]
      exact hblames

/-- The files behind a file of a scan are others than it and those in front of it. -/
theorem resolve_ne_of_files_eq (hnamed : d.tree.IsNamed)
    (hfiles : (scanMarkup d options).files = before ++ path :: after) {p q : FilePath}
    (hp : p ∈ before ++ [path]) (hq : q ∈ after) {location : Location}
    (hresolve : d.resolve q = .ok location) : d.resolve p ≠ .ok location := by
  have hpairwise := Scan.files_pairwise hnamed options.markupRoot options.extensions options.ignores
  rw [← scanMarkup, hfiles, List.append_cons, List.pairwise_append] at hpairwise
  intro hresolve'
  exact hpairwise.2.2 p hp q hq location hresolve' hresolve

/-- A run fails exactly for the faults of what it is given. The first faulty file of the scan is
blamed. Other contents behind it change nothing as long as the catalog loads, and other contents in
files that are neither scanned nor sources of the library never change anything. -/
theorem run_faults (d : Disk) (profile : Profile) (options : GenerationOptions) :
    ((∃ fault, run d profile options = .ok (.error fault)) ↔
      d.isFolder options.markupRoot = false ∨
        (∃ cause, Catalog.load d profile options.libraryRoot = .error cause) ∨
          ∃ path ∈ (scanMarkup d options).files, IsFaulty d path) ∧
    (∀ catalog before path after, d.isFolder options.markupRoot = true →
      Catalog.load d profile options.libraryRoot = .ok catalog →
      (scanMarkup d options).files = before ++ path :: after →
      (∀ p ∈ before, ¬ IsFaulty d p) → IsFaulty d path →
      ∃ fault, run d profile options = .ok (.error fault) ∧ Blames d path fault ∧
        (∃ deed ∈ ["read", "parse"], ∃ cause,
          fault.message = "Failed to " ++ deed ++ " " ++ path.text ++ ": " ++ cause) ∧
        (d.tree.IsNamed → ∀ changes : List (Location × ByteArray),
          (∀ c ∈ changes, ∃ p ∈ after, d.resolve p = .ok c.1) →
          (run (d.rewriteAll changes) profile options = .ok (.error fault) ↔ ∃ catalog,
            Catalog.load (d.rewriteAll changes) profile options.libraryRoot = .ok catalog))) ∧
    ∀ changes : List (Location × ByteArray),
      (∀ c ∈ changes, ∀ path ∈ sources d profile options, d.resolve path ≠ .ok c.1) →
      run (d.rewriteAll changes) profile options = run d profile options := by
  refine ⟨exists_run_eq_error_iff, ?_, fun changes => run_rewriteAll⟩
  intro catalog before path after hroot hload hfiles hbefore hfaulty
  obtain ⟨fault, hblames⟩ := hfaulty
  have hrun : run d profile options = .ok (.error fault) := by
    rw [run_eq_error_iff (prepare_eq_ok_iff.2 ⟨hroot, hload⟩), readTemplates_eq_error_iff]
    exact ⟨before, path, after, hfiles, hbefore, hblames⟩
  refine ⟨fault, hrun, hblames, hblames.message, fun hnamed changes hchanges => ?_⟩
  refine run_rewriteAll_eq_error_iff hroot hfiles hbefore hblames fun c hc p hp => ?_
  obtain ⟨q, hq, hresolve⟩ := hchanges c hc
  exact resolve_ne_of_files_eq hnamed hfiles hp hq hresolve

/-! ## A library in the folder of the markup -/

def nestedDisk : Disk where
  tree.entries :=
    [(["m"], .folder), (["m", "A.vue"], .file "<x".toUTF8), (["m", "B.txt"], .file "".toUTF8),
      (["m", "l"], .folder), (["m", "l", "src"], .folder),
      (["m", "l", "src", "constants"], .folder),
      (["m", "l", "src", "constants", "components.js"], .file "export const A='BX'".toUTF8),
      (["m", "l", "src", "directives"], .folder)]
  tree.increasing := by simp +decide
  tree.housed := by simp
  here := []

def nestedOptions : GenerationOptions := ⟨⟨"m"⟩, ⟨"m/l"⟩, ["vue", "js"], [], .standard⟩

def nestedDisk.declaring (text : String) : Disk :=
  nestedDisk.rewriteAll [(["m", "l", "src", "constants", "components.js"], text.toUTF8)]

namespace nestedDisk

theorem paths :
    (pathNames "m" = ["m"] ∧ pathNames "m/A.vue" = ["m", "A.vue"] ∧
      pathNames "m/l/src/directives" = ["m", "l", "src", "directives"] ∧
      pathNames "m/l/src/constants/components.js" =
        ["m", "l", "src", "constants", "components.js"]) ∧
    bootstrapVue.componentsPath ⟨"m/l"⟩ = ⟨"m/l/src/constants/components.js"⟩ ∧
    bootstrapVue.directivesPath ⟨"m/l"⟩ = ⟨"m/l/src/directives"⟩ ∧
    (((FilePath.mk "m", Node.folder) ::
      (nestedDisk.tree.below ["m"]).map fun e => (Scan.entryPath ⟨"m"⟩ e.1, e.2)).filter
        (Scan.selects ["vue", "js"] [])).map Prod.fst =
      [⟨"m/A.vue"⟩, ⟨"m/l/src/constants/components.js"⟩] ∧
    ∀ name ∈ nestedDisk.tree.entries.flatMap Prod.fst,
      '/' ∉ name.toList ∧ '\x00' ∉ name.toList ∧ staysHere name = false ∧ name ≠ ".." ∧
        name.utf8ByteSize ≤ maxNameSize := by
  decide +kernel

theorem texts :
    (Markup.Document.read "<x").isOk = false ∧
    (Module.read? "export const A='BX'").map Declarations.componentNames = some (.ok ["BX"]) ∧
    (Module.read? "export const B='BY'").map Declarations.componentNames = some (.ok ["BY"]) ∧
    (Module.read? "").map Declarations.componentNames = some (.ok []) := by
  decide +kernel

theorem isNamed : nestedDisk.tree.IsNamed := by
  obtain ⟨-, -, -, -, hnames⟩ := paths
  intro e he name hname
  obtain ⟨hslash, hzero, hstay, hup, hsize⟩ := hnames name (List.mem_flatMap.2 ⟨e, he, hname⟩)
  exact ⟨hslash, hzero, hstay, hup, hsize⟩

theorem find_folder {last : Bool} :
    nestedDisk.find last ⟨"m"⟩ = .ok (["m"], .folder) ∧
      nestedDisk.find last ⟨"m/l/src/directives"⟩ =
        .ok (["m", "l", "src", "directives"], .folder) := by
  simp +decide [Disk.find, paths.1, FileTree.follow, FileTree.lookup, nestedDisk]

theorem find_file :
    nestedDisk.find true ⟨"m/A.vue"⟩ = .ok (["m", "A.vue"], .file "<x".toUTF8) ∧
      nestedDisk.find true ⟨"m/l/src/constants/components.js"⟩ =
        .ok (["m", "l", "src", "constants", "components.js"],
          .file "export const A='BX'".toUTF8) := by
  simp +decide [Disk.find, paths.1, FileTree.follow, FileTree.lookup, nestedDisk]

theorem isFolder_markup : nestedDisk.isFolder ⟨"m"⟩ = true := by
  simp [Disk.isFolder, Disk.node, find_folder, Except.map]

theorem scan_files : (scanMarkup nestedDisk nestedOptions).files =
    [⟨"m/A.vue"⟩, ⟨"m/l/src/constants/components.js"⟩] := by
  have hbelow : nestedDisk.below ⟨"m"⟩ = nestedDisk.tree.below ["m"] := by
    simp only [Disk.below, Disk.folderAt?, find_folder]
  obtain ⟨-, -, -, hfiles, -⟩ := paths
  simpa [scanMarkup, nestedOptions, Scan.run, Scan.entries, find_folder, hbelow, Scan.patterns]
    using hfiles

theorem blames : ∃ fault, Blames nestedDisk ⟨"m/A.vue"⟩ fault := by
  obtain ⟨hread, -⟩ := texts
  cases h : Markup.Document.read "<x" with
  | error fault =>
    have htext : nestedDisk.readText ⟨"m/A.vue"⟩ = .ok "<x" :=
      Disk.readText_of_node (by simp only [Disk.node, find_file, Except.map])
    exact ⟨_, .malformed htext h⟩
  | ok document =>
    rw [h] at hread
    cases hread

theorem entryFiles_eq :
    Catalog.entryFiles nestedDisk bootstrapVue.sourceExtension ⟨"m/l/src/directives"⟩ =
      .ok [] := by
  have hbelow : nestedDisk.below ⟨"m/l/src/directives"⟩ = [] := by
    simp only [Disk.below, Disk.folderAt?, find_folder]
    rfl
  simp [Catalog.entryFiles, Disk.isFolder, Disk.node, find_folder, hbelow, Except.map]

theorem sources_eq : sources nestedDisk bootstrapVue nestedOptions =
    [⟨"m/l/src/constants/components.js"⟩, ⟨"m/A.vue"⟩,
      ⟨"m/l/src/constants/components.js"⟩] := by
  obtain ⟨-, hc, hd, -⟩ := paths
  have hroot : nestedOptions.libraryRoot = ⟨"m/l"⟩ := rfl
  rw [sources, Catalog.sources, hroot, hc, hd, entryFiles_eq, scan_files]
  rfl

theorem load_eq {d : Disk} {text : String} {names : List String}
    (hdirectives : Catalog.entryFiles d bootstrapVue.sourceExtension ⟨"m/l/src/directives"⟩ =
      .ok [])
    (htext : d.readText ⟨"m/l/src/constants/components.js"⟩ = .ok text)
    (hnames : (Module.read? text).map Declarations.componentNames = some (.ok names)) :
    Catalog.load d bootstrapVue ⟨"m/l"⟩ =
      if names.isEmpty then .error (.noComponents ⟨"m/l/src/constants/components.js"⟩)
      else .ok (.ofLists names []) := by
  obtain ⟨-, hc, hd, -⟩ := paths
  rw [← hc] at htext
  rw [← hd] at hdirectives
  rw [Catalog.load, Catalog.loadComponents_of_read htext hnames,
    Catalog.loadDirectives_of_entryFiles hdirectives, hc]
  cases names with
  | nil => rfl
  | cons name names => rfl

theorem load_self : Catalog.load nestedDisk bootstrapVue ⟨"m/l"⟩ = .ok (.ofLists ["BX"] []) := by
  have htext : nestedDisk.readText ⟨"m/l/src/constants/components.js"⟩ =
      .ok "export const A='BX'" :=
    Disk.readText_of_node (by simp only [Disk.node, find_file, Except.map])
  exact load_eq entryFiles_eq htext texts.2.1

theorem load_declaring {text : String} {names : List String}
    (hnames : (Module.read? text).map Declarations.componentNames = some (.ok names)) :
    Catalog.load (declaring text) bootstrapVue ⟨"m/l"⟩ =
      if names.isEmpty then .error (.noComponents ⟨"m/l/src/constants/components.js"⟩)
      else .ok (.ofLists names []) :=
  load_eq (d := declaring text) ((Catalog.entryFiles_rewrite ..).trans entryFiles_eq)
    (Disk.readText_rewrite_self find_file.2 text) hnames

end nestedDisk

open nestedDisk in
theorem run_faults_nested :
    ∃ fault, Blames nestedDisk ⟨"m/A.vue"⟩ fault ∧
      run nestedDisk bootstrapVue nestedOptions = .ok (.error fault) ∧
      run (declaring "export const B='BY'") bootstrapVue nestedOptions = .ok (.error fault) ∧
      run (nestedDisk.rewriteAll [(["m", "B.txt"], "<x".toUTF8)]) bootstrapVue nestedOptions =
        run nestedDisk bootstrapVue nestedOptions := by
  obtain ⟨-, hfirst, hother⟩ := run_faults nestedDisk bootstrapVue nestedOptions
  obtain ⟨fault, hrun, hblames, -, hlater⟩ := hfirst _ [] _ _ isFolder_markup load_self scan_files
    (by simp) blames
  obtain ⟨-, -, hnames, -⟩ := texts
  refine ⟨fault, hblames, hrun, (hlater isNamed _ ?_).2 ⟨_, load_declaring hnames⟩, hother _ ?_⟩
  · simp [Disk.resolve, find_file, Except.map]
  · simp [sources_eq, Disk.resolve, find_file, Except.map]

open nestedDisk in
/-- A file behind the faulty one is a source of the library. Without its components the catalog
does not load any more, and that is what the run fails for then. -/
theorem run_ne_of_source_behind :
    nestedDisk.isFolder nestedOptions.markupRoot = true ∧
    Catalog.load nestedDisk bootstrapVue nestedOptions.libraryRoot = .ok (.ofLists ["BX"] []) ∧
    (scanMarkup nestedDisk nestedOptions).files =
      [⟨"m/A.vue"⟩, ⟨"m/l/src/constants/components.js"⟩] ∧
    IsFaulty nestedDisk ⟨"m/A.vue"⟩ ∧
    nestedDisk.resolve ⟨"m/l/src/constants/components.js"⟩ =
      .ok ["m", "l", "src", "constants", "components.js"] ∧
    run (declaring "") bootstrapVue nestedOptions ≠ run nestedDisk bootstrapVue nestedOptions := by
  have hresolve : nestedDisk.resolve ⟨"m/l/src/constants/components.js"⟩ =
      .ok ["m", "l", "src", "constants", "components.js"] := by
    simp [Disk.resolve, find_file, Except.map]
  refine ⟨isFolder_markup, load_self, scan_files, blames, hresolve, fun heq => ?_⟩
  obtain ⟨fault, hblames⟩ := blames
  have hprepare : prepare nestedDisk bootstrapVue nestedOptions = .ok (.ofLists ["BX"] []) :=
    prepare_eq_ok_iff.2 ⟨isFolder_markup, load_self⟩
  have hrun : run nestedDisk bootstrapVue nestedOptions = .ok (.error fault) := by
    rw [run_eq_error_iff hprepare, readTemplates_eq_error_iff]
    exact ⟨[], _, _, scan_files, by simp, hblames⟩
  obtain ⟨-, -, -, hnames⟩ := texts
  have hroot : (declaring "").isFolder nestedOptions.markupRoot = true :=
    (Disk.isFolder_rewriteAll ..).trans isFolder_markup
  rw [hrun, run_of_catalog_error hroot (load_declaring hnames)] at heq
  exact hblames.ne_catalog _ (Except.error.inj (Except.ok.inj heq)).symm

end Registrar.Generation
