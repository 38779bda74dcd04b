import Registrar.Except
import Registrar.Generation
import Registrar.Proofs.Files.Rewrite
import Registrar.Proofs.Generation.Merging
import Registrar.Proofs.Markup.Frames

/-! # Runs report what is used

A run that succeeds has read every file of its scan, and selects what the templates in them name.
How often and where a content occurs makes no difference: a run over other files with the same
contents selects and generates the same.
-/

namespace Registrar.Generation

open Registrar.Files
open Markup (TemplateUsage)

def IsContent (d : Disk) (files : List FilePath) (source : String) : Prop :=
  ∃ path ∈ files, d.readText path = .ok source

def IsUsage (d : Disk) (files : List FilePath) (usage : TemplateUsage) : Prop :=
  ∃ source, IsContent d files source ∧ TemplateUsage.read source = .ok usage

variable {d : Disk} {files : List FilePath} {profile : Profile} {options : GenerationOptions}
  {catalog : Catalog} {g : Generation}

theorem readTemplate_eq_ok_iff {path : FilePath} {usage : TemplateUsage} :
    readTemplate d path = .ok usage ↔
      ∃ source, d.readText path = .ok source ∧ TemplateUsage.read source = .ok usage := by
  unfold readTemplate
  cases d.readText path with
  | error fault => simp
  | ok source => cases h : TemplateUsage.read source <;> simp [h, Except.mapError]

theorem isUsage_iff {usage : TemplateUsage} :
    IsUsage d files usage ↔ ∃ path ∈ files, readTemplate d path = .ok usage := by
  simp only [IsUsage, IsContent, readTemplate_eq_ok_iff]
  constructor
  · rintro ⟨source, ⟨path, hpath, htext⟩, hread⟩
    exact ⟨path, hpath, source, htext, hread⟩
  · rintro ⟨path, hpath, source, htext, hread⟩
    exact ⟨source, ⟨path, hpath, htext⟩, hread⟩

theorem readTemplates_eq_ok_iff {usage : MarkupUsage} :
    readTemplates d files = .ok usage ↔
      (∀ path ∈ files, ∃ template, readTemplate d path = .ok template) ∧
        usage.Collects (IsUsage d files) := by
  rw [← exists_mapM_eq_ok_iff]
  cases h : files.mapM (readTemplate d) with
  | error fault => simp [readTemplates, h, Except.map]
  | ok templates =>
    have hc : (MarkupUsage.ofTemplates templates).Collects (IsUsage d files) :=
      (MarkupUsage.collects_ofTemplates templates).congr fun template => by
        rw [isUsage_iff, mem_iff_of_mapM_eq_ok h]
    simp only [readTemplates, h, Except.map, Except.ok.injEq, exists_eq', true_and]
    exact ⟨fun heq => heq ▸ hc, hc.unique⟩

theorem readTemplates_congr {d' : Disk} {files' : List FilePath} {usage : MarkupUsage}
    (h : readTemplates d files = .ok usage)
    (hreadable : ∀ path ∈ files', ∃ source, d'.readText path = .ok source)
    (hsame : ∀ source, IsContent d' files' source ↔ IsContent d files source) :
    readTemplates d' files' = .ok usage := by
  obtain ⟨hread, hc⟩ := readTemplates_eq_ok_iff.1 h
  refine readTemplates_eq_ok_iff.2 ⟨fun path hpath => ?_, hc.congr fun template => ?_⟩
  · obtain ⟨source, hsource⟩ := hreadable path hpath
    obtain ⟨path₀, hpath₀, hsource₀⟩ := (hsame source).1 ⟨path, hpath, hsource⟩
    obtain ⟨template, htemplate⟩ := hread path₀ hpath₀
    obtain ⟨source', hsource', hparse⟩ := readTemplate_eq_ok_iff.1 htemplate
    obtain rfl : source = source' := by simpa [hsource₀] using hsource'
    exact ⟨template, readTemplate_eq_ok_iff.2 ⟨source, hsource, hparse⟩⟩
  · simp only [IsUsage, hsame]

theorem prepare_eq_ok_iff :
    prepare d profile options = .ok catalog ↔
      d.isFolder options.markupRoot = true ∧
        Catalog.load d profile options.libraryRoot = .ok catalog := by
  simp only [prepare, checkMarkupRoot, bind_eq_ok_iff, ite_eq_ok_iff, mapError_eq_ok_iff]
  simp

theorem findings_eq_ok_iff {found : Findings} :
    findings d profile options = .ok found ↔
      prepare d profile options = .ok found.catalog ∧ found.scan = scanMarkup d options ∧
        ∃ usage, readTemplates d found.scan.files = .ok usage ∧
          found.selection = .ofUsage usage found.catalog profile.marker := by
  obtain ⟨selection, catalog, scan⟩ := found
  simp only [findings, bind_eq_ok_iff, pure, Except.pure, Except.ok.injEq, Findings.mk.injEq]
  constructor
  · rintro ⟨catalog, hprepare, usage, husage, rfl, rfl, rfl⟩
    exact ⟨hprepare, rfl, usage, husage, rfl⟩
  · rintro ⟨hprepare, rfl, usage, husage, rfl⟩
    exact ⟨_, hprepare, usage, husage, rfl, rfl, rfl⟩

theorem run_eq_ok_iff :
    run d profile options = .ok (.ok g) ↔ findings d profile options = .ok g.toFindings ∧
      Registration.generate profile options.layout g.selection = .ok g.code := by
  obtain ⟨found, code⟩ := g
  unfold run
  cases findings d profile options with
  | error fault => simp
  | ok found' =>
    simp only [bind_eq_ok_iff, pure, Except.pure, Except.ok.injEq, Generation.mk.injEq]
    constructor
    · rintro ⟨code, hcode, rfl, rfl⟩
      exact ⟨rfl, hcode⟩
    · rintro ⟨rfl, hcode⟩
      exact ⟨code, hcode, rfl, rfl⟩

theorem run_eq_fault_iff {fault : GenerationFault} :
    run d profile options = .ok (.error fault) ↔ findings d profile options = .error fault := by
  unfold run
  cases findings d profile options with
  | error fault' => simp
  | ok found => simp [bind_eq_ok_iff, pure, Except.pure]

theorem run_of_generate {usage : MarkupUsage} {code : Option String}
    (h : prepare d profile options = .ok catalog)
    (husage : readTemplates d (scanMarkup d options).files = .ok usage)
    (hcode : Registration.generate profile options.layout (.ofUsage usage catalog profile.marker) =
      .ok code) :
    run d profile options =
      .ok (.ok ⟨⟨.ofUsage usage catalog profile.marker, catalog, scanMarkup d options⟩, code⟩) :=
  run_eq_ok_iff.2 ⟨findings_eq_ok_iff.2 ⟨h, rfl, usage, husage, rfl⟩, hcode⟩

/-- A run reads all files of its scan and selects exactly what they name. However their templates
are merged, and wherever the same contents stand, the selection and the module are the same. -/
theorem run_reports (h : run d profile options = .ok (.ok g)) :
    Catalog.load d profile options.libraryRoot = .ok g.catalog ∧
      g.scan = scanMarkup d options ∧
      (∀ path ∈ g.scan.files, ∃ template, readTemplate d path = .ok template) ∧
      g.selection.Reports g.catalog profile.marker (IsUsage d g.scan.files) ∧
      (∀ m : Merging, (∀ template, template ∈ m.templates ↔ IsUsage d g.scan.files template) →
        readTemplates d g.scan.files = .ok m.usage ∧
          .ofUsage m.usage g.catalog profile.marker = g.selection ∧
          Registration.generate profile options.layout
            (.ofUsage m.usage g.catalog profile.marker) = .ok g.code) ∧
      ∀ (d' : Disk) (files' : List FilePath),
        (∀ path ∈ files', ∃ source, d'.readText path = .ok source) →
        (∀ source, IsContent d' files' source ↔ IsContent d g.scan.files source) →
        readTemplates d' files' = readTemplates d g.scan.files ∧
          ∀ options' : GenerationOptions,
            prepare d' profile options' = .ok g.catalog →
            options'.layout = options.layout →
            (scanMarkup d' options').files = files' →
            run d' profile options' = .ok (.ok { g with scan := scanMarkup d' options' }) := by
  obtain ⟨hfindings, hcode⟩ := run_eq_ok_iff.1 h
  obtain ⟨hprepare, hscan, usage, husage, hselection⟩ := findings_eq_ok_iff.1 hfindings
  obtain ⟨hread, hc⟩ := readTemplates_eq_ok_iff.1 husage
  refine ⟨(prepare_eq_ok_iff.1 hprepare).2, hscan, hread, ?_, ?_, ?_⟩
  · rw [hselection]
    exact Selection.reports_ofUsage hc _ _
  · intro m hm
    obtain rfl : m.usage = usage := (m.collects.congr hm).unique hc
    rw [← hselection]
    exact ⟨husage, rfl, hcode⟩
  · intro d' files' hreadable hsame
    have husage' := readTemplates_congr husage hreadable hsame
    refine ⟨husage'.trans husage.symm, ?_⟩
    rintro options' hprepare' hlayout rfl
    exact run_eq_ok_iff.2
      ⟨findings_eq_ok_iff.2 ⟨hprepare', rfl, usage, husage', hselection⟩, hlayout ▸ hcode⟩

/-- A library with one component, one folder with a template that uses it, and another folder with
two copies of that template. -/
def sampleDisk : Disk where
  tree.entries :=
    [(["l"], .folder), (["l", "src"], .folder), (["l", "src", "constants"], .folder),
      (["l", "src", "constants", "components.js"], .file "export const A='BX'".toUTF8),
      (["l", "src", "directives"], .folder), (["m"], .folder),
      (["m", "A.vue"], .file "<template><b-x/></template>".toUTF8), (["n"], .folder),
      (["n", "B.vue"], .file "<template><b-x/></template>".toUTF8), (["n", "o"], .folder),
      (["n", "o", "C.vue"], .file "<template><b-x/></template>".toUTF8)]
  tree.increasing := by simp +decide
  tree.housed := by simp
  here := []

def sampleOptions (root : String) : GenerationOptions := ⟨⟨root⟩, ⟨"l"⟩, ["vue"], [], .standard⟩

theorem sampleDisk_paths :
    (pathNames "m" = ["m"] ∧ pathNames "n" = ["n"] ∧
      pathNames "l/src/directives" = ["l", "src", "directives"] ∧
      pathNames "l/src/constants/components.js" = ["l", "src", "constants", "components.js"] ∧
      pathNames "m/A.vue" = ["m", "A.vue"] ∧ pathNames "n/B.vue" = ["n", "B.vue"] ∧
      pathNames "n/o/C.vue" = ["n", "o", "C.vue"]) ∧
    (bootstrapVue.componentsPath ⟨"l"⟩ = ⟨"l/src/constants/components.js"⟩ ∧
      bootstrapVue.directivesPath ⟨"l"⟩ = ⟨"l/src/directives"⟩) ∧
    ((FilePath.mk "m").join "A.vue" = ⟨"m/A.vue"⟩ ∧ (FilePath.mk "n").join "B.vue" = ⟨"n/B.vue"⟩ ∧
      ((FilePath.mk "n").join "o").join "C.vue" = ⟨"n/o/C.vue"⟩) ∧
    (FilePath.mk "m/A.vue").extension? = some "vue" ∧
    (FilePath.mk "n/B.vue").extension? = some "vue" ∧
    (FilePath.mk "n/o/C.vue").extension? = some "vue" := by
  decide +kernel

theorem sampleDisk_find {last : Bool} :
    sampleDisk.find last ⟨"m"⟩ = .ok (["m"], .folder) ∧
      sampleDisk.find last ⟨"n"⟩ = .ok (["n"], .folder) ∧
      sampleDisk.find last ⟨"l/src/directives"⟩ = .ok (["l", "src", "directives"], .folder) := by
  simp +decide [Disk.find, sampleDisk_paths.1, FileTree.follow, FileTree.lookup, sampleDisk]

theorem sampleDisk_readText_components :
    sampleDisk.readText ⟨"l/src/constants/components.js"⟩ = .ok "export const A='BX'" := by
  refine Disk.readText_of_node ?_
  simp +decide [Disk.node, Disk.find, sampleDisk_paths.1, FileTree.follow, FileTree.lookup,
    sampleDisk, Except.map]

theorem sampleDisk_readText_templates :
    ∀ path ∈ [FilePath.mk "m/A.vue", ⟨"n/B.vue"⟩, ⟨"n/o/C.vue"⟩],
      sampleDisk.readText path = .ok "<template><b-x/></template>" := by
  simp only [List.forall_mem_cons]
  refine ⟨Disk.readText_of_node ?_, Disk.readText_of_node ?_, Disk.readText_of_node ?_, by simp⟩
  all_goals
    simp +decide [Disk.node, Disk.find, sampleDisk_paths.1, FileTree.follow, FileTree.lookup,
      sampleDisk, Except.map]

theorem sampleDisk_load :
    Catalog.load sampleDisk bootstrapVue ⟨"l"⟩ = .ok (.ofLists ["BX"] []) := by
  obtain ⟨-, ⟨hc, hd⟩, -⟩ := sampleDisk_paths
  have hparse : Module.read? "export const A='BX'" =
      some [.exportVariables [⟨some "A", some (.literal (some "BX"))⟩]] := by
    decide +kernel
  have hbelow : sampleDisk.below ⟨"l/src/directives"⟩ = [] := by
    simp only [Disk.below, Disk.folderAt?, sampleDisk_find]
    rfl
  simp [Catalog.load, Catalog.loadComponents, hc, sampleDisk_readText_components, Catalog.parse,
    hparse, Declarations.componentNames, Declarations.itemValues, Declarations.value,
    Catalog.loadDirectives, Catalog.entryFiles, hd, Disk.isFolder, Disk.node, sampleDisk_find,
    hbelow, bind, Except.bind, pure, Except.pure, Except.map, Except.mapError]

theorem sampleDisk_scan :
    (scanMarkup sampleDisk (sampleOptions "m")).files = [⟨"m/A.vue"⟩] ∧
      (scanMarkup sampleDisk (sampleOptions "n")).files = [⟨"n/B.vue"⟩, ⟨"n/o/C.vue"⟩] := by
  have hm : sampleDisk.below ⟨"m"⟩ = [(["A.vue"], .file "<template><b-x/></template>".toUTF8)] := by
    simp only [Disk.below, Disk.folderAt?, sampleDisk_find]
    rfl
  have hn : sampleDisk.below ⟨"n"⟩ =
      [(["B.vue"], .file "<template><b-x/></template>".toUTF8), (["o"], .folder),
        (["o", "C.vue"], .file "<template><b-x/></template>".toUTF8)] := by
    simp only [Disk.below, Disk.folderAt?, sampleDisk_find]
    rfl
  obtain ⟨-, -, hjoin, hextension⟩ := sampleDisk_paths
  simp [scanMarkup, sampleOptions, Scan.run, Scan.entries, sampleDisk_find, hm, hn, Scan.selects,
    Scan.entryPath, Scan.patterns, hjoin, hextension]

open Markup Text in
theorem sampleTemplate_read :
    TemplateUsage.read "<template><b-x/></template>" = .ok ⟨["b-x"], []⟩ := by
  have hx : readStartTag
      ['b', '-', 'x', '/', '>', '<', '/', 't', 'e', 'm', 'p', 'l', 'a', 't', 'e', '>'] =
      .ok ⟨.startTag ⟨"b-x", []⟩ true, ['<', 'b', '-', 'x', '/', '>'],
        ['<', '/', 't', 'e', 'm', 'p', 'l', 'a', 't', 'e', '>']⟩ := by
    simp [readStartTag, readAttributes, isTagChar, isBlank, Except.map]
  have ht : readStartTag ['t', 'e', 'm', 'p', 'l', 'a', 't', 'e', '>', '<', 'b', '-', 'x', '/', '>',
      '<', '/', 't', 'e', 'm', 'p', 'l', 'a', 't', 'e', '>'] =
      .ok ⟨.startTag ⟨"template", []⟩ false, ['<', 't', 'e', 'm', 'p', 'l', 'a', 't', 'e', '>'],
        ['<', 'b', '-', 'x', '/', '>', '<', '/', 't', 'e', 'm', 'p', 'l', 'a', 't', 'e', '>']⟩ := by
    simp [readStartTag, readAttributes, isTagChar, isBlank, Except.map]
  have hrun : Progress.empty.run 0 ['<', 't', 'e', 'm', 'p', 'l', 'a', 't', 'e', '>', '<', 'b', '-',
      'x', '/', '>', '<', '/', 't', 'e', 'm', 'p', 'l', 'a', 't', 'e', '>'] =
      .ok [.element ⟨"template", []⟩ 0 [.element ⟨"b-x", []⟩ 10 []]] := by
    calc
      _ = _ := Progress.run_of_read (List.cons_ne_nil _ _)
        (by simp [Progress.empty, Progress.read, readItem, ht, Except.mapError]; rfl) rfl
      _ = _ := Progress.run_of_read (List.cons_ne_nil _ _)
        (by simp [Progress.read, readItem, hx, Except.mapError]; rfl) rfl
      _ = _ := Progress.run_of_read (List.cons_ne_nil _ _) rfl rfl
      _ = _ := Progress.run_nil
  have hdocument : Document.read "<template><b-x/></template>" =
      .ok ⟨[.element ⟨"template", []⟩ 0 [.element ⟨"b-x", []⟩ 10 []]]⟩ := by
    simp [Document.read, hrun, Except.map]
  rw [TemplateUsage.read, hdocument]
  decide

theorem run_reports_sample :
    ∃ g, run sampleDisk bootstrapVue (sampleOptions "m") = .ok (.ok g) ∧
      "BX" ∈ g.selection.components ∧
      run sampleDisk bootstrapVue (sampleOptions "n") =
        .ok (.ok { g with scan := scanMarkup sampleDisk (sampleOptions "n") }) := by
  have hm : prepare sampleDisk bootstrapVue (sampleOptions "m") = .ok (.ofLists ["BX"] []) :=
    prepare_eq_ok_iff.2 ⟨by simp [sampleOptions, Disk.isFolder, Disk.node, sampleDisk_find,
      Except.map], sampleDisk_load⟩
  have hn : prepare sampleDisk bootstrapVue (sampleOptions "n") = .ok (.ofLists ["BX"] []) :=
    prepare_eq_ok_iff.2 ⟨by simp [sampleOptions, Disk.isFolder, Disk.node, sampleDisk_find,
      Except.map], sampleDisk_load⟩
  obtain ⟨hfiles, hfiles'⟩ := sampleDisk_scan
  have htext := sampleDisk_readText_templates
  simp only [List.forall_mem_cons] at htext
  obtain ⟨ha, hb, hc, -⟩ := htext
  have hread : readTemplate sampleDisk ⟨"m/A.vue"⟩ = .ok ⟨["b-x"], []⟩ :=
    readTemplate_eq_ok_iff.2 ⟨_, ha, sampleTemplate_read⟩
  have htemplates : readTemplates sampleDisk (scanMarkup sampleDisk (sampleOptions "m")).files =
      .ok (.ofTemplates [⟨["b-x"], []⟩]) := by
    simp [hfiles, readTemplates, hread, Except.map, bind, Except.bind, pure, Except.pure]
  have hcode : Registration.generate bootstrapVue (sampleOptions "m").layout
      (.ofUsage (.ofTemplates [⟨["b-x"], []⟩]) (.ofLists ["BX"] []) bootstrapVue.marker) =
        .ok (some ("import Vue from 'vue';\nimport \x7b BX \x7d from 'bootstrap-vue';\n\n" ++
          "Vue.component('BX', BX);\n")) := by
    decide +kernel
  have h := run_of_generate hm htemplates hcode
  obtain ⟨-, -, -, hselection, -, hsame⟩ := run_reports h
  have hreadable : ∀ path ∈ (scanMarkup sampleDisk (sampleOptions "n")).files,
      ∃ source, sampleDisk.readText path = .ok source := by
    simp [hfiles', hb, hc]
  have hcontent (source : String) :
      IsContent sampleDisk (scanMarkup sampleDisk (sampleOptions "n")).files source ↔
        IsContent sampleDisk (scanMarkup sampleDisk (sampleOptions "m")).files source := by
    simp [IsContent, hfiles, hfiles', ha, hb, hc]
  refine ⟨_, h, (hselection.mem_components "BX").2 ⟨?_, ⟨["b-x"], []⟩, ?_, "b-x", ?_, ?_⟩,
    (hsame _ _ hreadable hcontent).2 _ hn rfl rfl⟩
  · simp [Catalog.ofLists]
  · exact isUsage_iff.2 ⟨⟨"m/A.vue"⟩, by simp [hfiles], hread⟩
  · simp
  · decide +kernel

end Registrar.Generation
