import Registrar.Except
import Registrar.Generation
import Registrar.Proofs.Files.Rewrite

/-! # The files that a run reads

A run reads the sources of the library and the files of its scan. Another content in any other file
makes no difference to it.
-/

namespace Registrar

open Registrar.Files

variable {d : Disk} {location : Location} {content : ByteArray} {profile : Profile}

namespace Catalog

variable {root path : FilePath} {source : String} {names : List String} {catalog : Catalog}

theorem load_eq_ok_iff : load d profile root = .ok catalog ↔
    ∃ components directives, loadComponents d profile root = .ok components ∧
      loadDirectives d profile root = .ok directives ∧
        .ofLists components directives = catalog := by
  unfold load
  cases loadComponents d profile root with
  | error _ => simp [bind, Except.bind]
  | ok components =>
    cases loadDirectives d profile root <;> simp [bind, Except.bind, pure, Except.pure]

theorem loadComponents_of_read (hsource : d.readText (profile.componentsPath root) = .ok source)
    (hnames : (Module.read? source).map Declarations.componentNames = some (.ok names)) :
    loadComponents d profile root =
      if names.isEmpty then .error (.noComponents (profile.componentsPath root))
      else .ok names := by
  obtain ⟨items, hitems, hdeclared⟩ := Option.map_eq_some_iff.1 hnames
  simp only [loadComponents, hsource, parse, hitems, hdeclared, mapError_ok, bind, Except.bind]

theorem entryExports_of_read (hsource : d.readText path = .ok source)
    (hnames : (Module.read? source).map Declarations.exportedNames = some names) :
    entryExports d path = .ok names := by
  obtain ⟨items, hitems, hexported⟩ := Option.map_eq_some_iff.1 hnames
  simp only [entryExports, hsource, parse, hitems, ← hexported, mapError_ok, bind, Except.bind,
    pure, Except.pure]

theorem loadDirectives_of_entryFiles {paths : List FilePath}
    (hpaths : entryFiles d profile.sourceExtension (profile.directivesPath root) = .ok paths) :
    loadDirectives d profile root = (paths.mapM (entryExports d)).map List.flatten := by
  simp only [loadDirectives, hpaths, bind, Except.bind]
  cases paths.mapM (entryExports d) <;> rfl

theorem entryFiles_rewrite (d : Disk) (location : Location) (content : ByteArray)
    (extension : String) (folder : FilePath) :
    entryFiles (d.rewrite location content) extension folder = entryFiles d extension folder := by
  simp only [entryFiles, Disk.isFolder_rewrite]
  rw [Disk.filterMap_below_rewrite]
  rintro ⟨_ | ⟨inner, _ | ⟨file, _ | _⟩⟩, _ | _ | _⟩ <;> rfl

def sources (d : Disk) (profile : Profile) (root : FilePath) : List FilePath :=
  profile.componentsPath root ::
    (entryFiles d profile.sourceExtension (profile.directivesPath root)).toOption.getD []

theorem sources_rewrite (d : Disk) (location : Location) (content : ByteArray) (profile : Profile)
    (root : FilePath) :
    sources (d.rewrite location content) profile root = sources d profile root := by
  rw [sources, entryFiles_rewrite, sources]

theorem load_rewrite (h : ∀ path ∈ sources d profile root, d.resolve path ≠ .ok location) :
    load (d.rewrite location content) profile root = load d profile root := by
  obtain ⟨hcomponents, hdirectives⟩ := List.forall_mem_cons.1 h
  have hload : loadComponents (d.rewrite location content) profile root =
      loadComponents d profile root := by
    simp only [loadComponents, Disk.readText_rewrite hcomponents]
  have hload' : loadDirectives (d.rewrite location content) profile root =
      loadDirectives d profile root := by
    simp only [loadDirectives, entryFiles_rewrite]
    cases hfiles : entryFiles d profile.sourceExtension (profile.directivesPath root) with
    | error _ => rfl
    | ok paths =>
      rw [hfiles] at hdirectives
      have hexports : paths.mapM (entryExports (d.rewrite location content)) =
          paths.mapM (entryExports d) := mapM_congr fun path hpath => by
        simp only [entryExports, Disk.readText_rewrite (hdirectives path hpath)]
      simp only [bind, Except.bind, hexports]
  rw [load, hload, hload', load]

end Catalog

namespace Generation

/-- The files that a run reads. -/
def sources (d : Disk) (profile : Profile) (options : GenerationOptions) : List FilePath :=
  Catalog.sources d profile options.libraryRoot ++ (scanMarkup d options).files

theorem findings_rewrite {options : GenerationOptions}
    (h : ∀ path ∈ sources d profile options, d.resolve path ≠ .ok location) :
    findings (d.rewrite location content) profile options = findings d profile options := by
  obtain ⟨hlibrary, hmarkup⟩ := List.forall_mem_append.1 h
  have hprepare : prepare (d.rewrite location content) profile options =
      prepare d profile options := by
    simp only [prepare, checkMarkupRoot, Disk.isFolder_rewrite, Catalog.load_rewrite hlibrary]
  have hscan : scanMarkup (d.rewrite location content) options = scanMarkup d options :=
    Scan.run_rewrite ..
  have htemplates : readTemplates (d.rewrite location content) (scanMarkup d options).files =
      readTemplates d (scanMarkup d options).files := by
    have hread : ∀ path ∈ (scanMarkup d options).files,
        readTemplate (d.rewrite location content) path = readTemplate d path := by
      intro path hpath
      simp only [readTemplate, Disk.readText_rewrite (hmarkup path hpath)]
    rw [readTemplates, mapM_congr hread, readTemplates]
  simp only [findings, hprepare, hscan, htemplates]

theorem run_rewrite {options : GenerationOptions}
    (h : ∀ path ∈ sources d profile options, d.resolve path ≠ .ok location) :
    run (d.rewrite location content) profile options = run d profile options := by
  rw [run, findings_rewrite h, run]

theorem sources_rewrite (d : Disk) (location : Location) (content : ByteArray) (profile : Profile)
    (options : GenerationOptions) :
    sources (d.rewrite location content) profile options = sources d profile options := by
  rw [sources, Catalog.sources_rewrite, scanMarkup, Scan.run_rewrite, sources, scanMarkup]

theorem run_rewriteAll {options : GenerationOptions} {changes : List (Location × ByteArray)}
    (h : ∀ c ∈ changes, ∀ path ∈ sources d profile options, d.resolve path ≠ .ok c.1) :
    run (d.rewriteAll changes) profile options = run d profile options :=
  Disk.rewriteAll_eq (run · profile options)
    (fun d there => ∀ path ∈ sources d profile options, d.resolve path ≠ .ok there)
    (fun _ _ _ _ hsafe => by simpa only [sources_rewrite, Disk.resolve_rewrite] using hsafe)
    (fun _ _ _ => run_rewrite) h

end Generation

end Registrar
