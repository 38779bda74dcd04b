import Mathlib.Data.List.Nodup
import Registrar.Proofs.Generation.Merging
import Registrar.Proofs.Generation.Sources
import Registrar.Proofs.Registration.RoundTrip

/-! # What a module binds

A module imports the selected components and then the selected directives. Neither category lists a
name twice. A name is imported twice if it is selected in both, which nothing prevents: a library
may declare a component under the name of one of its directives.
-/

namespace Registrar

open Registrar.Files

variable {d : Disk} {profile : Profile} {root : FilePath} {catalog : Catalog} {name : String}

theorem Selection.nodup_imports_iff (selection : Selection) :
    selection.imports.Nodup ↔ ∀ name ∈ selection.components, name ∉ selection.directives := by
  have hcomponents : selection.components.names.Nodup :=
    selection.components.increasing.imp String.ne_of_lt
  have hdirectives : selection.directives.names.Nodup :=
    selection.directives.increasing.imp String.ne_of_lt
  rw [Selection.imports, List.nodup_append']
  constructor
  · rintro ⟨-, -, hdisjoint⟩ name hc hd
    exact hdisjoint hc hd
  · intro h
    exact ⟨hcomponents, hdirectives, fun name hc hd => h name hc hd⟩

namespace Registration

/-- A module binds every name once, apart from those that the library both declares as components
and exports as directives and that are used as both. -/
theorem nodup_imports_of_load (h : Catalog.load d profile root = .ok catalog) :
    ∃ components directives, Catalog.loadComponents d profile root = .ok components ∧
      Catalog.loadDirectives d profile root = .ok directives ∧
      ∀ usage : MarkupUsage,
        (∀ layout code,
          generate profile layout (.ofUsage usage catalog profile.marker) = .ok (some code) →
          ∃ statement rest, importStatement profile.package layout
              (Selection.ofUsage usage catalog profile.marker).imports = .ok statement ∧
            code = runtimeLine profile ++ "\n" ++ statement ++ "\n" ++ rest) ∧
        ((Selection.ofUsage usage catalog profile.marker).imports.Nodup ↔
          ∀ name, name ∈ components → name ∈ directives →
            (∃ raw ∈ usage.components, Naming.componentName raw = name) →
              ¬ ∃ raw ∈ usage.directives, Naming.directiveName profile.marker raw = name) ∧
        ((∀ name ∈ components, name ∉ directives) →
          (Selection.ofUsage usage catalog profile.marker).imports.Nodup) := by
  obtain ⟨components, directives, hcomponents, hdirectives, rfl⟩ := Catalog.load_eq_ok_iff.1 h
  refine ⟨components, directives, hcomponents, hdirectives, fun usage => ?_⟩
  have hnodup : (Selection.ofUsage usage (.ofLists components directives)
      profile.marker).imports.Nodup ↔ ∀ name, name ∈ components → name ∈ directives →
        (∃ raw ∈ usage.components, Naming.componentName raw = name) →
          ¬ ∃ raw ∈ usage.directives, Naming.directiveName profile.marker raw = name := by
    rw [Selection.nodup_imports_iff]
    simp only [Selection.mem_components_ofUsage, Selection.mem_directives_ofUsage,
      Catalog.ofLists, NameSet.mem_ofList]
    constructor
    · intro hnot name hc hd hused hused'
      exact hnot name ⟨hc, hused⟩ ⟨hd, hused'⟩
    · rintro hnot name ⟨hc, hused⟩ ⟨hd, hused'⟩
      exact hnot name hc hd hused hused'
  obtain ⟨rest, hrest⟩ := exists_rest_of_generate profile
    (.ofUsage usage (.ofLists components directives) profile.marker)
  refine ⟨?_, hnodup, ?_⟩
  · intro layout code hcode
    obtain ⟨statement, hstatement, hcode⟩ := hrest layout code hcode
    exact ⟨statement, rest, hstatement, hcode⟩
  · intro hdisjoint
    exact hnodup.2 fun name hc hd => absurd hd (hdisjoint name hc)

end Registration

/-! ## A library with one name for two things -/

def clashingDisk : Disk where
  tree.entries :=
    [(["l"], .folder), (["l", "src"], .folder), (["l", "src", "constants"], .folder),
      (["l", "src", "constants", "components.js"], .file "export const A='VToggle'".toUTF8),
      (["l", "src", "directives"], .folder), (["l", "src", "directives", "toggle"], .folder),
      (["l", "src", "directives", "toggle", "toggle.js"],
        .file "export const VToggle=\x7b\x7d".toUTF8)]
  tree.increasing := by simp +decide
  tree.housed := by simp
  here := []

namespace clashingDisk

theorem paths :
    (pathNames "l/src/constants/components.js" = ["l", "src", "constants", "components.js"] ∧
      pathNames "l/src/directives" = ["l", "src", "directives"] ∧
      pathNames "l/src/directives/toggle/toggle.js" =
        ["l", "src", "directives", "toggle", "toggle.js"]) ∧
    bootstrapVue.componentsPath ⟨"l"⟩ = ⟨"l/src/constants/components.js"⟩ ∧
    bootstrapVue.directivesPath ⟨"l"⟩ = ⟨"l/src/directives"⟩ ∧
    Catalog.isEntryName bootstrapVue.sourceExtension "toggle" "toggle.js" = true ∧
    ((FilePath.mk "l/src/directives").join "toggle").join "toggle.js" =
      ⟨"l/src/directives/toggle/toggle.js"⟩ := by
  decide +kernel

theorem texts :
    (Module.read? "export const A='VToggle'").map Declarations.componentNames =
      some (.ok ["VToggle"]) ∧
    (Module.read? "export const VToggle=\x7b\x7d").map Declarations.exportedNames =
      some ["VToggle"] := by
  decide +kernel

theorem readText_eq :
    clashingDisk.readText ⟨"l/src/constants/components.js"⟩ = .ok "export const A='VToggle'" ∧
      clashingDisk.readText ⟨"l/src/directives/toggle/toggle.js"⟩ =
        .ok "export const VToggle=\x7b\x7d" := by
  refine ⟨Disk.readText_of_node ?_, Disk.readText_of_node ?_⟩
  all_goals
    simp +decide [Disk.node, Disk.find, paths.1, FileTree.follow, FileTree.lookup, clashingDisk,
      Except.map]

theorem entryFiles_eq :
    Catalog.entryFiles clashingDisk bootstrapVue.sourceExtension ⟨"l/src/directives"⟩ =
      .ok [⟨"l/src/directives/toggle/toggle.js"⟩] := by
  have hfind : clashingDisk.find true ⟨"l/src/directives"⟩ =
      .ok (["l", "src", "directives"], .folder) := by
    simp +decide [Disk.find, paths.1, FileTree.follow, FileTree.lookup, clashingDisk]
  have hbelow : clashingDisk.below ⟨"l/src/directives"⟩ =
      [(["toggle"], .folder),
        (["toggle", "toggle.js"], .file "export const VToggle=\x7b\x7d".toUTF8)] := by
    simp only [Disk.below, Disk.folderAt?, hfind]
    rfl
  obtain ⟨-, -, -, hentry⟩ := paths
  simp [Catalog.entryFiles, Disk.isFolder, Disk.node, hfind, hbelow, hentry, Except.map]

theorem load_eq :
    Catalog.load clashingDisk bootstrapVue ⟨"l"⟩ = .ok (.ofLists ["VToggle"] ["VToggle"]) := by
  obtain ⟨-, hc, hd, -⟩ := paths
  obtain ⟨hdeclared, hexported⟩ := texts
  have hexports : Catalog.entryExports clashingDisk ⟨"l/src/directives/toggle/toggle.js"⟩ =
      .ok ["VToggle"] := Catalog.entryExports_of_read readText_eq.2 hexported
  refine Catalog.load_eq_ok_iff.2 ⟨["VToggle"], ["VToggle"], ?_, ?_, rfl⟩
  · exact Catalog.loadComponents_of_read (hc ▸ readText_eq.1) hdeclared
  · rw [Catalog.loadDirectives_of_entryFiles (hd ▸ entryFiles_eq)]
    simp [hexports, bind, Except.bind, pure, Except.pure, Except.map]

end clashingDisk

theorem Registration.nodup_imports_of_load_clashing :
    Catalog.load clashingDisk bootstrapVue ⟨"l"⟩ = .ok (.ofLists ["VToggle"] ["VToggle"]) ∧
    (Selection.ofUsage ⟨.ofList ["v-toggle"], .ofList ["x"]⟩ (.ofLists ["VToggle"] ["VToggle"])
      bootstrapVue.marker).imports.Nodup := by
  obtain ⟨components, directives, -, -, himports⟩ := nodup_imports_of_load clashingDisk.load_eq
  obtain ⟨-, hnodup, -⟩ := himports ⟨.ofList ["v-toggle"], .ofList ["x"]⟩
  have hne : Naming.directiveName bootstrapVue.marker "x" ≠ Naming.componentName "v-toggle" := by
    decide
  refine ⟨clashingDisk.load_eq, hnodup.2 ?_⟩
  rintro name - - ⟨raw, hraw, rfl⟩ ⟨raw', hraw', heq⟩
  obtain rfl : raw = "v-toggle" := by simpa using hraw
  obtain rfl : raw' = "x" := by simpa using hraw'
  exact hne heq

/-- A template that uses both gets a module that binds their name twice. -/
theorem Registration.generate_clashing :
    Catalog.load clashingDisk bootstrapVue ⟨"l"⟩ = .ok (.ofLists ["VToggle"] ["VToggle"]) ∧
    generate bootstrapVue .standard (.ofUsage ⟨.ofList ["v-toggle"], .ofList ["toggle"]⟩
      (.ofLists ["VToggle"] ["VToggle"]) bootstrapVue.marker) =
        .ok (some ("import Vue from 'vue';\n" ++
          "import \x7b VToggle, VToggle \x7d from 'bootstrap-vue';\n" ++
          "\nVue.component('VToggle', VToggle);\n\nVue.directive('toggle', VToggle);\n")) ∧
    ¬ (Selection.ofUsage ⟨.ofList ["v-toggle"], .ofList ["toggle"]⟩
      (.ofLists ["VToggle"] ["VToggle"]) bootstrapVue.marker).imports.Nodup :=
  ⟨clashingDisk.load_eq, by decide +kernel, by decide +kernel⟩

end Registrar
