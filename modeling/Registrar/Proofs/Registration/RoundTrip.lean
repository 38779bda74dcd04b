import Registrar.Proofs.Registration.Reader
import Registrar.Proofs.Text.Utf8

/-! # Registration modules are read back

A reader recovers from a module what was imported and registered, in order and with nothing else.
So two selections never have the same module, and the layout shows in the import alone.
-/

namespace Registrar.Registration

open Registrar.Text

variable {names : List String} {layout : Layout} {selection : Selection}

theorem readModule?_unlines {lines : List String} (h : ∀ line ∈ lines, '\n' ∉ line.toList) :
    readModule? (unlines lines) = readLines none (lines.map String.toList ++ [[]]) := by
  rw [readModule?, splitOn_unlines h]

theorem newline_not_mem_wholeImport (h : ∀ name ∈ names, IsExportName name) :
    ∀ line ∈ wholeImport bootstrapVue.package layout names, '\n' ∉ line.toList := by
  have hname : ∀ name ∈ names, '\n' ∉ name.toList := fun name hmem hc =>
    (h name hmem).ne (by decide) _ hc rfl
  unfold wholeImport
  split
  · have hnames : '\n' ∉ [',', ' '].intercalate (names.map String.toList) := by
      intro hmem
      rcases mem_of_mem_intercalate hmem with hmem | ⟨text, htext, hmem⟩
      · exact absurd hmem (by decide)
      · obtain ⟨name, hin, rfl⟩ := List.mem_map.1 htext
        exact hname name hin hmem
    simpa [importLine, bootstrapVue] using hnames
  · simpa [wrappedLines, nameLine, bootstrapVue, or_imp, forall_and] using hname

theorem newline_not_mem_moduleLines
    (h : ∀ name, name ∈ selection.components ∨ name ∈ selection.directives → IsExportName name) :
    ∀ line ∈ moduleLines bootstrapVue selection
      (wholeImport bootstrapVue.package layout selection.imports), '\n' ∉ line.toList := by
  have himport : ∀ line ∈ wholeImport bootstrapVue.package layout selection.imports,
      '\n' ∉ line.toList :=
    newline_not_mem_wholeImport fun name hmem => h name (List.mem_append.1 hmem)
  have hruntime : '\n' ∉ (runtimeLine bootstrapVue).toList := by decide
  have hcomponent : ∀ name ∈ selection.components.names,
      '\n' ∉ (componentLine bootstrapVue name).toList := by
    intro name hmem
    have hname := (h name (.inl hmem)).ne (c := '\n') (by decide)
    simpa [componentLine, bootstrapVue] using fun hc => hname _ hc rfl
  have hdirective : ∀ name ∈ selection.directives.names,
      '\n' ∉ (directiveLine bootstrapVue name).toList := by
    intro name hmem
    have hname := (h name (.inr hmem)).ne (c := '\n') (by decide)
    have hregistered : '\n' ∉ (Naming.registeredName bootstrapVue.marker name).toList :=
      fun hc => (Naming.mem_registeredName hc).elim (by decide) (by decide)
    have hbinding : '\n' ∉ bootstrapVue.binding.toList := by decide
    simpa [directiveLine, hbinding, hregistered] using fun hc => hname _ hc rfl
  intro line hline
  simp only [moduleLines, List.mem_cons, List.mem_append, List.mem_map] at hline
  rcases hline with ((((rfl | hline) | hline) | ⟨name, hmem, rfl⟩) | hline) | ⟨name, hmem, rfl⟩
  · exact hruntime
  · exact himport line hline
  · obtain rfl : line = "" := by simpa using hline
    simp
  · exact hcomponent name hmem
  · obtain rfl : line = "" := by
      split at hline
      · simp at hline
      · simpa using hline
    simp
  · exact hdirective name hmem

def HasExportNames (selection : Selection) : Prop :=
  ∀ name, name ∈ selection.components ∨ name ∈ selection.directives →
    name ≠ "" ∧ IsExportName name

def statements (onOneLine : Bool) (selection : Selection) : List Statement :=
  let components := selection.components.names
  let directives := selection.directives.names
  .runtime :: .names selection.imports onOneLine :: .blank ::
    (components.map .component ++
      ((if components = [] ∨ directives = [] then [] else [.blank]) ++
        directives.map fun name =>
          .directive (Naming.registeredName bootstrapVue.marker name) name))

/-- A reader finds these statements in the module. -/
theorem readModule?_wholeModule (layout : Layout)
    (h : HasExportNames selection) (hne : selection.isEmpty = false) :
    readModule? (wholeModule bootstrapVue layout selection) =
      some (statements (decide ((importLine bootstrapVue.package selection.imports).length ≤
        layout.wrapLimit)) selection) := by
  have hcomponents : ∀ name ∈ selection.components.names,
      statement? (componentLine bootstrapVue name).toList = some (.component name) :=
    fun name hmem => statement?_componentLine (h name (.inl hmem)).2
  have hdirectives : ∀ name ∈ selection.directives.names,
      statement? (directiveLine bootstrapVue name).toList =
        some (.directive (Naming.registeredName bootstrapVue.marker name) name) :=
    fun name hmem => statement?_directiveLine (h name (.inr hmem)).2
  have hruntime : statement? (runtimeLine bootstrapVue).toList = some .runtime := by decide
  have hblank : statement? "".toList = some .blank := by decide
  have hnames : ∀ name ∈ selection.imports, IsExportName name ∧ name ≠ "" := fun name hmem =>
    (h name (List.mem_append.1 hmem)).symm
  have hbetween (lines : List (List Char)) (hlines : lines ≠ []) :
      readLines none ((if selection.components.names.isEmpty || selection.directives.names.isEmpty
          then [] else [""]).map String.toList ++ lines) =
        (readLines none lines).map ((if selection.components.names = [] ∨
          selection.directives.names = [] then [] else [.blank]) ++ ·) := by
    by_cases hboth : selection.components.names = [] ∨ selection.directives.names = []
    · simp [hboth]
    · have hread := readLines_line hblank hlines
      simpa [hboth] using hread
  rw [wholeModule,
    readModule?_unlines (newline_not_mem_moduleLines fun name hmem => (h name hmem).2)]
  simp only [moduleLines, List.map_cons, List.map_append, List.cons_append, List.append_assoc]
  rw [readLines_line hruntime (by simp),
    readLines_wholeImport hnames (imports_ne_nil hne) (by simp)]
  rw [List.map_nil, List.nil_append]
  rw [readLines_line hblank (by simp), readLines_map hcomponents (by simp),
    hbetween _ (by simp), readLines_map hdirectives (by simp)]
  simp [readLines, statements]

def Statement.componentName? : Statement → Option String
  | .component name => some name
  | _ => none

def Statement.directiveName? : Statement → Option String
  | .directive _ name => some name
  | _ => none

theorem filterMap_componentName? (b : Bool) (selection : Selection) :
    (statements b selection).filterMap Statement.componentName? = selection.components.names := by
  simp only [statements]
  split <;> simp [Statement.componentName?, List.filterMap_cons, Function.comp_def]

theorem filterMap_directiveName? (b : Bool) (selection : Selection) :
    (statements b selection).filterMap Statement.directiveName? = selection.directives.names := by
  simp only [statements]
  split <;> simp [Statement.directiveName?, List.filterMap_cons, Function.comp_def]

theorem Selection.eq_of_names_eq {selection' : Selection}
    (hcomponents : selection.components.names = selection'.components.names)
    (hdirectives : selection.directives.names = selection'.directives.names) :
    selection = selection' := by
  obtain ⟨components, directives⟩ := selection
  obtain ⟨components', directives'⟩ := selection'
  obtain rfl : components = components' := NameSet.ext fun name => by
    rw [NameSet.mem_def, NameSet.mem_def, hcomponents]
  obtain rfl : directives = directives' := NameSet.ext fun name => by
    rw [NameSet.mem_def, NameSet.mem_def, hdirectives]
  rfl

theorem statements_inj {b b' : Bool} {selection' : Selection}
    (h : statements b selection = statements b' selection') : selection = selection' := by
  have hcomponents : selection.components.names = selection'.components.names := by
    rw [← filterMap_componentName? b, h, filterMap_componentName?]
  have hdirectives : selection.directives.names = selection'.directives.names := by
    rw [← filterMap_directiveName? b, h, filterMap_directiveName?]
  exact Selection.eq_of_names_eq hcomponents hdirectives

theorem ascending_bytes (set : NameSet) :
    set.names.Pairwise fun a b => utf8 a.toList < utf8 b.toList :=
  set.increasing.imp utf8_lt_utf8

theorem importLine_eq (names : List String) : importLine bootstrapVue.package names =
    "import \x7b " ++ ", ".intercalate names ++ " \x7d from 'bootstrap-vue';" := by
  have hend : " \x7d from '" ++ (bootstrapVue.package ++ "';") = " \x7d from 'bootstrap-vue';" := by
    decide
  rw [importLine, String.append_assoc, String.append_assoc, hend]

theorem isEmpty_iff : selection.isEmpty = true ↔
    selection.components.names = [] ∧ selection.directives.names = [] := by
  simp [Selection.isEmpty, NameSet.isEmpty]

theorem readModule?_of_generate {text : String} (h : HasExportNames selection)
    (htext : generate bootstrapVue layout selection = .ok (some text)) :
    readModule? text = some (statements (decide ((importLine bootstrapVue.package
      selection.imports).length ≤ layout.wrapLimit)) selection) := by
  obtain ⟨hne, -, rfl⟩ := generate_eq_some_iff.1 htext
  exact readModule?_wholeModule layout h hne

theorem eq_of_generate_eq {selection' : Selection} {layout' : Layout} {code : Option String}
    (h : HasExportNames selection) (h' : HasExportNames selection')
    (hcode : generate bootstrapVue layout selection = .ok code)
    (hcode' : generate bootstrapVue layout' selection' = .ok code) : selection = selection' := by
  cases code with
  | none =>
    obtain ⟨hc, hd⟩ := isEmpty_iff.1 (generate_eq_none_iff.1 hcode)
    obtain ⟨hc', hd'⟩ := isEmpty_iff.1 (generate_eq_none_iff.1 hcode')
    exact Selection.eq_of_names_eq (hc.trans hc'.symm) (hd.trans hd'.symm)
  | some text =>
    have hs := readModule?_of_generate h hcode
    have hs' := readModule?_of_generate h' hcode'
    exact statements_inj (Option.some.inj (hs.symm.trans hs'))

/-- A module is generated for every selection that is not empty, unless its text would be larger
than texts can be. A reader of the module recovers the names in order and nothing else, so that
different selections have different modules; the layout decides how the import is written and
nothing more. The import is on one line if that line is not too long. -/
theorem readModule?_generate (h : HasExportNames selection) (layout : Layout) :
    (generate bootstrapVue layout selection = .ok none ↔
        selection.components.names = [] ∧ selection.directives.names = []) ∧
      ((∃ text, generate bootstrapVue layout selection = .ok (some text)) ↔
        ¬ (selection.components.names = [] ∧ selection.directives.names = []) ∧
          (wholeModule bootstrapVue layout selection).utf8ByteSize ≤ maxSize) ∧
      (wholeModule bootstrapVue layout selection).utf8ByteSize =
        (wholeModule bootstrapVue { layout with indentSize := 0 } selection).utf8ByteSize +
          (if (importLine bootstrapVue.package selection.imports).length ≤ layout.wrapLimit then 0
            else layout.indentSize * selection.imports.length) ∧
      (∀ text, generate bootstrapVue layout selection = .ok (some text) →
        readModule? text = some (statements
          (decide (("import \x7b " ++ ", ".intercalate
              (selection.components.names ++ selection.directives.names) ++
            " \x7d from 'bootstrap-vue';").length ≤ layout.wrapLimit)) selection)) ∧
      (selection.components.names.Pairwise fun a b => utf8 a.toList < utf8 b.toList) ∧
      (selection.directives.names.Pairwise fun a b => utf8 a.toList < utf8 b.toList) ∧
      (∃ front rest : String, ∀ layout' text,
        generate bootstrapVue layout' selection = .ok (some text) →
          ∃ statement, importStatement bootstrapVue.package layout'
              (selection.components.names ++ selection.directives.names) = .ok statement ∧
            text = front ++ statement ++ rest) ∧
      ∀ (selection' : Selection) (layout' : Layout) (code : Option String),
        HasExportNames selection' → generate bootstrapVue layout selection = .ok code →
        generate bootstrapVue layout' selection' = .ok code → selection = selection' := by
  refine ⟨generate_eq_none_iff.trans isEmpty_iff, ?_, utf8ByteSize_wholeModule _ _ _, ?_,
    ascending_bytes selection.components, ascending_bytes selection.directives, ?_, ?_⟩
  · simp only [generate_eq_some_iff, ← isEmpty_iff, Bool.not_eq_true]
    constructor
    · rintro ⟨text, hne, hsize, rfl⟩
      exact ⟨hne, hsize⟩
    · rintro ⟨hne, hsize⟩
      exact ⟨_, hne, hsize, rfl⟩
  · intro text htext
    rw [← importLine_eq]
    exact readModule?_of_generate h htext
  · obtain ⟨rest, hrest⟩ := exists_rest_of_generate bootstrapVue selection
    refine ⟨runtimeLine bootstrapVue ++ "\n", "\n" ++ rest, ?_⟩
    intro layout' text htext
    obtain ⟨statement, hstatement, rfl⟩ := hrest layout' text htext
    exact ⟨statement, hstatement, by simp only [String.append_assoc]⟩
  · intro selection' layout' code h' hcode hcode'
    exact eq_of_generate_eq h h' hcode hcode'

theorem readModule?_generate_wrapped :
    HasExportNames ⟨.ofList ["BCard"], .ofList ["VBToggle"]⟩ ∧
      ∃ text, generate bootstrapVue ⟨40, 2⟩ ⟨.ofList ["BCard"], .ofList ["VBToggle"]⟩ =
          .ok (some text) ∧
        readModule? text = some [.runtime, .names ["BCard", "VBToggle"] false, .blank,
          .component "BCard", .blank, .directive "b-toggle" "VBToggle"] := by
  have h : HasExportNames ⟨.ofList ["BCard"], .ofList ["VBToggle"]⟩ := by
    intro name hmem
    simp only [NameSet.mem_ofList, List.mem_singleton] at hmem
    rcases hmem with rfl | rfl
    · exact ⟨by decide, List.all_eq_true.1 rfl⟩
    · exact ⟨by decide, List.all_eq_true.1 rfl⟩
  obtain ⟨-, hsome, -, hread, -⟩ := readModule?_generate h ⟨40, 2⟩
  obtain ⟨text, htext⟩ := hsome.2 (by decide +kernel)
  refine ⟨h, text, htext, (hread text htext).trans ?_⟩
  decide +kernel

/-- There is no module of one name behind twice as many blanks as there may be. -/
theorem generate_eq_error_of_indent :
    HasExportNames ⟨.ofList ["BCard"], .empty⟩ ∧
      (Selection.mk (.ofList ["BCard"]) .empty).components.names ≠ [] ∧
      generate bootstrapVue ⟨0, 0xffffffffffffffff⟩ ⟨.ofList ["BCard"], .empty⟩ =
        .error .tooLarge := by
  refine ⟨?_, by decide, ?_⟩
  · intro name hmem
    obtain rfl : name = "BCard" := by simpa using hmem
    exact ⟨by decide, List.all_eq_true.1 rfl⟩
  · decide +kernel

end Registrar.Registration
