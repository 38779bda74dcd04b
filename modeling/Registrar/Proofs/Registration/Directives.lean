import Mathlib.Data.List.Nodup
import Registrar.Proofs.Generation.Merging
import Registrar.Proofs.Naming.Capitals
import Registrar.Proofs.Naming.Spelling
import Registrar.Proofs.Registration.RoundTrip

/-! # Directives are registered under the names in the templates

The name in a template goes through the name of an export and back. What comes back is its
hyphenated form, as long as no two of its words run together in capitals.
-/

namespace Registrar.Registration

open Markup (TemplateUsage)
open Naming

variable {name : String} {names : List String} {layout : Layout} {selection : Selection}

/-- What the lines of a module register as directives: under which name, and which export. -/
def registrations (code : Option String) : List (String × String) :=
  (code.toList.flatMap fun text => text.toList.splitOn '\n').filterMap directive?

/-! ## The other lines of a module -/

theorem directive?_eq_none {line : List Char} {c : Char} (hc : c ∈ "Vue.directive('".toList)
    (hline : c ∉ line) : directive? line = none := by
  have hstart : behind? "Vue.directive('".toList line = none := by
    rw [Option.eq_none_iff_forall_ne_some]
    intro text htext
    rw [eq_append_of_behind? htext] at hline
    exact hline (List.mem_append_left _ hc)
  rw [directive?, hstart]
  rfl

theorem directive?_nameLine (h : IsExportName name) (n : Nat) :
    directive? (nameLine (Text.blanks n) name).toList = none := by
  have hdot : '.' ∉ name.toList := fun hmem => h.ne (by decide) _ hmem rfl
  exact directive?_eq_none (c := '.') (by decide) (by simpa [nameLine] using hdot)

theorem directive?_componentLine (name : String) :
    directive? (componentLine bootstrapVue name).toList = none := by
  obtain ⟨x, hx⟩ : ∃ x, (componentLine bootstrapVue name).toList =
      'V' :: 'u' :: 'e' :: '.' :: 'c' :: x := by
    simp [componentLine, bootstrapVue]
  rw [hx]
  rfl

theorem directive?_wholeImport (h : ∀ name ∈ names, IsExportName name) :
    ∀ line ∈ wholeImport bootstrapVue.package layout names, directive? line.toList = none := by
  unfold wholeImport
  split
  · obtain ⟨x, hx⟩ : ∃ x, (importLine bootstrapVue.package names).toList = 'i' :: x := by
      simp [importLine]
    have hnone : directive? ('i' :: x) = none := rfl
    simpa [hx] using hnone
  · have hopen : directive? "import \x7b".toList = none := rfl
    have hclose : directive? ("\x7d from '" ++ bootstrapVue.package ++ "';").toList = none := rfl
    intro line hline
    rw [wrappedLines, List.mem_append, List.mem_cons, List.mem_map, List.mem_singleton] at hline
    rcases hline with (rfl | ⟨name, hmem, rfl⟩) | rfl
    · exact hopen
    · exact directive?_nameLine (h name hmem) _
    · exact hclose

/-! ## Modules -/

/-- The directives of a selection are registered in order, each once. -/
theorem registrations_generate {code : Option String}
    (h : ∀ name, name ∈ selection.components ∨ name ∈ selection.directives → IsExportName name)
    (hcode : generate bootstrapVue layout selection = .ok code) :
    registrations code = selection.directives.names.map fun name =>
      (registeredName bootstrapVue.marker name, name) := by
  cases code with
  | none =>
    obtain ⟨-, hnames⟩ := isEmpty_iff.1 (generate_eq_none_iff.1 hcode)
    simp [registrations, hnames]
  | some text =>
    obtain ⟨-, -, rfl⟩ := generate_eq_some_iff.1 hcode
    have hruntime : directive? (runtimeLine bootstrapVue).toList = none := rfl
    have hblank : directive? "".toList = none := rfl
    have himport : ((wholeImport bootstrapVue.package layout selection.imports).map
        String.toList).filterMap directive? = [] := by
      have hnone : ∀ line ∈ wholeImport bootstrapVue.package layout selection.imports,
          directive? line.toList = none :=
        directive?_wholeImport fun name hmem => h name (List.mem_append.1 hmem)
      simpa [List.filterMap_map, Function.comp_def] using hnone
    have hcomponents : ((selection.components.names.map (componentLine bootstrapVue)).map
        String.toList).filterMap directive? = [] := by
      simp [List.filterMap_map, Function.comp_def, directive?_componentLine]
    have hbetween : ((if selection.components.names.isEmpty || selection.directives.names.isEmpty
        then [] else [""]).map String.toList).filterMap directive? = [] := by
      split
      · rfl
      · rfl
    have hdirectives : ((selection.directives.names.map (directiveLine bootstrapVue)).map
        String.toList).filterMap directive? =
        selection.directives.names.map fun name =>
          (registeredName bootstrapVue.marker name, name) := by
      rw [List.map_map, List.filterMap_map, ← List.filterMap_eq_map]
      exact List.filterMap_congr fun name hmem => directive?_directiveLine (h name (.inr hmem))
    have hlast : directive? [] = none := rfl
    simp only [registrations, Option.toList_some, List.flatMap_singleton, wholeModule,
      splitOn_unlines (newline_not_mem_moduleLines h)]
    simp only [moduleLines, List.map_append, List.map_cons, List.map_nil, List.filterMap_append,
      List.filterMap_cons, List.filterMap_nil, hruntime, himport, hblank, hcomponents, hbetween,
      hdirectives, hlast, List.nil_append, List.append_nil, List.cons_append]

theorem isExportName_of_mem_ofUsage {usage : MarkupUsage} {catalog : Catalog}
    (hmem : name ∈ (Selection.ofUsage usage catalog bootstrapVue.marker).components ∨
      name ∈ (Selection.ofUsage usage catalog bootstrapVue.marker).directives) :
    IsExportName name := by
  rw [Selection.mem_components_ofUsage, Selection.mem_directives_ofUsage] at hmem
  intro c hc
  rw [isExportChar_iff]
  rcases hmem with ⟨-, raw, -, rfl⟩ | ⟨-, raw, -, rfl⟩
  · rw [componentName, String.toList_ofList] at hc
    exact mem_pascalCase hc
  · rw [directiveName, String.toList_ofList] at hc
    rcases List.mem_cons.1 hc with rfl | hc
    · exact .inl (by decide)
    · exact mem_pascalCase hc

def selectionFor (templates : List TemplateUsage) (catalog : Catalog) : Selection :=
  .ofUsage (.ofTemplates templates) catalog bootstrapVue.marker

def registrationsFor (templates : List TemplateUsage) (catalog : Catalog) (layout : Layout) :
    Except Text.Overflow (List (String × String)) :=
  (generate bootstrapVue layout (selectionFor templates catalog)).map registrations

theorem exists_registrationsFor_eq_ok_iff (templates : List TemplateUsage) (catalog : Catalog)
    (layout : Layout) : (∃ found, registrationsFor templates catalog layout = .ok found) ↔
      (selectionFor templates catalog).isEmpty = true ∨
        (wholeModule bootstrapVue layout (selectionFor templates catalog)).utf8ByteSize ≤
          Text.maxSize := by
  rw [← exists_generate_eq_ok_iff]
  simp only [registrationsFor, map_eq_ok_iff]
  constructor
  · rintro ⟨_, code, hcode, -⟩
    exact ⟨code, hcode⟩
  · rintro ⟨code, hcode⟩
    exact ⟨_, code, hcode, rfl⟩

/-- Unless it would be larger than texts can be, a module registers the directives that templates
use and the library has, each once and under the hyphenated form of every name that a template has
for it. -/
theorem registrationsFor_spec (templates : List TemplateUsage) (catalog : Catalog)
    (layout : Layout)
    (h : ∀ template ∈ templates, ∀ raw ∈ template.directives,
      (words raw.toList).IsChain fun v w => ¬ RunTogether v w) :
    ((∃ found, registrationsFor templates catalog layout = .ok found) ↔
      (selectionFor templates catalog).isEmpty = true ∨
        (wholeModule bootstrapVue layout (selectionFor templates catalog)).utf8ByteSize ≤
          Text.maxSize) ∧
    ∀ found, registrationsFor templates catalog layout = .ok found →
      (found.map Prod.snd).Nodup ∧
      (found.map Prod.fst).Nodup ∧
      (∀ name, name ∈ found.map Prod.snd ↔
        name ∈ catalog.directives ∧ ∃ template ∈ templates, ∃ raw ∈ template.directives,
          directiveName bootstrapVue.marker raw = name) ∧
      ∀ registered name, (registered, name) ∈ found →
        ∀ template ∈ templates, ∀ raw ∈ template.directives,
          directiveName bootstrapVue.marker raw = name →
            registered = String.ofList (paramCase raw.toList) ∧
              (IsHyphenated raw.toList → registered = raw) := by
  have hreports := Selection.reports_ofUsage (MarkupUsage.collects_ofTemplates templates) catalog
    bootstrapVue.marker
  refine ⟨exists_registrationsFor_eq_ok_iff templates catalog layout, ?_⟩
  intro found hfound
  obtain ⟨code, hcode, rfl⟩ := map_eq_ok_iff.1 hfound
  rw [registrations_generate (fun name => isExportName_of_mem_ofUsage) hcode]
  generalize Selection.ofUsage (.ofTemplates templates) catalog bootstrapVue.marker = selection
    at hreports ⊢
  have hregistered : ∀ template ∈ templates, ∀ raw ∈ template.directives,
      registeredName bootstrapVue.marker (directiveName bootstrapVue.marker raw) =
        String.ofList (paramCase raw.toList) := fun template ht raw hraw =>
    registeredName_directiveName (by decide) (h template ht raw hraw)
  have hnodup : selection.directives.names.Nodup :=
    selection.directives.increasing.imp String.ne_of_lt
  have hnames : (selection.directives.names.map fun name =>
      (registeredName bootstrapVue.marker name, name)).map Prod.snd =
        selection.directives.names := by
    simp [Function.comp_def]
  rw [hnames]
  refine ⟨hnodup, ?_, hreports.mem_directives, ?_⟩
  · rw [List.map_map]
    refine List.Nodup.map_on (fun name hmem name' hmem' heq => ?_) hnodup
    obtain ⟨-, template, ht, raw, hraw, rfl⟩ := (hreports.mem_directives name).1 hmem
    obtain ⟨-, template', ht', raw', hraw', rfl⟩ := (hreports.mem_directives name').1 hmem'
    simp only [Function.comp_apply, hregistered template ht raw hraw,
      hregistered template' ht' raw' hraw', String.ofList_inj] at heq
    exact directiveName_eq_of_paramCase_eq heq
  · rintro registered name hmem template ht raw hraw rfl
    obtain ⟨name, -, heq⟩ := List.mem_map.1 hmem
    obtain ⟨rfl, rfl⟩ := Prod.mk.inj heq
    refine ⟨hregistered template ht raw hraw, fun hhyphen => ?_⟩
    rw [hregistered template ht raw hraw, paramCase_of_isHyphenated hhyphen, String.ofList_toList]

theorem registrationsFor_toggle :
    (∀ template ∈ [(⟨["b-card"], ["b-toggle", "x"]⟩ : TemplateUsage), ⟨[], ["bToggle"]⟩],
      ∀ raw ∈ template.directives, (words raw.toList).IsChain fun v w => ¬ RunTogether v w) ∧
    ∃ found, registrationsFor [⟨["b-card"], ["b-toggle", "x"]⟩, ⟨[], ["bToggle"]⟩]
        ⟨.ofList ["BCard"], .ofList ["VBToggle", "VX"]⟩ .standard = .ok found ∧
      ("b-toggle", "VBToggle") ∈ found := by
  have h : ∀ template ∈ [(⟨["b-card"], ["b-toggle", "x"]⟩ : TemplateUsage), ⟨[], ["bToggle"]⟩],
      ∀ raw ∈ template.directives, (words raw.toList).IsChain fun v w => ¬ RunTogether v w := by
    decide
  have htoggle : directiveName bootstrapVue.marker "b-toggle" = "VBToggle" := by decide
  obtain ⟨hsome, hspec⟩ := registrationsFor_spec
    [⟨["b-card"], ["b-toggle", "x"]⟩, ⟨[], ["bToggle"]⟩]
    ⟨.ofList ["BCard"], .ofList ["VBToggle", "VX"]⟩ .standard h
  obtain ⟨found, hfound⟩ := hsome.2 (by decide +kernel)
  obtain ⟨-, -, hmem, hregistered⟩ := hspec found hfound
  obtain ⟨⟨registered, name⟩, hin, rfl⟩ := List.mem_map.1 <|
    (hmem "VBToggle").2 ⟨by simp, _, List.mem_cons_self, "b-toggle", by simp, htoggle⟩
  obtain ⟨-, hraw⟩ := hregistered registered "VBToggle" hin _ List.mem_cons_self "b-toggle"
    List.mem_cons_self htoggle
  have hwords : ∀ w ∈ ["b".toList, "toggle".toList],
      w ≠ [] ∧ ∀ c ∈ w, isLowerOrDigit c = true := by
    simp only [List.forall_mem_cons, List.not_mem_nil, false_implies, implies_true, and_true]
    exact ⟨⟨by decide, List.all_eq_true.1 rfl⟩, by decide, List.all_eq_true.1 rfl⟩
  have hhyphen : IsHyphenated "b-toggle".toList := ⟨_, hwords, by decide⟩
  obtain rfl : registered = "b-toggle" := hraw hhyphen
  exact ⟨h, found, hfound, hin⟩

/-- With too many blanks in front of its name a directive is not registered, though a template uses
it and the library has it. -/
theorem registrationsFor_eq_error_of_indent :
    (words "toggle".toList).IsChain (fun v w => ¬ RunTogether v w) ∧
    directiveName bootstrapVue.marker "toggle" = "VToggle" ∧
    registrationsFor [⟨[], ["toggle"]⟩] ⟨.empty, .ofList ["VToggle"]⟩ ⟨0, 0xffffffffffffffff⟩ =
      .error .tooLarge := by
  refine ⟨by decide, by decide, ?_⟩
  decide +kernel

end Registrar.Registration
