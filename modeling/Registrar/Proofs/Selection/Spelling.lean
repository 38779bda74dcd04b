import Registrar.Proofs.Generation.Merging
import Registrar.Proofs.Naming.Spelling

/-! # Selecting an entry by any spelling

The spellings of a name all select the same entry of a catalog, and no other name selects it. The
entry is selected by its own name in capitals, too, unless two words have run together in it.
-/

namespace Registrar.Selection

open Naming

variable {catalog : Catalog} {marker : Char} {raw name : String}

def ofComponent (catalog : Catalog) (marker : Char) (raw : String) : Selection :=
  ofUsage (.ofTemplates [⟨[raw], []⟩]) catalog marker

theorem mem_ofComponent : name ∈ (ofComponent catalog marker raw).components ↔
    name ∈ catalog.components ∧ componentName raw = name := by
  have hreports := reports_ofUsage (MarkupUsage.collects_ofTemplates [⟨[raw], []⟩]) catalog marker
  rw [ofComponent, hreports.mem_components]
  simp

theorem ofComponent_congr {raw' : String} (h : componentName raw = componentName raw') :
    (ofComponent catalog marker raw).components = (ofComponent catalog marker raw').components :=
  NameSet.ext fun name => by rw [mem_ofComponent, mem_ofComponent, h]

theorem componentName_inj {raw' : String} :
    componentName raw = componentName raw' ↔ SameWords raw.toList raw'.toList := by
  rw [componentName, componentName, String.ofList_inj, pascalCase_eq_iff]

/-- The form in capitals and the hyphenated form tell apart the same texts, those with different
words, and each of the two forms of a text can be had from its hyphenated form. So the hyphenated
form of a name selects what the name itself selects, and the names that select an entry all have the
same words. -/
theorem selects_iff_sameWords (x y : String) :
    (pascalCase x.toList = pascalCase y.toList ↔ paramCase x.toList = paramCase y.toList) ∧
    (paramCase x.toList = paramCase y.toList ↔ SameWords x.toList y.toList) ∧
    pascalCase (paramCase x.toList) = pascalCase x.toList ∧
    paramCase (paramCase x.toList) = paramCase x.toList ∧
    ∀ catalog marker,
      (ofComponent catalog marker (String.ofList (paramCase x.toList))).components =
        (ofComponent catalog marker x).components ∧
      ∀ name ∈ (ofComponent catalog marker x).components,
        name ∈ (ofComponent catalog marker y).components ↔ SameWords x.toList y.toList := by
  have hself : SameWords (paramCase x.toList) x.toList := sameWords_paramCase _
  refine ⟨pascalCase_eq_iff.trans paramCase_eq_iff.symm, paramCase_eq_iff,
    pascalCase_eq_iff.2 hself, paramCase_eq_iff.2 hself, fun catalog marker => ⟨?_, ?_⟩⟩
  · refine ofComponent_congr (componentName_inj.2 ?_)
    rwa [String.toList_ofList]
  · intro name hname
    obtain ⟨hentry, rfl⟩ := mem_ofComponent.1 hname
    rw [mem_ofComponent, ← componentName_inj]
    exact ⟨fun h => h.2.symm, fun h => ⟨hentry, h.symm⟩⟩

theorem selects_iff_sameWords_acronym :
    "XmlHttp_2" ∈ (ofComponent (.ofLists ["XmlHttp_2"] []) 'V' "XMLHttp-2").components ∧
      "XmlHttp_2" ∈ (ofComponent (.ofLists ["XmlHttp_2"] []) 'V' "éxml.HTTP…2").components := by
  have hentry : "XmlHttp_2" ∈
      (ofComponent (.ofLists ["XmlHttp_2"] []) 'V' "XMLHttp-2").components :=
    mem_ofComponent.2 ⟨by simp [Catalog.ofLists], by decide⟩
  have hwords : SameWords "XMLHttp-2".toList "éxml.HTTP…2".toList := by decide
  obtain ⟨-, -, -, -, hselects⟩ := selects_iff_sameWords "XMLHttp-2" "éxml.HTTP…2"
  exact ⟨hentry, ((hselects _ _).2 _ hentry).2 hwords⟩

/-- A name in capitals is its own form in capitals exactly if no two words of the name that it was
made of run together. So an entry that a name selects is selected by itself with this exception
only. -/
theorem selects_itself_iff (raw : String) :
    (pascalCase (pascalCase raw.toList) = pascalCase raw.toList ↔
      (words raw.toList).IsChain fun v w => ¬ RunTogether v w) ∧
    ∀ catalog marker,
      componentName raw ∈ (ofComponent catalog marker (componentName raw)).components ↔
        componentName raw ∈ (ofComponent catalog marker raw).components ∧
          (words raw.toList).IsChain fun v w => ¬ RunTogether v w := by
  have hself : SameWords (pascalCase raw.toList) raw.toList ↔
      (words raw.toList).IsChain fun v w => ¬ RunTogether v w := sameWords_pascalCase_iff
  refine ⟨pascalCase_eq_iff.trans hself, fun catalog marker => ?_⟩
  rw [mem_ofComponent, mem_ofComponent, componentName_inj, componentName, String.toList_ofList,
    hself]
  simp

/-- The words of `x-y` run together. -/
example : componentName (componentName "x-y") ≠ componentName "x-y" := by decide

end Registrar.Selection
