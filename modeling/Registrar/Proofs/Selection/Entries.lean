import Registrar.Proofs.Generation.Merging
import Registrar.Proofs.Markup.References
import Registrar.Proofs.Markup.Soundness
import Registrar.Proofs.Naming.Capitals

/-! # What can be selected

Whatever a library declares, an entry is selected only if it is a name in capitals. The name of an
element begins with a letter, so that the entry it selects begins with a capital.
-/

namespace Registrar

/-! ## The names of elements -/

namespace Markup

variable {p : Place} {o : Nat} {b : Bool} {nodes : List Node} {text : List Char}

theorem placedNodes_rawChildren (around : List StartTag) (text : List Char) :
    placedNodes around (rawChildren text) = [] := by
  unfold rawChildren
  split <;> rfl

theorem forall_placedNodes_element {start : StartTag} {around : List StartTag} {offset : Nat}
    {children : List Node} {P : Placed → Prop} :
    (∀ e ∈ placedNodes around (.element start offset children :: nodes), P e) ↔
      P ⟨start, around⟩ ∧ (∀ e ∈ placedNodes (start :: around) children, P e) ∧
        ∀ e ∈ placedNodes around nodes, P e := by
  rw [placedNodes, Node.placed, List.cons_append, List.forall_mem_cons, List.forall_mem_append]

def StartTag.IsWritten (start : StartTag) : Prop :=
  ∃ selfClosed s, SpellsStartTag start selfClosed s

theorem SpellsItem.isWritten {i selfClosed : Bool} {start : StartTag} {s : List Char}
    (h : SpellsItem i (.startTag start selfClosed) s) : start.IsWritten :=
  ⟨selfClosed, s, h.startTag_inv⟩

theorem StartTag.IsWritten.isAlpha_head? {start : StartTag} (h : start.IsWritten) :
    ∃ c ∈ start.tag.toList.head?, c.isAlpha = true := by
  obtain ⟨_, _, h⟩ := h
  cases h with
  | mk hc _ _ _ => exact ⟨_, by simp, hc⟩

theorem Spells.isWritten (h : Spells p o b nodes text) (around : List StartTag) :
    ∀ e ∈ placedNodes around nodes, e.start.IsWritten := by
  induction h generalizing around with
  | nil => simp [placedNodes]
  | text _ _ ih | comment _ _ ih | interpolation _ _ ih => exact ih around
  | declaration _ _ ih => exact ih around
  | closed hs _ _ ih =>
    exact forall_placedNodes_element.2 ⟨hs.isWritten, by simp [placedNodes], ih around⟩
  | raw hs _ _ _ _ _ ih =>
    exact forall_placedNodes_element.2
      ⟨hs.isWritten, by simp [placedNodes_rawChildren], ih around⟩
  | element hs _ _ _ _ _ _ ih ih' =>
    exact forall_placedNodes_element.2 ⟨hs.isWritten, ih _, ih' around⟩

theorem isWritten_of_read {source : String} {document : Document}
    (h : Document.read source = .ok document) {e : Placed}
    (he : e ∈ placedNodes [] document.nodes) :
    e.start.IsWritten := by
  obtain ⟨nodes, hrun, rfl⟩ := map_eq_ok_iff.1 h
  have hst : Steady Progress.empty false source.toList := steady_top [] _
  obtain ⟨nodes, hs, rfl⟩ := completes_of_run hst hrun
  exact hs.isWritten [] e he

end Markup

namespace Selection

open Markup Naming

/-- The names in capitals are just the names that components have in a library. Every selected
component is one of them, and every selected directive is one behind the marker, whatever stands in
the catalog. The component of an element begins with a capital. -/
theorem selected_names :
    (∀ name : String, (∃ raw, componentName raw = name) ↔ IsCapitalName name.toList) ∧
    ∀ (usage : MarkupUsage) (catalog : Catalog) (marker : Char),
      (∀ name ∈ (ofUsage usage catalog marker).components,
        IsCapitalName name.toList ∧ ∀ c ∈ name.toList, c.isAlphanum = true ∨ c = '_') ∧
      (∀ name ∈ (ofUsage usage catalog marker).directives, ∃ text, name.toList = marker :: text ∧
        IsCapitalName text ∧ ∀ c ∈ text, c.isAlphanum = true ∨ c = '_') ∧
      ∀ name ∈ (ofUsage usage catalog marker).components, ∀ source document,
        Document.read source = .ok document → ∀ e ∈ placedNodes [] document.nodes,
          componentName e.start.tag = name → ∃ c ∈ name.toList.head?, c.isUpper = true := by
  refine ⟨fun name => ?_, fun usage catalog marker => ⟨fun name hname => ?_, fun name hname => ?_,
    fun name _ source document h e he hraw => ?_⟩⟩
  · rw [← exists_pascalCase_eq_iff]
    constructor
    · rintro ⟨raw, rfl⟩
      exact ⟨raw.toList, by simp [componentName]⟩
    · rintro ⟨raw, hraw⟩
      exact ⟨String.ofList raw, by simp [componentName, hraw]⟩
  · obtain ⟨-, raw, -, rfl⟩ := mem_components_ofUsage.1 hname
    rw [componentName, String.toList_ofList]
    exact ⟨isCapitalName_pascalCase _, fun c => mem_pascalCase⟩
  · obtain ⟨-, raw, -, rfl⟩ := mem_directives_ofUsage.1 hname
    rw [directiveName, String.toList_ofList]
    exact ⟨_, rfl, isCapitalName_pascalCase _, fun c => mem_pascalCase⟩
  · rw [← hraw, componentName, String.toList_ofList]
    exact isUpper_head?_pascalCase (isWritten_of_read h he).isAlpha_head?

theorem selected_names_digit :
    Document.read "<b-card-2/>" = .ok ⟨[.element ⟨"b-card-2", []⟩ 0 []]⟩ ∧
      "BCard_2" ∈ (ofUsage (.ofTemplates [⟨["b-card-2"], []⟩])
        (.ofLists ["BCard_2", "');\n"] []) 'V').components ∧
      ∃ c ∈ "BCard_2".toList.head?, c.isUpper = true := by
  have hitem : (⟨[], []⟩ : Progress).read 0 "<b-card-2/>".toList =
      .ok ⟨.startTag ⟨"b-card-2", []⟩ true, "<b-card-2/>".toList, []⟩ := by
    simp [Progress.read, readItem, readStartTag, readAttributes, isTagChar, Text.isBlank,
      Except.map, Except.mapError]
  have h : Document.read "<b-card-2/>" = .ok ⟨[.element ⟨"b-card-2", []⟩ 0 []]⟩ := by
    have hrun : Progress.empty.run 0 "<b-card-2/>".toList =
        .ok [.element ⟨"b-card-2", []⟩ 0 []] := by
      rw [Progress.empty, Progress.run_of_read (by decide) hitem rfl]
      exact Progress.run_nil
    rw [Document.read, hrun]
    rfl
  have hmem : "BCard_2" ∈ (ofUsage (.ofTemplates [⟨["b-card-2"], []⟩])
      (.ofLists ["BCard_2", "');\n"] []) 'V').components :=
    mem_components_ofUsage.2 ⟨by simp [Catalog.ofLists], "b-card-2", by
      simp [MarkupUsage.ofTemplates, MarkupUsage.merge], by decide⟩
  obtain ⟨-, hselected⟩ := selected_names
  obtain ⟨-, -, hcapital⟩ := hselected _ _ _
  exact ⟨h, hmem, hcapital _ hmem _ _ h ⟨⟨"b-card-2", []⟩, []⟩ (by simp [placedNodes, Node.placed])
    (by decide)⟩

end Selection

end Registrar
