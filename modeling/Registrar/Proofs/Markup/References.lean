import Registrar.Markup.Usage
import Registrar.Proofs.Text.Mark

/-! # What a template refers to

The references of a template are those of its elements in document order, as far as no verbatim
attribute stands on an element or around it. A visitor that goes through the template once and keeps
the names that it has not met before finds the same.
-/

namespace Registrar.Markup

open Registrar.Text

variable {start : StartTag} {name : String} {usage : TemplateUsage}

/-! ## Elements in document order -/

/-- An element and the elements around it, innermost first, by their start tags. -/
structure Placed where
  start : StartTag
  around : List StartTag

mutual

def Node.placed (around : List StartTag) : Node → List Placed
  | .element start _ children => ⟨start, around⟩ :: placedNodes (start :: around) children
  | .text _ => []
  | .comment _ => []
  | .interpolation _ => []

/-- The elements of some nodes, outer before inner and earlier before later. -/
def placedNodes (around : List StartTag) : List Node → List Placed
  | [] => []
  | node :: nodes => node.placed around ++ placedNodes around nodes

end

def Placed.IsVisible (e : Placed) : Prop :=
  ∀ start ∈ e.start :: e.around, ∀ a ∈ start.attributes, a.name ≠ verbatimAttribute

instance : DecidablePred Placed.IsVisible := fun e =>
  inferInstanceAs (Decidable (∀ start ∈ e.start :: e.around, _))

theorem has_eq_false_iff : start.has name = false ↔ ∀ a ∈ start.attributes, a.name ≠ name := by
  simp [StartTag.has, StartTag.attribute?]

theorem isVisible_iff (e : Placed) :
    e.IsVisible ↔ ∀ start ∈ e.start :: e.around, start.has verbatimAttribute = false := by
  simp only [Placed.IsVisible, has_eq_false_iff]

mutual

theorem not_isVisible_of_mem_placed {around : List StartTag} (hstart : start ∈ around)
    (hv : start.has verbatimAttribute = true) :
    ∀ node : Node, ∀ e ∈ node.placed around, ¬ e.IsVisible
  | .element inner _ children => by
    intro e he hvisible
    rcases List.mem_cons.1 he with rfl | he
    · rw [(isVisible_iff _).1 hvisible start (List.mem_cons_of_mem _ hstart)] at hv
      cases hv
    · exact not_isVisible_of_mem_placedNodes (List.mem_cons_of_mem inner hstart) hv children e he
        hvisible
  | .text _ | .comment _ | .interpolation _ => by simp [Node.placed]

theorem not_isVisible_of_mem_placedNodes {around : List StartTag} (hstart : start ∈ around)
    (hv : start.has verbatimAttribute = true) :
    ∀ nodes : List Node, ∀ e ∈ placedNodes around nodes, ¬ e.IsVisible
  | [] => by simp [placedNodes]
  | node :: nodes => by
    intro e he
    rcases List.mem_append.1 he with he | he
    · exact not_isVisible_of_mem_placed hstart hv node e he
    · exact not_isVisible_of_mem_placedNodes hstart hv nodes e he

end

theorem filter_isVisible_eq_nil {around : List StartTag} (hstart : start ∈ around)
    (hv : start.has verbatimAttribute = true) (nodes : List Node) :
    (placedNodes around nodes).filter (·.IsVisible) = [] := by
  rw [List.filter_eq_nil_iff]
  intro e he
  simpa using not_isVisible_of_mem_placedNodes hstart hv nodes e he

mutual

theorem compiled_eq {around : List StartTag}
    (h : ∀ start ∈ around, start.has verbatimAttribute = false) :
    ∀ node : Node, node.compiled =
      ((node.placed around).filter (·.IsVisible)).map Placed.start
  | .element start _ children => by
    rw [Node.compiled, Node.placed]
    cases hv : start.has verbatimAttribute with
    | true =>
      have hself : ¬ (⟨start, around⟩ : Placed).IsVisible := fun hvisible => by
        rw [(isVisible_iff _).1 hvisible start List.mem_cons_self] at hv
        cases hv
      rw [List.filter_cons_of_neg (by simpa using hself),
        filter_isVisible_eq_nil List.mem_cons_self hv]
      rfl
    | false =>
      have hall : ∀ s ∈ start :: around, s.has verbatimAttribute = false :=
        List.forall_mem_cons.2 ⟨hv, h⟩
      rw [List.filter_cons_of_pos (by simpa using (isVisible_iff ⟨start, around⟩).2 hall),
        List.map_cons, ← compiledNodes_eq hall children]
      rfl
  | .text _ | .comment _ | .interpolation _ => rfl

/-- The compiled elements are the visible ones. -/
theorem compiledNodes_eq {around : List StartTag}
    (h : ∀ start ∈ around, start.has verbatimAttribute = false) :
    ∀ nodes : List Node, compiledNodes nodes =
      ((placedNodes around nodes).filter (·.IsVisible)).map Placed.start
  | [] => rfl
  | node :: nodes => by
    rw [compiledNodes, placedNodes, List.filter_append, List.map_append, compiled_eq h node,
      compiledNodes_eq h nodes]

end

def visibleBelow (root : StartTag) (nodes : List Node) : List StartTag :=
  ((placedNodes [root] nodes).filter (·.IsVisible)).map Placed.start

theorem visibleBelow_eq (root : StartTag) (nodes : List Node) :
    visibleBelow root nodes =
      if root.has verbatimAttribute then [] else compiledNodes nodes := by
  cases hv : root.has verbatimAttribute with
  | true => simp [visibleBelow, filter_isVisible_eq_nil List.mem_cons_self hv]
  | false =>
    have hroot : ∀ start ∈ [root], start.has verbatimAttribute = false := by simpa using hv
    simp [visibleBelow, compiledNodes_eq hroot]

/-! ## Components -/

/-- The first `is` attribute has this name behind the mark of the runtime. -/
def StartTag.Calls (start : StartTag) (name : String) : Prop :=
  name ≠ "" ∧ ∃ before after, start.attributes =
    before ++ ⟨"is", some ("vue:" ++ name)⟩ :: after ∧ ∀ a ∈ before, a.name ≠ "is"

/-- The element is one for which the runtime looks up a component, under this name. -/
inductive StartTag.Names (start : StartTag) : String → Prop
  | called {name : String} : start.tag ∉ placeholderTags → start.tag ∉ builtinComponents →
      start.Calls name → start.Names name
  | own : start.tag ∉ placeholderTags → start.tag ∉ builtinComponents →
      (∀ name, ¬ start.Calls name) →
      (∃ c ∈ start.tag.toList.head?, c.isUpper = true) ∨
        start.tag ∉ htmlTags ∧ start.tag ∉ svgTags ∧ start.tag ∉ mathmlTags →
      start.Names start.tag

theorem attribute?_eq_some_iff {a : Attribute} :
    start.attribute? name = some a ↔ a.name = name ∧
      ∃ before after, start.attributes = before ++ a :: after ∧ ∀ b ∈ before, b.name ≠ name := by
  simp [StartTag.attribute?, List.find?_eq_some_iff_append]

theorem vueIs?_eq_some_iff : start.vueIs? = some name ↔ start.Calls name := by
  constructor
  · intro h
    obtain ⟨a, ha, h⟩ := Option.bind_eq_some_iff.1 h
    obtain ⟨value, hvalue, h⟩ := Option.bind_eq_some_iff.1 h
    obtain ⟨hname, before, after, heq, hbefore⟩ := attribute?_eq_some_iff.1 ha
    split at h
    · next c cs htext =>
      obtain rfl : String.ofList (c :: cs) = name := Option.some.inj h
      obtain rfl : value = "vue:" ++ String.ofList (c :: cs) := by
        rw [← String.toList_inj, htext]
        simp
      obtain ⟨aname, avalue⟩ := a
      obtain rfl : aname = "is" := hname
      obtain rfl : avalue = some _ := hvalue
      exact ⟨by simp [← String.toList_inj], before, after, heq, hbefore⟩
    · cases h
  · rintro ⟨hne, before, after, heq, hbefore⟩
    have ha : start.attribute? "is" = some ⟨"is", some ("vue:" ++ name)⟩ :=
      attribute?_eq_some_iff.2 ⟨rfl, before, after, heq, hbefore⟩
    obtain ⟨c, cs, hcs⟩ : ∃ c cs, name.toList = c :: cs :=
      List.exists_cons_of_ne_nil (by simpa using hne)
    have htext : ("vue:" ++ name).toList = 'v' :: 'u' :: 'e' :: ':' :: c :: cs := by simp [hcs]
    simp only [StartTag.vueIs?, ha, bind, Option.bind_some, htext]
    rw [← hcs, String.ofList_toList]

theorem namesComponent_iff {tag : String} : namesComponent tag = true ↔
    (∃ c ∈ tag.toList.head?, c.isUpper = true) ∨
      tag ∉ htmlTags ∧ tag ∉ svgTags ∧ tag ∉ mathmlTags := by
  simp [namesComponent, isNative, Option.any_eq_true, and_assoc]

/-- An element has at most one component, the one that it names. -/
theorem component?_eq_some_iff : start.component? = some name ↔ start.Names name := by
  unfold StartTag.component?
  split
  · next hout =>
    have hout : start.tag ∈ placeholderTags ∨ start.tag ∈ builtinComponents := by
      simpa [isBuiltinComponent] using hout
    constructor
    · intro h
      cases h
    · intro h
      cases h with
      | called hp hb | own hp hb => exact (hout.elim hp hb).elim
  · next hin =>
    obtain ⟨hp, hb⟩ : start.tag ∉ placeholderTags ∧ start.tag ∉ builtinComponents := by
      simpa [isBuiltinComponent] using hin
    cases his : start.vueIs? with
    | some called =>
      constructor
      · rintro ⟨⟩
        exact .called hp hb (vueIs?_eq_some_iff.1 his)
      · intro h
        cases h with
        | called _ _ h => rw [← his, vueIs?_eq_some_iff.2 h]
        | own _ _ h => exact (h called (vueIs?_eq_some_iff.1 his)).elim
    | none =>
      have hnone : ∀ name, ¬ start.Calls name := by
        intro name h
        rw [vueIs?_eq_some_iff.2 h] at his
        cases his
      constructor
      · intro h
        cases hn : namesComponent start.tag with
        | false =>
          rw [hn] at h
          cases h
        | true =>
          rw [hn] at h
          cases h
          exact .own hp hb hnone (namesComponent_iff.1 hn)
      · intro h
        cases h with
        | called _ _ h => exact (hnone name h).elim
        | own _ _ _ h => simp [namesComponent_iff.2 h]

/-! ## Directives -/

/-- The attribute is written for this directive, with or without an argument and modifiers. -/
def IsWrittenFor (written directive : String) : Prop :=
  directive ≠ "" ∧ (∀ c ∈ directive.toList, c ≠ ':' ∧ c ≠ '.') ∧
    ∃ rest : List Char, written.toList = "v-".toList ++ (directive.toList ++ rest) ∧
      ∀ c ∈ rest.head?, c = ':' ∨ c = '.'

theorem directiveOf?_eq_some_iff {written directive : String} :
    directiveOf? written = some directive ↔ IsWrittenFor written directive := by
  constructor
  · intro h
    unfold directiveOf? at h
    split at h
    · next cs htext =>
      split at h
      · cases h
      · next hne =>
        obtain rfl := Option.some.inj h
        refine ⟨fun hempty => hne (by simpa [← String.toList_inj] using hempty), ?_,
          cs.dropWhile fun c => c ≠ ':' && c ≠ '.', ?_, ?_⟩
        · intro c hc
          rw [String.toList_ofList] at hc
          simpa using List.mem_takeWhile_imp hc
        · simp only [htext, String.toList_ofList, List.takeWhile_append_dropWhile]
          rfl
        · intro c hc
          have hstop := stopsAt_dropWhile _ _ c hc
          simpa [or_iff_not_imp_left] using hstop
    · cases h
  · rintro ⟨hne, hd, rest, htext, hrest⟩
    have hcut : (directive.toList ++ rest).takeWhile (fun c => c ≠ ':' && c ≠ '.') =
        directive.toList := by
      refine takeWhile_append_of_stopsAt (fun c hc => by simpa using hd c hc) ?_
      intro c hc
      rcases hrest c hc with rfl | rfl <;> rfl
    have htext' : written.toList = 'v' :: '-' :: (directive.toList ++ rest) := htext
    simp only [directiveOf?, htext']
    split
    · next hnil =>
      rw [hcut] at hnil
      exact absurd hnil (by simpa using hne)
    · rw [hcut, String.ofList_toList]

def StartTag.IsFragment (start : StartTag) : Prop :=
  ∃ a ∈ start.attributes, '#' ∈ a.name.toList.head? ∨
    ∃ directive ∈ structuralDirectives, IsWrittenFor a.name directive

theorem isFragmentAttribute_iff : isFragmentAttribute name = true ↔
    '#' ∈ name.toList.head? ∨ ∃ directive ∈ structuralDirectives, IsWrittenFor name directive := by
  simp only [isFragmentAttribute, isStructuralDirective, Bool.or_eq_true, decide_eq_true_eq,
    Option.any_eq_true, List.contains_iff_mem, ← directiveOf?_eq_some_iff, Option.mem_def]
  exact or_congr_right ⟨fun ⟨d, hd, hs⟩ => ⟨d, hs, hd⟩, fun ⟨d, hs, hd⟩ => ⟨d, hd, hs⟩⟩

theorem bearsDirectives_iff : start.bearsDirectives = true ↔
    ¬ (start.tag = "slot" ∨ start.tag = templateTag ∧ start.IsFragment) := by
  have hfragment : start.attributes.any (isFragmentAttribute ·.name) = true ↔
      start.IsFragment := by
    simp only [List.any_eq_true, isFragmentAttribute_iff, StartTag.IsFragment]
  unfold StartTag.bearsDirectives
  split
  · next hslot => simp [hslot]
  · next hslot =>
    split
    · next htag =>
      rw [Bool.not_eq_true', ← Bool.not_eq_true, hfragment]
      exact not_congr ⟨fun hf => .inr ⟨htag, hf⟩, fun h => (h.resolve_left hslot).2⟩
    · next htag => simp [hslot, htag]

def Attribute.custom? (a : Attribute) : Option String :=
  (directiveOf? a.name).filter (!isBuiltinDirective ·)

theorem custom?_eq_some_iff {a : Attribute} {directive : String} : a.custom? = some directive ↔
    IsWrittenFor a.name directive ∧ directive ∉ builtinDirectives := by
  simp [Attribute.custom?, Option.filter_eq_some_iff, directiveOf?_eq_some_iff, isBuiltinDirective]

theorem directives_of_skipped
    (h : start.tag = "slot" ∨ start.tag = templateTag ∧ start.IsFragment) :
    start.directives = [] :=
  if_neg fun hb => bearsDirectives_iff.1 hb h

theorem directives_of_not_skipped
    (h : ¬ (start.tag = "slot" ∨ start.tag = templateTag ∧ start.IsFragment)) :
    start.directives = start.attributes.filterMap Attribute.custom? :=
  if_pos (bearsDirectives_iff.2 h)

/-! ## A visitor -/

def addName (names : List String) (name : String) : List String :=
  if name ∈ names then names else names ++ [name]

theorem foldl_addName (names found : List String) :
    names.foldl addName found = found ++ (names.removeAll found).eraseDups := by
  induction names generalizing found with
  | nil => simp [List.removeAll]
  | cons name names ih =>
    rw [List.foldl_cons, ih, addName]
    by_cases h : name ∈ found
    · simp [h, List.removeAll]
    · have hrest : names.removeAll (found ++ [name]) =
          (names.removeAll found).filter fun n => !n == name := by
        simp only [List.removeAll, List.filter_filter]
        refine List.filter_congr fun n _ => ?_
        rw [Bool.and_comm, ← Bool.not_or]
        simp [Bool.or_comm, Bool.beq_eq_decide_eq]
      have hname : (name :: names).removeAll found = name :: names.removeAll found := by
        simp [List.removeAll, h]
      rw [if_neg h, hrest, hname, List.eraseDups_cons, List.append_assoc, List.singleton_append]

/-- A name is kept where it is met first. -/
theorem foldl_addName_nil (names : List String) : names.foldl addName [] = names.eraseDups := by
  simp [foldl_addName, List.removeAll]

theorem nodup_addName {names : List String} (h : names.Nodup) : (addName names name).Nodup := by
  unfold addName
  split
  · exact h
  · next hmem =>
    rw [List.nodup_append]
    refine ⟨h, by simp, ?_⟩
    rintro a ha b hb rfl
    exact hmem (List.mem_singleton.1 hb ▸ ha)

theorem nodup_eraseDups (names : List String) : names.eraseDups.Nodup := by
  rw [← foldl_addName_nil]
  have hfold (names found : List String) (h : found.Nodup) :
      (names.foldl addName found).Nodup := by
    induction names generalizing found with
    | nil => exact h
    | cons name names ih => exact ih _ (nodup_addName h)
  exact hfold names [] .nil

def TemplateUsage.visit (usage : TemplateUsage) (start : StartTag) : TemplateUsage :=
  ⟨start.component?.toList.foldl addName usage.components,
    start.directives.foldl addName usage.directives⟩

mutual

def Node.visit (usage : TemplateUsage) : Node → TemplateUsage
  | .element start _ children =>
    if start.has verbatimAttribute then usage else visitNodes (usage.visit start) children
  | .text _ => usage
  | .comment _ => usage
  | .interpolation _ => usage

def visitNodes (usage : TemplateUsage) : List Node → TemplateUsage
  | [] => usage
  | node :: nodes => visitNodes (node.visit usage) nodes

end

mutual

theorem visit_eq : ∀ (node : Node) (usage : TemplateUsage),
    node.visit usage = node.compiled.foldl TemplateUsage.visit usage
  | .element start _ children, usage => by
    rw [Node.visit, Node.compiled]
    split
    · rfl
    · rw [visitNodes_eq children, List.foldl_cons]
  | .text _, _ | .comment _, _ | .interpolation _, _ => rfl

theorem visitNodes_eq : ∀ (nodes : List Node) (usage : TemplateUsage),
    visitNodes usage nodes = (compiledNodes nodes).foldl TemplateUsage.visit usage
  | [], _ => rfl
  | node :: nodes, usage => by
    rw [visitNodes, visitNodes_eq nodes, visit_eq node, compiledNodes, List.foldl_append]

end

theorem foldl_visit (starts : List StartTag) (usage : TemplateUsage) :
    starts.foldl TemplateUsage.visit usage =
      ⟨(starts.filterMap StartTag.component?).foldl addName usage.components,
        (starts.flatMap StartTag.directives).foldl addName usage.directives⟩ := by
  induction starts generalizing usage with
  | nil => rfl
  | cons start starts ih =>
    rw [List.foldl_cons, ih, List.flatMap_cons, List.foldl_append, List.filterMap_cons]
    cases hc : start.component? <;> simp [TemplateUsage.visit, hc]

theorem visitNodes_empty (nodes : List Node) :
    visitNodes .empty nodes = .ofStartTags (compiledNodes nodes) := by
  rw [visitNodes_eq, foldl_visit]
  simp [TemplateUsage.ofStartTags, TemplateUsage.empty, foldl_addName_nil]

/-! ## Documents -/

def Node.IsTemplate : Node → Prop
  | .element start _ _ => start.tag = templateTag
  | .text _ => False
  | .comment _ => False
  | .interpolation _ => False

theorem template?_of_first {before after : List Node} {root : StartTag} {offset : Nat}
    {children : List Node} (hbefore : ∀ node ∈ before, ¬ node.IsTemplate)
    (hroot : root.tag = templateTag) :
    Document.template? ⟨before ++ .element root offset children :: after⟩ =
      some (root, offset, children) := by
  induction before with
  | nil => simp [Document.template?, hroot]
  | cons node before ih =>
    obtain ⟨hnode, hbefore⟩ := List.forall_mem_cons.1 hbefore
    have hrest := ih hbefore
    cases node with
    | element start _ _ =>
      have htag : start.tag ≠ templateTag := hnode
      simpa [Document.template?, htag] using hrest
    | text _ | comment _ | interpolation _ => simpa [Document.template?] using hrest

theorem template?_eq_none {document : Document} (h : ∀ node ∈ document.nodes, ¬ node.IsTemplate) :
    document.template? = none := by
  rw [Document.template?, List.findSome?_eq_none_iff]
  intro node hnode
  cases node with
  | element start _ _ => exact if_neg (h _ hnode)
  | text _ | comment _ | interpolation _ => rfl

theorem ofDocument_of_first {before after : List Node} {root : StartTag} {offset : Nat}
    {children : List Node} (hbefore : ∀ node ∈ before, ¬ node.IsTemplate)
    (hroot : root.tag = templateTag) :
    TemplateUsage.ofDocument ⟨before ++ .element root offset children :: after⟩ =
      .ofStartTags (visibleBelow root children) := by
  rw [TemplateUsage.ofDocument, template?_of_first hbefore hroot, visibleBelow_eq]
  cases hv : root.has verbatimAttribute with
  | true => simp [hv, TemplateUsage.ofStartTags, TemplateUsage.empty]
  | false => simp [hv]

theorem exists_first_template (nodes : List Node) : (∀ node ∈ nodes, ¬ node.IsTemplate) ∨
    ∃ before root offset children after, nodes = before ++ .element root offset children :: after ∧
      root.tag = templateTag ∧ ∀ node ∈ before, ¬ node.IsTemplate := by
  induction nodes with
  | nil => exact .inl (by simp)
  | cons node nodes ih =>
    by_cases hnode : node.IsTemplate
    · cases node with
      | element root offset children =>
        exact .inr ⟨[], root, offset, children, nodes, rfl, hnode, by simp⟩
      | text _ | comment _ | interpolation _ => exact hnode.elim
    · rcases ih with ih | ⟨before, root, offset, children, after, rfl, hroot, hbefore⟩
      · exact .inl (List.forall_mem_cons.2 ⟨hnode, ih⟩)
      · exact .inr ⟨node :: before, root, offset, children, after, rfl, hroot,
          List.forall_mem_cons.2 ⟨hnode, hbefore⟩⟩

theorem nodup_ofDocument (document : Document) :
    (TemplateUsage.ofDocument document).components.Nodup ∧
      (TemplateUsage.ofDocument document).directives.Nodup := by
  rcases exists_first_template document.nodes with
    hnone | ⟨before, root, offset, children, after, hnodes, hroot, hbefore⟩
  · rw [TemplateUsage.ofDocument, template?_eq_none hnone]
    exact ⟨.nil, .nil⟩
  · obtain ⟨nodes⟩ := document
    obtain rfl : nodes = _ := hnodes
    rw [ofDocument_of_first hbefore hroot]
    exact ⟨nodup_eraseDups _, nodup_eraseDups _⟩

/-- A source uses what the visible elements of its first template name, each name once and in the
order in which it is met; without a template it uses nothing. A visitor of the template finds the
same, and of the template block itself only a verbatim attribute matters. -/
theorem read_references {source : String} {document : Document}
    (h : Document.read source = .ok document) :
    ∃ usage, TemplateUsage.read source = .ok usage ∧
      usage.components.Nodup ∧ usage.directives.Nodup ∧
      ((∀ node ∈ document.nodes, ¬ node.IsTemplate) ∧ usage = ⟨[], []⟩ ∨
        ∃ before root offset children after,
          document.nodes = before ++ .element root offset children :: after ∧
          root.tag = "template" ∧ (∀ node ∈ before, ¬ node.IsTemplate) ∧
          usage.components =
            ((visibleBelow root children).filterMap StartTag.component?).eraseDups ∧
          usage.directives =
            ((visibleBelow root children).flatMap StartTag.directives).eraseDups ∧
          (usage = if root.has "v-pre" then ⟨[], []⟩ else visitNodes ⟨[], []⟩ children) ∧
          ∀ root', root'.tag = root.tag → root'.has "v-pre" = root.has "v-pre" →
            TemplateUsage.ofDocument ⟨before ++ .element root' offset children :: after⟩ =
              usage) ∧
      (∀ start name, StartTag.component? start = some name ↔ start.Names name) ∧
      (∀ start : StartTag, start.tag = "slot" ∨ start.tag = "template" ∧ start.IsFragment →
        start.directives = []) ∧
      (∀ start : StartTag, ¬ (start.tag = "slot" ∨ start.tag = "template" ∧ start.IsFragment) →
        start.directives = start.attributes.filterMap Attribute.custom?) ∧
      ∀ a directive, Attribute.custom? a = some directive ↔
        IsWrittenFor a.name directive ∧ directive ∉ builtinDirectives := by
  obtain ⟨hcomponents, hdirectives⟩ := nodup_ofDocument document
  refine ⟨.ofDocument document, by rw [TemplateUsage.read, h]; rfl, hcomponents, hdirectives, ?_,
    fun _ _ => component?_eq_some_iff, fun _ => directives_of_skipped,
    fun _ => directives_of_not_skipped, fun _ _ => custom?_eq_some_iff⟩
  rcases exists_first_template document.nodes with
    hnone | ⟨before, root, offset, children, after, hnodes, hroot, hbefore⟩
  · refine .inl ⟨hnone, ?_⟩
    rw [TemplateUsage.ofDocument, template?_eq_none hnone]
    rfl
  · refine .inr ⟨before, root, offset, children, after, hnodes, hroot, hbefore, ?_⟩
    obtain ⟨nodes⟩ := document
    obtain rfl : nodes = _ := hnodes
    have hdocument : TemplateUsage.ofDocument ⟨before ++ .element root offset children :: after⟩ =
        .ofStartTags (visibleBelow root children) := ofDocument_of_first hbefore hroot
    refine ⟨?_, ?_, ?_, ?_⟩
    · rw [hdocument]
      rfl
    · rw [hdocument]
      rfl
    · rw [TemplateUsage.ofDocument, template?_of_first hbefore hroot]
      exact if_congr Iff.rfl rfl (visitNodes_empty children).symm
    · intro root' htag hhas
      have hhas' : root'.has verbatimAttribute = root.has verbatimAttribute := hhas
      rw [hdocument, ofDocument_of_first hbefore (htag.trans hroot), visibleBelow_eq,
        visibleBelow_eq, hhas']

def referenceSample : String :=
  "<template v-t><b-x is=\"vue:b-y\" v-z:a.b/><p v-z v-pre><b-w/></p>" ++
    "<slot v-q/><b-y v-if/></template>"

theorem read_references_sample : ∃ document, Document.read referenceSample = .ok document ∧
    ∃ before root offset children after,
      document.nodes = before ++ .element root offset children :: after ∧
      root.tag = "template" ∧
      ["b-y"] = ((visibleBelow root children).filterMap StartTag.component?).eraseDups ∧
      ["z"] = ((visibleBelow root children).flatMap StartTag.directives).eraseDups := by
  have hread : (TemplateUsage.read referenceSample).toOption = some ⟨["b-y"], ["z"]⟩ := by
    decide +kernel
  have hdocument : ∃ document, Document.read referenceSample = .ok document := by
    rw [TemplateUsage.read] at hread
    cases h : Document.read referenceSample with
    | error fault =>
      rw [h] at hread
      cases hread
    | ok document => exact ⟨document, rfl⟩
  obtain ⟨document, h⟩ := hdocument
  obtain ⟨usage, husage, -, -, hnone | hfirst, -⟩ := read_references h
  · rw [husage, hnone.2] at hread
    cases hread
  · obtain ⟨before, root, offset, children, after, hnodes, hroot, -, hc, hd, -⟩ := hfirst
    obtain rfl : usage = ⟨["b-y"], ["z"]⟩ := by
      rw [husage] at hread
      exact Option.some.inj hread
    exact ⟨document, h, before, root, offset, children, after, hnodes, hroot, hc, hd⟩

end Registrar.Markup
