import Registrar.Markup.Usage
import Registrar.Proofs.Markup.Frames

/-! # The outline of a document

The outline keeps the elements and the names of their attributes. Of the values it keeps only those
that may name a component, and of text, comments and interpolations nothing. What a document uses
is in its outline, and readers whose open elements have the same outline go on alike.
-/

namespace Registrar.Markup

open Registrar.Text

variable {p q next : Progress} {o o' : Nat} {text : List Char}

def Attribute.outline (a : Attribute) : Attribute :=
  if a.name = "is" then a else ⟨a.name, none⟩

def StartTag.outline (start : StartTag) : StartTag :=
  ⟨start.tag, start.attributes.map Attribute.outline⟩

mutual

def Node.outline : Node → List Node
  | .element start _ children => [.element start.outline 0 (outlines children)]
  | .text _ => []
  | .comment _ => []
  | .interpolation _ => []

def outlines : List Node → List Node
  | [] => []
  | node :: nodes => node.outline ++ outlines nodes

end

def Document.outline (document : Document) : Document := ⟨outlines document.nodes⟩

@[simp] theorem outlines_append (ns ms : List Node) :
    outlines (ns ++ ms) = outlines ns ++ outlines ms := by
  induction ns with
  | nil => rfl
  | cons n ns ih => simp [outlines, ih]

/-! ## What a document uses -/

@[simp] theorem Attribute.name_outline (a : Attribute) : a.outline.name = a.name := by
  unfold Attribute.outline
  split <;> rfl

theorem Attribute.outline_eq {name : String} (h : name ≠ "is") (value : Option String) :
    Attribute.outline ⟨name, value⟩ = ⟨name, none⟩ := if_neg h

namespace StartTag

variable (start : StartTag)

@[simp] theorem tag_outline : start.outline.tag = start.tag := rfl

variable {start} in
theorem tag_eq_of_outline_eq {start' : StartTag} (h : start.outline = start'.outline) :
    start.tag = start'.tag := by
  rw [← tag_outline, h, tag_outline]

theorem attribute?_outline (name : String) :
    start.outline.attribute? name = (start.attribute? name).map Attribute.outline := by
  have htest : (fun a : Attribute => decide (a.name = name)) ∘ Attribute.outline =
      fun a => decide (a.name = name) := by
    funext a
    rw [Function.comp_apply, Attribute.name_outline]
  rw [attribute?, outline, List.find?_map, htest, attribute?]

@[simp] theorem has_outline (name : String) : start.outline.has name = start.has name := by
  simp [has, attribute?_outline]

theorem vueIs?_outline : start.outline.vueIs? = start.vueIs? := by
  have hattribute : start.outline.attribute? "is" = start.attribute? "is" := by
    rw [attribute?_outline]
    cases ha : start.attribute? "is" with
    | none => rfl
    | some a =>
      have hname : a.name = "is" := by simpa using List.find?_some ha
      simp [Attribute.outline, hname]
  rw [vueIs?, hattribute, vueIs?]

@[simp] theorem component?_outline : start.outline.component? = start.component? := by
  rw [component?, vueIs?_outline, tag_outline, component?]

@[simp] theorem directives_outline : start.outline.directives = start.directives := by
  have hbears : start.outline.bearsDirectives = start.bearsDirectives := by
    simp [bearsDirectives, outline, List.any_map, Function.comp_def]
  rw [directives, hbears, directives]
  simp [outline, List.filterMap_map]

end StartTag

mutual

theorem compiledNodes_outline : ∀ node : Node,
    compiledNodes node.outline = node.compiled.map StartTag.outline
  | .element start _ children => by
    simp only [Node.outline, compiledNodes, Node.compiled, List.append_nil, StartTag.has_outline]
    split
    · rfl
    · rw [compiledNodes_outlines children, List.map_cons]
  | .text _ => rfl
  | .comment _ => rfl
  | .interpolation _ => rfl

theorem compiledNodes_outlines : ∀ nodes : List Node,
    compiledNodes (outlines nodes) = (compiledNodes nodes).map StartTag.outline
  | [] => rfl
  | node :: nodes => by
    have happend (ns ms : List Node) :
        compiledNodes (ns ++ ms) = compiledNodes ns ++ compiledNodes ms := by
      induction ns with
      | nil => rfl
      | cons n ns ih => simp [compiledNodes, ih]
    rw [outlines, happend, compiledNodes_outline node, compiledNodes_outlines nodes, compiledNodes,
      List.map_append]

end

theorem ofStartTags_outline (starts : List StartTag) :
    TemplateUsage.ofStartTags (starts.map StartTag.outline) = .ofStartTags starts := by
  simp [TemplateUsage.ofStartTags, List.filterMap_map, List.flatMap_map]

theorem template?_outline (document : Document) : document.outline.template? =
    document.template?.map fun t => (t.1.outline, 0, outlines t.2.2) := by
  obtain ⟨nodes⟩ := document
  induction nodes with
  | nil => rfl
  | cons node nodes ih =>
    simp only [Document.outline, Document.template?, outlines] at ih ⊢
    cases node with
    | element start offset children =>
      by_cases htag : start.tag = templateTag
      · simp [Node.outline, htag]
      · simpa [Node.outline, htag] using ih
    | text _ | comment _ | interpolation _ => simpa [Node.outline] using ih

theorem ofDocument_outline (document : Document) :
    TemplateUsage.ofDocument document.outline = .ofDocument document := by
  rw [TemplateUsage.ofDocument, template?_outline, TemplateUsage.ofDocument]
  cases document.template? with
  | none => rfl
  | some t =>
    simp only [Option.map_some, StartTag.has_outline]
    split
    · rfl
    · rw [compiledNodes_outlines, ofStartTags_outline]

/-! ## Readers with the same outline -/

def Frame.outline (f : Frame) : Frame :=
  ⟨f.start.outline, 0, f.content, outlines f.before.reverse⟩

theorem Frame.eq_of_outline_eq {f f' : Frame} (h : f.outline = f'.outline) :
    f.content = f'.content ∧ f.start.tag = f'.start.tag := by
  obtain ⟨hstart, -, hcontent, -⟩ := Frame.mk.inj h
  exact ⟨hcontent, StartTag.tag_eq_of_outline_eq hstart⟩

/-- The outline of the open elements and of the finished nodes, earliest first. -/
def Progress.outline (p : Progress) : Progress :=
  ⟨p.frames.map Frame.outline, outlines p.nodes.reverse⟩

namespace Progress

theorem outline_eq_iff : p.outline = q.outline ↔
    p.frames.map Frame.outline = q.frames.map Frame.outline ∧
      outlines p.nodes.reverse = outlines q.nodes.reverse := by
  simp [outline]

theorem contentOf_congr (h : p.outline = q.outline) {start start' : StartTag}
    (hstart : start.outline = start'.outline) : p.contentOf start = q.contentOf start' := by
  have htag : start.tag = start'.tag := StartTag.tag_eq_of_outline_eq hstart
  have hhas : start.has verbatimAttribute = start'.has verbatimAttribute := by
    rw [← StartTag.has_outline, hstart, StartTag.has_outline]
  obtain ⟨frames, nodes⟩ := p
  obtain ⟨frames', nodes'⟩ := q
  obtain ⟨hframes, -⟩ := outline_eq_iff.1 h
  match frames, frames', hframes with
  | [], [], _ => simp only [contentOf, htag, hhas]
  | f :: _, f' :: _, hframes =>
    obtain ⟨hcontent, -⟩ := Frame.eq_of_outline_eq (List.cons.inj hframes).1
    simp only [contentOf, htag, hhas, hcontent]

theorem outline_push {node node' : Node} (h : p.outline = q.outline)
    (hnode : node.outline = node'.outline) : (p.push node).outline = (q.push node').outline := by
  obtain ⟨hframes, hnodes⟩ := outline_eq_iff.1 h
  exact outline_eq_iff.2 ⟨hframes, by simp [push, hnodes, outlines, hnode]⟩

theorem outline_openElement {start start' : StartTag} (h : p.outline = q.outline)
    (hstart : start.outline = start'.outline) :
    (p.openElement start o).outline = (q.openElement start' o').outline := by
  have hcontent := contentOf_congr h hstart
  obtain ⟨hframes, hnodes⟩ := outline_eq_iff.1 h
  simp [outline, openElement, Frame.outline, hframes, hnodes, hcontent, hstart]

theorem outline_close {f f' : Frame} {outer outer' : List Frame} {nodes nodes' : List Node}
    (h : (⟨f :: outer, nodes⟩ : Progress).outline = (⟨f' :: outer', nodes'⟩ : Progress).outline) :
    (close f outer nodes).outline = (close f' outer' nodes').outline := by
  obtain ⟨hframes, hnodes⟩ := outline_eq_iff.1 h
  obtain ⟨hf, houter⟩ := List.cons.inj hframes
  obtain ⟨hstart, -, -, hbefore⟩ := Frame.mk.inj hf
  simp [outline, close, houter, hbefore, outlines, Node.outline, hstart, hnodes]

theorem exists_apply_startTag (p : Progress) (o : Nat) (start : StartTag) (b : Bool) :
    ∃ next, p.apply o (.startTag start b) = .ok next := by
  simp only [apply]
  split <;> exact ⟨_, rfl⟩

theorem apply_startTag {start start' : StartTag} {b : Bool} (h : p.outline = q.outline)
    (hstart : start.outline = start'.outline) (ha : p.apply o (.startTag start b) = .ok next) :
    ∃ next', q.apply o' (.startTag start' b) = .ok next' ∧ next.outline = next'.outline := by
  have htag : start.tag = start'.tag := StartTag.tag_eq_of_outline_eq hstart
  simp only [apply] at ha ⊢
  rw [← htag]
  split at ha
  · next hclosed =>
    cases ha
    rw [if_pos hclosed]
    exact ⟨_, rfl, outline_push h (by simp [Node.outline, hstart, outlines])⟩
  · next hopen =>
    cases ha
    rw [if_neg hopen]
    exact ⟨_, rfl, outline_openElement h hstart⟩

theorem apply_congr {item : Item} (h : p.outline = q.outline) (ha : p.apply o item = .ok next) :
    ∃ next', q.apply o' item = .ok next' ∧ next.outline = next'.outline := by
  cases item with
  | text _ | comment _ | interpolation _ =>
    cases ha
    exact ⟨_, rfl, outline_push h rfl⟩
  | declaration =>
    cases ha
    exact ⟨_, rfl, h⟩
  | startTag start b => exact apply_startTag h rfl ha
  | endTag name =>
    obtain ⟨frames, nodes⟩ := p
    obtain ⟨frames', nodes'⟩ := q
    obtain ⟨hframes, -⟩ := outline_eq_iff.1 h
    match frames, frames', hframes with
    | [], _, _ => cases ha
    | f :: outer, f' :: outer', hframes =>
      obtain ⟨hcontent, htag⟩ := Frame.eq_of_outline_eq (List.cons.inj hframes).1
      simp only [apply, hcontent, htag] at ha ⊢
      split at ha
      · next hname =>
        cases ha
        rw [if_pos hname]
        exact ⟨_, rfl, outline_close h⟩
      · cases ha

theorem read_congr {r : Reading Item} (h : p.outline = q.outline) (hr : p.read o text = .ok r) :
    q.read o' text = .ok r := by
  have hitem {b : Bool} (hb : (readItem b text).mapError (fun c => (⟨c, o⟩ : Fault)) = .ok r) :
      (readItem b text).mapError (fun c => (⟨c, o'⟩ : Fault)) = .ok r := by
    cases hread : readItem b text with
    | error cause => rw [hread] at hb; cases hb
    | ok r' => rw [hread] at hb; exact hb
  obtain ⟨frames, nodes⟩ := p
  obtain ⟨frames', nodes'⟩ := q
  obtain ⟨hframes, -⟩ := outline_eq_iff.1 h
  match frames, frames', hframes with
  | [], [], _ => exact hitem hr
  | f :: _, f' :: _, hframes =>
    obtain ⟨hcontent, htag⟩ := Frame.eq_of_outline_eq (List.cons.inj hframes).1
    simp only [read, hcontent, htag] at hr ⊢
    split at hr
    · next hraw =>
      rw [if_pos hraw]
      cases hcut : cut? (endsElement f'.start.tag.toList) text with
      | none => rw [hcut] at hr; cases hr
      | some cut =>
        rw [hcut] at hr
        obtain ⟨_ | ⟨c, cs⟩, rest⟩ := cut
        · exact hitem hr
        · exact hr
    · next hraw =>
      rw [if_neg hraw]
      exact hitem hr

/-- Readers with the same outline read the rest of a source to the same outline. -/
theorem run_congr {nodes : List Node} (h : p.outline = q.outline)
    (hrun : p.run o text = .ok nodes) :
    ∃ nodes', q.run o' text = .ok nodes' ∧ outlines nodes = outlines nodes' := by
  fun_induction Progress.run p o text generalizing q o' with
  | case1 p o hframes =>
    cases hrun
    obtain ⟨hmap, hnodes⟩ := outline_eq_iff.1 h
    have hframes' : q.frames = [] := by simpa [hframes, eq_comm] using hmap
    refine ⟨q.nodes.reverse, ?_, hnodes⟩
    rw [run, dif_pos rfl, hframes']
  | case2 => cases hrun
  | case3 => cases hrun
  | case4 => cases hrun
  | case5 p o text hne r hr next ha ih =>
    obtain ⟨next', ha', hnext⟩ : ∃ next', q.apply o' r.value = .ok next' ∧
        next.outline = next'.outline := apply_congr h ha
    obtain ⟨nodes', hrun', hnodes⟩ := ih hnext hrun
    exact ⟨nodes', (run_of_read hne (read_congr h hr) ha').trans hrun', hnodes⟩

end Progress

end Registrar.Markup
