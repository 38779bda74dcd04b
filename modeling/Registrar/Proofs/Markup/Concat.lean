import Registrar.Proofs.Markup.Outline
import Registrar.Proofs.Markup.Points

/-! # One source behind another

An accepted source leaves no element open. Markup that is put behind it is read as it is read alone,
apart from the offsets, so that the blocks of the top level do not depend on each other.
-/

namespace Registrar.Markup

open Registrar.Text

/-! ## More bytes in front -/

mutual

def Node.shift (n : Nat) : Node → Node
  | .element start offset children => .element start (offset + n) (shiftNodes n children)
  | .text content => .text content
  | .comment content => .comment content
  | .interpolation content => .interpolation content

def shiftNodes (n : Nat) : List Node → List Node
  | [] => []
  | node :: nodes => node.shift n :: shiftNodes n nodes

end

theorem shiftNodes_eq_map (n : Nat) (nodes : List Node) :
    shiftNodes n nodes = nodes.map (Node.shift n) := by
  induction nodes with
  | nil => rfl
  | cons node nodes ih => rw [shiftNodes, ih, List.map_cons]

theorem shiftNodes_reverse (n : Nat) (nodes : List Node) :
    shiftNodes n nodes.reverse = (shiftNodes n nodes).reverse := by
  rw [shiftNodes_eq_map, shiftNodes_eq_map, List.map_reverse]

mutual

theorem Node.outline_shift (n : Nat) : ∀ node : Node, (node.shift n).outline = node.outline
  | .element start offset children => by
    rw [Node.shift, Node.outline, Node.outline, outlines_shiftNodes n children]
  | .text _ => rfl
  | .comment _ => rfl
  | .interpolation _ => rfl

theorem outlines_shiftNodes (n : Nat) : ∀ nodes : List Node,
    outlines (shiftNodes n nodes) = outlines nodes
  | [] => rfl
  | node :: nodes => by
    rw [shiftNodes, outlines, outlines, Node.outline_shift n node, outlines_shiftNodes n nodes]

end

def Fault.shift (n : Nat) (fault : Fault) : Fault := ⟨fault.cause, fault.offset + n⟩

/-- The finished nodes of the innermost element, or at the top level those behind `base`. -/
def behind (base : List Node) (frames : List Frame) (nodes : List Node) : List Node :=
  match frames with
  | [] => nodes ++ base
  | _ :: _ => nodes

def shiftFrames (n : Nat) (base : List Node) : List Frame → List Frame
  | [] => []
  | f :: outer =>
    ⟨f.start, f.offset + n, f.content, behind base outer (shiftNodes n f.before)⟩ ::
      shiftFrames n base outer

def Progress.shift (n : Nat) (base : List Node) (p : Progress) : Progress :=
  ⟨shiftFrames n base p.frames, behind base p.frames (shiftNodes n p.nodes)⟩

namespace Progress

theorem contentOf_shift (n : Nat) (base : List Node) (p : Progress) (start : StartTag) :
    (p.shift n base).contentOf start = p.contentOf start := by
  obtain ⟨frames, nodes⟩ := p
  cases frames <;> rfl

theorem push_shift (n : Nat) (base : List Node) (p : Progress) (node : Node) :
    (p.shift n base).push (node.shift n) = (p.push node).shift n base := by
  obtain ⟨frames, nodes⟩ := p
  cases frames <;> rfl

theorem openElement_shift (n : Nat) (base : List Node) (p : Progress) (start : StartTag)
    (o : Nat) : (p.shift n base).openElement start (o + n) =
      (p.openElement start o).shift n base := by
  rw [openElement, contentOf_shift]
  rfl

theorem close_shift (n : Nat) (base : List Node) (f : Frame) (outer : List Frame)
    (nodes : List Node) :
    close ⟨f.start, f.offset + n, f.content, behind base outer (shiftNodes n f.before)⟩
      (shiftFrames n base outer) (shiftNodes n nodes) = (close f outer nodes).shift n base := by
  rw [close, close, ← shiftNodes_reverse]
  cases outer <;> rfl

theorem read_shift (n : Nat) (base : List Node) (p : Progress) (o : Nat) (text : List Char) :
    (p.shift n base).read (o + n) text = (p.read o text).mapError (Fault.shift n) := by
  have hitem (i : Bool) : (readItem i text).mapError (⟨·, o + n⟩) =
      ((readItem i text).mapError (⟨·, o⟩)).mapError (Fault.shift n) := by
    cases readItem i text <;> rfl
  obtain ⟨frames, nodes⟩ := p
  cases frames with
  | nil => exact hitem false
  | cons f outer =>
    simp only [read, shift, shiftFrames]
    split
    · split
      · rfl
      · exact hitem false
      · rfl
    · exact hitem _

theorem apply_shift (n : Nat) (base : List Node) (p : Progress) (o : Nat) (item : Item) :
    (p.shift n base).apply (o + n) item =
      ((p.apply o item).map (shift n base)).mapError (Fault.shift n) := by
  cases item with
  | text content => exact congrArg Except.ok (push_shift n base p (.text content))
  | comment content => exact congrArg Except.ok (push_shift n base p (.comment content))
  | interpolation content =>
    exact congrArg Except.ok (push_shift n base p (.interpolation content))
  | declaration => rfl
  | startTag start selfClosed =>
    simp only [apply]
    split
    · exact congrArg Except.ok (push_shift n base p (.element start o []))
    · exact congrArg Except.ok (openElement_shift n base p start o)
  | endTag name =>
    obtain ⟨frames, nodes⟩ := p
    cases frames with
    | nil => rfl
    | cons f outer =>
      simp only [apply, shift, shiftFrames]
      split
      · exact congrArg Except.ok (close_shift n base f outer nodes)
      · rfl

/-- A run with more bytes in front gives the same nodes, moved and behind those from in front, or
the same fault, moved. -/
theorem run_shift (n : Nat) (base : List Node) (p : Progress) (o : Nat) (text : List Char) :
    (p.shift n base).run (o + n) text = match p.run o text with
      | .ok nodes => .ok (base.reverse ++ shiftNodes n nodes)
      | .error fault => .error (fault.shift n) := by
  fun_induction Progress.run p o text with
  | case1 p o hframes =>
    obtain ⟨frames, nodes⟩ := p
    obtain rfl : frames = [] := hframes
    rw [run, dif_pos rfl]
    simp only [shift, shiftFrames, behind, shiftNodes_reverse, List.reverse_append]
  | case2 p o f outer hframes =>
    obtain ⟨frames, nodes⟩ := p
    obtain rfl : frames = f :: outer := hframes
    rw [run, dif_pos rfl]
    rfl
  | case3 p o text hne fault hr =>
    refine run_error_of_read hne ?_
    rw [read_shift, hr]
    rfl
  | case4 p o text hne r hr fault ha =>
    refine run_error_of_apply (r := r) hne ?_ ?_
    · rw [read_shift, hr]
      rfl
    · rw [apply_shift, ha]
      rfl
  | case5 p o text hne r hr next ha ih =>
    have hread : (p.shift n base).read (o + n) text = .ok r := by
      rw [read_shift, hr]
      rfl
    have happly : (p.shift n base).apply (o + n) r.value = .ok (next.shift n base) := by
      rw [apply_shift, ha]
      rfl
    rw [run_of_read hne hread happly, ← ih, Nat.add_right_comm]

end Progress

/-! ## What is used -/

theorem ofDocument_shiftNodes (n : Nat) (nodes : List Node) :
    TemplateUsage.ofDocument ⟨shiftNodes n nodes⟩ = .ofDocument ⟨nodes⟩ := by
  have houtline : Document.outline ⟨shiftNodes n nodes⟩ = Document.outline ⟨nodes⟩ :=
    congrArg Document.mk (outlines_shiftNodes n nodes)
  rw [← ofDocument_outline, houtline, ofDocument_outline]

theorem template?_append (ns ms : List Node) : (Document.mk (ns ++ ms)).template? =
    (Document.mk ns).template?.or (Document.mk ms).template? :=
  List.findSome?_append

theorem ofDocument_append (ns ms : List Node) : TemplateUsage.ofDocument ⟨ns ++ ms⟩ =
    if (Document.mk ns).template?.isSome then .ofDocument ⟨ns⟩ else .ofDocument ⟨ms⟩ := by
  rw [TemplateUsage.ofDocument, template?_append]
  cases htemplate : (Document.mk ns).template? with
  | none => rfl
  | some template =>
    rw [Option.some_or, Option.isSome_some, if_pos rfl, TemplateUsage.ofDocument, htemplate]

/-! ## One source behind another -/

variable {source text : String} {document : Document}

/-- What comes behind an accepted source is read as alone, if no text at the end goes on there. -/
theorem read_behind (h : Document.read source = .ok document)
    (hends : EndsAlike [] text.toList) : Document.read (source ++ text) =
      match Document.read text with
      | .ok document' =>
        .ok ⟨document.nodes ++ shiftNodes (byteCount source.toList) document'.nodes⟩
      | .error fault => .error (fault.shift (byteCount source.toList)) := by
  obtain ⟨nodes, hrun, rfl⟩ := map_eq_ok_iff.1 h
  have hst : Steady Progress.empty false source.toList := steady_top [] _
  have hreach : Reaches ⟨.empty, 0, source.toList ++ text.toList⟩
      ⟨⟨[], nodes.reverse⟩, 0 + byteCount source.toList, text.toList⟩ :=
    (exists_reaches_of_run hrun).congr (l := []) .refl hst nofun rfl (List.append_nil _).symm hends
  have hshift := Progress.run_shift (byteCount source.toList) nodes.reverse .empty 0 text.toList
  have hstart : Progress.empty.shift (byteCount source.toList) nodes.reverse =
      ⟨[], nodes.reverse⟩ := rfl
  rw [hstart, List.reverse_reverse] at hshift
  rw [Document.read, String.toList_append, hreach.run_eq, hshift, Document.read]
  cases Progress.empty.run 0 text.toList <;> rfl

/-- Markup behind an accepted source is read as alone and fails as alone, and the first template of
both is used. -/
theorem read_concat (h : Document.read source = .ok document)
    (htext : text = "" ∨ ∃ c cs, text.toList = '<' :: c :: cs ∧ startsMarkup c = true) :
    (∀ document', Document.read text = .ok document' → Document.read (source ++ text) =
        .ok ⟨document.nodes ++ shiftNodes (byteCount source.toList) document'.nodes⟩) ∧
      (∀ fault, Document.read text = .error fault → Document.read (source ++ text) =
        .error ⟨fault.cause, fault.offset + byteCount source.toList⟩) ∧
      ∀ document', Document.read text = .ok document' →
        (document.template?.isSome = true →
          TemplateUsage.read (source ++ text) = TemplateUsage.read source) ∧
        (document.template? = none →
          TemplateUsage.read (source ++ text) = TemplateUsage.read text) := by
  have hends : EndsAlike [] text.toList := by
    rcases htext with rfl | ⟨c, cs, hcs, hc⟩
    · exact fun _ _ => rfl
    · rw [hcs]
      exact endsAlike_nil hc cs
  have hread := read_behind h hends
  refine ⟨?_, ?_, ?_⟩
  · intro document' h'
    rw [hread, h']
  · intro fault h'
    rw [hread, h']
    rfl
  · intro document' h'
    rw [h'] at hread
    have husage : TemplateUsage.read (source ++ text) = .ok (if document.template?.isSome then
        .ofDocument document else .ofDocument document') := by
      rw [TemplateUsage.read, hread, Except.map, ofDocument_append, ofDocument_shiftNodes]
    constructor
    · intro hsome
      rw [husage, if_pos hsome, TemplateUsage.read, h]
      rfl
    · intro hnone
      rw [husage, hnone, TemplateUsage.read, h']
      rfl

/-- An element without an end tag behind a template. -/
theorem read_concat_selfClosed :
    Document.read "<b-y/>" = .ok ⟨[.element ⟨"b-y", []⟩ 0 []]⟩ ∧
      Document.read ("<template><b-x/></template>" ++ "<b-y/>") =
        .ok ⟨[.element ⟨"template", []⟩ 0 [.element ⟨"b-x", []⟩ 10 []],
          .element ⟨"b-y", []⟩ 27 []]⟩ := by
  have hx : SpellsStartTag ⟨"b-x", []⟩ true "<b-x/>".toList :=
    @SpellsStartTag.mk _ _ 'b' "-x".toList _ rfl (List.all_eq_true.1 rfl) (by decide) .selfClose
  have hy : SpellsStartTag ⟨"b-y", []⟩ true "<b-y/>".toList :=
    @SpellsStartTag.mk _ _ 'b' "-y".toList _ rfl (List.all_eq_true.1 rfl) (by decide) .selfClose
  have h : Document.read "<template><b-x/></template>" =
      .ok ⟨[.element ⟨"template", []⟩ 0 [.element ⟨"b-x", []⟩ 10 []]]⟩ :=
    read_template (.startTag hx) (by simp) rfl rfl
  have h' : Document.read "<b-y/>" = .ok ⟨[.element ⟨"b-y", []⟩ 0 []]⟩ := by
    have hreach : Reaches ⟨.empty, 0, "<b-y/>".toList⟩ ⟨⟨[], [.element ⟨"b-y", []⟩ 0 []]⟩, 6, []⟩ :=
      reaches_of_spells (p := .empty) nofun (.startTag hy) (by simp) rfl []
    rw [Document.read, hreach.run_eq, Progress.run_nil]
    rfl
  exact ⟨h', (read_concat h (.inr ⟨'b', "-y/>".toList, rfl, rfl⟩)).1 _ h'⟩

end Registrar.Markup
