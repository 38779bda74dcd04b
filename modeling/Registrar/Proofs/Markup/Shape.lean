import Mathlib.Data.List.DropRight
import Registrar.Proofs.Markup.Points

/-! # The shape of trees

What holds of every tree that is read, whatever the source. Each node is in the shape that its place
asks for, and the place inside an element follows from its start tag. The proof goes along the run:
the finished nodes of every open element are in shape.
-/

namespace Registrar.Markup

open Registrar.Text

variable {place : Place} {frames outer : List Frame} {f : Frame} {before nodes : List Node}
  {node : Node} {p next : Progress} {o : Nat} {b : Bool} {text : List Char} {r : Reading Item}

def StartTag.IsShaped (start : StartTag) : Prop :=
  (∃ c ∈ start.tag.toList.head?, c.isAlpha = true) ∧
    (∀ c ∈ start.tag.toList, isBlank c = false ∧ c ≠ '/' ∧ c ≠ '>') ∧
    ∀ a ∈ start.attributes, a.name ≠ "" ∧
      ∀ c ∈ a.name.toList, isBlank c = false ∧ c ≠ '=' ∧ c ≠ '>' ∧ c ≠ '/'

/-- The children of an element of raw text: at most one text, in which its end tag does not
begin. -/
def AreRawTexts (tag : String) (children : List Node) : Prop :=
  children = [] ∨ ∃ t, children = [.text t] ∧ t ≠ "" ∧
    ∀ s, s <:+ t.toList → ¬ OpensEndTag tag.toList s

mutual

def Node.IsShaped (p : Place) : Node → Prop
  | .element start _ children =>
    start.IsShaped ∧
      if isVoid start.tag then children = []
      else if p.isRaw start then AreRawTexts start.tag children
      else AreShaped (p.inside start) children
  | .text t => IsPlainText p t.toList
  | .comment c => ¬ ['-', '-', '>'] <:+: c.toList
  | .interpolation w =>
    p.interpolates = true ∧ trim w.toList = w.toList ∧ ¬ ['}', '}'] <:+: w.toList

def AreShaped (p : Place) : List Node → Prop
  | [] => True
  | node :: nodes => node.IsShaped p ∧ AreShaped p nodes

end

theorem areShaped_iff : AreShaped place nodes ↔ ∀ node ∈ nodes, node.IsShaped place := by
  induction nodes with
  | nil => simp [AreShaped]
  | cons node nodes ih => rw [AreShaped, ih, List.forall_mem_cons]

theorem areShaped_reverse : AreShaped place nodes.reverse ↔ AreShaped place nodes := by
  simp only [areShaped_iff, List.mem_reverse]

/-! ## Items in shape -/

theorem infix_trim (w : List Char) : trim w <:+: w :=
  (List.rdropWhile_prefix isWhiteSpace (w.dropWhile isWhiteSpace)).isInfix.trans
    (List.dropWhile_suffix isWhiteSpace).isInfix

theorem trim_trim (w : List Char) : trim (trim w) = trim w := by
  have hstart : StopsAt isWhiteSpace (trim w) := by
    intro c hc
    obtain ⟨cs, hcs⟩ := List.head?_eq_some_iff.1 (Option.mem_def.1 hc)
    obtain ⟨x, hx⟩ := List.rdropWhile_prefix isWhiteSpace (w.dropWhile isWhiteSpace)
    refine stopsAt_dropWhile isWhiteSpace w c ?_
    change trim w ++ x = _ at hx
    rw [← hx, hcs]
    rfl
  have hdrop : (trim w).dropWhile isWhiteSpace = trim w :=
    dropWhile_append_of_stopsAt (a := []) (by simp) hstart
  rw [trim, hdrop]
  exact List.rdropWhile_idempotent isWhiteSpace (w.dropWhile isWhiteSpace)

theorem SpellsAttributes.name_shaped {as : List Attribute} {s : List Char}
    (h : SpellsAttributes as b s) : ∀ a ∈ as, a.name ≠ "" ∧
      ∀ c ∈ a.name.toList, isBlank c = false ∧ c ≠ '=' ∧ c ≠ '>' ∧ c ≠ '/' := by
  have hname {name : List Char} (hne : name ≠ []) (hn : ∀ c ∈ name, isNameChar c = true) :
      String.ofList name ≠ "" ∧
        ∀ c ∈ (String.ofList name).toList, isBlank c = false ∧ c ≠ '=' ∧ c ≠ '>' ∧ c ≠ '/' := by
    refine ⟨by simpa using hne, ?_⟩
    intro c hc
    have hchar := hn c (by simpa using hc)
    simpa [isNameChar, and_assoc] using hchar
  induction h with
  | close | selfClose => simp
  | gap _ _ ih => exact ih
  | cons ha _ ih =>
    refine List.forall_mem_cons.2 ⟨?_, ih⟩
    cases ha with
    | flag hne hn => exact hname hne hn
    | valued hne hn => exact hname hne hn

theorem SpellsStartTag.isShaped {start : StartTag} {s : List Char}
    (h : SpellsStartTag start b s) : start.IsShaped := by
  have htag := h.isTagChar
  cases h with
  | mk hc _ _ hs =>
    refine ⟨⟨_, by simp, hc⟩, ?_, hs.name_shaped⟩
    intro c hc
    simpa [Markup.isTagChar, and_assoc] using htag c hc

theorem isPlainText_readText (hne : text ≠ []) (h : endsText place.interpolates text = false) :
    IsPlainText place (readText place.interpolates text).lexeme := by
  have hwithin {c d : Char} (hcd : [c, d] <:+: (readText place.interpolates text).lexeme) :
      ∃ y, endsText place.interpolates (c :: d :: y) = false := by
    obtain ⟨x, y, hxy⟩ := hcd
    have hsuffix : c :: d :: y <:+ (readText place.interpolates text).lexeme :=
      ⟨x, by rw [← hxy, List.append_assoc]; rfl⟩
    exact ⟨_, not_endsText_of_readText h hsuffix (by simp)⟩
  refine ⟨(readText_spells _ hne).2.1, ?_, ?_⟩
  · intro c hc hmarkup
    obtain ⟨y, hy⟩ := hwithin hmarkup
    exact Bool.false_ne_true (hy.symm.trans hc)
  · intro hp hmarkup
    obtain ⟨y, hy⟩ := hwithin hmarkup
    exact Bool.false_ne_true (hy.symm.trans hp)

theorem SpellsItem.comment_isShaped {i : Bool} {c : String} {s : List Char}
    (h : SpellsItem i (.comment c) s) : (Node.comment c).IsShaped place := by
  generalize hitem : Item.comment c = item at h
  cases h <;> cases hitem
  next hc => simpa [Node.IsShaped] using hc

theorem SpellsItem.interpolation_isShaped {w : String} {s : List Char}
    (h : SpellsItem place.interpolates (.interpolation w) s) :
    (Node.interpolation w).IsShaped place := by
  generalize hitem : Item.interpolation w = item at h
  cases h <;> cases hitem
  next w hp hw =>
    rw [Node.IsShaped, String.toList_ofList]
    refine ⟨hp, trim_trim w, ?_⟩
    intro hclose
    exact hw ((hclose.trans (infix_trim w)).trans (List.prefix_append w _).isInfix)

theorem isShaped_closed {start : StartTag} (h : start.IsShaped) :
    (Node.element start o []).IsShaped place := by
  rw [Node.IsShaped]
  refine ⟨h, ?_⟩
  split
  · rfl
  · split
    · exact .inl rfl
    · trivial

/-! ## Readers in shape -/

/-- Open elements in shape, in front of each of them nodes in shape, and the place inside. Only the
innermost element may be one of raw text. -/
inductive AreNested : List Frame → Place → Prop
  | top : AreNested [] .top
  | inside {f : Frame} {outer : List Frame} {p : Place} : AreNested outer p →
      (∀ g ∈ outer.head?, g.content ≠ .raw) → f.start.IsShaped → isVoid f.start.tag = false →
      f.content = (if p.isRaw f.start then .raw else (p.inside f.start).content) →
      AreShaped p f.before → AreNested (f :: outer) (p.inside f.start)

structure Progress.IsShaped (p : Progress) (place : Place) : Prop where
  frames : AreNested p.frames place
  nodes : (∀ f ∈ p.frames.head?, f.content ≠ .raw) → AreShaped place p.nodes
  raw : ∀ f ∈ p.frames.head?, f.content = .raw → AreRawTexts f.start.tag p.nodes

theorem AreNested.inPlace (h : AreNested frames place)
    (hraw : ∀ f ∈ frames.head?, f.content ≠ .raw) : InPlace place frames := by
  cases h with
  | top => rfl
  | @inside f outer p _ _ _ _ hcontent _ =>
    refine ⟨Place.inside_ne_top, ?_⟩
    by_cases hr : p.isRaw f.start = true
    · rw [if_pos hr] at hcontent
      exact absurd hcontent (hraw f rfl)
    · rw [hcontent, if_neg hr]

namespace Progress.IsShaped

theorem push (h : p.IsShaped place) (hraw : ∀ f ∈ p.frames.head?, f.content ≠ .raw)
    (hnode : node.IsShaped place) : (p.push node).IsShaped place where
  frames := h.frames
  nodes _ := ⟨hnode, h.nodes hraw⟩
  raw f hf hfraw := absurd hfraw (hraw f hf)

theorem openElement {start : StartTag} (h : p.IsShaped place)
    (hraw : ∀ f ∈ p.frames.head?, f.content ≠ .raw) (hstart : start.IsShaped)
    (hv : isVoid start.tag = false) : (p.openElement start o).IsShaped (place.inside start) where
  frames := .inside h.frames hraw hstart hv
    (Progress.contentOf_of_inPlace (h.frames.inPlace hraw) start) (h.nodes hraw)
  nodes _ := trivial
  raw _ _ _ := .inl rfl

theorem close (h : (⟨f :: outer, before⟩ : Progress).IsShaped place) :
    ∃ place', (Progress.close f outer before).IsShaped place' := by
  obtain ⟨hframes, hnodes, hrawNodes⟩ := h
  cases hframes with
  | @inside _ _ p hp hraw hstart hv hcontent hbefore =>
    have hnode : (Node.element f.start f.offset before.reverse).IsShaped p := by
      rw [Node.IsShaped, hv]
      refine ⟨hstart, ?_⟩
      by_cases hr : p.isRaw f.start = true
      · rw [if_pos hr] at hcontent
        have hreverse : before.reverse = before := by
          rcases hrawNodes f rfl hcontent with rfl | ⟨t, rfl, -⟩ <;> rfl
        simpa [hr, hreverse] using hrawNodes f rfl hcontent
      · rw [if_neg hr] at hcontent
        simpa [hr] using areShaped_reverse.2 (hnodes (by simp [hcontent]))
    exact ⟨p, hp, fun _ => ⟨hnode, hbefore⟩, fun g hg hgraw => absurd hgraw (hraw g hg)⟩

/-- The text of an element of raw text is all that it has in front of its end tag. -/
theorem rawItem (h : (⟨f :: outer, before⟩ : Progress).IsShaped place)
    (hraw : f.content = .raw) (hst : Steady ⟨f :: outer, before⟩ b text)
    (hr : (⟨f :: outer, before⟩ : Progress).read o text = .ok r)
    (ha : (⟨f :: outer, before⟩ : Progress).apply o r.value = .ok next) :
    ∃ place', next.IsShaped place' := by
  -- raw text is read in one piece, so that a text is the first child
  rcases Progress.read_raw_cases hraw hr with ⟨-, name, hv, -⟩ | ⟨hnot, c, cs, hv, -, hcut⟩
  · simp only [Progress.apply, hv, hraw, decide_true, Bool.true_or, if_true] at ha
    cases ha
    exact h.close
  · rw [hv] at ha
    cases ha
    have hnil : before = [] := (hst.raw f rfl hraw).2.resolve_right (by simp [hnot])
    subst hnil
    refine ⟨place, h.frames, fun hmarkup => absurd hraw (hmarkup f rfl), ?_⟩
    intro g hg _
    obtain rfl : f = g := by simpa [Progress.push] using hg
    refine .inr ⟨_, rfl, by simp, ?_⟩
    rw [String.toList_ofList]
    rintro s hs ⟨name, d, x, rfl, hname, hd⟩
    have hnot := not_stop_of_cut? hcut hs (by simp)
    rw [endsElement_iff.2 (.inl ⟨name, d, x ++ r.rest, by simp, hname, hd⟩)] at hnot
    cases hnot

/-- Every item that is read keeps the finished nodes in shape. -/
theorem exists_of_step (h : p.IsShaped place) (hne : text ≠ []) (hst : Steady p b text)
    (hr : p.read o text = .ok r) (ha : p.apply o r.value = .ok next) :
    ∃ place', next.IsShaped place' := by
  obtain ⟨frames, nodes⟩ := p
  by_cases hraw : ∀ f ∈ frames.head?, f.content ≠ .raw
  · have hin := h.frames.inPlace hraw
    rw [Progress.read_of_inPlace hin] at hr
    rcases readItem_cases hne (mapError_eq_ok_iff.1 hr) with ⟨htext, rfl⟩ | ⟨-, htext, hs⟩
    · obtain ⟨hv, -⟩ := readText_spells place.interpolates hne
      rw [hv] at ha
      cases ha
      refine ⟨place, h.push hraw ?_⟩
      rw [Node.IsShaped, String.toList_ofList]
      exact isPlainText_readText hne htext
    · obtain ⟨item, s, rest⟩ := r
      simp only at htext hs ha
      cases Progress.takes_of_apply ha with
      | text => exact absurd rfl (htext _)
      | comment => exact ⟨place, h.push hraw hs.comment_isShaped⟩
      | interpolation => exact ⟨place, h.push hraw hs.interpolation_isShaped⟩
      | declaration => exact ⟨place, h⟩
      | closed => exact ⟨place, h.push hraw (isShaped_closed hs.startTag_inv.isShaped)⟩
      | opened hv => exact ⟨_, h.openElement hraw hs.startTag_inv.isShaped hv⟩
      | endTag hframes =>
        cases hframes
        exact h.close
  · cases frames with
    | nil => simp at hraw
    | cons f outer => exact h.rawItem (by simpa using hraw) hst hr ha

end Progress.IsShaped

theorem areShaped_of_run (hp : p.IsShaped place) (hst : Steady p b text)
    (h : p.run o text = .ok nodes) : AreShaped .top nodes := by
  fun_induction Progress.run p o text generalizing b place with
  | case1 p o hframes =>
    obtain ⟨frames, before⟩ := p
    obtain rfl : frames = [] := hframes
    cases h
    cases hp.frames
    exact areShaped_reverse.2 (hp.nodes (by simp))
  | case2 => cases h
  | case3 => cases h
  | case4 => cases h
  | case5 p o text hne r hr next ha ih =>
    obtain ⟨b', hst', -⟩ := advances_of_read [] hne hst hr ha
    obtain ⟨place', hp'⟩ := hp.exists_of_step hne hst hr ha
    exact ih hp' hst' h

/-- Whatever source is accepted, the tree is in shape. -/
theorem read_areShaped {source : String} {document : Document}
    (h : Document.read source = .ok document) : AreShaped .top document.nodes := by
  obtain ⟨nodes, hrun, rfl⟩ := map_eq_ok_iff.1 h
  have hp : Progress.empty.IsShaped .top := ⟨.top, fun _ => trivial, by simp [Progress.empty]⟩
  exact areShaped_of_run hp (steady_top [] _) hrun

theorem read_areShaped_template :
    Document.read "<template>{{ a }}</template>" =
        .ok ⟨[.element ⟨"template", []⟩ 0 [.interpolation "a"]]⟩ ∧
      AreShaped .top [.element ⟨"template", []⟩ 0 [.interpolation "a"]] := by
  have hs : SpellsItem true (.interpolation "a") "{{ a }}".toList :=
    @SpellsItem.interpolation _ " a ".toList rfl (by decide)
  have h : Document.read "<template>{{ a }}</template>" =
      .ok ⟨[.element ⟨"template", []⟩ 0 [.interpolation "a"]]⟩ :=
    read_template hs (by simp) rfl rfl
  exact ⟨h, read_areShaped h⟩

end Registrar.Markup
