import Registrar.Proofs.Markup.Outline
import Registrar.Proofs.Markup.Points

/-! # The content of an element

How the content of an open element is read is told by what its text is read as, and neither by its
tag nor by the elements around it. Up to its end tag, markup is therefore read alike inside of all
elements that are compiled.
-/

namespace Registrar.Markup

open Registrar.Text

variable {p next : Progress} {f : Frame} {inner outer : List Frame} {nodes nodes' : List Node}
  {o o' : Nat} {text text' : List Char} {item : Item} {r : Reading Item} {v : Point}

/-! ## Above an open element -/

namespace Progress

variable {f' : Frame} {outer' : List Frame}

theorem content_ne_raw (hf : f.content = .compiled) :
    (⟨f :: outer, nodes⟩ : Progress).content ≠ .raw := by
  simp [content, hf]

theorem read_above (hcontent : f'.content = f.content) (hraw : f.content ≠ .raw)
    (hr : (⟨inner ++ f :: outer, nodes⟩ : Progress).read o text = .ok r) :
    (⟨inner ++ f' :: outer', nodes⟩ : Progress).read o text = .ok r := by
  cases inner with
  | nil => simpa only [List.nil_append, read, hcontent, if_neg hraw] using hr
  | cons g inner => exact hr

theorem contentOf_above (hcontent : f'.content = f.content) (start : StartTag) :
    (⟨inner ++ f' :: outer', nodes⟩ : Progress).contentOf start =
      (⟨inner ++ f :: outer, nodes⟩ : Progress).contentOf start := by
  cases inner with
  | nil => simp only [List.nil_append, contentOf, hcontent]
  | cons g inner => rfl

/-- An item closes an element, or it is put in its place above every element with such content. -/
theorem apply_above (hraw : f.content ≠ .raw)
    (ha : (⟨inner ++ f :: outer, nodes⟩ : Progress).apply o item = .ok next) :
    (∃ inner' nodes', next = ⟨inner' ++ f :: outer, nodes'⟩ ∧
      ∀ (f' : Frame) (outer' : List Frame), f'.content = f.content →
        (⟨inner ++ f' :: outer', nodes⟩ : Progress).apply o item =
          .ok ⟨inner' ++ f' :: outer', nodes'⟩) ∨
    inner = [] ∧ next = close f outer nodes ∧ ∃ name, item = .endTag name ∧
      lowerName name.toList = lowerName f.start.tag.toList := by
  cases takes_of_apply ha with
  | text | comment | interpolation | declaration =>
    exact .inl ⟨inner, _, rfl, fun _ _ _ => rfl⟩
  | closed hclosed =>
    refine .inl ⟨inner, _, rfl, fun _ _ _ => ?_⟩
    rw [apply, if_pos hclosed]
    rfl
  | @opened start hvoid =>
    refine .inl ⟨⟨start, o, _, nodes⟩ :: inner, [], rfl, fun _ _ hcontent => ?_⟩
    rw [apply, if_neg (by simp [hvoid]), openElement, contentOf_above hcontent]
    rfl
  | @endTag g outer' name hframes hname =>
    cases inner with
    | nil =>
      obtain ⟨rfl, rfl⟩ := List.cons.inj hframes
      exact .inr ⟨rfl, rfl, name, rfl, hname.resolve_left hraw⟩
    | cons h inner =>
      obtain ⟨rfl, rfl⟩ := List.cons.inj hframes
      refine .inl ⟨inner, _, rfl, fun _ _ _ => ?_⟩
      rw [List.cons_append, apply]
      exact if_pos (by simpa using hname)

end Progress

/-- From one point to another inside of every element whose text is read as this. -/
def ReachesInside (content : Content) (inner : List Frame) (nodes : List Node) (o : Nat)
    (text : List Char) (nodes' : List Node) (o' : Nat) (text' : List Char) : Prop :=
  ∀ (f : Frame) (outer : List Frame), f.content = content →
    Reaches ⟨⟨inner ++ f :: outer, nodes⟩, o, text⟩ ⟨⟨f :: outer, nodes'⟩, o', text'⟩

/-- A run that leaves an element is inside of it up to the end tag. -/
theorem Reaches.exists_inside (hraw : f.content ≠ .raw)
    (h : Reaches ⟨⟨inner ++ f :: outer, nodes⟩, o, text⟩ v)
    (hv : v.progress.frames.length ≤ outer.length) : ∃ nodes' o' text' r name,
      ReachesInside f.content inner nodes o text nodes' o' text' ∧ text' ≠ [] ∧
      (⟨f :: outer, nodes'⟩ : Progress).read o' text' = .ok r ∧ r.value = .endTag name ∧
      lowerName name.toList = lowerName f.start.tag.toList := by
  generalize hs : (⟨⟨inner ++ f :: outer, nodes⟩, o, text⟩ : Point) = s at h
  induction h using Relation.ReflTransGen.head_induction_on generalizing inner nodes o text with
  | refl =>
    subst hs
    simp only [List.length_append, List.length_cons] at hv
    omega
  | head hstep hrest ih =>
    subst hs
    cases hstep with
    | @mk _ next _ _ r hne hr ha =>
      rcases Progress.apply_above hraw ha with ⟨inner', nodes', rfl, happly⟩ |
        ⟨rfl, rfl, name, hvalue, hname⟩
      · obtain ⟨nodes'', o'', text'', r', name, hinside, hread⟩ := ih rfl
        refine ⟨nodes'', o'', text'', r', name, fun f' outer' hcontent => ?_, hread⟩
        exact .head (.mk hne (Progress.read_above hcontent hraw hr) (happly f' outer' hcontent))
          (hinside f' outer' hcontent)
      · exact ⟨nodes, o, text, r, name, fun _ _ _ => .refl, hne, hr, hvalue, hname⟩

theorem ReachesInside.reaches {x rest : List Char}
    (h : ReachesInside f.content [] nodes o (x ++ text') nodes' o' text')
    (hraw : ∀ g ∈ f :: outer, g.content ≠ .raw) (htake : text'.take 2 = rest.take 2) :
    Reaches ⟨⟨f :: outer, nodes⟩, o, x ++ rest⟩ ⟨⟨f :: outer, nodes'⟩, o', rest⟩ := by
  obtain ⟨hf, houter⟩ := List.forall_mem_cons.1 hraw
  have hst : Steady ⟨f :: outer, nodes⟩ false (x ++ text') :=
    steady_of_inPlace (inPlace_cons hf) houter nofun
  exact (h f outer rfl).congr_rest hst hf rfl htake

/-! ## End tags -/

theorem takeWhile_append_congr {test : Char → Bool} {c : Char} {a b : List Char}
    (hc : test c = true) (h : c ∉ (a ++ c :: b).takeWhile test) (b' : List Char) :
    (a ++ c :: b').takeWhile test = (a ++ c :: b).takeWhile test := by
  rw [List.takeWhile_append] at h ⊢
  rw [List.takeWhile_append]
  split at h
  · rw [List.takeWhile_cons_of_pos hc] at h
    exact absurd (List.mem_append_right a List.mem_cons_self) h
  · next hne => rw [if_neg hne, if_neg hne]

theorem value_of_readEndTag (h : readEndTag text = .ok r) :
    r.value = .endTag (String.ofList (text.takeWhile isBareChar)) := by
  unfold readEndTag at h
  split at h
  · cases h
  · next hname =>
    split at h
    · cases h
    · cases h
      rw [hname]

theorem value_of_readEndTag_congr {a b b' : List Char} {name : String} {r' : Reading Item}
    (hr : readEndTag (a ++ '<' :: b) = .ok r) (hvalue : r.value = .endTag name)
    (hname : '<' ∉ name.toList) (hr' : readEndTag (a ++ '<' :: b') = .ok r') :
    r'.value = .endTag name := by
  have hread := value_of_readEndTag hr
  rw [hvalue, Item.endTag.injEq] at hread
  rw [value_of_readEndTag hr', takeWhile_append_congr (by decide) _ b', hread]
  rwa [hread, String.toList_ofList] at hname

namespace Progress

theorem read_endTag (hf : f.content = .compiled) (text : List Char) :
    (⟨f :: outer, nodes⟩ : Progress).read o ('<' :: '/' :: text) =
      (readEndTag text).mapError (⟨·, o⟩) := by
  simp only [read, hf, reduceCtorEq, if_false, decide_true]
  rfl

theorem run_ne_ok_of_endTag {name : String} (hf : f.content = .compiled)
    (hvalue : ∀ r, readEndTag text = .ok r → r.value = .endTag name)
    (hname : lowerName name.toList ≠ lowerName f.start.tag.toList) (result : List Node) :
    (⟨f :: outer, nodes⟩ : Progress).run o ('<' :: '/' :: text) ≠ .ok result := by
  have hread : (⟨f :: outer, nodes⟩ : Progress).read o ('<' :: '/' :: text) =
      (readEndTag text).mapError (⟨·, o⟩) := read_endTag hf text
  cases hr : readEndTag text with
  | error cause =>
    rw [hr] at hread
    rw [run_error_of_read (List.cons_ne_nil _ _) hread]
    nofun
  | ok r =>
    rw [hr] at hread
    have happly : (⟨f :: outer, nodes⟩ : Progress).apply o r.value =
        .error ⟨.mismatchedEndTag name f.start.tag, o⟩ := by
      rw [hvalue r hr]
      exact if_neg (by simp [hf, hname])
    rw [run_error_of_apply (List.cons_ne_nil _ _) hread happly]
    nofun

end Progress

/-- A run that leaves a compiled element comes to an end tag with the name of the element. -/
theorem Reaches.exists_inside_compiled (hf : f.content = .compiled)
    (h : Reaches ⟨⟨inner ++ f :: outer, nodes⟩, o, text⟩ v)
    (hv : v.progress.frames.length ≤ outer.length) : ∃ nodes' o' behind r name,
      ReachesInside .compiled inner nodes o text nodes' o' ('<' :: '/' :: behind) ∧
      readEndTag behind = .ok r ∧ r.value = .endTag name ∧
      lowerName name.toList = lowerName f.start.tag.toList := by
  obtain ⟨nodes', o', text', r, name, hinside, hne, hr, hvalue, hname⟩ :=
    h.exists_inside (by simp [hf]) hv
  obtain ⟨behind, rfl⟩ : ∃ behind, text' = '<' :: '/' :: behind := by
    obtain ⟨i, hs⟩ := exists_spells_of_read hne hr (by simp [hvalue])
    rw [hvalue] at hs
    obtain ⟨gap, hlexeme, -⟩ := hs.endTag_inv
    rw [← Progress.read_append hr, hlexeme]
    exact ⟨_, rfl⟩
  rw [Progress.read_endTag hf] at hr
  exact ⟨nodes', o', behind, r, name, hf ▸ hinside, mapError_eq_ok_iff.1 hr, hvalue, hname⟩

/-! ## Elements without attributes -/

def within (tag text : String) : String := "<" ++ tag ++ ">" ++ text ++ "</" ++ tag ++ ">"

variable {tag : String}

theorem toList_within (tag text : String) : (within tag text).toList =
    ('<' :: (tag.toList ++ ['>'])) ++ (text.toList ++ '<' :: '/' :: (tag.toList ++ ['>'])) := by
  simp [within]

theorem spellsItem_startTag (h : (StartTag.mk tag []).IsNormal) (i : Bool) :
    SpellsItem i (.startTag ⟨tag, []⟩ false) ('<' :: (tag.toList ++ ['>'])) := by
  obtain ⟨⟨c, hc, halpha⟩, hchars, -⟩ := h
  obtain ⟨cs, hcs⟩ := List.head?_eq_some_iff.1 hc
  obtain rfl : tag = String.ofList (c :: cs) := by simp [← String.toList_inj, hcs]
  have htag : ∀ d ∈ c :: cs, isTagChar d = true := by
    simpa [isTagChar, and_assoc] using hchars
  rw [String.toList_ofList]
  exact .startTag (.mk halpha htag (by decide) .close)

theorem spellsItem_endTag (h : (StartTag.mk tag []).IsNormal) (i : Bool) :
    SpellsItem i (.endTag tag) ('<' :: '/' :: (tag.toList ++ ['>'])) := by
  obtain ⟨⟨c, hc, -⟩, hchars, -⟩ := h
  have hne : tag.toList ≠ [] := List.ne_nil_of_mem (List.mem_of_mem_head? hc)
  have hbare : ∀ d ∈ tag.toList, isBareChar d = true := by
    intro d hd
    obtain ⟨hblank, -, hclose⟩ := hchars d hd
    simp [isBareChar, hblank, hclose]
  have hs : SpellsItem i (.endTag (String.ofList tag.toList))
      ('<' :: '/' :: (tag.toList ++ ([] ++ ['>']))) := .endTag hne hbare (by decide) (by simp)
  rwa [String.ofList_toList, List.nil_append] at hs

theorem spells_within {place : Place} {children : List Node} (h : (StartTag.mk tag []).IsNormal)
    (hvoid : isVoid tag = false) (hraw : place.isRaw ⟨tag, []⟩ = false) {text : String}
    (hchildren : Spells (place.inside ⟨tag, []⟩) (o + byteCount ('<' :: (tag.toList ++ ['>'])))
      false children text.toList) :
    Spells place o false [.element ⟨tag, []⟩ o children] (within tag text).toList := by
  have hwhole : Spells place o false _ _ :=
    .element (spellsItem_startTag h _) hvoid hraw hchildren (spellsItem_endTag h _)
      ⟨tag.toList, [], (List.append_nil _).symm, rfl, .inl rfl⟩ .nil
  rwa [List.append_nil, ← toList_within] at hwhole

theorem spells_within_raw {place : Place} (h : (StartTag.mk tag []).IsNormal)
    (hvoid : isVoid tag = false) (hraw : place.isRaw ⟨tag, []⟩ = true) (text : String) :
    Spells place o false [.element ⟨tag, []⟩ o (rawChildren text.toList)]
      (within tag text).toList := by
  have hwhole : Spells place o false [.element ⟨tag, []⟩ o (rawChildren text.toList)] _ :=
    .raw (spellsItem_startTag h _) hvoid hraw (spellsItem_endTag h _)
      ⟨tag.toList, [], (List.append_nil _).symm, rfl, .inl rfl⟩ .nil
  rwa [List.append_nil, ← toList_within] at hwhole

theorem areNormal_element {place : Place} {children : List Node}
    (h : (StartTag.mk tag []).IsNormal) (hvoid : isVoid tag = false)
    (hraw : place.isRaw ⟨tag, []⟩ = false)
    (hchildren : AreNormal (place.inside ⟨tag, []⟩) children) :
    AreNormal place [.element ⟨tag, []⟩ o children] := by
  simp [AreNormal, Node.IsNormal, h, hvoid, hraw, hchildren]

theorem isNormal_of_all (hhead : ∃ c ∈ tag.toList.head?, c.isAlpha = true)
    (hall : tag.toList.all isTagChar = true) : (StartTag.mk tag []).IsNormal := by
  refine ⟨hhead, fun c hc => ?_, nofun⟩
  simpa [isTagChar, and_assoc] using List.all_eq_true.1 hall c hc

def innerFrame (tag : String) : Frame := ⟨⟨tag, []⟩, 10, .compiled, []⟩

def templateFrame : Frame := ⟨⟨"template", []⟩, 0, .compiled, []⟩

theorem isNormal_template : (StartTag.mk "template" []).IsNormal :=
  isNormal_of_all ⟨'t', rfl, rfl⟩ rfl

theorem read_within_template (text : String) : Document.read (within "template" text) =
    ((⟨[templateFrame], []⟩ : Progress).run 10 (text.toList ++ "</template>".toList)).map
      Document.mk := by
  have hreach : Reaches ⟨.empty, 0, (within "template" text).toList⟩
      ⟨⟨[templateFrame], []⟩, 10, text.toList ++ "</template>".toList⟩ := by
    rw [toList_within]
    exact reaches_of_spells (p := .empty) nofun (spellsItem_startTag isNormal_template false)
      (by simp) rfl _
  rw [Document.read, hreach.run_eq]

theorem reaches_within (h : (StartTag.mk tag []).IsNormal) (hvoid : isVoid tag = false)
    (hraw : isRawText tag = false) (text : String) (rest : List Char) :
    Reaches ⟨⟨[templateFrame], []⟩, 10, (within tag text).toList ++ rest⟩
      ⟨⟨[innerFrame tag, templateFrame], []⟩, 10 + byteCount ('<' :: (tag.toList ++ ['>'])),
        text.toList ++ ('<' :: '/' :: (tag.toList ++ ['>']) ++ rest)⟩ := by
  have happly : (⟨[templateFrame], []⟩ : Progress).apply 10 (.startTag ⟨tag, []⟩ false) =
      .ok ⟨[innerFrame tag, templateFrame], []⟩ := by
    simp [Progress.apply, hvoid, Progress.openElement, Progress.contentOf, hraw, templateFrame,
      innerFrame, StartTag.has, StartTag.attribute?]
  rw [toList_within, List.append_assoc, List.append_assoc]
  exact reaches_of_spells (Progress.content_ne_raw rfl) (spellsItem_startTag h _) (by simp) happly _

theorem run_within (h : (StartTag.mk tag []).IsNormal) (nodes : List Node) (o : Nat) :
    (⟨[innerFrame tag, templateFrame], nodes⟩ : Progress).run o
      ('<' :: '/' :: (tag.toList ++ ['>']) ++ "</template>".toList) =
        .ok [.element ⟨"template", []⟩ 0 [.element ⟨tag, []⟩ 10 nodes.reverse]] := by
  have hclose : (⟨[innerFrame tag, templateFrame], nodes⟩ : Progress).apply o (.endTag tag) =
      .ok ⟨[templateFrame], [.element ⟨tag, []⟩ 10 nodes.reverse]⟩ := by
    simp [Progress.apply, Progress.close, innerFrame]
  have hinner : Reaches _ _ :=
    reaches_of_spells (Progress.content_ne_raw rfl) (spellsItem_endTag h _) (by simp) hclose
      "</template>".toList
  have houter : Reaches _ _ :=
    @reaches_of_spells ⟨[templateFrame], [.element ⟨tag, []⟩ 10 nodes.reverse]⟩
      ⟨[], [.element ⟨"template", []⟩ 0 [.element ⟨tag, []⟩ 10 nodes.reverse]]⟩
      (o + byteCount ('<' :: '/' :: (tag.toList ++ ['>']))) _ _ (Progress.content_ne_raw rfl)
      (spellsItem_endTag isNormal_template _) (by simp) rfl []
  rw [hinner.run_eq, ← List.append_nil "</template>".toList]
  exact houter.run_eq.trans Progress.run_nil

/-! ## One element in place of another -/

def divTail : List Char := '<' :: '/' :: ("div".toList ++ ['>']) ++ "</template>".toList

theorem eq_of_suffix_divTail {cs : List Char} (h : '<' :: '/' :: cs <:+ divTail) :
    '<' :: '/' :: cs = divTail ∨ '<' :: '/' :: cs = "</template>".toList := by
  have htails : ∀ s ∈ divTail.tails, s.take 2 = ['<', '/'] →
      s = divTail ∨ s = "</template>".toList := by
    decide +kernel
  exact htails _ ((List.mem_tails _ _).2 h) rfl

theorem isNormal_div : (StartTag.mk "div" []).IsNormal := isNormal_of_all ⟨'d', rfl, rfl⟩ rfl

/-- An end tag that begins in the content would close the template in place of the `div`. -/
theorem false_of_readEndTag {x z : List Char} {name : String}
    (hinside : ReachesInside .compiled [] [] o (x ++ '<' :: '/' :: (z ++ '<' :: divTail.tail))
      nodes' o' ('<' :: '/' :: (z ++ '<' :: divTail.tail)))
    (hread : readEndTag (z ++ '<' :: divTail.tail) = .ok r) (hvalue : r.value = .endTag name)
    (hname : lowerName name.toList = lowerName "div".toList)
    (hown : (⟨[templateFrame], []⟩ : Progress).run o
      (x ++ '<' :: '/' :: (z ++ "</template>".toList)) = .ok nodes) : False := by
  have hlt : '<' ∉ name.toList := by
    rw [mem_iff_of_lowerName_eq (by decide) hname]
    decide
  have hreach : Reaches ⟨⟨[templateFrame], []⟩, o, x ++ '<' :: '/' :: (z ++ "</template>".toList)⟩
      ⟨⟨[templateFrame], nodes'⟩, o', '<' :: '/' :: (z ++ "</template>".toList)⟩ :=
    @ReachesInside.reaches templateFrame _ _ _ _ _ _ _ _ hinside (by simp [templateFrame]) rfl
  rw [hreach.run_eq] at hown
  exact Progress.run_ne_ok_of_endTag rfl
    (fun r' hr' => value_of_readEndTag_congr hread hvalue hlt hr') (by rw [hname]; decide) nodes
    hown

/-- Markup of its own between the tags of a `div` is read inside of every compiled element, with the
nodes of the `div`. -/
theorem reachesInside_of_run {m : List Char} {children : List Node}
    (hdiv : (⟨[innerFrame "div", templateFrame], []⟩ : Progress).run o (m ++ divTail) =
      .ok [.element ⟨"template", []⟩ 0 [.element ⟨"div", []⟩ 10 children]])
    (hown : (⟨[templateFrame], []⟩ : Progress).run o (m ++ "</template>".toList) = .ok nodes) :
    ∃ o', ReachesInside .compiled [] [] o (m ++ divTail) children.reverse o' divTail := by
  obtain ⟨nodes', o', behind, r, name, hinside, hread, hvalue, hname⟩ :=
    @Reaches.exists_inside_compiled (innerFrame "div") [] _ _ _ _ _ rfl (exists_reaches_of_run hdiv)
      (Nat.zero_le _)
  have hreach := hinside (innerFrame "div") [templateFrame] rfl
  obtain ⟨x, hx⟩ := hreach.exists_append
  by_cases htail : '<' :: '/' :: behind = divTail
  · rw [htail] at hinside
    have hwhole := hreach.run_eq
    simp only [List.nil_append] at hwhole
    rw [hdiv, htail, divTail, run_within isNormal_div] at hwhole
    obtain rfl : children = nodes'.reverse := by simpa using hwhole
    exact ⟨o', by rwa [List.reverse_reverse]⟩
  · exfalso
    rcases List.append_eq_append_iff.1 hx with ⟨y, rfl, hy⟩ | ⟨y, rfl, hy⟩
    · -- the only other end tag behind the content is that of the template
      rcases eq_of_suffix_divTail ⟨y, hy.symm⟩ with h | h
      · exact htail h
      · obtain rfl : behind = "template>".toList := by simpa using h
        have hvalue' := value_of_readEndTag hread
        rw [hvalue, Item.endTag.injEq] at hvalue'
        rw [hvalue'] at hname
        exact absurd hname (by decide)
    · obtain ⟨z, rfl⟩ : ∃ z, y = '<' :: '/' :: z := by
        match y with
        | [] => exact absurd hy htail
        | [c] => simp [divTail] at hy
        | c :: c' :: z => exact ⟨z, by simp_all⟩
      obtain rfl : behind = z ++ '<' :: divTail.tail := by simpa [divTail] using hy
      rw [List.append_assoc, ← hy] at hinside
      rw [List.append_assoc] at hown
      exact false_of_readEndTag hinside hread hvalue hname hown

/-! ## A card inside of an element -/

theorem isNormal_card : (StartTag.mk "b-card" []).IsNormal := isNormal_of_all ⟨'b', rfl, rfl⟩ rfl

theorem spells_card (o : Nat) :
    Spells .compiled o false [.element ⟨"b-card", []⟩ o []] "<b-card/>".toList := by
  have hstart : SpellsStartTag ⟨"b-card", []⟩ true "<b-card/>".toList :=
    @SpellsStartTag.mk _ _ 'b' "-card".toList _ rfl (List.all_eq_true.1 rfl) (by decide) .selfClose
  exact .closed (.startTag hstart) rfl .nil

theorem areNormal_card (o : Nat) : AreNormal .compiled [.element ⟨"b-card", []⟩ o []] :=
  areNormal_element isNormal_card rfl rfl trivial

theorem read_card : Document.read (within "template" "<b-card/>") =
    .ok ⟨[.element ⟨"template", []⟩ 0 [.element ⟨"b-card", []⟩ 10 []]]⟩ :=
  read_of_spells (areNormal_element isNormal_template rfl rfl (areNormal_card _))
    (spells_within isNormal_template rfl rfl (spells_card _))

theorem read_div_card : Document.read (within "template" (within "div" "<b-card/>")) =
    .ok ⟨[.element ⟨"template", []⟩ 0
      [.element ⟨"div", []⟩ 10 [.element ⟨"b-card", []⟩ 15 []]]]⟩ :=
  read_of_spells
    (areNormal_element isNormal_template rfl rfl
      (areNormal_element isNormal_div rfl rfl (areNormal_card _)))
    (spells_within isNormal_template rfl rfl (spells_within isNormal_div rfl rfl (spells_card _)))

theorem usage_div_card :
    TemplateUsage.read (within "template" (within "div" "<b-card/>")) = .ok ⟨["b-card"], []⟩ := by
  rw [TemplateUsage.read, read_div_card]
  rfl

/-! ## Components -/

theorem filter_eraseDups (test : String → Bool) (names : List String) :
    (names.filter test).eraseDups = names.eraseDups.filter test := by
  induction hlength : names.length using Nat.strong_induction_on generalizing names with
  | _ n ih =>
    cases names with
    | nil => rfl
    | cons name names =>
      have hlt : (names.filter fun other => !other == name).length < n := by
        have := List.length_filter_le (fun other => !other == name) names
        simp only [List.length_cons] at hlength
        omega
      have hrest := ih _ hlt (names.filter fun other => !other == name) rfl
      rw [List.filter_filter] at hrest
      rw [List.eraseDups_cons]
      cases hname : test name with
      | true =>
        rw [List.filter_cons_of_pos hname, List.filter_cons_of_pos hname, List.eraseDups_cons,
          List.filter_filter, ← hrest]
        refine congrArg (fun kept => name :: List.eraseDups kept) (List.filter_congr fun _ _ => ?_)
        exact Bool.and_comm _ _
      | false =>
        rw [List.filter_cons_of_neg (by simp [hname]), List.filter_cons_of_neg (by simp [hname]),
          ← hrest]
        refine congrArg List.eraseDups (List.filter_congr fun other _ => ?_)
        by_cases hother : other = name
        · simp [hother, hname]
        · simp [hother]

theorem ofDocument_template (tag : String) (children : List Node) :
    TemplateUsage.ofDocument ⟨[.element ⟨"template", []⟩ 0 [.element ⟨tag, []⟩ 10 children]]⟩ =
      .ofStartTags (⟨tag, []⟩ :: compiledNodes children) := by
  simp [TemplateUsage.ofDocument, Document.template?, templateTag, compiledNodes, Node.compiled,
    StartTag.has, StartTag.attribute?]

theorem isVoid_eq_false (h : (StartTag.mk tag []).component? = some tag) : isVoid tag = false := by
  have hvoid : ∀ tag ∈ voidTags, (StartTag.mk tag []).component? = none := by decide +kernel
  rw [isVoid, List.contains_eq_mem, decide_eq_false_iff_not]
  intro hmem
  rw [hvoid tag hmem] at h
  cases h

theorem ofStartTags_component (hcomponent : (StartTag.mk tag []).component? = some tag)
    (starts : List StartTag) : TemplateUsage.ofStartTags (⟨tag, []⟩ :: starts) =
      ⟨tag :: (TemplateUsage.ofStartTags starts).components.filter (· ≠ tag),
        (TemplateUsage.ofStartTags starts).directives⟩ := by
  have hdirectives : (StartTag.mk tag []).directives = [] := by simp [StartTag.directives]
  simp only [TemplateUsage.ofStartTags, List.filterMap_cons, hcomponent, List.flatMap_cons,
    hdirectives, List.nil_append, List.eraseDups_cons, ← filter_eraseDups]
  simp [Bool.beq_eq_decide_eq]

theorem ofStartTags_div (starts : List StartTag) :
    TemplateUsage.ofStartTags (⟨"div", []⟩ :: starts) = .ofStartTags starts := by
  have hcomponent : (StartTag.mk "div" []).component? = none := by decide
  simp [TemplateUsage.ofStartTags, hcomponent, StartTag.directives]

theorem read_component_of_isRawText {tag m : String} (hnormal : (StartTag.mk tag []).IsNormal)
    (hcomponent : (StartTag.mk tag []).component? = some tag) (hraw : isRawText tag = true)
    (hm : AreRawContent tag (rawChildren m.toList)) :
    TemplateUsage.read (within "template" (within tag m)) = .ok ⟨[tag], []⟩ := by
  have hvoid := isVoid_eq_false hcomponent
  have hplace : (Place.top.inside ⟨"template", []⟩).isRaw ⟨tag, []⟩ = true := hraw
  have hspells : Spells .top 0 false [.element ⟨"template", []⟩ 0
      [.element ⟨tag, []⟩ 10 (rawChildren m.toList)]] _ :=
    spells_within isNormal_template rfl rfl (spells_within_raw hnormal hvoid hplace m)
  have hnodes : AreNormal (Place.top.inside ⟨"template", []⟩)
      [.element ⟨tag, []⟩ 10 (rawChildren m.toList)] := by
    simp [AreNormal, Node.IsNormal, hnormal, hvoid, hplace, hm]
  have hread := read_of_spells (areNormal_element isNormal_template rfl rfl hnodes) hspells
  have hchildren : compiledNodes (rawChildren m.toList) = [] := by
    unfold rawChildren
    split <;> rfl
  rw [TemplateUsage.read, hread, Except.map, ofDocument_template, hchildren,
    ofStartTags_component hcomponent]
  rfl

/-- Markup inside of a component is analysed as it is inside of a `div`, unless the tag of the
component is one of raw text but for its capitals. The markup is one by itself: it does not end in a
tag that the end tag of the `div` would finish. -/
theorem read_component {tag m : String} {usage : TemplateUsage} {children : List Node}
    (hnormal : (StartTag.mk tag []).IsNormal)
    (hcomponent : (StartTag.mk tag []).component? = some tag) (hraw : isRawText tag = false)
    (husage : TemplateUsage.read (within "template" (within "div" m)) = .ok usage)
    (hdiv : Document.read (within "template" (within "div" m)) =
      .ok ⟨[.element ⟨"template", []⟩ 0 [.element ⟨"div", []⟩ 10 children]]⟩)
    (hown : ∃ document, Document.read (within "template" m) = .ok document) :
    TemplateUsage.read (within "template" (within tag m)) =
      .ok ⟨tag :: usage.components.filter (· ≠ tag), usage.directives⟩ := by
  obtain rfl : TemplateUsage.ofStartTags (compiledNodes children) = usage := by
    rw [TemplateUsage.read, hdiv] at husage
    rw [← ofStartTags_div, ← ofDocument_template]
    exact Except.ok.inj husage
  -- both templates are read from the point behind the inner start tag on
  obtain ⟨nodes, hrun, hnodes⟩ := map_eq_ok_iff.1 (read_within_template _ ▸ hdiv)
  obtain rfl : nodes = _ := (Document.mk.inj hnodes)
  rw [(reaches_within isNormal_div rfl rfl m _).run_eq] at hrun
  obtain ⟨document, hown⟩ := hown
  obtain ⟨nodes, hownRun, -⟩ := map_eq_ok_iff.1 (read_within_template _ ▸ hown)
  obtain ⟨nodes, hownRun, -⟩ := @Progress.run_congr _ ⟨[templateFrame], []⟩ _
    (10 + byteCount ('<' :: ("div".toList ++ ['>']))) _ _ rfl hownRun
  obtain ⟨o, hinside⟩ := reachesInside_of_run hrun hownRun
  -- the content reaches the end tag of the component as it reaches that of the `div`
  have hreach : Reaches _ ⟨⟨[innerFrame tag, templateFrame], children.reverse⟩, o, _⟩ :=
    @ReachesInside.reaches (innerFrame tag) [templateFrame] _ _ _ _ _ _
      ('<' :: '/' :: (tag.toList ++ ['>']) ++ "</template>".toList) hinside
      (by simp [innerFrame, templateFrame]) rfl
  have hclose := hreach.run_eq.trans (run_within hnormal children.reverse o)
  rw [List.reverse_reverse] at hclose
  obtain ⟨nodes', hrun', houtline⟩ :=
    @Progress.run_congr _ ⟨[innerFrame tag, templateFrame], []⟩ _
      (10 + byteCount ('<' :: (tag.toList ++ ['>']))) _ _ rfl hclose
  have hread : Document.read (within "template" (within tag m)) = .ok ⟨nodes'⟩ := by
    rw [read_within_template, (reaches_within hnormal (isVoid_eq_false hcomponent) hraw m _).run_eq,
      hrun']
    rfl
  have hsame : Document.outline ⟨nodes'⟩ = Document.outline ⟨_⟩ :=
    congrArg Document.mk houtline.symm
  rw [TemplateUsage.read, hread, Except.map, ← ofDocument_outline, hsame, ofDocument_outline,
    ofDocument_template, ofStartTags_component hcomponent]

theorem read_component_form : (StartTag.mk "BForm" []).IsNormal ∧
    (StartTag.mk "BForm" []).component? = some "BForm" ∧ isRawText "BForm" = false ∧
    TemplateUsage.read (within "template" (within "div" "<b-card/>")) = .ok ⟨["b-card"], []⟩ ∧
    Document.read (within "template" (within "div" "<b-card/>")) =
      .ok ⟨[.element ⟨"template", []⟩ 0
        [.element ⟨"div", []⟩ 10 [.element ⟨"b-card", []⟩ 15 []]]]⟩ ∧
    (∃ document, Document.read (within "template" "<b-card/>") = .ok document) ∧
    TemplateUsage.read (within "template" (within "BForm" "<b-card/>")) =
      .ok ⟨["BForm", "b-card"], []⟩ := by
  have hform : (StartTag.mk "BForm" []).IsNormal := isNormal_of_all ⟨'B', rfl, rfl⟩ rfl
  have hcomponent : (StartTag.mk "BForm" []).component? = some "BForm" := by decide
  exact ⟨hform, hcomponent, rfl, usage_div_card, read_div_card, ⟨_, read_card⟩,
    read_component hform hcomponent rfl usage_div_card read_div_card ⟨_, read_card⟩⟩

theorem read_component_title : (StartTag.mk "Title" []).IsNormal ∧
    (StartTag.mk "Title" []).component? = some "Title" ∧
    TemplateUsage.read (within "template" (within "div" "<b-card/>")) = .ok ⟨["b-card"], []⟩ ∧
    Document.read (within "template" (within "div" "<b-card/>")) =
      .ok ⟨[.element ⟨"template", []⟩ 0
        [.element ⟨"div", []⟩ 10 [.element ⟨"b-card", []⟩ 15 []]]]⟩ ∧
    (∃ document, Document.read (within "template" "<b-card/>") = .ok document) ∧
    TemplateUsage.read (within "template" (within "Title" "<b-card/>")) = .ok ⟨["Title"], []⟩ := by
  have htitle : (StartTag.mk "Title" []).IsNormal := isNormal_of_all ⟨'T', rfl, rfl⟩ rfl
  have hcomponent : (StartTag.mk "Title" []).component? = some "Title" := by decide
  have hcut : cut? (endsElement "Title".toList) "<b-card/></Title>".toList =
      some ("<b-card/>".toList, "</Title>".toList) := by
    decide +kernel
  have hcontent := areRawContent_of_cut? (List.all_eq_true.1 rfl) hcut
  exact ⟨htitle, hcomponent, usage_div_card, read_div_card, ⟨_, read_card⟩,
    read_component_of_isRawText htitle hcomponent rfl hcontent⟩

/-- An unfinished end tag is no markup by itself. The end tag of a `div` finishes it, and then it
ends the `div`, but it does not end a component. -/
theorem read_unfinished :
    Document.read (within "template" (within "div" "</div x")) =
      .ok ⟨[.element ⟨"template", []⟩ 0 [.element ⟨"div", []⟩ 10 []]]⟩ ∧
    (∀ document, Document.read (within "template" "</div x") ≠ .ok document) ∧
    ∀ document, Document.read (within "template" (within "BForm" "</div x")) ≠ .ok document := by
  refine ⟨?_, fun document h => ?_, fun document h => ?_⟩
  · have hend : SpellsItem true (.endTag (String.ofList "div".toList)) "</div x</div>".toList :=
      @SpellsItem.endTag _ "div".toList " x</div".toList (by decide) (List.all_eq_true.1 rfl)
        (by decide) (by decide)
    have hdiv : Spells .compiled 10 false [.element ⟨"div", []⟩ 10 []]
        (within "div" "</div x").toList :=
      @Spells.element _ _ _ _ _ "<div>".toList [] "</div x</div>".toList [] _ _
        (spellsItem_startTag isNormal_div _) rfl rfl .nil hend
        ⟨"div".toList, [], by decide, rfl, .inl rfl⟩ .nil
    exact read_of_spells
      (areNormal_element isNormal_template rfl rfl (areNormal_element isNormal_div rfl rfl trivial))
      (spells_within isNormal_template rfl rfl hdiv)
  · rw [read_within_template] at h
    obtain ⟨nodes, hrun, -⟩ := map_eq_ok_iff.1 h
    exact Progress.run_ne_ok_of_endTag rfl
      (fun r hr => (value_of_readEndTag hr).trans (by rfl)) (by decide) nodes hrun
  · rw [read_within_template, (reaches_within (isNormal_of_all ⟨'B', rfl, rfl⟩ rfl) rfl rfl _
      _).run_eq] at h
    obtain ⟨nodes, hrun, -⟩ := map_eq_ok_iff.1 h
    exact Progress.run_ne_ok_of_endTag rfl
      (fun r hr => (value_of_readEndTag hr).trans (by rfl)) (by decide) nodes hrun

end Registrar.Markup
