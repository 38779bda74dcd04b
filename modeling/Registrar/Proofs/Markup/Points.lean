import Mathlib.Logic.Relation
import Registrar.Proofs.Markup.Completeness
import Registrar.Proofs.Markup.Soundness
import Registrar.Proofs.Text.Slice

/-! # Points of a run

A reader in front of the rest of a source is a point of its run, and each item read leads to the
next point. A point is reached whatever comes behind it, as long as no text ends elsewhere: behind
an item that is not text everything may come, behind a text the first two characters count.
-/

namespace Registrar.Markup

open Registrar.Text

structure Point where
  progress : Progress
  offset : Nat
  text : List Char

inductive Step : Point → Point → Prop
  | mk {p next : Progress} {o : Nat} {text : List Char} {r : Reading Item} :
      text ≠ [] → p.read o text = .ok r → p.apply o r.value = .ok next →
      Step ⟨p, o, text⟩ ⟨next, o + byteCount r.lexeme, r.rest⟩

def Reaches : Point → Point → Prop := Relation.ReflTransGen Step

variable {p next : Progress} {o : Nat} {b : Bool} {text rest rest' : List Char} {s t w : Point}
  {f : Frame} {outer : List Frame} {before : List Node} {r : Reading Item}

/-! ## Reaching points -/

/-- A run passes what it reads, and offsets count the bytes of it. -/
theorem Reaches.exists_passed (h : Reaches s t) :
    ∃ x, s.text = x ++ t.text ∧ t.offset = s.offset + byteCount x := by
  induction h using Relation.ReflTransGen.head_induction_on with
  | refl => exact ⟨[], rfl, rfl⟩
  | head hstep _ ih =>
    obtain ⟨x, hx, ho⟩ := ih
    cases hstep with
    | @mk _ _ _ _ r _ hr _ =>
      refine ⟨r.lexeme ++ x, ?_, ?_⟩
      · rw [List.append_assoc, ← hx, Progress.read_append hr]
      · rw [ho, byteCount_append, Nat.add_assoc]

theorem Reaches.exists_append (h : Reaches s t) : ∃ x, s.text = x ++ t.text := by
  obtain ⟨x, hx, -⟩ := h.exists_passed
  exact ⟨x, hx⟩

theorem Reaches.offset_add (h : Reaches s t) :
    t.offset + byteCount t.text = s.offset + byteCount s.text := by
  obtain ⟨x, hx, ho⟩ := h.exists_passed
  rw [hx, ho, byteCount_append, Nat.add_assoc]

theorem Reaches.offset_le (h : Reaches s t) : s.offset ≤ t.offset := by
  obtain ⟨x, -, ho⟩ := h.exists_passed
  omega

theorem Reaches.stands {source : List Char} (h : Reaches s t)
    (hs : Stands source s.offset s.text) : Stands source t.offset t.text := by
  obtain ⟨x, hx, ho⟩ := h.exists_passed
  rw [hx] at hs
  rw [ho]
  exact hs.advance

/-- A source is read as the rest of it is read at a point that is reached. -/
theorem Reaches.run_eq (h : Reaches s t) :
    s.progress.run s.offset s.text = t.progress.run t.offset t.text := by
  induction h using Relation.ReflTransGen.head_induction_on with
  | refl => rfl
  | head hstep _ ih =>
    rw [← ih]
    cases hstep with
    | mk hne hr ha => exact Progress.run_of_read hne hr ha

theorem exists_inPlace_of_content (h : p.content ≠ .raw) : ∃ place, InPlace place p.frames := by
  refine exists_inPlace fun f hf => ?_
  obtain ⟨frames, nodes⟩ := p
  obtain ⟨outer, rfl⟩ := List.head?_eq_some_iff.1 (Option.mem_def.1 hf)
  exact h

/-- An item that is not text is read whatever comes after it. -/
theorem step_of_spells {item : Item} {s : List Char} (hp : p.content ≠ .raw)
    (hs : SpellsItem (p.content = .compiled) item s) (ht : ∀ t, item ≠ .text t)
    (ha : p.apply o item = .ok next) (rest : List Char) :
    Step ⟨p, o, s ++ rest⟩ ⟨next, o + byteCount s, rest⟩ := by
  obtain ⟨place, hplace⟩ := exists_inPlace_of_content hp
  have hinterpolates : place.interpolates = decide (p.content = .compiled) :=
    hplace.eq_interpolates
  rw [← hinterpolates] at hs
  have hread : p.read o (s ++ rest) = .ok ⟨item, s, rest⟩ := by
    rw [show p = ⟨p.frames, p.nodes⟩ from rfl, Progress.read_of_inPlace hplace,
      readItem_of_spells hs ht]
    rfl
  exact .mk (r := ⟨item, s, rest⟩) (by simp [hs.ne_nil]) hread ha

theorem reaches_of_spells {item : Item} {s : List Char} (hp : p.content ≠ .raw)
    (hs : SpellsItem (p.content = .compiled) item s) (ht : ∀ t, item ≠ .text t)
    (ha : p.apply o item = .ok next) (rest : List Char) :
    Reaches ⟨p, o, s ++ rest⟩ ⟨next, o + byteCount s, rest⟩ :=
  .single (step_of_spells hp hs ht ha rest)

/-! ## Templates -/

def Progress.inTemplate (nodes : List Node) (o : Nat) : Progress :=
  ⟨[⟨⟨"template", []⟩, o, .compiled, nodes⟩], []⟩

section

variable {item : Item} {node : Node} {start : StartTag} {s : List Char} {nodes : List Node}

theorem steps_template (node : Node) (nodes : List Node) (o : Nat)
    (hs : SpellsItem true item s) (ht : ∀ t, item ≠ .text t)
    (ha : (Progress.inTemplate nodes o).apply (o + 10) item =
      .ok ((Progress.inTemplate nodes o).push node)) (rest : List Char) :
    Step ⟨⟨[], nodes⟩, o, "<template>".toList ++ (s ++ ("</template>".toList ++ rest))⟩
        ⟨.inTemplate nodes o, o + 10, s ++ ("</template>".toList ++ rest)⟩ ∧
      Step ⟨.inTemplate nodes o, o + 10, s ++ ("</template>".toList ++ rest)⟩
        ⟨(Progress.inTemplate nodes o).push node, o + 10 + byteCount s,
          "</template>".toList ++ rest⟩ ∧
      Step ⟨(Progress.inTemplate nodes o).push node, o + 10 + byteCount s,
          "</template>".toList ++ rest⟩
        ⟨⟨[], .element ⟨"template", []⟩ o [node] :: nodes⟩, o + 10 + byteCount s + 11, rest⟩ := by
  have htemplate : SpellsStartTag ⟨"template", []⟩ false "<template>".toList :=
    @SpellsStartTag.mk _ _ 't' "emplate".toList _ rfl (List.all_eq_true.1 rfl) (by decide) .close
  have hend : SpellsItem true (.endTag "template") "</template>".toList :=
    @SpellsItem.endTag _ "template".toList [] (by decide) (List.all_eq_true.1 rfl) (by decide)
      (by decide)
  refine ⟨?_, ?_, ?_⟩
  · exact step_of_spells (p := ⟨[], nodes⟩) nofun (.startTag htemplate) (by simp) rfl _
  · exact step_of_spells (p := .inTemplate nodes o) nofun hs ht ha _
  · exact step_of_spells (p := (Progress.inTemplate nodes o).push node) nofun hend (by simp)
      (by simp +decide [Progress.inTemplate, Progress.push, Progress.apply, Progress.close]) rest

theorem reaches_template (hs : SpellsStartTag start true s) (nodes : List Node) (o : Nat)
    (rest : List Char) :
    Reaches ⟨⟨[], nodes⟩, o, "<template>".toList ++ (s ++ ("</template>".toList ++ rest))⟩
      ⟨⟨[], .element ⟨"template", []⟩ o [.element start (o + 10) []] :: nodes⟩,
        o + 10 + byteCount s + 11, rest⟩ := by
  obtain ⟨hopen, hinside, hclose⟩ :=
    steps_template (.element start (o + 10) []) nodes o (.startTag hs) (by simp) rfl rest
  exact .head hopen (.head hinside (.single hclose))

theorem read_template {source : String} (hs : SpellsItem true item s) (ht : ∀ t, item ≠ .text t)
    (ha : (Progress.inTemplate [] 0).apply 10 item = .ok ((Progress.inTemplate [] 0).push node))
    (hsource : source.toList = "<template>".toList ++ (s ++ "</template>".toList)) :
    Document.read source = .ok ⟨[.element ⟨"template", []⟩ 0 [node]]⟩ := by
  obtain ⟨hopen, hinside, hclose⟩ := steps_template node [] 0 hs ht ha []
  have hreach : Reaches _ _ := .head hopen (.head hinside (.single hclose))
  rw [List.append_nil, ← hsource] at hreach
  rw [Document.read, Progress.empty, hreach.run_eq, Progress.run_nil]
  rfl

end

/-! ## Steps of a run -/

theorem Step.unique {u : Point} (h : Step s t) (hu : Step s u) : t = u := by
  cases h with
  | mk _ hr ha =>
    cases hu with
    | mk _ hr' ha' =>
      obtain rfl := Except.ok.inj (hr.symm.trans hr')
      obtain rfl := Except.ok.inj (ha.symm.trans ha')
      rfl

/-- An accepted text is read to its end, where no element is open. -/
theorem exists_reaches_of_run {nodes : List Node} (h : p.run o text = .ok nodes) :
    Reaches ⟨p, o, text⟩ ⟨⟨[], nodes.reverse⟩, o + byteCount text, []⟩ := by
  fun_induction Progress.run p o text with
  | case1 p o hframes =>
    obtain ⟨frames, before⟩ := p
    obtain rfl : frames = [] := hframes
    cases h
    rw [List.reverse_reverse]
    exact .refl
  | case2 => cases h
  | case3 => cases h
  | case4 => cases h
  | case5 p o text hne r hr next ha ih =>
    have hrest := ih h
    rw [Nat.add_assoc, ← byteCount_append, Progress.read_append hr] at hrest
    exact .head (.mk hne hr ha) hrest

/-! ## What comes behind -/

theorem take_append_congr (h : rest.take 2 = rest'.take 2) (a : List Char) :
    (a ++ rest).take 2 = (a ++ rest').take 2 := by
  have htake (text : List Char) : text.take (2 - a.length) = (text.take 2).take (2 - a.length) := by
    rw [List.take_take, Nat.min_eq_left (Nat.sub_le _ _)]
  rw [List.take_append, List.take_append, htake, h, ← htake]

theorem endsText_congr {text' : List Char} (h : text.take 2 = text'.take 2) (i : Bool) :
    endsText i text = endsText i text' := by
  have htake (text : List Char) : endsText i (text.take 2) = endsText i text := by
    match text with
    | [] => rfl
    | [_] => rfl
    | _ :: _ :: _ =>
      unfold endsText
      split <;> split <;> simp_all
  rw [← htake, h, htake]

/-- A text in front of the one ends where it ends in front of the other. -/
def EndsAlike (a c : List Char) : Prop := ∀ i u, endsText i (u ++ a) = endsText i (u ++ c)

theorem endsAlike_of_take (h : rest.take 2 = rest'.take 2) : EndsAlike rest rest' := by
  intro i u
  exact endsText_congr (take_append_congr h u) i

theorem EndsAlike.append (h : EndsAlike rest rest') (x : List Char) :
    EndsAlike (x ++ rest) (x ++ rest') := by
  intro i u
  rw [← List.append_assoc, ← List.append_assoc]
  exact h i (u ++ x)

theorem endsAlike_nil {c : Char} (hc : startsMarkup c = true) (cs : List Char) :
    EndsAlike [] ('<' :: c :: cs) := by
  intro i u
  match u with
  | [] => exact hc.symm
  | [x] =>
    -- one character in front of `<` begins neither markup nor an interpolation
    have hlt : startsMarkup '<' = false := by decide
    have hend : endsText i [x] = false := by
      unfold endsText
      split <;> simp_all
    have hmarkup : endsText i (x :: '<' :: c :: cs) = false := by
      unfold endsText
      split <;> grind
    exact hend.trans hmarkup.symm
  | x :: y :: u => exact endsText_congr (by simp) i

theorem not_endsText_of_readText {i : Bool} (h : endsText i text = false) {u : List Char}
    (hu : u <:+ (readText i text).lexeme) (hne : u ≠ []) :
    endsText i (u ++ (readText i text).rest) = false := by
  cases text with
  | nil => cases h
  | cons c cs =>
    simp only [readText] at hu ⊢
    split at hu
    · next hcut => exact absurd (cut?_eq_none_iff.1 hcut [] cs.nil_suffix) (by simp [endsText])
    · next before rest hcut =>
      simp only
      rcases List.suffix_cons_iff.1 hu with rfl | hu
      · rwa [List.cons_append, append_of_cut? hcut]
      · exact not_stop_of_cut? hcut hu hne

/-- Reading an item depends on what comes behind only by where a text ends. -/
theorem readItem_congr {place : Place} (hne : text ≠ [])
    (hr : readItem place.interpolates text = .ok r)
    (hends : (∃ c, r.value = .text c) → EndsAlike r.rest rest') :
    readItem place.interpolates (r.lexeme ++ rest') = .ok ⟨r.value, r.lexeme, rest'⟩ := by
  rcases readItem_cases hne hr with ⟨htext, rfl⟩ | ⟨-, htext, hs⟩
  · obtain ⟨hv, hlexeme, hrest⟩ := readText_spells place.interpolates hne
    have halike := hends ⟨_, hv⟩
    rw [hv]
    refine readItem_of_plain hlexeme (fun u hu hu' => ?_) ((halike _ []).symm.trans hrest)
    rw [← halike]
    exact not_endsText_of_readText htext hu hu'
  · exact readItem_of_spells hs htext rest'

theorem endTag_of_read (hf : f.content = .raw)
    (hends : endsElement f.start.tag.toList text = true)
    (hr : (⟨f :: outer, before⟩ : Progress).read o text = .ok r) :
    ∃ name, r.value = .endTag name ∧ SpellsItem false (.endTag name) r.lexeme := by
  rcases Progress.read_raw_cases hf hr with ⟨-, htag⟩ | ⟨hnot, -⟩
  · exact htag
  · rw [hends] at hnot
    cases hnot

theorem Reaches.exists_endTag (h : Reaches ⟨⟨f :: outer, before⟩, o, text⟩ t)
    (hf : f.content = .raw) (hends : endsElement f.start.tag.toList text = true)
    (ht : t.progress.content ≠ .raw) :
    ∃ name e x, text = e ++ (x ++ t.text) ∧ SpellsItem false (.endTag name) e := by
  rcases Relation.ReflTransGen.cases_head h with rfl | ⟨next, hstep, hrest⟩
  · exact absurd hf ht
  · cases hstep with
    | @mk _ next _ _ r _ hr _ =>
      obtain ⟨name, -, he⟩ := endTag_of_read hf hends hr
      obtain ⟨x, hx⟩ := Reaches.exists_append hrest
      exact ⟨name, r.lexeme, x, by rw [← hx, Progress.read_append hr], he⟩

theorem read_raw_congr {x : List Char} (hf : f.content = .raw)
    (htag : ∀ c ∈ f.start.tag.toList, isTagChar c = true)
    (hr : (⟨f :: outer, before⟩ : Progress).read o text = .ok r)
    (ha : (⟨f :: outer, before⟩ : Progress).apply o r.value = .ok next)
    (hreach : Reaches ⟨next, o + byteCount r.lexeme, r.rest⟩ t) (ht : t.progress.content ≠ .raw)
    (hx : r.rest = x ++ t.text) :
    (⟨f :: outer, before⟩ : Progress).read o (r.lexeme ++ (x ++ rest')) =
      .ok ⟨r.value, r.lexeme, x ++ rest'⟩ := by
  rcases Progress.read_raw_cases hf hr with ⟨hends, name, hv, he⟩ | ⟨-, c, cs, hv, hs, hcut⟩
  · rw [← Progress.read_append hr] at hends
    have hends' := endsElement_of_closes he (closes_of_endsElement htag he hends) (x ++ rest')
    have hcut' : cut? (endsElement f.start.tag.toList) (r.lexeme ++ (x ++ rest')) =
        some ([], r.lexeme ++ (x ++ rest')) := cut?_append (a := []) hends' (by simp)
    simp only [Progress.read, hf, if_true, hcut', readItem_of_spells he (by simp), hv]
    rfl
  · rw [hv] at ha
    cases ha
    have hends := stop_of_cut? hcut
    obtain ⟨name, e, y, htext, he⟩ := hreach.exists_endTag hf hends ht
    obtain rfl : x = e ++ y := by
      rw [htext, ← List.append_assoc] at hx
      exact (List.append_cancel_right hx).symm
    rw [htext] at hends
    have hcut' := cut?_rawContent htag (areRawContent_of_cut? htag hcut) he
      (closes_of_endsElement htag he hends) (y ++ rest')
    simp only [Progress.read, hf, if_true, hv, hs, List.append_assoc, hcut']

theorem Reaches.exists_steady (h : Reaches s t) (hst : Steady s.progress b s.text) :
    ∃ b', Steady t.progress b' t.text := by
  induction h using Relation.ReflTransGen.head_induction_on generalizing b with
  | refl => exact ⟨b, hst⟩
  | head hstep _ ih =>
    cases hstep with
    | mk hne hr ha =>
      obtain ⟨b', hst', -⟩ := advances_of_read [] hne hst hr ha
      exact ih hst'

/-- A step is taken whatever comes behind, as long as a text that it reads ends there, too. -/
theorem read_congr_rest {x y : List Char} (hst : Steady p b text) (hne : text ≠ [])
    (hr : p.read o text = .ok r) (ha : p.apply o r.value = .ok next)
    (hreach : Reaches ⟨next, o + byteCount r.lexeme, r.rest⟩ t) (ht : t.progress.content ≠ .raw)
    (hx : r.rest = x ++ t.text)
    (hends : (∃ c, r.value = .text c) → EndsAlike r.rest (x ++ y)) :
    p.read o (r.lexeme ++ (x ++ y)) = .ok ⟨r.value, r.lexeme, x ++ y⟩ := by
  obtain ⟨frames, nodes⟩ := p
  by_cases hraw : ∀ f ∈ frames.head?, f.content ≠ .raw
  · obtain ⟨place, hplace⟩ := exists_inPlace hraw
    rw [Progress.read_of_inPlace hplace] at hr ⊢
    rw [readItem_congr hne (mapError_eq_ok_iff.1 hr) hends]
    rfl
  · cases frames with
    | nil => simp at hraw
    | cons f outer =>
      have hf : f.content = .raw := by simpa using hraw
      exact read_raw_congr hf (hst.raw f rfl hf).1 hr ha hreach ht hx

theorem Progress.lexeme_ne_nil_of_read (hne : text ≠ []) (hr : p.read o text = .ok r) :
    r.lexeme ≠ [] := by
  intro hnil
  have hlength := Progress.read_length hne hr
  rw [← Progress.read_append hr, hnil] at hlength
  exact Nat.lt_irrefl _ hlength

/-- A point on the way to one outside of raw text is reached whatever comes behind, if texts end
there as before. -/
theorem Reaches.congr {l x : List Char} (h : Reaches s w) (hw : Reaches w t)
    (hst : Steady s.progress b s.text) (ht : t.progress.content ≠ .raw)
    (hl : w.text = l ++ t.text) (hx : s.text = x ++ w.text)
    (hends : EndsAlike w.text (l ++ rest')) :
    Reaches ⟨s.progress, s.offset, x ++ (l ++ rest')⟩ ⟨w.progress, w.offset, l ++ rest'⟩ := by
  induction h using Relation.ReflTransGen.head_induction_on generalizing x b with
  | refl =>
    obtain rfl : x = [] := by simpa using hx
    exact .refl
  | head hstep hreach ih =>
    obtain ⟨y, hy⟩ := Reaches.exists_append hreach
    cases hstep with
    | @mk p next o text r hne hr ha =>
      obtain ⟨b', hst', -⟩ := advances_of_read [] hne hst hr ha
      simp only at hx hy
      obtain rfl : x = r.lexeme ++ y := by
        rw [← Progress.read_append hr, hy, ← List.append_assoc] at hx
        exact (List.append_cancel_right hx).symm
      have hread := read_congr_rest (x := y ++ l) (y := rest') hst hne hr ha
        (hreach.trans hw) ht (by rw [hy, hl, List.append_assoc])
        (fun _ => by rw [hy, List.append_assoc]; exact hends.append y)
      rw [List.append_assoc] at hread ⊢
      exact .head (.mk (by simp [Progress.lexeme_ne_nil_of_read hne hr]) hread ha) (ih hst' hy)

theorem SpellsItem.two_le_length {i : Bool} {item : Item} {s : List Char}
    (h : SpellsItem i item s) (htext : ∀ content, item ≠ .text content) : 2 ≤ s.length := by
  cases h with
  | text => exact absurd rfl (htext _)
  | startTag h =>
    cases h
    simp
  | _ => simp

theorem exists_spells_of_read (hne : text ≠ []) (hr : p.read o text = .ok r)
    (htext : ∀ content, r.value ≠ .text content) : ∃ i, SpellsItem i r.value r.lexeme := by
  have hitem (i : Bool) (h : (readItem i text).mapError (fun c => (⟨c, o⟩ : Fault)) = .ok r) :
      SpellsItem i r.value r.lexeme := by
    rcases readItem_cases hne (mapError_eq_ok_iff.1 h) with ⟨-, rfl⟩ | ⟨-, -, hs⟩
    · obtain ⟨hv, -⟩ := readText_spells i hne
      exact absurd hv (htext _)
    · exact hs
  obtain ⟨frames, nodes⟩ := p
  cases frames with
  | nil => exact ⟨_, hitem _ hr⟩
  | cons f outer =>
    simp only [Progress.read] at hr
    split at hr
    · split at hr
      · cases hr
      · exact ⟨_, hitem _ hr⟩
      · cases hr
        exact absurd rfl (htext _)
    · exact ⟨_, hitem _ hr⟩

/-- What was read up to the end of an item that is not text is read so in every longer source. -/
theorem Reaches.congr_item (h : Reaches s ⟨p, o, text⟩) (hst : Steady s.progress b s.text)
    (hne : text ≠ []) (hr : p.read o text = .ok r) (htext : ∀ content, r.value ≠ .text content)
    (ha : p.apply o r.value = .ok next) (hnext : next.content ≠ .raw) (more : List Char) :
    Reaches ⟨s.progress, s.offset, s.text ++ more⟩
      ⟨next, o + byteCount r.lexeme, r.rest ++ more⟩ := by
  obtain ⟨x, hx⟩ := h.exists_append
  have happ := Progress.read_append hr
  obtain ⟨i, hs⟩ := exists_spells_of_read hne hr htext
  have htwo := hs.two_le_length htext
  have hends : EndsAlike text (r.lexeme ++ (r.rest ++ more)) := by
    refine endsAlike_of_take ?_
    rw [← happ, List.take_append_of_le_length htwo, List.take_append_of_le_length htwo]
  obtain ⟨b', hst'⟩ := h.exists_steady hst
  have hread := read_congr_rest (x := []) (y := r.rest ++ more) hst' hne hr ha .refl hnext rfl
    fun ⟨content, hv⟩ => absurd hv (htext content)
  have hreach := h.congr (.single (.mk hne hr ha)) hst hnext happ.symm hx hends
  have hstep := Step.mk (by simp [Progress.lexeme_ne_nil_of_read hne hr]) hread ha
  simp only [List.nil_append] at hstep
  have hall := hreach.tail hstep
  simp only at hx
  rwa [← List.append_assoc r.lexeme, happ, ← List.append_assoc, ← hx] at hall

theorem Reaches.congr_rest (h : Reaches s t) (hst : Steady s.progress b s.text)
    (ht : t.progress.content ≠ .raw) {x : List Char} (hx : s.text = x ++ t.text)
    (htake : t.text.take 2 = rest'.take 2) :
    Reaches ⟨s.progress, s.offset, x ++ rest'⟩ ⟨t.progress, t.offset, rest'⟩ :=
  h.congr (l := []) .refl hst ht rfl hx (endsAlike_of_take htake)

end Registrar.Markup
