import Registrar.Proofs.Markup.EndTag
import Registrar.Proofs.Markup.Frames

/-! # A source is a spelling of its tree

Whatever source the reader accepts is a spelling of the tree that it returns: nothing of the
source is lost and nothing in the tree is invented. The proof goes along the run and shows of each
reader what its open elements, innermost first, still take from the text.
-/

namespace Registrar.Markup

open Registrar.Text

variable {p : Place} {frames outer : List Frame} {f : Frame} {before result : List Node}
  {o : Nat} {b : Bool} {text rest : List Char}

def Content.place : Content → Place
  | .compiled => .compiled
  | _ => .verbatim

theorem Place.place_content (h : p ≠ .top) : p.content.place = p := by
  cases p with
  | top => exact absurd rfl h
  | compiled | verbatim => rfl

theorem Place.interpolates_eq : p.interpolates = decide (p.content = .compiled) := by
  cases p <;> rfl

theorem inPlace_cons (h : f.content ≠ .raw) : InPlace f.content.place (f :: outer) := by
  refine ⟨by cases f.content <;> simp [Content.place], ?_⟩
  cases hc : f.content <;> simp_all [Content.place, Place.content]

/-- What is left of the content of an open element: all of its raw text or nothing, or siblings. -/
def Frame.SpellsContent (f : Frame) (before : List Node) (o : Nat) (b : Bool) (nodes : List Node)
    (text : List Char) : Prop :=
  if f.content = .raw then
    before = [] ∧ nodes = rawChildren text ∨ before ≠ [] ∧ nodes = [] ∧ text = []
  else Spells f.content.place o b nodes text

/-- How the text goes on for a reader: the rest of the content and the end tag of each open
element, then the rest of the top level. The result is the finished document. -/
def Completes : List Frame → List Node → Nat → Bool → List Char → List Node → Prop
  | [], before, o, b, text, result =>
    ∃ nodes, Spells .top o b nodes text ∧ result = before.reverse ++ nodes
  | f :: outer, before, o, b, text, result =>
    ∃ nodes t name e rest, text = t ++ (e ++ rest) ∧ f.SpellsContent before o b nodes t ∧
      SpellsItem (f.content = .compiled) (.endTag name) e ∧
      Closes (f.content = .raw) f.start.tag name ∧
      Completes outer (.element f.start f.offset (before.reverse ++ nodes) :: f.before)
        (o + byteCount t + byteCount e) false rest result

/-- What holds of a reader in front of a text. Only the innermost element may be one of raw text,
and then at most its text has been read; the flag tells that a text has just ended. -/
structure Steady (q : Progress) (b : Bool) (text : List Char) : Prop where
  outer : ∀ f ∈ q.frames.tail, f.content ≠ .raw
  raw : ∀ f ∈ q.frames.head?, f.content = .raw →
    (∀ c ∈ f.start.tag.toList, isTagChar c = true) ∧
      (q.nodes = [] ∨ endsElement f.start.tag.toList text = true)
  text : b = true → endsText (q.content = .compiled) text = true

theorem InPlace.eq_interpolates (hp : InPlace p frames) :
    p.interpolates = decide ((⟨frames, before⟩ : Progress).content = .compiled) := by
  cases frames with
  | nil => obtain rfl : p = .top := hp; rfl
  | cons f frames =>
    change p.interpolates = decide (f.content = .compiled)
    rw [Place.interpolates_eq, hp.2]

/-- What is read in front of a text goes in front of what the innermost element still takes. -/
theorem Completes.cons {s : List Char} {new : List Node} {b' : Bool} (hp : InPlace p frames)
    (hs : ∀ nodes t, Spells p (o + byteCount s) b' nodes t → Spells p o b (new ++ nodes) (s ++ t))
    (h : Completes frames (new.reverse ++ before) (o + byteCount s) b' rest result) :
    Completes frames before o b (s ++ rest) result := by
  cases frames with
  | nil =>
    obtain rfl : p = .top := hp
    obtain ⟨nodes, hn, rfl⟩ := h
    exact ⟨new ++ nodes, hs _ _ hn, by simp⟩
  | cons f outer =>
    have hraw : f.content ≠ .raw := hp.2 ▸ Place.content_ne_raw
    have hplace : f.content.place = p := by rw [hp.2, Place.place_content hp.1]
    obtain ⟨nodes, t, name, e, rest, rfl, hc, he, hcl, hout⟩ := h
    rw [Frame.SpellsContent, if_neg hraw, hplace] at hc
    refine ⟨new ++ nodes, s ++ t, name, e, rest, by simp, ?_, he, hcl, ?_⟩
    · rw [Frame.SpellsContent, if_neg hraw, hplace]
      exact hs _ _ hc
    · simpa [Nat.add_assoc] using hout

theorem exists_inPlace (h : ∀ f ∈ frames.head?, f.content ≠ .raw) : ∃ p, InPlace p frames := by
  cases frames with
  | nil => exact ⟨.top, rfl⟩
  | cons f frames => exact ⟨_, inPlace_cons (h f rfl)⟩

theorem steady_of_inPlace (hp : InPlace p frames) (hout : ∀ f ∈ frames.tail, f.content ≠ .raw)
    (ht : b = true → endsText p.interpolates text = true) :
    Steady ⟨frames, before⟩ b text where
  outer := hout
  raw f hf hraw := absurd hraw (hp.head_ne_raw f hf)
  text hb := by rw [← hp.eq_interpolates]; exact ht hb

theorem steady_top (nodes : List Node) (text : List Char) : Steady ⟨[], nodes⟩ false text :=
  steady_of_inPlace rfl (by simp) (by simp)

/-! ## Steps -/

/-- What a step from one reader to another shows: the invariant goes on to hold, and what completes
the second reader, together with what the step has read, completes the first. -/
def Advances (q next : Progress) (o : Nat) (b : Bool) (text s rest : List Char)
    (result : List Node) : Prop :=
  ∃ b', Steady next b' rest ∧ (Completes next.frames next.nodes (o + byteCount s) b' rest result →
    Completes q.frames q.nodes o b text result)

theorem advances_of_spells {s : List Char} (new : List Node) (b' : Bool) (hp : InPlace p frames)
    (hst : Steady ⟨frames, before⟩ b (s ++ rest))
    (hb : b' = true → endsText p.interpolates rest = true)
    (hs : ∀ nodes t, Spells p (o + byteCount s) b' nodes t → Spells p o b (new ++ nodes) (s ++ t)) :
    Advances ⟨frames, before⟩ ⟨frames, new.reverse ++ before⟩ o b (s ++ rest) s rest result :=
  ⟨b', steady_of_inPlace hp hst.outer hb, Completes.cons hp hs⟩

theorem advances_startTag {start : StartTag} {s : List Char} (hp : InPlace p frames)
    (hst : Steady ⟨frames, before⟩ b (s ++ rest))
    (hs : SpellsItem p.interpolates (.startTag start false) s) (hv : isVoid start.tag = false) :
    Advances ⟨frames, before⟩ ((⟨frames, before⟩ : Progress).openElement start o) o b (s ++ rest) s
      rest result := by
  have hout : ∀ f ∈ frames, f.content ≠ .raw := by
    cases frames with
    | nil => simp
    | cons f frames =>
      intro g hg
      rcases List.mem_cons.1 hg with rfl | hg
      · exact hp.head_ne_raw _ rfl
      · exact hst.outer g hg
  have hcontent : (⟨frames, before⟩ : Progress).contentOf start = _ :=
    Progress.contentOf_of_inPlace hp start
  refine ⟨false, ⟨hout, ?_, by simp⟩, ?_⟩
  · intro f hf _
    obtain rfl : _ = f := by simpa [Progress.openElement] using hf
    exact ⟨hs.startTag_inv.isTagChar, .inl rfl⟩
  · rintro ⟨nodes, t, name, e, rest, rfl, hc, he, hcl, hcomp⟩
    have hcons : ∀ nodes' t', Spells p (o + byteCount (s ++ (t ++ e))) false nodes' t' →
        Spells p o b ([.element start o nodes] ++ nodes') (s ++ (t ++ e) ++ t') := by
      intro nodes' t' h
      simp only [byteCount_append, ← Nat.add_assoc] at h
      simp only [List.append_assoc, List.singleton_append]
      rw [hcontent] at he hcl
      simp only [Frame.SpellsContent, hcontent] at hc
      cases hr : p.isRaw start with
      | true =>
        simp only [hr, if_true] at hc he hcl
        obtain rfl : nodes = rawChildren t := by simpa [Progress.openElement] using hc
        exact .raw hs hv hr (by simpa using he) (by simpa using hcl) h
      | false =>
        simp only [hr, Bool.false_eq_true, if_false, Place.content_ne_raw] at hc he hcl
        rw [Place.place_content Place.inside_ne_top] at hc
        rw [← Place.interpolates_eq] at he
        exact .element hs hv hr hc he (by simpa using hcl) h
    have hall : Completes frames before o b (s ++ (t ++ e) ++ rest) result :=
      Completes.cons hp hcons (by simpa [Progress.openElement, Nat.add_assoc] using hcomp)
    simpa using hall

theorem Completes.endTag {e : List Char} (name : String)
    (he : SpellsItem (f.content = .compiled) (.endTag name) e)
    (hcl : Closes (f.content = .raw) f.start.tag name)
    (hcomp : Completes outer (.element f.start f.offset before.reverse :: f.before)
      (o + byteCount e) false rest result) :
    Completes (f :: outer) before o b (e ++ rest) result := by
  refine ⟨[], [], name, e, rest, rfl, ?_, he, hcl, by simpa using hcomp⟩
  unfold Frame.SpellsContent
  split
  · cases before with
    | nil => exact .inl ⟨rfl, rfl⟩
    | cons => exact .inr ⟨by simp, rfl, rfl⟩
  · exact .nil

theorem advances_endTag {e : List Char} (name : String) (hst : Steady ⟨f :: outer, before⟩ b text)
    (he : SpellsItem (f.content = .compiled) (.endTag name) e)
    (hcl : Closes (f.content = .raw) f.start.tag name) :
    Advances ⟨f :: outer, before⟩ (.close f outer before) o b (e ++ rest) e rest result := by
  obtain ⟨p, hp⟩ := exists_inPlace fun g hg => hst.outer g (List.mem_of_head? hg)
  have hout : ∀ g ∈ outer.tail, g.content ≠ .raw := fun g hg =>
    hst.outer g (List.mem_of_mem_tail hg)
  exact ⟨false, steady_of_inPlace hp hout (by simp), Completes.endTag name he hcl⟩

theorem advances_text {next : Progress} {r : Reading Item} (hp : InPlace p frames)
    (hne : text ≠ []) (hst : Steady ⟨frames, before⟩ b text)
    (hends : endsText p.interpolates text = false) (hr : r = readText p.interpolates text)
    (ha : (⟨frames, before⟩ : Progress).apply o r.value = .ok next) :
    Advances ⟨frames, before⟩ next o b text r.lexeme r.rest result := by
  obtain ⟨hv, hs, hrest⟩ := readText_spells p.interpolates hne
  have happ := readText_append p.interpolates text
  rw [← hr] at hv hs hrest happ
  rw [hv] at ha
  cases ha
  obtain rfl : b = false := by
    by_contra hb
    have := hst.text (by simpa using hb)
    rw [← hp.eq_interpolates, hends] at this
    exact Bool.false_ne_true this
  rw [← happ] at hst ⊢
  exact advances_of_spells [_] true hp hst (fun _ => hrest) fun _ _ h => .text (.text hs) h

/-- Whatever item is read at a place, the step keeps the invariant. -/
theorem advances_of_item {next : Progress} {r : Reading Item} (hp : InPlace p frames)
    (hne : text ≠ []) (hst : Steady ⟨frames, before⟩ b text)
    (hr : readItem p.interpolates text = .ok r)
    (ha : (⟨frames, before⟩ : Progress).apply o r.value = .ok next) :
    Advances ⟨frames, before⟩ next o b text r.lexeme r.rest result := by
  have happ := readItem_append hr
  obtain ⟨item, s, rest⟩ := r
  simp only at ha happ ⊢
  subst happ
  rcases readItem_cases hne hr with ⟨hends, heq⟩ | ⟨hends, htext, hs⟩
  · exact advances_text hp hne hst hends heq ha
  · simp only at htext hs
    cases Progress.takes_of_apply ha with
    | text => exact absurd rfl (htext _)
    | comment => exact advances_of_spells [_] false hp hst (by simp) fun _ _ h => .comment hs h
    | interpolation =>
      exact advances_of_spells [_] false hp hst (by simp) fun _ _ h => .interpolation hs h
    | declaration =>
      exact advances_of_spells [] false hp hst (by simp) fun _ _ h => .declaration hs h
    | closed hclosed =>
      exact advances_of_spells [_] false hp hst (by simp) fun _ _ h => .closed hs hclosed h
    | opened hv => exact advances_startTag hp hst hs hv
    | @endTag f outer name hframes hname =>
      cases hframes
      have hname := hname.resolve_left (hp.head_ne_raw f rfl)
      refine advances_endTag name hst ?_ ⟨name.toList, [], by simp, hname, .inl rfl⟩
      rw [hp.2, ← Place.interpolates_eq]
      exact hs

/-- In raw text the next item is the end tag of its element, or the text in front of that. -/
theorem Progress.read_raw_cases {r : Reading Item} (hraw : f.content = .raw)
    (hr : (⟨f :: outer, before⟩ : Progress).read o text = .ok r) :
    (endsElement f.start.tag.toList text = true ∧
      ∃ name, r.value = .endTag name ∧ SpellsItem false (.endTag name) r.lexeme) ∨
    endsElement f.start.tag.toList text = false ∧
      ∃ c cs, r.value = .text (String.ofList (c :: cs)) ∧ r.lexeme = c :: cs ∧
        cut? (endsElement f.start.tag.toList) text = some (c :: cs, r.rest) := by
  simp only [Progress.read, hraw, if_true] at hr
  split at hr
  · cases hr
  · next hcut =>
    have hends : endsElement f.start.tag.toList text = true := by
      rw [← append_of_cut? hcut]
      exact stop_of_cut? hcut
    have hr := mapError_eq_ok_iff.1 hr
    obtain ⟨cs, rfl⟩ := exists_of_endsElement hends
    exact .inl ⟨hends, spells_of_readEndTag false hr⟩
  · next c cs rest hcut =>
    cases hr
    have hends := not_stop_of_cut? hcut (List.suffix_refl _) (by simp)
    rw [append_of_cut? hcut] at hends
    exact .inr ⟨hends, c, cs, rfl, rfl, hcut⟩

theorem advances_of_rawItem {next : Progress} {r : Reading Item} (hraw : f.content = .raw)
    (hst : Steady ⟨f :: outer, before⟩ b text)
    (hr : (⟨f :: outer, before⟩ : Progress).read o text = .ok r)
    (ha : (⟨f :: outer, before⟩ : Progress).apply o r.value = .ok next) :
    Advances ⟨f :: outer, before⟩ next o b text r.lexeme r.rest result := by
  obtain ⟨htag, hbefore⟩ := hst.raw f rfl hraw
  rcases Progress.read_raw_cases hraw hr with ⟨hends, name, hv, he⟩ | ⟨hnot, c, cs, hv, hs, hcut⟩
  · simp only [Progress.apply, hv, hraw, decide_true, Bool.true_or, if_true] at ha
    cases ha
    rw [← Progress.read_append hr] at hst hends ⊢
    refine advances_endTag name hst ?_ ?_
    · simpa [hraw] using he
    · simpa [hraw] using closes_of_endsElement htag he hends
  · rw [hv] at ha
    cases ha
    have hends := stop_of_cut? hcut
    have hnil : before = [] := hbefore.resolve_right (by simp [hnot])
    subst hnil
    refine ⟨false, ⟨hst.outer, ?_, by simp⟩, ?_⟩
    · intro g hg _
      obtain rfl : f = g := by simpa [Progress.push] using hg
      exact ⟨htag, .inr hends⟩
    · rw [hs]
      rintro ⟨nodes, t, name, e, rest', heq, hc, he, hcl, hcomp⟩
      obtain ⟨rfl, rfl⟩ : nodes = [] ∧ t = [] := by
        simpa [Frame.SpellsContent, hraw, Progress.push] using hc
      rw [← append_of_cut? hcut, heq]
      refine ⟨rawChildren (c :: cs), c :: cs, name, e, rest', rfl, ?_, he, hcl, ?_⟩
      · simp [Frame.SpellsContent, hraw]
      · simpa [rawChildren, Progress.push] using hcomp

theorem advances_of_read {q next : Progress} {r : Reading Item} (result : List Node)
    (hne : text ≠ []) (hst : Steady q b text) (hr : q.read o text = .ok r)
    (ha : q.apply o r.value = .ok next) :
    Advances q next o b text r.lexeme r.rest result := by
  obtain ⟨frames, before⟩ := q
  by_cases hraw : ∀ f ∈ frames.head?, f.content ≠ .raw
  · obtain ⟨p, hp⟩ := exists_inPlace hraw
    rw [Progress.read_of_inPlace hp] at hr
    exact advances_of_item hp hne hst (mapError_eq_ok_iff.1 hr) ha
  · cases frames with
    | nil => simp at hraw
    | cons f outer => exact advances_of_rawItem (by simpa using hraw) hst hr ha

theorem completes_of_run {q : Progress} (hst : Steady q b text) (h : q.run o text = .ok result) :
    Completes q.frames q.nodes o b text result := by
  fun_induction Progress.run q o text generalizing b with
  | case1 q o hframes =>
    cases h
    rw [hframes]
    exact ⟨[], .nil, by simp⟩
  | case2 => cases h
  | case3 => cases h
  | case4 => cases h
  | case5 q o text hne r hr next ha ih =>
    obtain ⟨b', hst', hcomp⟩ := advances_of_read result hne hst hr ha
    exact hcomp (ih hst' h)

/-- A source is a spelling of the tree that it is read as. -/
theorem spells_of_read {source : String} {document : Document}
    (h : Document.read source = .ok document) :
    Spells .top 0 false document.nodes source.toList := by
  obtain ⟨nodes, hrun, rfl⟩ := map_eq_ok_iff.1 h
  have hst : Steady Progress.empty false source.toList := steady_top [] _
  obtain ⟨nodes', hs, rfl⟩ := completes_of_run hst hrun
  exact hs

theorem spells_of_read_declaration :
    Document.read "a<!x>b<p>1</P/>" =
        .ok ⟨[.text "a", .text "b", .element ⟨"p", []⟩ 6 [.text "1"]]⟩ ∧
      Spells .top 0 false [.text "a", .text "b", .element ⟨"p", []⟩ 6 [.text "1"]]
        "a<!x>b<p>1</P/>".toList := by
  have hrun : Progress.empty.run 0
      ['a', '<', '!', 'x', '>', 'b', '<', 'p', '>', '1', '<', '/', 'P', '/', '>'] =
      .ok [.text "a", .text "b", .element ⟨"p", []⟩ 6 [.text "1"]] := by
    have hstart : readStartTag ['p', '>', '1', '<', '/', 'P', '/', '>'] =
        .ok ⟨.startTag ⟨"p", []⟩ false, ['<', 'p', '>'], ['1', '<', '/', 'P', '/', '>']⟩ := by
      simp [readStartTag, readAttributes, isTagChar, isBlank, Except.map]
    have hread : (⟨[], [.text "b", .text "a"]⟩ : Progress).read 6
        ['<', 'p', '>', '1', '<', '/', 'P', '/', '>'] =
        .ok ⟨.startTag ⟨"p", []⟩ false, ['<', 'p', '>'], ['1', '<', '/', 'P', '/', '>']⟩ := by
      simp [Progress.read, readItem, hstart, Except.mapError]
    calc
      _ = (⟨[], [.text "a"]⟩ : Progress).run 1
          ['<', '!', 'x', '>', 'b', '<', 'p', '>', '1', '<', '/', 'P', '/', '>'] :=
        Progress.run_of_read (r := ⟨.text "a", ['a'], _⟩) (List.cons_ne_nil _ _) rfl rfl
      _ = (⟨[], [.text "a"]⟩ : Progress).run 5
          ['b', '<', 'p', '>', '1', '<', '/', 'P', '/', '>'] :=
        Progress.run_of_read (r := ⟨.declaration, ['<', '!', 'x', '>'], _⟩)
          (List.cons_ne_nil _ _) rfl rfl
      _ = (⟨[], [.text "b", .text "a"]⟩ : Progress).run 6
          ['<', 'p', '>', '1', '<', '/', 'P', '/', '>'] :=
        Progress.run_of_read (r := ⟨.text "b", ['b'], _⟩) (List.cons_ne_nil _ _) rfl rfl
      _ = _ := Progress.run_of_read (List.cons_ne_nil _ _) hread rfl
      _ = _ := Progress.run_of_read (List.cons_ne_nil _ _) rfl rfl
      _ = _ := Progress.run_of_read (List.cons_ne_nil _ _) rfl rfl
      _ = _ := Progress.run_nil
  have h : Document.read "a<!x>b<p>1</P/>" =
      .ok ⟨[.text "a", .text "b", .element ⟨"p", []⟩ 6 [.text "1"]]⟩ := by
    simp [Document.read, hrun, Except.map]
  exact ⟨h, spells_of_read h⟩

end Registrar.Markup
