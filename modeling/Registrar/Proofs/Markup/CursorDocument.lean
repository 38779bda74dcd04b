import Registrar.Proofs.Markup.CursorSearch

/-! # Documents by byte offsets

The reader by offsets follows the tree where the reader of characters keeps a list of open
elements. From every place between characters on, both build the same nodes or find the same
fault: no slice is missing, no byte is looked for behind the end, and no loop stands still.
-/

namespace Registrar.Markup.Cursor

open Registrar.Text

variable {source text rest : List Char} {pos offset : Nat} {parent : Option OpenElement}
  {nodes : List Node} {interpolates : Bool}

def itemTurn (source : List Char) (parent : Option OpenElement) (nodes : List Node)
    (offset : Nat) : Item × Nat → Except Halt Turn
  | (.text content, next) => .ok (.again (.text content :: nodes) next)
  | (.comment content, next) => .ok (.again (.comment content :: nodes) next)
  | (.interpolation content, next) => .ok (.again (.interpolation content :: nodes) next)
  | (.declaration, next) => .ok (.again nodes next)
  | (.startTag _ _, _) => .ok .element
  | (.endTag name, next) =>
    match parent with
    | some element =>
      if lowerName name.toList = lowerName element.tag.toList then .ok (.leave next)
      else .error (faultAt source offset (.mismatchedEndTag name element.tag))
    | none => .error (faultAt source offset (.unexpectedEndTag name))

theorem isPrefixOf_eq_false {mark : List Char} (h : ∀ t, text ≠ mark ++ t) :
    mark.isPrefixOf text = false := by
  rw [← Bool.not_eq_true, List.isPrefixOf_iff_prefix]
  rintro ⟨t, rfl⟩
  exact h t rfl

theorem isPrefixOf_of_endsText {d : Char} {mark : List Char}
    (hends : endsText interpolates text = false) (hd : startsMarkup d = true) :
    ('<' :: d :: mark).isPrefixOf text = false := by
  refine isPrefixOf_eq_false fun t ht => ?_
  rw [ht] at hends
  exact absurd hends (by simp [endsText, hd])

theorem peek_isAlphaByte (h : Stands source pos text)
    (hends : endsText interpolates text = false) :
    (['<'].isPrefixOf text && (peek source (pos + 1)).any isAlphaByte) = false := by
  by_cases hlt : ['<'].isPrefixOf text = true
  · obtain ⟨t, rfl⟩ := List.isPrefixOf_iff_prefix.1 hlt
    have hnext : Stands source (pos + 1) t := h.tail (by decide)
    rw [hlt, Bool.true_and]
    cases t with
    | nil => rw [peek_nil hnext]; rfl
    | cons c t =>
      obtain ⟨byte, hb, hpeek⟩ := peek_cons hnext
      have hc : startsMarkup c = false := hends
      rw [hpeek, Option.any_some, isAlphaByte_eq hb]
      exact (Bool.or_eq_false_iff.1 (Bool.or_eq_false_iff.1 (Bool.or_eq_false_iff.1 hc).1).1).1
  · rw [Bool.not_eq_true] at hlt
    rw [hlt, Bool.false_and]

theorem childrenTurn_text (h : Stands source pos text) (hne : text ≠ [])
    (hends : endsText (parent.any (!·.verbatim)) text = false) :
    childrenTurn source parent nodes pos =
      (answer source pos pos (readItem (parent.any (!·.verbatim)) text)).bind
        (itemTurn source parent nodes pos) := by
  have hbrace : (['{', '{'].isPrefixOf text && parent.any (!·.verbatim)) = false := by
    rw [← Bool.not_eq_true, Bool.and_eq_true, List.isPrefixOf_iff_prefix]
    rintro ⟨⟨t, rfl⟩, hi⟩
    exact absurd hends (by simp [endsText, hi])
  have hempty : text.isEmpty = false := by simpa using hne
  rw [readItem_eq_readText hends, childrenTurn.eq_def]
  simp only [atEnd_eq h, startsWith_eq h, ok_bind, hempty, hbrace, peek_isAlphaByte h hends,
    isPrefixOf_of_endsText hends (d := '!') rfl, isPrefixOf_of_endsText hends (d := '?') rfl,
    isPrefixOf_of_endsText hends (d := '/') rfl, Bool.or_false, Bool.false_eq_true, if_false]
  obtain ⟨c, t, rfl⟩ := List.exists_cons_of_ne_nil hne
  rw [← parseText_eq _ h]
  cases parseText source (parent.any (!·.verbatim)) pos <;> rfl

theorem childrenTurn_eq (h : Stands source pos text) (hne : text ≠ [])
    (hstart : ¬ ∃ c cs, text = '<' :: c :: cs ∧ c.isAlpha = true) :
    childrenTurn source parent nodes pos =
      (answer source pos pos (readItem (parent.any (!·.verbatim)) text)).bind
        (itemTurn source parent nodes pos) := by
  by_cases hends : endsText (parent.any (!·.verbatim)) text = false
  · exact childrenTurn_text h hne hends
  have hturn := childrenTurn.eq_def source parent nodes pos
  simp only [atEnd_eq h, startsWith_eq h, fail_eq h, ok_bind] at hturn
  rw [hturn]
  clear hturn
  generalize hitem : readItem _ text = item
  unfold readItem at hitem
  split at hitem
  · rw [← hitem, ← parseEnclosed_eq h]
    cases parseEnclosed source ['<', '!', '-', '-'] ['-', '-', '>'] .unterminatedComment pos <;> rfl
  · rw [← hitem, ← parseEndTag_eq h]
    cases parseEndTag source pos with
    | error halt => rfl
    | ok p => cases parent <;> rfl
  · next cs hbang =>
    have hcomment : ['<', '!', '-', '-'].isPrefixOf ('<' :: '!' :: cs) = false :=
      isPrefixOf_eq_false fun t ht => hbang t (by simpa using ht)
    rw [← hitem, ← parseDeclaration_eq h (by decide) (by decide), hcomment]
    cases parseDeclaration source pos <;> rfl
  · rw [← hitem, ← parseDeclaration_eq h (by decide) (by decide)]
    cases parseDeclaration source pos <;> rfl
  · split at hitem
    · next c cs _ _ _ _ hc => exact absurd ⟨c, cs, rfl, hc⟩ hstart
    · refine absurd ?_ hends
      simp_all [endsText, startsMarkup]
  · split at hitem
    · next hi =>
      rw [← hitem, ← parseEnclosed_eq h, hi]
      cases parseEnclosed source ['{', '{'] ['}', '}'] .unterminatedInterpolation pos <;> rfl
    · next hi => exact absurd (by simpa [endsText] using hi) hends
  · refine absurd ?_ hends
    unfold endsText
    split <;> simp_all

theorem childrenTurn_element {c : Char} (h : Stands source pos ('<' :: c :: text))
    (hc : c.isAlpha = true) : childrenTurn source parent nodes pos = .ok .element := by
  obtain ⟨byte, hb, hpeek⟩ := peek_cons (h.tail (by decide))
  have hne : ∀ d : Char, d.isAlpha = false → (d == c) = false := by
    intro d hd
    rw [beq_eq_false_iff_ne]
    rintro rfl
    rw [hc] at hd
    cases hd
  rw [childrenTurn.eq_def]
  simp only [atEnd_eq h, startsWith_eq h, ok_bind, List.isPrefixOf_cons_cons, hne '!' rfl,
    hne '/' rfl, hne '?' rfl, hpeek, Option.any_some, isAlphaByte_eq hb, hc]
  rfl

theorem childrenTurn_nil (h : Stands source pos [])
    (hparent : ∀ element ∈ parent, ∃ t, Stands source element.offset t) :
    childrenTurn source parent nodes pos =
      match parent with
      | some element => .error (faultAt source element.offset (.missingEndTag element.tag))
      | none => .ok (.leave pos) := by
  rw [childrenTurn.eq_def, atEnd_eq h]
  cases parent with
  | none => rfl
  | some element =>
    obtain ⟨t, ht⟩ := hparent element rfl
    exact fail_eq ht _

/-! ## Open elements -/

variable {p : Place} {frames : List Frame} {α : Type}

def parentOf : List Frame → Option OpenElement
  | [] => none
  | f :: _ => some ⟨f.start.tag, f.offset, f.content = .verbatim⟩

theorem parentOf_interpolates (hp : InPlace p frames) :
    (parentOf frames).any (!·.verbatim) = p.interpolates := by
  cases frames with
  | nil => obtain rfl : p = .top := hp; rfl
  | cons f frames =>
    obtain ⟨htop, hc⟩ := hp
    cases p <;> simp_all [parentOf, Place.content, Place.interpolates]

theorem parentOf_isNone (hp : InPlace p frames) : (parentOf frames).isNone = (p = .top : Bool) := by
  cases frames with
  | nil => obtain rfl : p = .top := hp; rfl
  | cons f frames => exact (decide_eq_false hp.1).symm

theorem parentOf_verbatim (hp : InPlace p frames) :
    (parentOf frames).any (·.verbatim) = (p = .verbatim : Bool) := by
  cases frames with
  | nil => obtain rfl : p = .top := hp; rfl
  | cons f frames =>
    obtain ⟨htop, hc⟩ := hp
    cases p <;> simp_all [parentOf, Place.content]

theorem isRaw_iff {start : StartTag} :
    (if (p = .top : Bool) = true then start.tag ≠ templateTag else isRawText start.tag = true) ↔
      p.isRaw start = true := by
  cases p <;> simp [Place.isRaw]

theorem inside_content_verbatim {start : StartTag} :
    ((p.inside start).content = .verbatim : Bool) =
      ((p = .verbatim : Bool) || start.has verbatimAttribute) := by
  unfold Place.inside
  split <;> simp_all [Place.content]

/-- How the reader of characters goes on when the content of the innermost element is read. -/
def resume : List Frame → List Node → Nat → List Char → Except Fault (List Node)
  | [], nodes, _, _ => .ok nodes
  | f :: outer, nodes, pos, rest =>
    (⟨outer, .element f.start f.offset nodes :: f.before⟩ : Progress).run pos rest

/-- The answer of the reader by offsets is the fault of the reader of characters, or it leaves a
place between characters from which the latter goes on. -/
def Simulates (source text : List Char)
    (go : α → Nat → List Char → Except Fault (List Node)) :
    Except Halt (α × Nat) → Except Fault (List Node) → Prop
  | .ok (a, next), y => ∃ rest, Stands source next rest ∧ rest <:+ text ∧ y = go a next rest
  | .error halt, y => ∃ fault : Fault,
      halt = faultAt source fault.offset fault.cause ∧ y = .error fault

theorem Simulates.mono {text' : List Char} {go : α → Nat → List Char → Except Fault (List Node)}
    {x : Except Halt (α × Nat)} {y : Except Fault (List Node)} (hx : Simulates source text go x y)
    (hs : text <:+ text') : Simulates source text' go x y := by
  cases x with
  | error halt => exact hx
  | ok v =>
    obtain ⟨rest, hrest, hsuffix, hy⟩ := hx
    exact ⟨rest, hrest, hsuffix.trans hs, hy⟩

open Progress

theorem suffix_of_read {q : Progress} {c : Char} {r : Reading Item}
    (h : q.read pos (c :: text) = .ok r) : r.rest <:+ text := by
  have hlength := read_length (List.cons_ne_nil _ _) h
  refine (List.suffix_cons_iff.1 ⟨r.lexeme, read_append h⟩).resolve_left fun heq => ?_
  rw [heq] at hlength
  exact absurd hlength (lt_irrefl _)

theorem simulates_rawText {next : Nat} (start : StartTag) (h : Stands source pos rest)
    (hnext : Stands source next text) :
    Simulates source text
      (fun node next rest => (⟨frames, node :: nodes⟩ : Progress).run next rest)
      (do
        let (t, stop) ← parseRawText source start.tag pos next
        return (.element start pos (rawChildren t), stop))
      ((⟨⟨start, pos, .raw, nodes⟩ :: frames, []⟩ : Progress).run next text) := by
  rw [run_rawText rfl, parseRawText_eq _ hnext h]
  cases hc : cut? (endsElement start.tag.toList) text with
  | none => exact ⟨⟨.missingEndTag start.tag, pos⟩, rfl, rfl⟩
  | some p =>
    obtain ⟨t, e⟩ := p
    obtain ⟨cs, rfl⟩ := exists_of_endsElement (stop_of_cut? hc)
    obtain rfl := append_of_cut? hc
    have hend := hnext.advance
    have hparse := parseEndTag_eq hend
    simp only [List.drop_succ_cons, List.drop_zero]
    cases hr : readEndTag cs with
    | error cause =>
      rw [hr] at hparse
      rw [map_eq_error_iff.1 hparse]
      exact ⟨⟨cause, next + byteCount t⟩, rfl, rfl⟩
    | ok r =>
      rw [hr] at hparse
      obtain ⟨⟨name, stop⟩, hx, hv⟩ := map_eq_ok_iff.1 hparse
      obtain ⟨-, rfl⟩ := Prod.mk.inj hv
      rw [hx]
      have happ := readEndTag_append hr
      rw [← happ] at hend
      refine ⟨r.rest, hend.advance, ?_, ?_⟩
      · rw [← happ]
        exact ((List.suffix_append _ _).trans (List.suffix_append _ _))
      · simp [close, reverse_rawChildren]

theorem simulates_element {c : Char} (nodes : List Node) (hp : InPlace p frames)
    (h : Stands source pos ('<' :: c :: text)) (hc : c.isAlpha = true)
    (ih : ∀ (q : Place) (f : Frame) (next : Nat) (rest : List Char), f.offset = pos →
      rest <:+ c :: text → InPlace q (f :: frames) → Stands source next rest →
      Simulates source rest (resume (f :: frames))
        (parseChildren source (parentOf (f :: frames)) [] next)
        ((⟨f :: frames, []⟩ : Progress).run next rest)) :
    Simulates source (c :: text)
      (fun node next rest => (⟨frames, node :: nodes⟩ : Progress).run next rest)
      (parseElement source (p = .top) (p = .verbatim) pos)
      ((⟨frames, nodes⟩ : Progress).run pos ('<' :: c :: text)) := by
  have hread : (⟨frames, nodes⟩ : Progress).read pos ('<' :: c :: text) =
      (readStartTag (c :: text)).mapError (⟨·, pos⟩) := by
    rw [read_of_inPlace hp, readItem_startTag hc]
  have hstart := parseStartTag_eq h
  rw [parseElement]
  cases hr : readStartTag (c :: text) with
  | error cause =>
    rw [hr] at hstart hread
    rw [map_eq_error_iff.1 hstart, run_error_of_read (by simp) hread]
    exact ⟨⟨cause, pos⟩, rfl, rfl⟩
  | ok r =>
    rw [hr] at hstart hread
    obtain ⟨⟨⟨start, selfClosed⟩, next⟩, hx, hv⟩ := map_eq_ok_iff.1 hstart
    obtain ⟨hvalue, rfl⟩ := Prod.mk.inj hv
    have happ := readStartTag_append hr
    have hrest : Stands source (pos + byteCount r.lexeme) r.rest := (happ ▸ h).advance
    have hsuffix : r.rest <:+ c :: text := suffix_of_read hread
    have hrun (q : Progress) (ha : (⟨frames, nodes⟩ : Progress).apply pos r.value = .ok q) :=
      run_of_read (List.cons_ne_nil _ _) hread ha
    rw [← hvalue] at hrun
    rw [hx]
    simp only [ok_bind]
    by_cases hclosed : (selfClosed || isVoid start.tag) = true
    · rw [if_pos hclosed, hrun (push ⟨frames, nodes⟩ (.element start pos [])) (if_pos hclosed)]
      exact ⟨r.rest, hrest, hsuffix, rfl⟩
    rw [if_neg hclosed, hrun (openElement ⟨frames, nodes⟩ start pos) (if_neg hclosed), openElement,
      contentOf_of_inPlace hp]
    by_cases hr : p.isRaw start = true
    · rw [if_pos (isRaw_iff.2 hr), if_pos hr]
      exact (simulates_rawText start h hrest).mono hsuffix
    · have hin : InPlace (p.inside start)
          (⟨start, pos, (p.inside start).content, nodes⟩ :: frames) := ⟨Place.inside_ne_top, rfl⟩
      have hsim := (ih _ _ _ _ rfl hsuffix hin hrest).mono hsuffix
      have hlt := h.lt_of_suffix hrest (hsuffix.trans (List.suffix_cons _ _))
        (Nat.lt_succ_of_le hsuffix.length_le)
      rw [if_neg (mt isRaw_iff.1 hr), if_neg hr, dif_pos hlt, ← inside_content_verbatim]
      simp only [parentOf] at hsim
      cases hx : parseChildren source (some ⟨start.tag, pos, (p.inside start).content = .verbatim⟩)
          [] (pos + byteCount r.lexeme) with
      | error halt => rw [hx] at hsim; exact hsim
      | ok v => rw [hx] at hsim; exact hsim

theorem simulates_endTag {r : Reading Item} {name : String} {next : Nat} (hp : InPlace p frames)
    (hne : text ≠ []) (hread : (⟨frames, nodes⟩ : Progress).read pos text = .ok r)
    (hv : r.value = .endTag name) :
    (∃ fault : Fault, itemTurn source (parentOf frames) nodes pos (.endTag name, next) =
        .error (faultAt source fault.offset fault.cause) ∧
      (⟨frames, nodes⟩ : Progress).run pos text = .error fault) ∨
    itemTurn source (parentOf frames) nodes pos (.endTag name, next) = .ok (.leave next) ∧
      (⟨frames, nodes⟩ : Progress).run pos text =
        resume frames nodes.reverse (pos + byteCount r.lexeme) r.rest := by
  cases frames with
  | nil =>
    refine .inl ⟨⟨.unexpectedEndTag name, pos⟩, rfl, ?_⟩
    exact run_error_of_apply hne hread (by rw [hv]; rfl)
  | cons f frames =>
    have hraw : f.content ≠ .raw := hp.head_ne_raw f rfl
    by_cases hname : lowerName name.toList = lowerName f.start.tag.toList
    · have happly : (⟨f :: frames, nodes⟩ : Progress).apply pos r.value =
          .ok (close f frames nodes) := by
        simp [hv, apply, hname]
      exact .inr ⟨if_pos hname, run_of_read hne hread happly⟩
    · have happly : (⟨f :: frames, nodes⟩ : Progress).apply pos r.value =
          .error ⟨.mismatchedEndTag name f.start.tag, pos⟩ := by
        simp [hv, apply, hname, hraw]
      exact .inl ⟨⟨.mismatchedEndTag name f.start.tag, pos⟩, if_neg hname,
        run_error_of_apply hne hread happly⟩

theorem simulates_children (hp : InPlace p frames) (h : Stands source pos text)
    (hoffset : ∀ f ∈ frames.head?, ∃ t, Stands source f.offset t) :
    Simulates source text (resume frames) (parseChildren source (parentOf frames) nodes pos)
      ((⟨frames, nodes⟩ : Progress).run pos text) := by
  induction hn : text.length using Nat.strong_induction_on
    generalizing text pos p frames nodes with
  | _ n ih =>
  subst hn
  rw [parseChildren]
  by_cases hne : text = []
  · subst hne
    have hparent : ∀ element ∈ parentOf frames, ∃ t, Stands source element.offset t := by
      cases frames with
      | nil => nofun
      | cons f frames => rintro element ⟨⟩; exact hoffset f rfl
    rw [childrenTurn_nil h hparent]
    cases frames with
    | nil => exact ⟨[], h, List.suffix_refl _, run_nil⟩
    | cons f frames =>
      rw [run, dif_pos rfl]
      exact ⟨⟨.missingEndTag f.start.tag, f.offset⟩, rfl, rfl⟩
  by_cases hstart : ∃ c cs, text = '<' :: c :: cs ∧ c.isAlpha = true
  · obtain ⟨c, cs, rfl, hc⟩ := hstart
    have helement := simulates_element nodes hp h hc fun q f next rest hf hs hq hnext =>
      ih _ (Nat.lt_succ_of_le hs.length_le) hq hnext (by rintro g ⟨⟩; exact ⟨_, hf ▸ h⟩) rfl
    rw [childrenTurn_element h hc, parentOf_isNone hp, parentOf_verbatim hp]
    cases hx : parseElement source (p = .top) (p = .verbatim) pos with
    | error halt => rw [hx] at helement; exact helement
    | ok v =>
      rw [hx] at helement
      obtain ⟨rest, hrest, htail, hy⟩ := helement
      have hsuffix := htail.trans (List.suffix_cons '<' _)
      have hlt : rest.length < ('<' :: c :: cs).length := Nat.lt_succ_of_le htail.length_le
      rw [hy]
      simp only [dif_pos (h.lt_of_suffix hrest hsuffix hlt)]
      exact (ih _ hlt hp hrest hoffset rfl).mono hsuffix
  · rw [childrenTurn_eq h hne hstart, parentOf_interpolates hp]
    have hread : (⟨frames, nodes⟩ : Progress).read pos text = _ := read_of_inPlace hp text
    cases hr : readItem p.interpolates text with
    | error cause =>
      rw [hr] at hread
      rw [run_error_of_read hne hread]
      exact ⟨⟨cause, pos⟩, rfl, rfl⟩
    | ok r =>
      rw [hr] at hread
      have happ := readItem_append hr
      have hrest : Stands source (pos + byteCount r.lexeme) r.rest := (happ ▸ h).advance
      have hsuffix : r.rest <:+ text := ⟨_, happ⟩
      have hlt := readItem_length hne hr
      -- an item that only adds nodes to the innermost element, or nothing
      have hagain (nodes' : List Node)
          (happly : (⟨frames, nodes⟩ : Progress).apply pos r.value = .ok ⟨frames, nodes'⟩) :
          Simulates source text (resume frames)
            (if _ : pos < pos + byteCount r.lexeme ∧
                pos + byteCount r.lexeme ≤ byteCount source then
              parseChildren source (parentOf frames) nodes' (pos + byteCount r.lexeme)
            else .error .standstill) ((⟨frames, nodes⟩ : Progress).run pos text) := by
        rw [run_of_read hne hread happly, dif_pos (h.lt_of_suffix hrest hsuffix hlt)]
        exact (ih _ hlt hp hrest hoffset rfl).mono hsuffix
      simp only [answer, Except.bind]
      cases hv : r.value with
      | text content => exact hagain _ (by rw [hv]; rfl)
      | comment content => exact hagain _ (by rw [hv]; rfl)
      | interpolation content => exact hagain _ (by rw [hv]; rfl)
      | declaration => exact hagain _ (by rw [hv]; rfl)
      | startTag start selfClosed => exact absurd (exists_of_readItem_startTag hne hr hv) hstart
      | endTag name =>
        rcases simulates_endTag hp hne hread hv with ⟨fault, hturn, hrun⟩ | ⟨hturn, hrun⟩
        · rw [hturn, hrun]
          exact ⟨fault, rfl, rfl⟩
        · rw [hturn, hrun]
          exact ⟨r.rest, hrest, hsuffix, rfl⟩

/-- The reader by offsets ends with the tree of the source or with its fault: it never looks for a
byte behind the end, never slices inside a character and never stands still. -/
theorem parse_eq (source : String) :
    parse source = match Document.read source with
      | .ok document => .ok document
      | .error fault => .error (.fault (fault.message source)) := by
  have hsim : Simulates source.toList source.toList (resume [])
      (parseChildren source.toList (parentOf []) [] 0) ((⟨[], []⟩ : Progress).run 0 _) :=
    simulates_children rfl (Stands.start _) nofun
  rw [parse, Document.read, Progress.empty]
  simp only [parentOf] at hsim
  cases hx : parseChildren source.toList none [] 0 with
  | error halt =>
    rw [hx] at hsim
    obtain ⟨fault, rfl, hy⟩ := hsim
    rw [hy]
    rfl
  | ok v =>
    rw [hx] at hsim
    obtain ⟨rest, -, -, hy⟩ := hsim
    rw [hy]
    rfl

end Registrar.Markup.Cursor
