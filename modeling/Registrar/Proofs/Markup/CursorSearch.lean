import Registrar.Proofs.Markup.CursorItem
import Registrar.Proofs.Markup.EndTag

/-! # Searches by byte offsets

Text and raw text are searched byte by byte, the former from the middle of a character. No byte
inside a character is a mark, so that the search decides at the places where the reader of
characters decides.
-/

namespace Registrar.Markup.Cursor

open Registrar.Text

variable {source text rest a b cs : List Char} {pos offset : Nat} {c x : Char} {byte : UInt8}
  {α : Type}

/-! ## Passing over bytes -/

variable {round : Unit → Nat → Except Halt (Round Unit α)}

theorem loop_succ (hagain : ∀ pos state next, round () pos = .ok (.again state next) → pos < next)
    (h : round () pos = round () (pos + 1)) :
    loop source round () pos = loop source round () (pos + 1) := by
  rw [loop, h]
  conv_rhs => rw [loop]
  split
  · rfl
  · rfl
  · next state next hr =>
    have := hagain _ _ _ hr
    by_cases hle : next ≤ byteCount source
    · rw [if_pos ⟨by omega, hle⟩, if_pos ⟨this, hle⟩]
    · rw [if_neg (by omega), if_neg (by omega)]

theorem loop_skip (hagain : ∀ pos state next, round () pos = .ok (.again state next) → pos < next)
    {bytes others : List UInt8} (hdrop : (utf8 source).drop pos = bytes ++ others)
    (hskip : ∀ pos, ∀ byte ∈ bytes, peek source pos = some byte →
      round () pos = round () (pos + 1)) :
    loop source round () pos = loop source round () (pos + bytes.length) := by
  induction bytes generalizing pos with
  | nil => rfl
  | cons byte bytes ih =>
    have hpeek : peek source pos = some byte := by
      rw [peek, ← Nat.add_zero pos, ← List.getElem?_drop, hdrop]
      rfl
    have hnext : (utf8 source).drop (pos + 1) = bytes ++ others := by
      rw [← List.drop_drop, hdrop]
      rfl
    rw [loop_succ hagain (hskip pos byte List.mem_cons_self hpeek),
      ih hnext fun pos byte hb => hskip pos byte (List.mem_cons_of_mem _ hb), List.length_cons,
      Nat.add_assoc, Nat.add_comm 1]

section

variable {mark : UInt8 → Bool} {missing : Except Halt α} {found : Nat → Except Halt (Option α)}

theorem drop_of_peek (h : peek source pos = some byte) : pos < byteCount source ∧
    (utf8 source).drop pos = byte :: (utf8 source).drop (pos + 1) := by
  obtain ⟨hlt, hbyte⟩ := List.getElem?_eq_some_iff.1 h
  rw [length_utf8] at hlt
  exact ⟨hlt, by rw [List.drop_eq_getElem_cons (by rwa [length_utf8]), hbyte]⟩

theorem bytesFrom_of_le (h : pos ≤ byteCount source) :
    bytesFrom source pos = .ok ((utf8 source).drop pos) := by
  rw [bytesFrom, bytesFrom?, if_pos (by rwa [length_utf8]), checked]

theorem searchRound_skip (h : peek source pos = some byte) (hb : mark byte = false) :
    searchRound source mark missing found () pos =
      searchRound source mark missing found () (pos + 1) := by
  obtain ⟨hlt, hdrop⟩ := drop_of_peek h
  rw [searchRound, searchRound, bytesFrom_of_le hlt.le, bytesFrom_of_le hlt, hdrop]
  simp only [ok_bind, List.findIdx?_cons, hb, Bool.false_eq_true, if_false]
  cases ((utf8 source).drop (pos + 1)).findIdx? mark with
  | none => rfl
  | some gap => simp only [Option.map_some, Nat.add_assoc, Nat.add_comm 1]

theorem searchRound_mark (h : peek source pos = some byte) (hb : mark byte = true) :
    searchRound source mark missing found () pos = do
      match ← found pos with
      | some result => return .leave result
      | none => return .again () (pos + 1) := by
  obtain ⟨hlt, hdrop⟩ := drop_of_peek h
  rw [searchRound, bytesFrom_of_le hlt.le, hdrop]
  simp only [ok_bind, List.findIdx?_cons, hb, if_true]
  rfl

theorem searchRound_lt {state : Unit} {next : Nat}
    (h : searchRound source mark missing found () pos = .ok (.again state next)) : pos < next := by
  unfold searchRound at h
  cases hbytes : bytesFrom source pos with
  | error halt => rw [hbytes] at h; cases h
  | ok bytes =>
    rw [hbytes] at h
    simp only [ok_bind] at h
    split at h
    · cases missing <;> cases h
    · next gap hgap =>
      cases hfound : found (pos + gap) with
      | error halt => rw [hfound] at h; cases h
      | ok result =>
        rw [hfound] at h
        cases result <;> cases h
        omega

end

/-! ## Raw text -/

theorem byteCount_eq_of_lowerName_eq (h : lowerName a = lowerName b) :
    byteCount a = byteCount b := by
  have hbytes := congrArg List.length (congrArg utf8 h)
  simpa [utf8_lowerName] using hbytes

theorem take_utf8_eq_iff (tag cs : List Char) :
    ((utf8 cs).take (byteCount tag)).map lowerByte = (utf8 tag).map lowerByte ↔
      lowerName (cs.take tag.length) = lowerName tag := by
  have hbytes : (utf8 (lowerName tag)).length = byteCount tag := by
    rw [utf8_lowerName, List.length_map, length_utf8]
  have hchars : (lowerName tag).length = tag.length := List.length_map ..
  have hlower : lowerName (cs.take tag.length) = (lowerName cs).take tag.length := List.map_take ..
  rw [List.map_take, ← utf8_lowerName, ← utf8_lowerName, ← hbytes, eq_comm, hlower, ← hchars,
    eq_comm (a := (lowerName cs).take _), ← List.prefix_iff_eq_take, ← List.prefix_iff_eq_take,
    utf8_prefix_iff]

theorem peek_all_eq (h : Stands source pos text) :
    ((peek source pos).all fun b => isBlankByte b || b = '>'.toUInt8 || b = '/'.toUInt8) =
      text.head?.all fun c => isBlank c || c = '>' || c = '/' := by
  cases text with
  | nil => rw [peek_nil h]; rfl
  | cons c text =>
    obtain ⟨byte, hb, hpeek⟩ := peek_cons h
    simp only [hpeek, Option.all_some, agrees_isBlank c byte hb, List.head?_cons,
      eq_toUInt8_iff (x := '>') (by decide) hb, eq_toUInt8_iff (x := '/') (by decide) hb]

theorem isEndTagOf_eq (tag : List Char) (h : Stands source pos ('<' :: text)) :
    isEndTagOf source tag pos = endsElement tag ('<' :: text) := by
  have hslash := h.tail (by decide)
  have hpeek := peek_eq_some_iff (x := '/') hslash (by decide)
  by_cases htext : text.head? = some '/'
  · obtain ⟨cs, rfl⟩ := List.head?_eq_some_iff.1 htext
    have hname : Stands source (pos + 2) cs := hslash.tail (by decide)
    have htag := take_utf8_eq_iff tag cs
    rw [isEndTagOf, hpeek.2 htext, hname.drop, endsElement]
    by_cases heq : lowerName (cs.take tag.length) = lowerName tag
    · have hcount := byteCount_eq_of_lowerName_eq heq
      rw [← List.take_append_drop tag.length cs] at hname
      have hstop := hname.advance
      rw [hcount] at hstop
      have hlen := hstop.length
      have hle : pos + 2 + byteCount tag ≤ byteCount source := by omega
      simp only [heq, htag.2 heq, peek_all_eq hstop, hle]
      cases cs.drop tag.length <;> rfl
    · rw [decide_eq_false (mt htag.1 heq), decide_eq_false heq, Bool.and_false, Bool.and_false]
      rfl
  · have hne := mt hpeek.1 htext
    rw [isEndTagOf, decide_eq_false hne]
    unfold endsElement
    split
    · simp_all
    · rfl

theorem endsElement_eq_false (tag : List Char) (hc : c ≠ '<') :
    endsElement tag (c :: text) = false := by
  unfold endsElement
  split <;> simp_all

/-- Raw text is searched up to the place where the reader of characters cuts it. -/
theorem loop_rawText {start : Nat} (passed : List Char) (tag : String)
    (hoffset : Stands source offset rest) (hstart : Stands source start (passed ++ text)) :
    loop source (searchRound source (· = '<'.toUInt8) (fail source offset (.missingEndTag tag))
        (rawTextAt source tag start)) () (start + byteCount passed) =
      match cut? (endsElement tag.toList) text with
      | none => .error (faultAt source offset (.missingEndTag tag))
      | some (t, _) => (parseEndTag source (start + byteCount (passed ++ t))).map
          (Prod.map (fun _ => passed ++ t) id) := by
  induction text generalizing passed with
  | nil =>
    have h := hstart.advance
    rw [loop, searchRound, bytesFrom_eq h, fail_eq hoffset]
    rfl
  | cons c text ih =>
    have h := hstart.advance
    have hstart' : Stands source start ((passed ++ [c]) ++ text) := by
      rwa [List.append_assoc, List.singleton_append]
    have ih := ih _ hstart'
    have hnext : start + byteCount (passed ++ [c]) = start + byteCount passed + c.utf8Size := by
      simp [Nat.add_assoc]
    by_cases hc : c = '<'
    · subst hc
      have hpeek := (peek_eq_some_iff (x := '<') h (by decide)).2 rfl
      have hend := isEndTagOf_eq tag.toList h
      rw [cut?_cons]
      cases hends : endsElement tag.toList ('<' :: text) with
      | true =>
        rw [if_pos rfl, loop, searchRound_mark hpeek (decide_eq_true rfl), rawTextAt, hend, hends,
          slice_eq hstart]
        simp only [ok_bind, if_true, List.append_nil]
        cases parseEndTag source (start + byteCount passed) <;> rfl
      | false =>
        have hround : searchRound source (· = '<'.toUInt8) (fail source offset (.missingEndTag tag))
            (rawTextAt source tag start) () (start + byteCount passed) =
              .ok (.again () (start + byteCount passed + 1)) := by
          rw [searchRound_mark hpeek (decide_eq_true rfl), rawTextAt, hend, hends]
          rfl
        rw [if_neg (by simp),
          loop_again hround h (h.tail (by decide)) (List.suffix_cons _ _) (by simp)]
        rw [hnext] at ih
        refine ih.trans ?_
        cases cut? (endsElement tag.toList) text with
        | none => rfl
        | some p => simp
    · have hdrop := h.drop
      rw [utf8_cons] at hdrop
      rw [loop_skip (fun pos state next => searchRound_lt) hdrop, String.length_utf8EncodeChar,
        ← hnext, ih, cut?_cons, endsElement_eq_false _ hc, if_neg (by simp)]
      · cases cut? (endsElement tag.toList) text with
        | none => rfl
        | some p => simp
      · intro pos byte hb hpeek
        refine searchRound_skip hpeek (decide_eq_false fun hbyte => hc ?_)
        exact (eq_toUInt8_iff (by decide) hb).1 hbyte

theorem parseRawText_eq (tag : String) (h : Stands source pos text)
    (hoffset : Stands source offset rest) :
    parseRawText source tag offset pos =
      match cut? (endsElement tag.toList) text with
      | none => .error (faultAt source offset (.missingEndTag tag))
      | some (t, _) => (parseEndTag source (pos + byteCount t)).map (Prod.map (fun _ => t) id) :=
  loop_rawText [] tag hoffset h

/-! ## Text -/

variable {interpolates : Bool}

theorem endsText_of_ne (interpolates : Bool) (text : List Char) (hc : c ≠ '<') :
    endsText interpolates (c :: text) =
      (interpolates && ['{', '{'].isPrefixOf (c :: text)) := by
  unfold endsText
  split
  · simp_all
  · simp_all
  · next heq => simp [heq]
  · next hbrace =>
    symm
    rw [Bool.and_eq_false_iff, ← Bool.not_eq_true (List.isPrefixOf _ _),
      List.isPrefixOf_iff_prefix]
    refine .inr fun ⟨t, ht⟩ => hbrace t ht.symm

theorem startsMarkupAt_eq (h : Stands source pos (c :: text)) (hc : IsAscii c) :
    startsMarkupAt source pos = text.head?.any startsMarkup := by
  have hnext := h.tail hc
  cases text with
  | nil => rw [startsMarkupAt, peek_nil hnext]; rfl
  | cons d text =>
    obtain ⟨byte, hb, hpeek⟩ := peek_cons hnext
    simp only [startsMarkupAt, hpeek, Option.any_some, isAlphaByte_eq hb, List.head?_cons,
      eq_toUInt8_iff (x := '/') (by decide) hb, eq_toUInt8_iff (x := '!') (by decide) hb,
      eq_toUInt8_iff (x := '?') (by decide) hb, startsMarkup]

theorem textEndAt_eq (interpolates : Bool) (h : Stands source pos (c :: text)) :
    textEndAt source interpolates pos =
      .ok (if endsText interpolates (c :: text) then some pos else none) := by
  obtain ⟨byte, hb, hpeek⟩ := peek_cons h
  have hlt := eq_toUInt8_iff (x := '<') (by decide) hb
  rw [textEndAt, byteAt, hpeek, checked]
  simp only [ok_bind, startsWith_eq h]
  by_cases hc : c = '<'
  · subst hc
    rw [decide_eq_true (hlt.2 rfl), startsMarkupAt_eq h (by decide)]
    have hbrace : ['{', '{'].isPrefixOf ('<' :: text) = false := rfl
    rw [hbrace]
    cases text with
    | nil => cases interpolates <;> rfl
    | cons d text =>
      show (if true && startsMarkup d then _ else _) = Except.ok (if startsMarkup d then _ else _)
      cases startsMarkup d <;> cases interpolates <;> rfl
  · rw [decide_eq_false (mt hlt.1 hc), endsText_of_ne _ _ hc]
    cases interpolates <;> cases ['{', '{'].isPrefixOf (c :: text) <;> rfl

theorem textRound_skip (h : peek source pos = some byte) (hb : isTextMark byte = false) :
    textRound source interpolates () pos = textRound source interpolates () (pos + 1) := by
  obtain ⟨hlt, hdrop⟩ := drop_of_peek h
  rw [textRound, textRound, if_neg (by omega)]
  by_cases hend : byteCount source ≤ pos + 1
  · -- the byte is the last one
    have hlast : byteCount source = pos + 1 := by omega
    have hnil : (utf8 source).drop (pos + 1) = [] :=
      List.drop_eq_nil_of_le (by rw [length_utf8]; omega)
    rw [if_pos hend, searchRound_skip h hb, searchRound, bytesFrom_of_le hlast.ge, hnil, hlast]
    rfl
  · rw [if_neg hend, searchRound_skip h hb]

theorem textRound_lt {state : Unit} {next : Nat}
    (h : textRound source interpolates () pos = .ok (.again state next)) : pos < next := by
  unfold textRound at h
  split at h
  · cases h
  · exact searchRound_lt h

theorem isTextMark_eq_false (h : c ≠ '<' ∧ c ≠ '{') (hb : byte ∈ String.utf8EncodeChar c) :
    isTextMark byte = false := by
  rw [isTextMark, decide_eq_false (mt (eq_toUInt8_iff (by decide) hb).1 h.1),
    decide_eq_false (mt (eq_toUInt8_iff (by decide) hb).1 h.2)]
  rfl

theorem loop_text {content : List Char} (h : Stands source pos text)
    (hcut : cut? (endsText interpolates) text = some (content, rest)) :
    loop source (textRound source interpolates) () pos = .ok (pos + byteCount content) := by
  induction text generalizing pos content with
  | nil =>
    obtain ⟨rfl, -⟩ : content = [] ∧ rest = [] := by simpa [endsText, eq_comm] using hcut
    have hlen := h.length
    rw [byteCount_nil, Nat.add_zero] at hlen ⊢
    exact loop_leave (if_pos hlen.ge)
  | cons c text ih =>
    have hlen := h.length
    rw [byteCount_cons] at hlen
    have hsize := c.utf8Size_pos
    rw [cut?_cons] at hcut
    by_cases hmark : c = '<' ∨ c = '{'
    · have hc : IsAscii c := by rcases hmark with rfl | rfl <;> decide
      have hpeek := (peek_eq_some_iff h hc).2 rfl
      have hbyte : isTextMark c.toUInt8 = true := by rcases hmark with rfl | rfl <;> rfl
      have hround : textRound source interpolates () pos =
          .ok (if endsText interpolates (c :: text) then .leave pos else .again () (pos + 1)) := by
        rw [textRound, if_neg (by omega), searchRound_mark hpeek hbyte, textEndAt_eq _ h]
        cases endsText interpolates (c :: text) <;> rfl
      split at hcut
      · next hends =>
        rw [if_pos hends] at hround
        cases hcut
        exact loop_leave hround
      · next hends =>
        rw [if_neg hends] at hround
        obtain ⟨⟨content', rest'⟩, hrest, he⟩ := Option.map_eq_some_iff.1 hcut
        cases he
        rw [loop_again hround h (h.tail hc) (List.suffix_cons _ _) (by simp),
          ih (h.tail hc) hrest, byteCount_ascii hc, Nat.add_assoc, Nat.add_comm 1]
    · obtain ⟨hlt, hbrace⟩ := not_or.1 hmark
      have hends : endsText interpolates (c :: text) = false := by
        rw [endsText_of_ne _ _ hlt, List.isPrefixOf_cons_cons,
          beq_eq_false_iff_ne.2 (Ne.symm hbrace), Bool.false_and, Bool.and_false]
      rw [hends, if_neg (by simp)] at hcut
      obtain ⟨⟨content', rest'⟩, hrest, he⟩ := Option.map_eq_some_iff.1 hcut
      cases he
      have hdrop := h.drop
      rw [utf8_cons] at hdrop
      rw [loop_skip (fun pos state next => textRound_lt) hdrop, String.length_utf8EncodeChar,
        ih h.uncons hrest, byteCount_cons, Nat.add_assoc]
      intro pos byte hb hpeek
      exact textRound_skip hpeek (isTextMark_eq_false ⟨hlt, hbrace⟩ hb)

theorem isTextMark_tail {bytes : List UInt8} (hc : String.utf8EncodeChar c = byte :: bytes) :
    ∀ b ∈ bytes, isTextMark b = false := by
  intro b hb
  have hmem : b ∈ String.utf8EncodeChar c := by
    rw [hc]
    exact List.mem_cons_of_mem _ hb
  refine isTextMark_eq_false (c := c) ?_ hmem
  constructor <;> rintro rfl <;> obtain rfl := (List.cons.inj hc).2 <;> cases hb

theorem parseText_eq (interpolates : Bool) (h : Stands source pos (c :: text)) :
    (parseText source interpolates pos).map (Prod.map Item.text id) =
      answer source pos pos (.ok (readText interpolates (c :: text))) := by
  obtain ⟨⟨content, rest⟩, hcut⟩ : ∃ p, cut? (endsText interpolates) text = some p := by
    rw [← Option.ne_none_iff_exists', Ne, cut?_eq_none_iff]
    exact fun hnone => absurd (hnone [] (List.nil_suffix)) (by simp [endsText])
  obtain ⟨byte, bytes, hbytes⟩ := exists_utf8EncodeChar c
  have hsize := String.length_utf8EncodeChar c
  rw [hbytes, List.length_cons] at hsize
  have hdrop : (utf8 source).drop (pos + 1) = bytes ++ utf8 text := by
    rw [← List.drop_drop, h.drop, utf8_cons, hbytes]
    rfl
  have htext : Stands source (pos + 1 + bytes.length) text := by
    have hnext := h.uncons
    rwa [← hsize, Nat.add_comm bytes.length, ← Nat.add_assoc] at hnext
  have hstop : pos + 1 + bytes.length + byteCount content = pos + byteCount (c :: content) := by
    rw [byteCount_cons, ← hsize]
    omega
  have hs : Stands source pos ((c :: content) ++ rest) := by
    rwa [List.cons_append, append_of_cut? hcut]
  rw [parseText, loop_skip (fun pos state next => textRound_lt) hdrop, loop_text htext hcut, hstop]
  · simp only [ok_bind, slice_eq hs, readText, hcut]
    rfl
  · exact fun pos byte hb hpeek => textRound_skip hpeek (isTextMark_tail hbytes byte hb)

end Registrar.Markup.Cursor
