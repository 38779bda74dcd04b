import Registrar.Proofs.Markup.Cursor
import Registrar.Proofs.Markup.Items

/-! # Items by byte offsets

Between characters, the reader by offsets finds what the reader of characters finds, and stops
between characters again.
-/

namespace Registrar.Markup.Cursor

open Registrar.Text

variable {source text rest a b : List Char} {pos offset : Nat} {c x : Char} {byte : UInt8}
  {α β σ : Type}

/-! ## Bytes of one character -/

/-- A test of bytes says of every byte of a character what a test of characters says of it. -/
def Agrees (keepByte : UInt8 → Bool) (keep : Char → Bool) : Prop :=
  ∀ c, ∀ byte ∈ String.utf8EncodeChar c, keepByte byte = keep c

theorem agrees_isBlank : Agrees isBlankByte isBlank := by
  intro c byte hb
  have h (x : Char) (hx : IsAscii x) : decide (byte = x.toUInt8) = decide (c = x) :=
    decide_eq_decide.2 (eq_toUInt8_iff hx hb)
  simp only [isBlankByte, isBlank, h ' ' (by decide), h '\t' (by decide), h '\n' (by decide),
    h '\r' (by decide), h '\x0c' (by decide)]

theorem agrees_isTagChar : Agrees isTagByte isTagChar := by
  intro c byte hb
  simp [isTagByte, isTagChar, agrees_isBlank c byte hb, eq_toUInt8_iff (x := '/') (by decide) hb,
    eq_toUInt8_iff (x := '>') (by decide) hb]

theorem agrees_isNameChar : Agrees isNameByte isNameChar := by
  intro c byte hb
  simp [isNameByte, isNameChar, agrees_isBlank c byte hb, eq_toUInt8_iff (x := '/') (by decide) hb,
    eq_toUInt8_iff (x := '>') (by decide) hb, eq_toUInt8_iff (x := '=') (by decide) hb]

theorem agrees_isBareChar : Agrees isBareByte isBareChar := by
  intro c byte hb
  simp [isBareByte, isBareChar, agrees_isBlank c byte hb, eq_toUInt8_iff (x := '>') (by decide) hb]

variable {keepByte : UInt8 → Bool} {keep : Char → Bool}

/-! ## Searches -/

theorem takeWhile_utf8 (hk : Agrees keepByte keep) (text : List Char) :
    (utf8 text).takeWhile keepByte = utf8 (text.takeWhile keep) := by
  induction text with
  | nil => rfl
  | cons c text ih =>
    rw [utf8_cons]
    cases hc : keep c with
    | true =>
      rw [List.takeWhile_append_of_pos fun byte hb => (hk c byte hb).trans hc, ih,
        List.takeWhile_cons_of_pos hc, utf8_cons]
    | false =>
      obtain ⟨byte, bytes, hbytes⟩ := exists_utf8EncodeChar c
      have hbyte : keepByte byte = false := (hk c byte (by simp [hbytes])).trans hc
      simp [hbytes, hbyte, hc]

theorem findIdx?_utf8 (hx : IsAscii x) (text : List Char) :
    (utf8 text).findIdx? (· = x.toUInt8) = (cutAt? [x] text).map fun p => byteCount p.1 := by
  induction text with
  | nil => rfl
  | cons c text ih =>
    rw [utf8_cons, List.findIdx?_append, ih, cutAt?, cutAt?, cut?_cons, List.isPrefixOf_cons_cons,
      List.isPrefixOf_nil_left, Bool.and_true]
    by_cases hc : c = x
    · subst hc
      simp [utf8EncodeChar_of_isAscii hx]
    · have hnone : (String.utf8EncodeChar c).findIdx? (· = x.toUInt8) = none :=
        List.findIdx?_eq_none_iff.2 fun byte hb =>
          decide_eq_false fun h => hc ((eq_toUInt8_iff hx hb).1 h)
      rw [hnone, Option.none_or, if_neg (by simpa using Ne.symm hc), Option.map_map,
        Option.map_map, String.length_utf8EncodeChar]
      simp [Function.comp_def, Nat.add_comm]

/-! ## Places of the source -/

theorem peek_eq (h : Stands source pos text) (n : Nat) :
    peek source (pos + n) = (utf8 text)[n]? := by
  rw [peek, ← h.drop, List.getElem?_drop]

theorem peek_cons (h : Stands source pos (c :: text)) :
    ∃ byte ∈ String.utf8EncodeChar c, peek source pos = some byte := by
  obtain ⟨byte, bytes, hbytes⟩ := exists_utf8EncodeChar c
  refine ⟨byte, by simp [hbytes], ?_⟩
  rw [← Nat.add_zero pos, peek_eq h, utf8_cons, hbytes]
  rfl

theorem peek_nil (h : Stands source pos []) : peek source pos = none := by
  rw [← Nat.add_zero pos, peek_eq h]
  rfl

theorem peek_eq_some_iff (h : Stands source pos text) (hx : IsAscii x) :
    peek source pos = some x.toUInt8 ↔ text.head? = some x := by
  cases text with
  | nil => simp [peek_nil h]
  | cons c text =>
    obtain ⟨byte, hb, hpeek⟩ := peek_cons h
    rw [hpeek, Option.some_inj, eq_toUInt8_iff hx hb, List.head?_cons, Option.some_inj]

theorem bytesFrom_eq (h : Stands source pos text) : bytesFrom source pos = .ok (utf8 text) := by
  rw [bytesFrom, h.bytesFrom?, checked]

theorem slice_eq (h : Stands source pos (a ++ b)) :
    slice source pos (pos + byteCount a) = .ok a := by
  rw [slice, h.slice?, checked]

theorem atEnd_eq (h : Stands source pos text) : atEnd source pos = text.isEmpty := by
  have hlen := h.length
  cases text with
  | nil => simp_all [atEnd]
  | cons c text =>
    have := c.utf8Size_pos
    rw [byteCount_cons] at hlen
    exact decide_eq_false (by omega)

theorem startsWith_eq (h : Stands source pos text) (pattern : List Char) :
    startsWith source pos pattern = .ok (pattern.isPrefixOf text) := by
  have hprefix : (utf8 pattern).isPrefixOf (utf8 text) = pattern.isPrefixOf text := by
    rw [Bool.eq_iff_iff, List.isPrefixOf_iff_prefix, List.isPrefixOf_iff_prefix, utf8_prefix_iff]
  rw [startsWith, bytesFrom_eq h, ← hprefix]
  rfl

def faultAt (source : List Char) (offset : Nat) (cause : Cause) : Halt :=
  .fault (cause.message ++ " at " ++ (Position.ofOffset source offset).render)

theorem fail_eq (h : Stands source pos text) (cause : Cause) :
    (fail source pos cause : Except Halt α) = .error (faultAt source pos cause) := by
  rw [fail, h.lineColumn?]
  rfl

theorem takeWhile_eq (h : Stands source pos text) (hk : Agrees keepByte keep) :
    takeWhile source keepByte pos =
      .ok (String.ofList (text.takeWhile keep), pos + byteCount (text.takeWhile keep)) := by
  have hspan : spanFrom source keepByte pos = byteCount (text.takeWhile keep) := by
    rw [spanFrom, h.drop, takeWhile_utf8 hk, length_utf8]
  have hs : Stands source pos (text.takeWhile keep ++ text.dropWhile keep) := by
    rwa [List.takeWhile_append_dropWhile]
  rw [takeWhile, hspan, slice_eq hs]
  rfl

theorem skipBlanks_eq (h : Stands source pos text) :
    skipBlanks source pos = pos + byteCount (text.takeWhile isBlank) := by
  rw [skipBlanks, spanFrom, h.drop, takeWhile_utf8 agrees_isBlank, length_utf8]

/-! ## Loops -/

theorem loop_again {round : σ → Nat → Except Halt (Round σ α)} {state state' : σ} {next : Nat}
    (hr : round state pos = .ok (.again state' next)) (h : Stands source pos text)
    (hnext : Stands source next rest) (hs : rest <:+ text) (hlt : rest.length < text.length) :
    loop source round state pos = loop source round state' next := by
  rw [loop, hr]
  exact if_pos (h.lt_of_suffix hnext hs hlt)

theorem loop_leave {round : σ → Nat → Except Halt (Round σ α)} {state : σ} {result : α}
    (hr : round state pos = .ok (.leave result)) : loop source round state pos = .ok result := by
  rw [loop, hr]

theorem loop_error {round : σ → Nat → Except Halt (Round σ α)} {state : σ} {halt : Halt}
    (hr : round state pos = .error halt) : loop source round state pos = .error halt := by
  rw [loop, hr]

/-! ## Readers -/

/-- What the reader by offsets answers where the reader of characters has this answer. -/
def answer (source : List Char) (offset pos : Nat) :
    Except Cause (Reading α) → Except Halt (α × Nat)
  | .ok r => .ok (r.value, pos + byteCount r.lexeme)
  | .error cause => .error (faultAt source offset cause)

/-- Characters in front of a reading move it on. -/
theorem answer_append (f : α → β) (a : List Char) (x : Except Cause (Reading α)) :
    answer source offset pos (x.map fun r => ⟨f r.value, a ++ r.lexeme, r.rest⟩) =
      (answer source offset (pos + byteCount a) x).map (Prod.map f id) := by
  cases x with
  | error cause => rfl
  | ok r =>
    refine congrArg Except.ok (Prod.ext rfl ?_)
    show pos + byteCount (a ++ r.lexeme) = pos + byteCount a + byteCount r.lexeme
    rw [byteCount_append, Nat.add_assoc]

theorem answer_skip (a : List Char) (y : Except Cause (Reading α)) :
    answer source offset pos (y.map fun r => ⟨r.value, a ++ r.lexeme, r.rest⟩) =
      answer source offset (pos + byteCount a) y := by
  rw [answer_append fun v => v]
  cases answer source offset (pos + byteCount a) y <;> rfl

theorem answer_cons (hx : IsAscii x) (y : Except Cause (Reading α)) :
    answer source offset pos (y.map fun r => ⟨r.value, x :: r.lexeme, r.rest⟩) =
      answer source offset (pos + 1) y := by
  have hx : byteCount [x] = 1 := byteCount_ascii hx
  rw [← hx, ← answer_skip]
  rfl

theorem parseEndTag_eq (h : Stands source pos ('<' :: '/' :: text)) :
    (parseEndTag source pos).map (Prod.map Item.endTag id) =
      answer source pos pos (readEndTag text) := by
  have hname : Stands source (pos + 2) text := h.advance (a := ['<', '/'])
  have hstop := hname.dropWhile isBareChar
  rw [parseEndTag, takeWhile_eq hname agrees_isBareChar, readEndTag]
  simp only [ok_bind]
  cases hn : text.takeWhile isBareChar with
  | nil => simp [fail_eq h, answer, Except.map]
  | cons c cs =>
    rw [hn] at hstop
    rw [bytesFrom_eq hstop, if_neg (by simp)]
    simp only [ok_bind]
    rw [findIdx?_utf8 (by decide)]
    cases cutAt? ['>'] (text.dropWhile isBareChar) with
    | none => simp [fail_eq h, answer, Except.map]
    | some p =>
      refine congrArg Except.ok (Prod.ext rfl ?_)
      show pos + 2 + byteCount (c :: cs) + byteCount p.1 + 1 =
        pos + byteCount ('<' :: '/' :: (c :: cs ++ p.1 ++ ['>']))
      simp (disch := decide) only [byteCount_ascii, byteCount_append, byteCount_nil]
      omega

theorem parseEnclosed_eq {opener closer : List Char} {item : List Char → Item} {cause : Cause}
    (h : Stands source pos (opener ++ text)) :
    (parseEnclosed source opener closer cause pos).map (Prod.map item id) =
      answer source pos pos (readEnclosed opener closer item cause text) := by
  have hstart := h.advance
  have hall : slice source (pos + byteCount opener) (byteCount source) = .ok text := by
    rw [← hstart.length]
    exact slice_eq (by rwa [List.append_nil])
  rw [parseEnclosed, hall, readEnclosed]
  simp only [ok_bind]
  cases hc : cutAt? closer text with
  | none => simp [fail_eq h, answer, Except.map]
  | some p =>
    obtain ⟨content, rest⟩ := p
    rw [← append_of_cut? hc] at hstart
    simp only [slice_eq hstart, ok_bind]
    refine congrArg Except.ok (Prod.ext rfl ?_)
    show pos + byteCount opener + byteCount content + byteCount closer =
      pos + byteCount (opener ++ content ++ closer)
    simp only [byteCount_append]
    omega

theorem parseDeclaration_eq (h : Stands source pos ('<' :: x :: text)) (hx : IsAscii x)
    (hne : x ≠ '>') : (parseDeclaration source pos).map (fun next => (Item.declaration, next)) =
      answer source pos pos (readEnclosed ['<', x] ['>'] (fun _ => .declaration)
        .unterminatedDeclaration text) := by
  have hcut : cutAt? ['>'] ('<' :: x :: text) =
      (cutAt? ['>'] text).map fun p => ('<' :: x :: p.1, p.2) := by
    rw [cutAt?, cut?_cons, if_neg (by simp), cut?_cons, if_neg (by simpa using Ne.symm hne),
      Option.map_map]
    rfl
  rw [parseDeclaration, bytesFrom_eq h, readEnclosed]
  simp only [ok_bind]
  rw [findIdx?_utf8 (by decide), hcut]
  cases cutAt? ['>'] text with
  | none => simp [fail_eq h, answer, Except.map]
  | some p =>
    refine congrArg Except.ok (Prod.ext rfl ?_)
    show pos + byteCount ('<' :: x :: p.1) + 1 = pos + byteCount (['<', x] ++ p.1 ++ ['>'])
    simp (disch := first | decide | assumption) only [List.cons_append, List.nil_append,
      byteCount_ascii, byteCount_append, byteCount_nil]
    omega

/-! ## Attributes -/

theorem parseQuoted_eq (hx : IsAscii x) (h : Stands source pos (x :: text))
    (hoffset : Stands source offset rest) (tag : String) :
    parseQuoted source offset tag x.toUInt8 pos =
      match cutAt? [x] text with
      | some (value, _) => .ok (String.ofList value, pos + byteCount (x :: (value ++ [x])))
      | none => .error (faultAt source offset (.unterminatedValue tag)) := by
  have hstart := h.tail hx
  rw [parseQuoted, bytesFrom_eq hstart]
  simp only [ok_bind]
  rw [findIdx?_utf8 hx]
  cases hc : cutAt? [x] text with
  | none => exact fail_eq hoffset _
  | some p =>
    obtain ⟨value, rest⟩ := p
    rw [← append_of_cut? hc] at hstart
    simp only [Option.map_some, slice_eq hstart, ok_bind]
    refine congrArg Except.ok (Prod.ext rfl ?_)
    show pos + 1 + byteCount value + 1 = _
    simp only [byteCount_ascii hx, byteCount_append, byteCount_nil]
    omega

theorem parseValue_eq (h : Stands source pos text) (hoffset : Stands source offset rest)
    (tag : String) : parseValue source offset tag pos =
      match readValue text with
      | some r => .ok (r.value, pos + byteCount r.lexeme)
      | none => .error (faultAt source offset (.unterminatedValue tag)) := by
  have hbare := takeWhile_eq h agrees_isBareChar
  cases text with
  | nil => rw [parseValue, peek_nil h]; exact hbare
  | cons c cs =>
    obtain ⟨byte, hb, hpeek⟩ := peek_cons h
    rw [parseValue, hpeek]
    simp only [eq_toUInt8_iff (x := '"') (by decide) hb, eq_toUInt8_iff (x := '\'') (by decide) hb]
    by_cases hquote : c = '"' ∨ c = '\''
    · have hc : IsAscii c := by rcases hquote with rfl | rfl <;> decide
      obtain rfl : byte = c.toUInt8 := (eq_toUInt8_iff hc hb).2 rfl
      rw [if_pos hquote, parseQuoted_eq hc h hoffset]
      rcases hquote with rfl | rfl <;> rw [readValue] <;> split <;> simp_all
    · rw [if_neg hquote, hbare, readValue_of_bare (by tauto) (by tauto)]

theorem readAttribute_eq (text : List Char) : readAttribute text =
    let name := text.takeWhile isNameChar
    let gap := (text.dropWhile isNameChar).takeWhile isBlank
    let after := (text.dropWhile isNameChar).dropWhile isBlank
    if ['='].isPrefixOf after then
      (readValue (after.tail.dropWhile isBlank)).map fun r =>
        ⟨⟨String.ofList name, some r.value⟩,
          name ++ gap ++ '=' :: after.tail.takeWhile isBlank ++ r.lexeme, r.rest⟩
    else some ⟨⟨String.ofList name, none⟩, name ++ gap, after⟩ := by
  unfold readAttribute
  split
  · next cs heq => simp [heq]
  · next cs hne =>
    rw [if_neg]
    intro h
    obtain ⟨t, ht⟩ := List.isPrefixOf_iff_prefix.1 h
    exact hne t ht.symm

theorem parseAttribute_eq (h : Stands source pos text) (hoffset : Stands source offset rest)
    (tag : String) :
    parseAttribute source offset tag (String.ofList (text.takeWhile isNameChar))
      (pos + byteCount (text.takeWhile isNameChar)) =
      match readAttribute text with
      | some r => .ok (r.value, pos + byteCount r.lexeme)
      | none => .error (faultAt source offset (.unterminatedValue tag)) := by
  have hname := h.dropWhile isNameChar
  have hgap := hname.dropWhile isBlank
  rw [parseAttribute, skipBlanks_eq hname, readAttribute_eq]
  simp only [startsWith_eq hgap, ok_bind]
  split
  · next heq =>
    obtain ⟨cs, hcs⟩ := List.isPrefixOf_iff_prefix.1 heq
    rw [List.singleton_append] at hcs
    rw [← hcs] at hgap ⊢
    have hafter := hgap.tail (by decide)
    rw [skipBlanks_eq hafter, parseValue_eq (hafter.dropWhile isBlank) hoffset]
    rw [List.tail_cons]
    cases readValue (cs.dropWhile isBlank) with
    | none => rfl
    | some r =>
      refine congrArg Except.ok (Prod.ext rfl ?_)
      show _ = pos + byteCount (_ ++ _ ++ '=' :: cs.takeWhile isBlank ++ r.lexeme)
      simp (disch := decide) only [byteCount_append, byteCount_ascii]
      omega
  · refine congrArg Except.ok (Prod.ext rfl ?_)
    show _ = pos + byteCount (_ ++ _)
    rw [byteCount_append, Nat.add_assoc]

variable {cs : List Char}

theorem attributesRound_close (tag : String) (attributes : List Attribute)
    (h : Stands source (skipBlanks source pos) ('>' :: cs)) :
    attributesRound source offset tag attributes pos =
      .ok (.leave ((attributes, false), skipBlanks source pos + 1)) := by
  rw [attributesRound]
  simp only [atEnd_eq h, startsWith_eq h, ok_bind]
  rfl

theorem attributesRound_selfClose (tag : String) (attributes : List Attribute)
    (h : Stands source (skipBlanks source pos) ('/' :: '>' :: cs)) :
    attributesRound source offset tag attributes pos =
      .ok (.leave ((attributes, true), skipBlanks source pos + 2)) := by
  rw [attributesRound]
  simp only [atEnd_eq h, startsWith_eq h, ok_bind]
  rfl

theorem attributesRound_gap (tag : String) (attributes : List Attribute)
    (h : Stands source (skipBlanks source pos) (c :: cs))
    (hc : c = '=' ∨ c = '/' ∧ '>' ∉ cs.head?) :
    attributesRound source offset tag attributes pos =
      .ok (.again attributes (skipBlanks source pos + 1)) := by
  rw [attributesRound]
  simp only [atEnd_eq h, startsWith_eq h, ok_bind]
  rcases hc with rfl | ⟨rfl, hcs⟩
  · have hname : ('=' :: cs).takeWhile isNameChar = [] := rfl
    rw [takeWhile_eq h agrees_isNameChar, hname]
    rfl
  · cases cs with
    | nil => rfl
    | cons d cs =>
      have hd : '>' ≠ d := fun hd => hcs (by rw [hd]; rfl)
      simp [hd]
      rfl

theorem attributesRound_name (tag : String) (attributes : List Attribute)
    (h : Stands source (skipBlanks source pos) (c :: cs)) (hoffset : Stands source offset rest)
    (hc : isNameChar c = true) :
    attributesRound source offset tag attributes pos =
      match readAttribute (c :: cs) with
      | some r =>
        .ok (.again (attributes ++ [r.value]) (skipBlanks source pos + byteCount r.lexeme))
      | none => .error (faultAt source offset (.unterminatedValue tag)) := by
  have hclose : ('>' == c) = false := by
    rw [beq_eq_false_iff_ne]
    rintro rfl
    cases hc
  have hslash : ('/' == c) = false := by
    rw [beq_eq_false_iff_ne]
    rintro rfl
    cases hc
  have hname : String.ofList ((c :: cs).takeWhile isNameChar) ≠ "" := by simp [hc]
  rw [attributesRound]
  simp only [atEnd_eq h, startsWith_eq h, ok_bind, List.isEmpty_cons, List.isPrefixOf_cons_cons,
    hclose, hslash, Bool.false_and, Bool.false_eq_true, if_false, takeWhile_eq h agrees_isNameChar,
    if_neg hname, parseAttribute_eq h hoffset]
  cases readAttribute (c :: cs) <;> rfl

theorem readAttributes_blanks (tag : String) (text : List Char) : readAttributes tag text =
    (readAttributes tag (text.dropWhile isBlank)).map fun r =>
      ⟨r.value, text.takeWhile isBlank ++ r.lexeme, r.rest⟩ := by
  induction text with
  | nil => simp [readAttributes]; rfl
  | cons c text ih =>
    cases hc : isBlank c with
    | false =>
      simp only [List.dropWhile_cons, List.takeWhile_cons, hc, Bool.false_eq_true, if_false]
      cases readAttributes tag (c :: text) <;> rfl
    | true =>
      simp only [readAttributes_gap (.inl hc), ih, List.dropWhile_cons, List.takeWhile_cons, hc,
        if_true]
      cases readAttributes tag (text.dropWhile isBlank) <;> rfl

theorem parseAttributes_eq (h : Stands source pos text) (hoffset : Stands source offset rest)
    (tag : String) (attributes : List Attribute) :
    loop source (attributesRound source offset tag) attributes pos =
      (answer source offset pos (readAttributes tag text)).map
        (Prod.map (fun v => (attributes ++ v.1, v.2)) id) := by
  induction hn : text.length using Nat.strong_induction_on generalizing text pos attributes with
  | _ n ih =>
  subst hn
  have hp : Stands source (skipBlanks source pos) (text.dropWhile isBlank) := by
    rw [skipBlanks_eq h]
    exact h.dropWhile isBlank
  have hsuffix := List.dropWhile_suffix isBlank (l := text)
  have hblank := stopsAt_dropWhile isBlank text
  rw [readAttributes_blanks, answer_skip, ← skipBlanks_eq h]
  generalize text.dropWhile isBlank = after at hp hsuffix hblank
  rcases after with _ | ⟨c, cs⟩
  · have hround : attributesRound source offset tag attributes pos =
        .error (faultAt source offset (.unclosedStartTag tag)) := by
      rw [attributesRound, atEnd_eq hp]
      exact fail_eq hoffset _
    rw [loop_error hround, readAttributes]
    rfl
  have hlen : cs.length < text.length := hsuffix.length_le
  have htail : cs <:+ text := (List.suffix_cons c cs).trans hsuffix
  by_cases hclose : c = '>'
  · subst hclose
    rw [loop_leave (attributesRound_close tag attributes hp), readAttributes]
    exact congrArg Except.ok (Prod.ext (by simp) rfl)
  by_cases hself : c = '/' ∧ '>' ∈ cs.head?
  · obtain ⟨rfl, hcs⟩ := hself
    obtain ⟨cs, rfl⟩ := List.head?_eq_some_iff.1 (Option.mem_def.1 hcs)
    rw [loop_leave (attributesRound_selfClose tag attributes hp), readAttributes]
    exact congrArg Except.ok (Prod.ext (by simp) rfl)
  by_cases hname : isNameChar c = true
  · have hround := attributesRound_name tag attributes hp hoffset hname
    rw [readAttributes_name hname]
    cases hr : readAttribute (c :: cs) with
    | none =>
      rw [hr] at hround
      rw [loop_error hround]
      rfl
    | some a =>
      rw [hr] at hround
      have hlt := (readAttribute_length hname hr).trans_le hsuffix.length_le
      have hrest : a.rest <:+ text := List.IsSuffix.trans ⟨_, readAttribute_append hr⟩ hsuffix
      rw [← readAttribute_append hr] at hp
      rw [loop_again hround h hp.advance hrest hlt, ih _ hlt hp.advance _ rfl,
        answer_append fun v : List Attribute × Bool => (a.value :: v.1, v.2)]
      cases answer source offset _ (readAttributes tag a.rest) with
      | error halt => rfl
      | ok v => exact congrArg Except.ok (Prod.ext (by simp) rfl)
  · have hgap : c = '=' ∨ c = '/' ∧ '>' ∉ cs.head? := by
      have := isNameChar_eq_false_iff.1 (by simpa using hname)
      have := stopsAt_cons.1 hblank
      simp_all
      tauto
    have hasc : IsAscii c := by rcases hgap with rfl | ⟨rfl, -⟩ <;> decide
    rw [loop_again (attributesRound_gap tag attributes hp hgap) h (hp.tail hasc) htail hlen,
      ih _ hlen (hp.tail hasc) attributes rfl, readAttributes_gap (.inr hgap), answer_cons hasc]

theorem parseStartTag_eq (h : Stands source pos ('<' :: text)) :
    (parseStartTag source pos).map (Prod.map (fun v => Item.startTag v.1 v.2) id) =
      answer source pos pos (readStartTag text) := by
  have htag := h.tail (by decide)
  rw [parseStartTag, takeWhile_eq htag agrees_isTagChar]
  simp only [ok_bind]
  rw [parseAttributes, parseAttributes_eq (htag.dropWhile isTagChar) h, readStartTag]
  cases readAttributes (String.ofList (text.takeWhile isTagChar)) (text.dropWhile isTagChar) with
  | error cause => rfl
  | ok r =>
    refine congrArg Except.ok (Prod.ext (by simp) ?_)
    show pos + 1 + byteCount (text.takeWhile isTagChar) + byteCount r.lexeme =
      pos + byteCount ('<' :: text.takeWhile isTagChar ++ r.lexeme)
    simp (disch := decide) only [byteCount_append, byteCount_ascii]
    omega

end Registrar.Markup.Cursor
