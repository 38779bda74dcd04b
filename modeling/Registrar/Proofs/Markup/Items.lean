import Registrar.Proofs.Markup.Grammar

/-! # Reading items

The readers of values, attributes, tags and enclosed constructs succeed exactly on the texts that
begin with a spelling of what they return.
-/

namespace Registrar.Markup

open Registrar.Text

variable {tag : String} {text rest : List Char}

theorem isBareChar_eq_false_iff {c : Char} : isBareChar c = false ↔ isBlank c = true ∨ c = '>' := by
  rw [← Bool.not_eq_true]
  simp only [isBareChar, Bool.and_eq_true, Bool.not_eq_true', decide_eq_true_eq]
  by_cases h : c = '>' <;> simp [h]

theorem isNameChar_eq_false_iff {c : Char} :
    isNameChar c = false ↔ isBlank c = true ∨ c = '=' ∨ c = '>' ∨ c = '/' := by
  rw [← Bool.not_eq_true]
  simp only [isNameChar, Bool.and_eq_true, Bool.not_eq_true', decide_eq_true_eq]
  by_cases hb : isBlank c <;> simp [hb]
  tauto

/-! ## Values -/

theorem SpellsValue.congr {value : String} {v text' : List Char} (h : SpellsValue value v text)
    (hhead : text.head? = text'.head?) : SpellsValue value v text' := by
  cases h with
  | quoted hq hv => exact .quoted hq hv
  | bare hv hd hs ht he => exact .bare hv hd hs (ht.congr hhead) (hhead ▸ he)

theorem cutAt?_quote {q : Char} {v : List Char} (hq : q ∉ v) (rest : List Char) :
    cutAt? [q] (v ++ q :: rest) = some (v, q :: rest) :=
  (cutAt?_append_iff (by simp)).2 (by simpa [singleton_infix_iff] using hq)

theorem readValue_of_bare {c : Char} {cs : List Char} (h₁ : c ≠ '"') (h₂ : c ≠ '\'') :
    readValue (c :: cs) = some ⟨String.ofList ((c :: cs).takeWhile isBareChar),
      (c :: cs).takeWhile isBareChar, (c :: cs).dropWhile isBareChar⟩ := by
  unfold readValue
  split <;> simp_all

theorem readValue_of_spells {value : String} {v : List Char} (h : SpellsValue value v text)
    (hne : text ≠ []) : readValue (v ++ text) = some ⟨value, v, text⟩ := by
  cases h with
  | @quoted q v _ hq hv =>
    rcases hq with rfl | rfl <;> simp [readValue, cutAt?_quote hv]
  | bare hv hd hs ht he =>
    have htake := takeWhile_append_of_stopsAt hv ht
    have hdrop := dropWhile_append_of_stopsAt hv ht
    obtain ⟨c, cs, hc⟩ := List.exists_cons_of_ne_nil (l := v ++ text) (by simp [hne])
    have hq : c ≠ '"' ∧ c ≠ '\'' := by
      cases v with
      | nil =>
        rw [List.nil_append] at hc
        have : c = '>' := by simpa [hc, eq_comm] using he rfl
        simp [this]
      | cons d v =>
        obtain rfl : d = c := (List.cons.inj hc).1
        exact ⟨fun hdc => hd (by simp [hdc]), fun hdc => hs (by simp [hdc])⟩
    rw [hc] at htake hdrop ⊢
    rw [readValue_of_bare hq.1 hq.2, htake, hdrop]

theorem spells_of_readValue {r : Reading String} (h : readValue text = some r)
    (hb : StopsAt isBlank text) (hr : r.rest ≠ []) : SpellsValue r.value r.lexeme r.rest := by
  have quoted : ∀ (q : Char) (cs v s : List Char), q = '"' ∨ q = '\'' →
      cutAt? [q] cs = some (v, s) → SpellsValue (String.ofList v) (q :: (v ++ [q])) (s.drop 1) := by
    intro q cs v s hq hc
    obtain ⟨-, hv⟩ := (cutAt?_eq_some_iff (by simp)).1 hc
    exact .quoted hq (by simpa [singleton_infix_iff] using hv)
  unfold readValue at h
  split at h
  · obtain ⟨⟨v, s⟩, hc, rfl⟩ := Option.map_eq_some_iff.1 h
    exact quoted _ _ _ _ (.inl rfl) hc
  · obtain ⟨⟨v, s⟩, hc, rfl⟩ := Option.map_eq_some_iff.1 h
    exact quoted _ _ _ _ (.inr rfl) hc
  · next h₁ h₂ =>
    cases h
    have hhead : ∀ c ∈ (text.takeWhile isBareChar).head?, c ∈ text.head? := by
      intro c hc
      rw [List.head?_takeWhile] at hc
      exact (Option.filter_eq_some_iff.1 (Option.mem_def.1 hc)).1
    refine .bare (fun c hc => List.mem_takeWhile_imp hc) ?_ ?_ (stopsAt_dropWhile _ _) ?_
    · intro hc
      obtain ⟨cs, rfl⟩ := List.head?_eq_some_iff.1 (Option.mem_def.1 (hhead _ hc))
      exact h₁ _ rfl
    · intro hc
      obtain ⟨cs, rfl⟩ := List.head?_eq_some_iff.1 (Option.mem_def.1 (hhead _ hc))
      exact h₂ _ rfl
    · intro hn
      cases text with
      | nil => simp at hr
      | cons c cs =>
        have hc : isBareChar c = false := by
          by_contra hc
          simp [hc] at hn
        rw [List.dropWhile_cons_of_neg (by simp [hc])]
        rcases isBareChar_eq_false_iff.1 hc with hblank | rfl
        · exact absurd hblank (by simp [stopsAt_cons.1 hb])
        · rfl

/-! ## Attributes -/

theorem SpellsAttribute.congr {a : Attribute} {s text' : List Char} (h : SpellsAttribute a s text)
    (hhead : text.head? = text'.head?) : SpellsAttribute a s text' := by
  cases h with
  | flag hne hn hb hs ht he =>
    exact .flag hne hn hb (hs.congr (by simp [hhead])) (ht.congr hhead) (hhead ▸ he)
  | valued hne hn hb hb' hv => exact .valued hne hn hb hb' (hv.congr hhead)

theorem SpellsAttributes.ne_nil {as : List Attribute} {b : Bool} {s : List Char}
    (h : SpellsAttributes as b s) : s ≠ [] := by
  induction h <;> simp_all

theorem SpellsValue.stopsAt_isBlank {value : String} {v : List Char}
    (h : SpellsValue value v text) : StopsAt isBlank (v ++ text) := by
  cases h with
  | quoted hq _ => rcases hq with rfl | rfl <;> exact stopsAt_cons.2 rfl
  | bare hv _ _ hs hne =>
    cases v with
    | nil =>
      obtain ⟨cs, rfl⟩ := List.head?_eq_some_iff.1 (Option.mem_def.1 (hne rfl))
      exact stopsAt_cons.2 rfl
    | cons c v =>
      have := hv c (by simp)
      simp only [isBareChar, Bool.and_eq_true, Bool.not_eq_true'] at this
      exact stopsAt_cons.2 this.1

theorem readAttribute_of_spells {a : Attribute} {s : List Char} (h : SpellsAttribute a s text)
    (hne : text ≠ []) : readAttribute (s ++ text) = some ⟨a, s, text⟩ := by
  cases h with
  | flag _ hn hb hs ht he =>
    simp only [List.append_assoc]
    unfold readAttribute
    simp only [takeWhile_append_of_stopsAt hn hs, dropWhile_append_of_stopsAt hn hs,
      takeWhile_append_of_stopsAt hb ht, dropWhile_append_of_stopsAt hb ht]
    split
    · simp at he
    · rfl
  | @valued name blanks blanks' v _ value _ hn hb hb' hv =>
    have hs : StopsAt isNameChar (blanks ++ '=' :: (blanks' ++ (v ++ text))) := by
      cases blanks with
      | nil => exact stopsAt_cons.2 (isNameChar_eq_false_iff.2 (by simp))
      | cons c cs => exact stopsAt_cons.2 (isNameChar_eq_false_iff.2 (.inl (hb c (by simp))))
    have he : StopsAt isBlank ('=' :: (blanks' ++ (v ++ text))) := stopsAt_cons.2 rfl
    have hvs := hv.stopsAt_isBlank
    simp only [List.append_assoc, List.cons_append]
    unfold readAttribute
    simp only [takeWhile_append_of_stopsAt hn hs, dropWhile_append_of_stopsAt hn hs,
      takeWhile_append_of_stopsAt hb he, dropWhile_append_of_stopsAt hb he,
      takeWhile_append_of_stopsAt hb' hvs, dropWhile_append_of_stopsAt hb' hvs,
      readValue_of_spells hv hne, Option.map_some, List.append_assoc, List.cons_append]

theorem spells_of_readAttribute {c : Char} {cs : List Char} {r : Reading Attribute}
    (hc : isNameChar c = true) (h : readAttribute (c :: cs) = some r) (hr : r.rest ≠ []) :
    SpellsAttribute r.value r.lexeme r.rest := by
  have hne : (c :: cs).takeWhile isNameChar ≠ [] := by simp [hc]
  have hname : ∀ d ∈ (c :: cs).takeWhile isNameChar, isNameChar d = true :=
    fun d hd => List.mem_takeWhile_imp hd
  have hblank : ∀ text, ∀ d ∈ List.takeWhile isBlank text, isBlank d = true :=
    fun text d hd => List.mem_takeWhile_imp hd
  unfold readAttribute at h
  split at h
  · next ds he =>
    obtain ⟨v, hv, rfl⟩ := Option.map_eq_some_iff.1 h
    have := SpellsAttribute.valued hne hname (hblank ((c :: cs).dropWhile isNameChar)) (hblank ds)
      (spells_of_readValue hv (stopsAt_dropWhile _ _) hr)
    simpa using this
  · next ds hds =>
    cases h
    refine .flag hne hname (hblank _) ?_ (stopsAt_dropWhile _ _) ?_
    · rw [List.takeWhile_append_dropWhile]
      exact stopsAt_dropWhile _ _
    · intro he
      obtain ⟨es, he⟩ := List.head?_eq_some_iff.1 (Option.mem_def.1 he)
      exact hds es he

theorem readAttributes_gap {c : Char} {cs : List Char}
    (hc : isBlank c = true ∨ c = '=' ∨ c = '/' ∧ '>' ∉ cs.head?) :
    readAttributes tag (c :: cs) =
      (readAttributes tag cs).map fun r => ⟨r.value, c :: r.lexeme, r.rest⟩ := by
  have hname : ¬ isNameChar c = true := by
    rw [Bool.not_eq_true, isNameChar_eq_false_iff]
    tauto
  rw [readAttributes, dif_neg hname]
  · rintro rfl
    simp [isBlank] at hc
  · rintro cs' rfl rfl
    simp [isBlank] at hc

theorem readAttributes_name {c : Char} {cs : List Char} (hc : isNameChar c = true) :
    readAttributes tag (c :: cs) =
      match readAttribute (c :: cs) with
      | none => .error (.unterminatedValue tag)
      | some a => (readAttributes tag a.rest).map fun r =>
          ⟨(a.value :: r.value.1, r.value.2), a.lexeme ++ r.lexeme, r.rest⟩ := by
  rw [readAttributes, dif_pos hc]
  · split <;> rename_i h <;> rw [h]
  · rintro rfl
    simp [isNameChar] at hc
  · rintro cs' rfl rfl
    simp [isNameChar] at hc

theorem SpellsAttribute.exists_cons {a : Attribute} {s : List Char} (h : SpellsAttribute a s text) :
    ∃ c cs, s = c :: cs ∧ isNameChar c = true := by
  cases h with
  | @flag name _ _ hne hn =>
    obtain ⟨c, cs, rfl⟩ := List.exists_cons_of_ne_nil hne
    exact ⟨c, _, rfl, hn c (by simp)⟩
  | @valued name _ _ _ _ _ hne hn =>
    obtain ⟨c, cs, rfl⟩ := List.exists_cons_of_ne_nil hne
    exact ⟨c, _, rfl, hn c (by simp)⟩

theorem readAttributes_of_spells {as : List Attribute} {b : Bool} {s : List Char}
    (h : SpellsAttributes as b s) (rest : List Char) :
    readAttributes tag (s ++ rest) = .ok ⟨(as, b), s, rest⟩ := by
  induction h with
  | close => simp [readAttributes]
  | selfClose => simp [readAttributes]
  | gap hc h ih =>
    rw [List.cons_append, readAttributes_gap, ih]
    · rfl
    · rwa [List.head?_append_of_ne_nil _ h.ne_nil]
  | @cons as b a s text ha h ih =>
    have hhead : text.head? = (text ++ rest).head? :=
      (List.head?_append_of_ne_nil text h.ne_nil).symm
    have hread := readAttribute_of_spells (ha.congr hhead) (by simp [h.ne_nil])
    obtain ⟨c, cs, rfl, hc⟩ := ha.exists_cons
    rw [List.append_assoc]
    rw [List.cons_append] at hread ⊢
    rw [readAttributes_name hc, hread]
    simp [ih, Except.map]

theorem spells_of_readAttributes {r : Reading (List Attribute × Bool)}
    (h : readAttributes tag text = .ok r) : SpellsAttributes r.value.1 r.value.2 r.lexeme := by
  fun_induction readAttributes tag text generalizing r with
  | case1 => cases h
  | case2 => cases h; exact .close
  | case3 => cases h; exact .selfClose
  | case4 => cases h
  | case5 c cs h₁ h₂ hc a ha ih =>
    obtain ⟨r, hr, rfl⟩ := map_eq_ok_iff.1 h
    have hs := ih hr
    have hrest : r.lexeme ++ r.rest = a.rest := readAttributes_append hr
    have ha' := spells_of_readAttribute hc ha (by simp [← hrest, hs.ne_nil])
    exact .cons (ha'.congr (by rw [← hrest, List.head?_append_of_ne_nil _ hs.ne_nil])) hs
  | case6 c cs h₁ h₂ hc ih =>
    obtain ⟨r, hr, rfl⟩ := map_eq_ok_iff.1 h
    have hs := ih hr
    refine .gap ?_ hs
    rcases isNameChar_eq_false_iff.1 (by simpa using hc) with h | h | h | h
    · exact .inl h
    · exact .inr (.inl h)
    · exact absurd h h₁
    · refine .inr (.inr ⟨h, fun hd => ?_⟩)
      obtain ⟨ds, hds⟩ := List.head?_eq_some_iff.1 (Option.mem_def.1 hd)
      rw [← readAttributes_append hr, hds] at h₂
      exact h₂ _ h rfl

/-! ## Items -/

variable {interpolates : Bool} {item : Item}

theorem SpellsStartTag.isTagChar {start : StartTag} {b : Bool} {s : List Char}
    (h : SpellsStartTag start b s) :
    ∀ c ∈ start.tag.toList, isTagChar c = true := by
  cases h with
  | mk _ htag => simpa using htag

theorem SpellsItem.text_inv {i : Bool} {s : List Char} {t : String} (h : SpellsItem i (.text t) s) :
    t.toList = s ∧ s ≠ [] := by
  generalize hitem : Item.text t = item at h
  cases h <;> cases hitem
  next hne => exact ⟨by simp, hne⟩

theorem SpellsItem.startTag_inv {i b : Bool} {s : List Char} {start : StartTag}
    (h : SpellsItem i (.startTag start b) s) : SpellsStartTag start b s := by
  cases h with
  | startTag h => exact h

theorem SpellsItem.ne_nil {i : Bool} {s : List Char} (h : SpellsItem i item s) : s ≠ [] := by
  cases h with
  | text h => exact h
  | startTag h => cases h; simp
  | _ => simp

theorem SpellsItem.endTag_inv {i : Bool} {name : String} {e : List Char}
    (h : SpellsItem i (.endTag name) e) : ∃ gap, e = '<' :: '/' :: (name.toList ++ (gap ++ ['>'])) ∧
      name.toList ≠ [] ∧ (∀ c ∈ name.toList, isBareChar c = true) ∧
      StopsAt isBareChar (gap ++ ['>']) ∧ '>' ∉ gap := by
  generalize hitem : Item.endTag name = item at h
  cases h <;> cases hitem
  next name gap hne hn hs hg => exact ⟨gap, by simp, by simpa using hne, by simpa using hn, hs, hg⟩

theorem readStartTag_of_spells {start : StartTag} {b : Bool} {s : List Char}
    (h : SpellsStartTag start b s) (rest : List Char) : ∃ c cs, s = '<' :: c :: cs ∧
      c.isAlpha = true ∧ readStartTag (c :: cs ++ rest) = .ok ⟨.startTag start b, s, rest⟩ := by
  cases h with
  | @mk as b c tag text hc htag hstop h =>
    have hstop' : StopsAt isTagChar (text ++ rest) :=
      hstop.congr (List.head?_append_of_ne_nil _ h.ne_nil).symm
    have htake := takeWhile_append_of_stopsAt htag hstop'
    have hdrop := dropWhile_append_of_stopsAt htag hstop'
    refine ⟨c, tag ++ text, rfl, hc, ?_⟩
    simp only [List.cons_append, List.append_assoc] at htake hdrop ⊢
    simp only [readStartTag, htake, hdrop, readAttributes_of_spells h, Except.map,
      List.cons_append]

theorem readEndTag_of_spells {name gap : List Char} (hne : name ≠ [])
    (hn : ∀ c ∈ name, isBareChar c = true) (hs : StopsAt isBareChar (gap ++ ['>']))
    (hg : '>' ∉ gap) (rest : List Char) : readEndTag (name ++ (gap ++ '>' :: rest)) =
      .ok ⟨.endTag (String.ofList name), '<' :: '/' :: (name ++ (gap ++ ['>'])), rest⟩ := by
  have hs' : StopsAt isBareChar (gap ++ '>' :: rest) := hs.congr (by cases gap <;> rfl)
  have hcut : cutAt? ['>'] (gap ++ '>' :: rest) = some (gap, '>' :: rest) :=
    (cutAt?_append_iff (by simp)).2 (by simpa [singleton_infix_iff] using hg)
  simp only [readEndTag, takeWhile_append_of_stopsAt hn hs', dropWhile_append_of_stopsAt hn hs']
  cases name with
  | nil => exact absurd rfl hne
  | cons c cs => simp [hcut]

theorem readEnclosed_of_not_infix {closer content : List Char} (opener : List Char)
    (f : List Char → Item) (cause : Cause) (hne : closer ≠ [])
    (h : ¬ closer <:+: content ++ closer.dropLast) (rest : List Char) :
    readEnclosed opener closer f cause (content ++ (closer ++ rest)) =
      .ok ⟨f content, opener ++ content ++ closer, rest⟩ := by
  simp [readEnclosed, (cutAt?_append_iff hne).2 h]

theorem exists_of_readEnclosed {opener closer : List Char} {f : List Char → Item} {cause : Cause}
    {r : Reading Item} (hne : closer ≠ []) (h : readEnclosed opener closer f cause text = .ok r) :
    ∃ content, r.value = f content ∧ r.lexeme = opener ++ content ++ closer ∧
      ¬ closer <:+: content ++ closer.dropLast ∧ text = content ++ (closer ++ r.rest) := by
  unfold readEnclosed at h
  split at h
  · cases h
  · next content s hc =>
    cases h
    obtain ⟨⟨b, rfl, rfl⟩, hi⟩ := (cutAt?_eq_some_iff hne).1 hc
    exact ⟨content, rfl, rfl, hi, by simp⟩

/-- The closer of a comment cannot begin inside the comment and end in itself. -/
theorem infix_comment_iff {c : List Char} :
    ['-', '-', '>'] <:+: c ++ ['-', '-'] ↔ ['-', '-', '>'] <:+: c := by
  have hstep : ∀ a : List Char, ['-', '-', '>'] <:+: a ++ ['-'] ↔ ['-', '-', '>'] <:+: a := by
    intro a
    rw [List.infix_concat_iff, or_iff_right]
    rintro ⟨x, hx⟩
    simpa using congrArg List.getLast? hx
  rw [← hstep c, ← hstep (c ++ ['-']), List.append_assoc, List.singleton_append]

theorem readItem_eq_readText (h : endsText interpolates text = false) :
    readItem interpolates text = .ok (readText interpolates text) := by
  unfold readItem
  split <;> simp_all [endsText, startsMarkup]

theorem readItem_declaration {c : Char} {w : List Char}
    (hc : c = '!' ∧ ¬ ['-', '-'] <+: w ∨ c = '?') (hw : '>' ∉ w) (rest : List Char) :
    readItem interpolates ('<' :: c :: (w ++ '>' :: rest)) =
      .ok ⟨.declaration, '<' :: c :: (w ++ ['>']), rest⟩ := by
  have hread : ∀ opener, readEnclosed opener ['>'] (fun _ => .declaration) .unterminatedDeclaration
      (w ++ '>' :: rest) = .ok ⟨.declaration, opener ++ w ++ ['>'], rest⟩ :=
    fun opener => readEnclosed_of_not_infix opener _ _ (by simp)
      (by simpa [singleton_infix_iff] using hw) rest
  rcases hc with ⟨rfl, hc⟩ | rfl
  · unfold readItem
    split
    · next heq =>
      exfalso
      simp only [List.cons.injEq, true_and] at heq
      rcases w with _ | ⟨a, _ | ⟨b, w⟩⟩ <;> simp_all
    · simp_all
    · next heq => cases heq; simpa using hread ['<', '!']
    · simp_all
    · next hbang _ heq => cases heq; exact (hbang rfl).elim
    all_goals simp_all
  · simpa [readItem] using hread ['<', '?']

theorem readText_spells (interpolates : Bool) (hne : text ≠ []) :
    (readText interpolates text).value = .text (String.ofList (readText interpolates text).lexeme) ∧
      (readText interpolates text).lexeme ≠ [] ∧
      endsText interpolates (readText interpolates text).rest = true := by
  obtain ⟨c, cs, rfl⟩ := List.exists_cons_of_ne_nil hne
  simp only [readText]
  split
  · exact ⟨rfl, by simp, rfl⟩
  · next h => exact ⟨rfl, by simp, stop_of_cut? h⟩

theorem readItem_startTag {c : Char} (hc : c.isAlpha = true) (cs : List Char) :
    readItem interpolates ('<' :: c :: cs) = readStartTag (c :: cs) := by
  unfold readItem
  split <;> simp_all

theorem readItem_of_spells {s : List Char} (h : SpellsItem interpolates item s)
    (ht : ∀ t, item ≠ .text t) (rest : List Char) :
    readItem interpolates (s ++ rest) = .ok ⟨item, s, rest⟩ := by
  cases h with
  | text => exact absurd rfl (ht _)
  | comment hc =>
    have hc : ¬ ['-', '-', '>'] <:+: _ ++ ['-', '-', '>'].dropLast := mt infix_comment_iff.1 hc
    simpa [readItem] using readEnclosed_of_not_infix ['<', '!', '-', '-']
      (fun c => .comment (String.ofList c)) .unterminatedComment (by simp) hc rest
  | interpolation hi hw =>
    have hw : ¬ ['}', '}'] <:+: _ ++ ['}', '}'].dropLast := hw
    simpa [readItem, hi] using readEnclosed_of_not_infix ['{', '{']
      (fun c => .interpolation (String.ofList (trim c))) .unterminatedInterpolation (by simp) hw
      rest
  | declaration hc hw => simpa using readItem_declaration hc hw rest
  | startTag h =>
    obtain ⟨c, cs, rfl, hc, hr⟩ := readStartTag_of_spells h rest
    simpa only [List.cons_append, readItem_startTag hc] using hr
  | endTag hne hn hs hg => simpa [readItem] using readEndTag_of_spells hne hn hs hg rest

theorem isTagChar_of_isAlpha {c : Char} (hc : c.isAlpha = true) : isTagChar c = true := by
  by_contra h
  simp only [isTagChar, isBlank, Bool.and_eq_true, Bool.not_eq_true', decide_eq_true_eq,
    Bool.or_eq_false_iff, decide_eq_false_iff_not, not_and_or, not_not] at h
  rcases h with (((((rfl | rfl) | rfl) | rfl) | rfl) | rfl) | rfl <;> exact absurd hc (by decide)

theorem spells_of_readStartTag {c : Char} {cs : List Char} {r : Reading Item}
    (hc : c.isAlpha = true) (h : readStartTag (c :: cs) = .ok r) :
    (∀ t, r.value ≠ .text t) ∧ SpellsItem interpolates r.value r.lexeme := by
  have hcTag := isTagChar_of_isAlpha hc
  obtain ⟨a, ha, rfl⟩ := map_eq_ok_iff.1 h
  have hs := spells_of_readAttributes ha
  have hrest := readAttributes_append ha
  have hstop : StopsAt isTagChar a.lexeme := (stopsAt_dropWhile isTagChar (c :: cs)).congr
    (by rw [← hrest, List.head?_append_of_ne_nil _ hs.ne_nil])
  have htag : ∀ d ∈ c :: cs.takeWhile isTagChar, isTagChar d = true := by
    intro d hd
    exact List.mem_takeWhile_imp (l := c :: cs) (by rwa [List.takeWhile_cons_of_pos hcTag])
  refine ⟨nofun, ?_⟩
  have : SpellsItem interpolates _ _ := .startTag (.mk hc htag hstop hs)
  simpa [List.takeWhile_cons_of_pos hcTag] using this

theorem spells_of_readEndTag (interpolates : Bool) {r : Reading Item}
    (h : readEndTag text = .ok r) :
    ∃ name, r.value = .endTag name ∧ SpellsItem interpolates (.endTag name) r.lexeme := by
  unfold readEndTag at h
  split at h
  · cases h
  · next c cs hname =>
    split at h
    · cases h
    · next gap rest hc =>
      cases h
      obtain ⟨⟨b, rfl, hb⟩, hgap⟩ := (cutAt?_eq_some_iff (by simp)).1 hc
      have hn : ∀ d ∈ c :: cs, isBareChar d = true :=
        fun d hd => List.mem_takeWhile_imp (hname ▸ hd)
      have hstop : StopsAt isBareChar (gap ++ ['>']) :=
        (stopsAt_dropWhile isBareChar text).congr (by rw [hb]; cases gap <;> rfl)
      refine ⟨_, rfl, ?_⟩
      have : SpellsItem interpolates _ _ := .endTag (List.cons_ne_nil c cs) hn hstop
        (by simpa [singleton_infix_iff] using hgap)
      simpa using this

/-- An item is text exactly if no markup begins with it. -/
theorem readItem_cases {r : Reading Item} (hne : text ≠ [])
    (h : readItem interpolates text = .ok r) :
    (endsText interpolates text = false ∧ r = readText interpolates text) ∨
      (endsText interpolates text = true ∧ (∀ t, r.value ≠ .text t) ∧
        SpellsItem interpolates r.value r.lexeme) := by
  unfold readItem at h
  split at h
  · obtain ⟨c, hv, hl, hc, -⟩ := exists_of_readEnclosed (by simp) h
    refine .inr ⟨rfl, by simp [hv], ?_⟩
    rw [hv, hl]
    simpa using SpellsItem.comment (by simpa [infix_comment_iff] using hc)
  · obtain ⟨name, hv, hs⟩ := spells_of_readEndTag interpolates h
    exact .inr ⟨rfl, by simp [hv], by rw [hv]; exact hs⟩
  · next hbang =>
    obtain ⟨w, hv, hl, hw, rfl⟩ := exists_of_readEnclosed (by simp) h
    refine .inr ⟨rfl, by simp [hv], ?_⟩
    rw [hv, hl]
    refine .declaration (.inl ⟨rfl, ?_⟩) (by simpa [singleton_infix_iff] using hw)
    rintro ⟨w', rfl⟩
    exact hbang _ rfl
  · obtain ⟨w, hv, hl, hw, rfl⟩ := exists_of_readEnclosed (by simp) h
    refine .inr ⟨rfl, by simp [hv], ?_⟩
    rw [hv, hl]
    exact .declaration (.inr rfl) (by simpa [singleton_infix_iff] using hw)
  · split at h
    · next hc => exact .inr ⟨by simp [endsText, startsMarkup, hc], spells_of_readStartTag hc h⟩
    · next hc =>
      cases h
      refine .inl ⟨?_, rfl⟩
      simp_all [endsText, startsMarkup]
  · split at h
    · next hi =>
      obtain ⟨w, hv, hl, hw, -⟩ := exists_of_readEnclosed (by simp) h
      refine .inr ⟨hi, by simp [hv], ?_⟩
      rw [hv, hl]
      simpa using SpellsItem.interpolation hi hw
    · next hi =>
      cases h
      exact .inl ⟨by simpa [endsText] using hi, rfl⟩
  · cases h
    refine .inl ⟨?_, rfl⟩
    unfold endsText
    split <;> simp_all

theorem exists_of_readItem_startTag {r : Reading Item} {start : StartTag} {b : Bool}
    (hne : text ≠ []) (h : readItem interpolates text = .ok r) (hv : r.value = .startTag start b) :
    ∃ c cs, text = '<' :: c :: cs ∧ c.isAlpha = true := by
  rcases readItem_cases hne h with ⟨-, rfl⟩ | ⟨-, -, hs⟩
  · obtain ⟨ht, -⟩ := readText_spells interpolates hne
    rw [ht] at hv
    cases hv
  · rw [hv] at hs
    have htag := hs.startTag_inv
    rw [← readItem_append h]
    generalize r.lexeme = s at htag ⊢
    cases htag with
    | mk hc => exact ⟨_, _, rfl, hc⟩

end Registrar.Markup
