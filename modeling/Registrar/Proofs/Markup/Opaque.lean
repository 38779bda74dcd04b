import Registrar.Proofs.Markup.Outline
import Registrar.Proofs.Markup.Points

/-! # Opaque content

Comments, interpolations, raw text and quoted values are not looked into. With other content that
does not close them a source is read as before up to there, goes on as before from there, and uses
the same.
-/

namespace Registrar.Markup

open Registrar.Text

/-- A start tag behind its name, cut in two at a value in double quotes: what stands in front of the
value, the value, and the rest from the closing quote on. The value of `is` is left out. -/
inductive HoldsValue : List Char → List Char → List Char → Prop
  | here {name blanks blanks' value back : List Char} {as : List Attribute} {b : Bool} :
      name ≠ [] → (∀ c ∈ name, isNameChar c = true) → String.ofList name ≠ "is" →
      (∀ c ∈ blanks, isBlank c = true) → (∀ c ∈ blanks', isBlank c = true) →
      '"' ∉ value → SpellsAttributes as b back →
      HoldsValue (name ++ (blanks ++ '=' :: (blanks' ++ ['"']))) value ('"' :: back)
  | gap {c : Char} {front value back : List Char} :
      isBlank c = true ∨ c = '=' ∨ c = '/' ∧ '>' ∉ front.head? →
      HoldsValue front value back → HoldsValue (c :: front) value back
  | cons {a : Attribute} {s front value back : List Char} :
      SpellsAttribute a s front → HoldsValue front value back → HoldsValue (s ++ front) value back

inductive Opaque
  | comment
  | interpolation
  | rawText
  | value
deriving DecidableEq, Repr

/-- Content that cannot close such a region. -/
def Opaque.Fits : Opaque → List Char → Prop
  | .comment, new => ¬ ['-', '-', '>'] <:+: new
  | .interpolation, new => '}' ∉ new
  | .rawText, new => '<' ∉ new
  | .value, new => '"' ∉ new

/-- A region in front of which a reader stands: what opens it, its content, and what comes after the
content. -/
inductive Region (p : Progress) : Opaque → List Char → List Char → List Char → Prop
  | comment {content back : List Char} : p.content ≠ .raw → ¬ ['-', '-', '>'] <:+: content →
      Region p .comment ['<', '!', '-', '-'] content (['-', '-', '>'] ++ back)
  | interpolation {content back : List Char} : p.content = .compiled →
      ¬ ['}', '}'] <:+: content ++ ['}'] →
      Region p .interpolation ['{', '{'] content (['}', '}'] ++ back)
  | rawText {start : StartTag} {s content back : List Char} : p.content ≠ .raw →
      SpellsStartTag start false s → isVoid start.tag = false → p.contentOf start = .raw →
      cut? (endsElement start.tag.toList) (content ++ back) = some (content, back) →
      Region p .rawText s content back
  | value {c : Char} {tag front value back rest : List Char} : p.content ≠ .raw →
      c.isAlpha = true → (∀ d ∈ c :: tag, isTagChar d = true) → StopsAt isTagChar front →
      HoldsValue front value back →
      Region p .value ('<' :: c :: (tag ++ front)) value (back ++ rest)

/-- A source and the same source with other content in a region. -/
inductive Replaces : String → String → Prop
  | mk {source source' : String} {before front content new back : List Char} {p : Progress}
      {o : Nat} {kind : Opaque} :
      source.toList = before ++ (front ++ (content ++ back)) →
      Reaches ⟨.empty, 0, source.toList⟩ ⟨p, o, front ++ (content ++ back)⟩ →
      Region p kind front content back → kind.Fits new →
      source'.toList = before ++ (front ++ (new ++ back)) → Replaces source source'

variable {p : Progress} {o : Nat} {kind : Opaque} {front content new back : List Char}

/-! ## Through a region -/

theorem HoldsValue.front_ne_nil (h : HoldsValue front content back) : front ≠ [] := by
  induction h <;> simp_all

/-- A start tag with a value in double quotes has all values there that do not end in between. -/
theorem HoldsValue.exists_spells (h : HoldsValue front content back) :
    '"' ∉ content ∧ ∃ as name as' b, name ≠ "is" ∧ ∀ value, '"' ∉ value →
      SpellsAttributes (as ++ ⟨name, some (String.ofList value)⟩ :: as') b
        (front ++ (value ++ back)) := by
  induction h with
  | @here name blanks blanks' value back as b hne hn his hb hb' hvalue hback =>
    refine ⟨hvalue, [], _, as, b, his, fun value hvalue => ?_⟩
    have hvalued : SpellsAttribute ⟨String.ofList name, some (String.ofList value)⟩
        (name ++ (blanks ++ '=' :: (blanks' ++ ('"' :: (value ++ ['"']))))) back :=
      .valued hne hn hb hb' (.quoted (.inl rfl) hvalue)
    simpa using SpellsAttributes.cons hvalued hback
  | @gap c front _ back hc h ih =>
    obtain ⟨hvalue, as, name, as', b, his, ih⟩ := ih
    refine ⟨hvalue, as, name, as', b, his, fun value hvalue => ?_⟩
    have hhead : (front ++ (value ++ back)).head? = front.head? :=
      List.head?_append_of_ne_nil _ h.front_ne_nil
    exact .gap (hhead ▸ hc) (ih value hvalue)
  | @cons a s front value back ha h ih =>
    obtain ⟨hvalue, as, name, as', b, his, ih⟩ := ih
    refine ⟨hvalue, a :: as, name, as', b, his, fun value hvalue => ?_⟩
    have hhead : (front ++ (value ++ back)).head? = front.head? :=
      List.head?_append_of_ne_nil _ h.front_ne_nil
    simpa using SpellsAttributes.cons (ha.congr hhead.symm) (ih value hvalue)

theorem outline_rawChildren (t : List Char) : outlines (rawChildren t).reverse = [] := by
  rw [reverse_rawChildren, rawChildren]
  split <;> rfl

theorem reaches_rawText {start : StartTag} {s : List Char} (hp : p.content ≠ .raw)
    (hs : SpellsStartTag start false s) (hv : isVoid start.tag = false)
    (hraw : p.contentOf start = .raw)
    (hcut : cut? (endsElement start.tag.toList) (content ++ back) = some (content, back)) :
    Reaches ⟨p, o, s ++ (content ++ back)⟩
      ⟨⟨⟨start, o, .raw, p.nodes⟩ :: p.frames, rawChildren content⟩,
        o + byteCount s + byteCount content, back⟩ := by
  have hopen : p.apply o (.startTag start false) = .ok (p.openElement start o) := by
    simp [Progress.apply, hv]
  refine (reaches_of_spells hp (.startTag hs) (by simp) hopen _).trans ?_
  rw [Progress.openElement, hraw]
  cases content with
  | nil => exact .refl
  | cons c cs =>
    refine .single (.mk (r := ⟨.text (String.ofList (c :: cs)), c :: cs, back⟩) (by simp) ?_ rfl)
    simp only [Progress.read, if_true, hcut]

/-- Whatever stands in a region, the readers behind it have the same outline. -/
theorem Region.reaches (h : Region p kind front content back) (hnew : kind.Fits new) (o : Nat) :
    ∃ t t', Reaches ⟨p, o, front ++ (content ++ back)⟩ t ∧
      Reaches ⟨p, o, front ++ (new ++ back)⟩ t' ∧
      t.progress.outline = t'.progress.outline ∧ t.text = t'.text := by
  cases h with
  | @comment content back hp hcontent =>
    have hreaches (c : List Char) (hc : ¬ ['-', '-', '>'] <:+: c) :=
      reaches_of_spells (o := o) hp (.comment hc) (by simp) rfl back
    have h := hreaches content hcontent
    have h' := hreaches new hnew
    simp only [List.cons_append, List.append_assoc, List.nil_append] at h h' ⊢
    exact ⟨_, _, h, h', Progress.outline_push rfl rfl, rfl⟩
  | @interpolation content back hp hcontent =>
    have hfits : ¬ ['}', '}'] <:+: new ++ ['}'] := by
      intro hclose
      have hcount := hclose.sublist.count_le '}'
      simp [List.count_eq_zero.2 hnew] at hcount
    have hreaches (c : List Char) (hc : ¬ ['}', '}'] <:+: c ++ ['}']) :=
      reaches_of_spells (p := p) (o := o) (by simp [hp]) (.interpolation (by simp [hp]) hc)
        (by simp) rfl back
    have h := hreaches content hcontent
    have h' := hreaches new hfits
    simp only [List.cons_append, List.append_assoc, List.nil_append] at h h' ⊢
    exact ⟨_, _, h, h', Progress.outline_push rfl rfl, rfl⟩
  | @rawText start _ _ _ hp hs hv hraw hcut =>
    have hcut' : cut? (endsElement start.tag.toList) (new ++ back) = some (new, back) := by
      refine cut?_append (stop_of_cut? hcut) fun u hu hne => ?_
      by_contra hends
      obtain ⟨cs, hcs⟩ := exists_of_endsElement (by simpa using hends)
      obtain ⟨c, u, rfl⟩ := List.exists_cons_of_ne_nil hne
      obtain rfl : c = '<' := (List.cons.inj hcs).1
      exact hnew (hu.subset List.mem_cons_self)
    refine ⟨_, _, reaches_rawText hp hs hv hraw hcut, reaches_rawText hp hs hv hraw hcut', ?_, rfl⟩
    rw [Progress.outline_eq_iff, outline_rawChildren, outline_rawChildren]
    exact ⟨rfl, rfl⟩
  | @value c tag front _ back rest hp hc htag hstop h =>
    obtain ⟨hvalue, as, name, as', b, his, hspells⟩ := h.exists_spells
    have hitem (value : List Char) (hvalue : '"' ∉ value) : SpellsItem (p.content = .compiled)
        (.startTag ⟨String.ofList (c :: tag), as ++ ⟨name, some (String.ofList value)⟩ :: as'⟩ b)
        ('<' :: c :: (tag ++ (front ++ (value ++ back)))) :=
      .startTag (.mk hc htag (hstop.congr
        (List.head?_append_of_ne_nil _ h.front_ne_nil).symm) (hspells value hvalue))
    obtain ⟨next, ha⟩ := Progress.exists_apply_startTag p o
      ⟨String.ofList (c :: tag), as ++ ⟨name, some (String.ofList content)⟩ :: as'⟩ b
    obtain ⟨next', ha', hnext⟩ : ∃ next', p.apply o (.startTag
        ⟨String.ofList (c :: tag), as ++ ⟨name, some (String.ofList new)⟩ :: as'⟩ b) = .ok next' ∧
        next.outline = next'.outline :=
      Progress.apply_startTag rfl (by simp [StartTag.outline, Attribute.outline_eq his]) ha
    have h := reaches_of_spells hp (hitem content hvalue) (by simp) ha rest
    have h' := reaches_of_spells hp (hitem new hnew) (by simp) ha' rest
    simp only [List.cons_append, List.append_assoc] at h h' ⊢
    exact ⟨_, _, h, h', hnext, rfl⟩

theorem Region.content_ne_raw (h : Region p kind front content back) : p.content ≠ .raw := by
  cases h with
  | comment hp | rawText hp | value hp => exact hp
  | interpolation hp => simp [hp]

theorem Region.two_le_length (h : Region p kind front content back) : 2 ≤ front.length := by
  cases h with
  | rawText _ hs =>
    cases hs
    simp
  | _ => simp

/-- Other content in a region that cannot close it changes nothing of what a source uses. -/
theorem read_of_replaces {source source' : String} {usage : TemplateUsage}
    (h : Replaces source source') (hread : TemplateUsage.read source = .ok usage) :
    TemplateUsage.read source' = .ok usage := by
  obtain ⟨document, hdocument, rfl⟩ := map_eq_ok_iff.1 hread
  obtain ⟨nodes, hrun, rfl⟩ := map_eq_ok_iff.1 hdocument
  cases h with
  | @mk before front content new back p o kind hsource hreach hregion hnew hsource' =>
    have hst : Steady Progress.empty false source.toList := steady_top [] _
    have htake : (front ++ (content ++ back)).take 2 = (front ++ (new ++ back)).take 2 := by
      rw [List.take_append_of_le_length hregion.two_le_length,
        List.take_append_of_le_length hregion.two_le_length]
    have hreach' : Reaches ⟨.empty, 0, source'.toList⟩ ⟨p, o, front ++ (new ++ back)⟩ := by
      rw [hsource']
      exact hreach.congr_rest hst hregion.content_ne_raw hsource htake
    obtain ⟨t, t', ht, ht', houtline, htext⟩ := hregion.reaches hnew o
    have hrun : t.progress.run t.offset t.text = .ok nodes := by
      rw [← Reaches.run_eq (hreach.trans ht)]
      exact hrun
    obtain ⟨nodes', hrun', hnodes⟩ : ∃ nodes', t'.progress.run t'.offset t.text = .ok nodes' ∧
        outlines nodes = outlines nodes' := Progress.run_congr houtline hrun
    have hread' : Document.read source' = .ok ⟨nodes'⟩ := by
      rw [htext, ← Reaches.run_eq (hreach'.trans ht')] at hrun'
      rw [Document.read, hrun']
      rfl
    have houtline' : Document.outline ⟨nodes'⟩ = Document.outline ⟨nodes⟩ :=
      congrArg Document.mk hnodes.symm
    rw [TemplateUsage.read, hread', Except.map, ← ofDocument_outline, houtline',
      ofDocument_outline]

theorem read_of_replaces_value :
    Replaces "<template><b-x a=\"1\"/></template>" "<template><b-x a=\"<b-y v-z>\"/></template>" ∧
      TemplateUsage.read "<template><b-x a=\"<b-y v-z>\"/></template>" = .ok ⟨["b-x"], []⟩ := by
  have htemplate : SpellsStartTag ⟨"template", []⟩ false "<template>".toList :=
    @SpellsStartTag.mk _ _ 't' "emplate".toList _ rfl (List.all_eq_true.1 rfl) (by decide) .close
  have ha : SpellsAttribute ⟨"a", some "1"⟩ "a=\"1\"".toList "/>".toList :=
    @SpellsAttribute.valued ['a'] [] [] _ _ _ (by decide) (List.all_eq_true.1 rfl) (by simp)
      (by simp) (.quoted (v := ['1']) (.inl rfl) (by decide))
  have hx : SpellsStartTag ⟨"b-x", [⟨"a", some "1"⟩]⟩ true "<b-x a=\"1\"/>".toList :=
    @SpellsStartTag.mk _ _ 'b' "-x".toList _ rfl (List.all_eq_true.1 rfl) (by decide)
      (.gap (.inl rfl) (.cons ha .selfClose))
  have hvalue : HoldsValue " a=\"".toList ['1'] "\"/>".toList :=
    .gap (.inl rfl) (@HoldsValue.here ['a'] [] [] _ _ _ _ (by decide) (List.all_eq_true.1 rfl)
      (by decide) (by simp) (by simp) (by decide) .selfClose)
  have hopen : Reaches ⟨.empty, 0, "<template><b-x a=\"1\"/></template>".toList⟩
      ⟨⟨[⟨⟨"template", []⟩, 0, .compiled, []⟩], []⟩, 10,
        "<b-x a=\"1\"/></template>".toList⟩ :=
    reaches_of_spells (by decide) (.startTag htemplate) (by simp) rfl _
  have h : Replaces "<template><b-x a=\"1\"/></template>"
      "<template><b-x a=\"<b-y v-z>\"/></template>" := by
    refine @Replaces.mk _ _ "<template>".toList _ ['1'] "<b-y v-z>".toList _ _ _ _ rfl hopen
      (@Region.value _ 'b' "-x".toList _ _ _ "</template>".toList (by decide) rfl
        (List.all_eq_true.1 rfl) (by decide) hvalue) ?_ rfl
    unfold Opaque.Fits
    decide
  have hread : TemplateUsage.read "<template><b-x a=\"1\"/></template>" = .ok ⟨["b-x"], []⟩ := by
    have hreaches : Reaches ⟨.empty, 0, "<template><b-x a=\"1\"/></template>".toList⟩ _ :=
      reaches_template hx [] 0 []
    have hrun := hreaches.run_eq
    simp only [Progress.run_nil] at hrun
    rw [TemplateUsage.read, Document.read, hrun]
    rfl
  exact ⟨h, read_of_replaces h hread⟩

end Registrar.Markup
