import Registrar.Proofs.Markup.Frames
import Registrar.Proofs.Markup.Items
import Registrar.Proofs.Markup.Normal
import Registrar.Proofs.Text.Letter

/-! # End tags of raw text

Raw text is read up to the first place where its end tag begins. In the text of a tree in normal
form that is the end, however the end tag is written.
-/

namespace Registrar.Markup

open Registrar.Text

theorem mem_lowerName_iff {x : Char} (hx : x.isAlpha = false) {name : List Char} :
    x ∈ lowerName name ↔ x ∈ name := by
  simp [lowerName, toLower_eq_iff hx]

theorem mem_iff_of_lowerName_eq {x : Char} (hx : x.isAlpha = false) {a b : List Char}
    (h : lowerName a = lowerName b) : x ∈ a ↔ x ∈ b := by
  rw [← mem_lowerName_iff hx, h, mem_lowerName_iff hx]

theorem length_eq_of_lowerName_eq {a b : List Char} (h : lowerName a = lowerName b) :
    a.length = b.length := by
  simpa [lowerName] using congrArg List.length h

theorem endsElement_iff {tag text : List Char} : endsElement tag text = true ↔
    OpensEndTag tag text ∨ ∃ name, text = '<' :: '/' :: name ∧ lowerName name = lowerName tag := by
  constructor
  · intro h
    unfold endsElement at h
    split at h
    · next cs =>
      simp only [Bool.and_eq_true, decide_eq_true_eq] at h
      obtain ⟨hname, hnext⟩ := h
      have happ := List.take_append_drop tag.length cs
      split at hnext
      · next hd =>
        rw [hd, List.append_nil] at happ
        exact .inr ⟨cs, rfl, happ ▸ hname⟩
      · next c rest hd =>
        rw [hd] at happ
        refine .inl ⟨_, c, rest, by rw [happ], hname, ?_⟩
        simp only [Bool.or_eq_true, decide_eq_true_eq] at hnext
        tauto
    · cases h
  · rintro (⟨name, c, rest, rfl, hname, hc⟩ | ⟨name, rfl, hname⟩)
    · have hlen := length_eq_of_lowerName_eq hname
      simp only [endsElement, List.take_left' hlen, List.drop_left' hlen, hname]
      simp only [decide_true, Bool.true_and, Bool.or_eq_true, decide_eq_true_eq]
      tauto
    · have hlen := length_eq_of_lowerName_eq hname
      simp [endsElement, ← hlen, hname]

theorem exists_of_endsElement {tag e : List Char} (h : endsElement tag e = true) :
    ∃ cs, e = '<' :: '/' :: cs := by
  rcases endsElement_iff.1 h with ⟨name, c, rest, rfl, -⟩ | ⟨name, rfl, -⟩
  · exact ⟨_, rfl⟩
  · exact ⟨_, rfl⟩

/-- An end tag that begins earlier than a given one ends in front of the name of that one. -/
theorem OpensEndTag.of_append {tag s x : List Char} (htag : '/' ∉ tag) (hs : s ≠ [])
    (h : OpensEndTag tag (s ++ '<' :: '/' :: x)) (y : List Char) :
    OpensEndTag tag (s ++ '<' :: '/' :: y) := by
  obtain ⟨name, c, rest, heq, hname, hc⟩ := h
  have hslash : '/' ∉ name := by rwa [mem_iff_of_lowerName_eq (by decide) hname]
  have heq' : s ++ '<' :: '/' :: x = ('<' :: '/' :: name ++ [c]) ++ rest := by simpa using heq
  rcases List.append_eq_append_iff.1 heq' with ⟨a, ha, hx⟩ | ⟨a, ha, hrest⟩
  · rcases a with _ | ⟨a₁, _ | ⟨a₂, a⟩⟩
    · obtain rfl : s = '<' :: '/' :: name ++ [c] := by simpa using ha.symm
      exact ⟨name, c, '<' :: '/' :: y, by simp, hname, hc⟩
    · obtain ⟨rfl, -⟩ : '<' = a₁ ∧ '/' :: x = rest := by simpa using hx
      obtain rfl : c = '<' := (List.append_singleton_inj.1 ha).2
      simp [isBlank] at hc
    · obtain ⟨rfl, rfl, -⟩ : '<' = a₁ ∧ '/' = a₂ ∧ x = a ++ rest := by simpa using hx
      rcases List.eq_nil_or_concat a with rfl | ⟨a, d, rfl⟩
      · refine ⟨name, '/', y, ?_, hname, .inr (.inl rfl)⟩
        have hlast : '<' :: '/' :: name ++ [c] = (s ++ ['<']) ++ ['/'] := by simpa using ha
        rw [List.append_cons, ← (List.append_singleton_inj.1 hlast).1]
        rfl
      · -- the slash of the given end tag would be part of the name
        exfalso
        have hlast : '<' :: '/' :: name ++ [c] = (s ++ '<' :: '/' :: a) ++ [d] := by simpa using ha
        have hinit := (List.append_singleton_inj.1 hlast).1
        rcases s with _ | ⟨s₁, _ | ⟨s₂, s⟩⟩
        · exact hs rfl
        · simp at hinit
        · obtain ⟨-, -, rfl⟩ : '<' = s₁ ∧ '/' = s₂ ∧ name = s ++ '<' :: '/' :: a := by
            simpa using hinit
          simp at hslash
  · exact ⟨name, c, a ++ '<' :: '/' :: y, by simp [ha], hname, hc⟩

theorem endsElement_of_closes {tag name : String} {e : List Char}
    (he : SpellsItem false (.endTag name) e) (hc : Closes true tag name) (rest : List Char) :
    endsElement tag.toList (e ++ rest) = true := by
  obtain ⟨gap, rfl, -, -, hs, -⟩ := he.endTag_inv
  obtain ⟨n, m, hnm, hlower, hm⟩ := hc
  rw [hnm]
  refine endsElement_iff.2 (.inl ?_)
  rcases hm with rfl | ⟨-, hm⟩
  · cases gap with
    | nil => exact ⟨n, '>', rest, by simp, hlower, by simp⟩
    | cons c gap =>
      refine ⟨n, c, gap ++ '>' :: rest, by simp, hlower, ?_⟩
      rcases isBareChar_eq_false_iff.1 (stopsAt_cons.1 hs) with hb | rfl <;> simp_all
  · obtain ⟨m, rfl⟩ := List.head?_eq_some_iff.1 (Option.mem_def.1 hm)
    exact ⟨n, '/', m ++ (gap ++ '>' :: rest), by simp, hlower, by simp⟩

/-! ## Elements of raw text -/

section

open Progress

variable {f : Frame} {frames : List Frame} {before : List Node} {o : Nat} {text e : List Char}

theorem Progress.run_rawEnd (hf : f.content = .raw)
    (hends : endsElement f.start.tag.toList e = true) :
    (⟨f :: frames, before⟩ : Progress).run o e =
      match readEndTag (e.drop 2) with
      | .error cause => .error ⟨cause, o⟩
      | .ok r => (close f frames before).run (o + byteCount r.lexeme) r.rest := by
  have hcut : cut? (endsElement f.start.tag.toList) e = some ([], e) :=
    cut?_append (a := []) hends (by simp)
  obtain ⟨cs, rfl⟩ := exists_of_endsElement hends
  have hread : (⟨f :: frames, before⟩ : Progress).read o ('<' :: '/' :: cs) =
      (readEndTag cs).mapError (⟨·, o⟩) := by
    simp [read, hf, hcut, readItem]
  simp only [List.drop_succ_cons, List.drop_zero]
  cases hr : readEndTag cs with
  | error cause => exact run_error_of_read (by simp) (by rw [hread, hr]; rfl)
  | ok r =>
    obtain ⟨name, hv, -⟩ := spells_of_readEndTag false hr
    refine run_of_read (by simp) (by rw [hread, hr]; rfl) ?_
    simp [apply, hv, hf]

theorem Progress.run_rawText (hf : f.content = .raw) :
    (⟨f :: frames, []⟩ : Progress).run o text =
      match cut? (endsElement f.start.tag.toList) text with
      | none => .error ⟨.missingEndTag f.start.tag, f.offset⟩
      | some (t, e) =>
        match readEndTag (e.drop 2) with
        | .error cause => .error ⟨cause, o + byteCount t⟩
        | .ok r => (close f frames (rawChildren t)).run
            (o + byteCount t + byteCount r.lexeme) r.rest := by
  cases hc : cut? (endsElement f.start.tag.toList) text with
  | none =>
    by_cases hne : text = []
    · subst hne
      rw [run, dif_pos rfl]
    · exact run_error_of_read hne (by simp only [read, hf, hc, if_true])
  | some p =>
    obtain ⟨t, e⟩ := p
    have hends := stop_of_cut? hc
    obtain rfl := append_of_cut? hc
    cases t with
    | nil => exact run_rawEnd hf hends
    | cons c t =>
      rw [run_of_read (r := ⟨.text (String.ofList (c :: t)), c :: t, e⟩) (by simp)
        (by simp only [read, hf, hc, if_true]) rfl]
      exact run_rawEnd hf hends

end

theorem closes_of_endsElement {tag name : String} {e rest : List Char}
    (htag : ∀ c ∈ tag.toList, isTagChar c = true) (he : SpellsItem false (.endTag name) e)
    (h : endsElement tag.toList (e ++ rest) = true) : Closes true tag name := by
  obtain ⟨gap, rfl, -, hname, hs, -⟩ := he.endTag_inv
  have hs' : StopsAt isBareChar (gap ++ '>' :: rest) := hs.congr (by cases gap <;> rfl)
  have htake := takeWhile_append_of_stopsAt hname hs'
  have hbare : ∀ n, lowerName n = lowerName tag.toList → ∀ c ∈ n, isBareChar c = true := by
    intro n hlower c hc
    by_contra hb
    have hb := isBareChar_eq_false_iff.1 (by simpa using hb)
    have halpha : c.isAlpha = false := by
      simp only [isBlank, Bool.or_eq_true, decide_eq_true_eq] at hb
      rcases hb with ((((rfl | rfl) | rfl) | rfl) | rfl) | rfl <;> decide
    have := htag c ((mem_iff_of_lowerName_eq halpha hlower).1 hc)
    rcases hb with hb | rfl
    · simp [isTagChar, hb] at this
    · simp [isTagChar] at this
  rcases endsElement_iff.1 h with ⟨n, c, r, heq, hlower, hc⟩ | ⟨n, heq, hlower⟩
  · have heq : name.toList ++ (gap ++ '>' :: rest) = n ++ c :: r := by simpa using heq
    rw [heq, List.takeWhile_append_of_pos (hbare n hlower)] at htake
    refine ⟨n, (c :: r).takeWhile isBareChar, htake.symm, hlower, ?_⟩
    rcases hc with hc | rfl | rfl
    · exact .inl (List.takeWhile_cons_of_neg (by simp [isBareChar, hc]))
    · exact .inr ⟨rfl, by simp [isBareChar, isBlank]⟩
    · exact .inl (List.takeWhile_cons_of_neg (by simp [isBareChar]))
  · have heq : name.toList ++ (gap ++ '>' :: rest) = n := by simpa using heq
    rw [heq, List.takeWhile_eq_self_iff.2 (hbare n hlower)] at htake
    exact ⟨n, [], by simp [htake], hlower, .inl rfl⟩

/-- Raw text in normal form is read up to its end tag. -/
theorem cut?_rawContent {tag name : String} {t e : List Char}
    (htag : ∀ c ∈ tag.toList, isTagChar c = true) (ht : AreRawContent tag (rawChildren t))
    (he : SpellsItem false (.endTag name) e) (hc : Closes true tag name) (rest : List Char) :
    cut? (endsElement tag.toList) (t ++ (e ++ rest)) = some (t, e ++ rest) := by
  have hslash : '/' ∉ tag.toList := fun h => by simpa [isTagChar] using htag _ h
  have hclose : '>' ∉ tag.toList := fun h => by simpa [isTagChar] using htag _ h
  refine cut?_append (endsElement_of_closes he hc rest) fun s hs hne => ?_
  have htext : ¬ OpensEndTag tag.toList (s ++ ('<' :: '/' :: (tag.toList ++ ['>']))) := by
    have htne : t ≠ [] := by
      rintro rfl
      exact hne (by simpa using hs)
    simp only [rawChildren, if_neg htne, AreRawContent, String.toList_ofList] at ht
    exact ht.2 s hs hne
  obtain ⟨gap, rfl, -, -, -, -⟩ := he.endTag_inv
  rw [← Bool.not_eq_true, endsElement_iff]
  rintro (hopen | ⟨n, hn, hlower⟩)
  · exact htext (hopen.of_append hslash hne _)
  · -- the end tag would reach the end of the text without being closed
    refine hclose ((mem_iff_of_lowerName_eq (by decide) hlower).1 ?_)
    have hmem : '>' ∈ '<' :: '/' :: n := by rw [← hn]; simp
    simpa using hmem

/-- Raw text that is cut in front of its end tag is in normal form. -/
theorem areRawContent_of_cut? {tag : String} {text a e : List Char}
    (htag : ∀ c ∈ tag.toList, isTagChar c = true)
    (hcut : cut? (endsElement tag.toList) text = some (a, e)) :
    AreRawContent tag (rawChildren a) := by
  have hslash : '/' ∉ tag.toList := fun h => by simpa [isTagChar] using htag _ h
  by_cases ha : a = []
  · simp [rawChildren, ha, AreRawContent]
  · rw [rawChildren, if_neg ha, AreRawContent, String.toList_ofList]
    refine ⟨by simpa using ha, fun u hu hne hopen => ?_⟩
    have hends := not_stop_of_cut? hcut hu hne
    obtain ⟨x, rfl⟩ := exists_of_endsElement (stop_of_cut? hcut)
    rw [endsElement_iff.2 (.inl (hopen.of_append hslash hne x))] at hends
    cases hends

end Registrar.Markup
