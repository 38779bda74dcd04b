import Mathlib.Data.List.Chain
import Registrar.Naming.Case
import Registrar.Proofs.Naming.Words
import Registrar.Proofs.Text.Mark

/-! # Names in capitals and names with hyphens, read back

The words of a hyphenated name are the words it was made of, in small letters. The same holds of a
name in capitals, unless a single letter comes in front of a letter that no small letter follows:
then the two run together.
-/

namespace Registrar.Naming

open Registrar.Text

def IsWord (w : List Char) : Prop := w ≠ [] ∧ ∀ c ∈ w, c.isAlphanum = true

/-- Whether two words run together when they are written in capitals: a single letter in front of a
letter that is alone as well or has a digit behind it. -/
def RunTogether (v w : List Char) : Prop :=
  ∃ a b t, v = [a] ∧ w = b :: t ∧ a.isAlpha = true ∧ b.isAlpha = true ∧
    (t = [] ∨ t.head?.any Char.isDigit = true)

instance : ∀ v w, Decidable (RunTogether v w)
  | [a], b :: t => decidable_of_iff
      (a.isAlpha = true ∧ b.isAlpha = true ∧ (t = [] ∨ t.head?.any Char.isDigit = true))
      (by simp [RunTogether])
  | [], _ => isFalse (by simp [RunTogether])
  | [_], [] => isFalse (by simp [RunTogether])
  | _ :: _ :: _, _ => isFalse (by simp [RunTogether])

def IsHyphenated (text : List Char) : Prop :=
  ∃ ws : List (List Char), (∀ w ∈ ws, w ≠ [] ∧ ∀ c ∈ w, isLowerOrDigit c = true) ∧
    text = ['-'].intercalate ws

variable {a b c : Char} {v w x y text : List Char} {ws : List (List Char)}

/-! ## Single characters -/

theorem isLowerOrDigit_toLower (h : c.isAlphanum = true) : isLowerOrDigit c.toLower = true := by
  have hlower := toNat_toLower c
  rw [isAlphanum_iff, isLowerOrDigit, Bool.or_eq_true, isUpper_iff, isLower_iff, isDigit_iff] at h
  rw [isLowerOrDigit, Bool.or_eq_true, isLower_iff, isDigit_iff]
  split at hlower <;> omega

theorem toLower_of_isLowerOrDigit (h : isLowerOrDigit c = true) : c.toLower = c := by
  have hlower := toNat_toLower c
  rw [isLowerOrDigit, Bool.or_eq_true, isLower_iff, isDigit_iff] at h
  rw [Char.ext_iff, ← UInt32.toNat_inj]
  split at hlower <;> omega

theorem isUpper_toUpper (h : c.isAlpha = true) : c.toUpper.isUpper = true := by
  have hupper := toNat_toUpper c
  rw [isAlpha_iff] at h
  rw [isUpper_iff]
  split at hupper <;> omega

theorem isLower_toLower (h : c.isAlpha = true) : c.toLower.isLower = true := by
  have hlower := toNat_toLower c
  rw [isAlpha_iff] at h
  rw [isLower_iff]
  split at hlower <;> omega

theorem isAlphanum_iff_isAlpha : c.isAlphanum = true ↔ c.isAlpha = true ∨ c.isDigit = true := by
  simp [Char.isAlphanum]

theorem isDigit_of_isAlpha (h : c.isAlpha = true) : c.isDigit = false := by
  rw [isAlpha_iff] at h
  rw [← Bool.not_eq_true, isDigit_iff]
  omega

theorem isAlphanum_of_isUpper_or_isDigit (h : c.isUpper = true ∨ c.isDigit = true) :
    c.isAlphanum = true :=
  h.elim (fun h => isAlphanum_iff.2 (.inl h)) fun h => isAlphanum_iff_isAlpha.2 (.inr h)

theorem isAlphanum_toUpper (h : c.isAlphanum = true) : c.toUpper.isAlphanum = true := by
  rcases isAlphanum_iff_isAlpha.1 h with h | h
  · exact isAlphanum_iff.2 (.inl (isUpper_toUpper h))
  · rw [toUpper_of_isDigit h]
    exact isAlphanum_iff_isAlpha.2 (.inr h)

/-! ## Single words -/

theorem isWord_of_mem_words (h : w ∈ words text) : IsWord w := mem_words h

theorem isWord_cons : IsWord (c :: w) ↔ c.isAlphanum = true ∧ ∀ d ∈ w, d.isAlphanum = true := by
  simp [IsWord]

theorem isLowerOrDigit_of_mem_lower (h : ∀ d ∈ w, d.isAlphanum = true) :
    ∀ d ∈ lower w, isLowerOrDigit d = true := by
  intro d hd
  obtain ⟨e, he, rfl⟩ := List.mem_map.1 hd
  exact isLowerOrDigit_toLower (h e he)

theorem lower_lower (w : List Char) : lower (lower w) = lower w := by
  rw [lower, lower, List.map_map]
  exact List.map_congr_left fun c _ => toLower_toLower c

@[simp] theorem lower_capitalize (w : List Char) : lower (capitalize w) = lower w := by
  cases w with
  | nil => rfl
  | cons c w => exact congrArg₂ List.cons (toLower_toUpper c) (lower_lower w)

@[simp] theorem capitalize_lower (w : List Char) : capitalize (lower w) = capitalize w := by
  cases w with
  | nil => rfl
  | cons c w => exact congrArg₂ List.cons (toUpper_toLower c) (lower_lower w)

theorem lower_of_isLowerOrDigit (h : ∀ c ∈ w, isLowerOrDigit c = true) : lower w = w := by
  unfold lower
  conv_rhs => rw [← List.map_id w]
  exact List.map_congr_left fun c hc => toLower_of_isLowerOrDigit (h c hc)

theorem words_lower (h : IsWord w) : words (lower w) = [lower w] := by
  cases w with
  | nil => exact absurd rfl h.1
  | cons c w =>
    obtain ⟨hc, hw⟩ := isWord_cons.1 h
    exact words_of_tail (isAlphanum_iff.2 (.inr (isLowerOrDigit_toLower hc)))
      (isLowerOrDigit_of_mem_lower hw)

theorem words_capitalize (h : IsWord w) : words (capitalize w) = [capitalize w] := by
  cases w with
  | nil => exact absurd rfl h.1
  | cons c w =>
    obtain ⟨hc, hw⟩ := isWord_cons.1 h
    exact words_of_tail (isAlphanum_toUpper hc) (isLowerOrDigit_of_mem_lower hw)

theorem capitalizeInner_eq (w : List Char) :
    capitalizeInner w =
      if w.head?.any Char.isDigit then '_' :: capitalize w else capitalize w := by
  cases w with
  | nil => rfl
  | cons c w =>
    by_cases hc : c.isDigit = true
    · simp [capitalizeInner, capitalize, hc, toUpper_of_isDigit hc]
    · simp [capitalizeInner, hc]

/-! ## Hyphenated names -/

theorem joinHyphenated_cons_cons (v w : List Char) (ws : List (List Char)) :
    joinHyphenated (v :: w :: ws) = lower v ++ '-' :: joinHyphenated (w :: ws) := by
  simp [joinHyphenated]

theorem joinHyphenated_eq_intercalate (ws : List (List Char)) :
    joinHyphenated ws = ['-'].intercalate (ws.map lower) := by
  induction ws with
  | nil => rfl
  | cons v ws ih =>
    cases ws with
    | nil => simp [joinHyphenated, List.intercalate]
    | cons w ws =>
      rw [joinHyphenated_cons_cons, ih]
      simp [List.intercalate]

theorem joinHyphenated_map_capitalize (ws : List (List Char)) :
    joinHyphenated (ws.map capitalize) = joinHyphenated ws := by
  simp [joinHyphenated_eq_intercalate, Function.comp_def]

theorem words_hyphen (x y : List Char) : words (x ++ '-' :: y) = words x ++ words y := by
  have hhyphen : ('-' : Char).isAlphanum = false := by decide
  rw [words_append fun a _ _ => by simp [goesOn, hhyphen], words_cons]
  simp [hhyphen]

theorem words_joinHyphenated (h : ∀ w ∈ ws, IsWord w) :
    words (joinHyphenated ws) = ws.map lower := by
  induction ws with
  | nil => rfl
  | cons v ws ih =>
    have hv : words (lower v) = [lower v] := words_lower (h v List.mem_cons_self)
    cases ws with
    | nil => simpa [joinHyphenated] using hv
    | cons w ws =>
      rw [joinHyphenated_cons_cons, words_hyphen, hv,
        ih fun u hu => h u (List.mem_cons_of_mem _ hu)]
      rfl

theorem words_paramCase (text : List Char) : words (paramCase text) = (words text).map lower :=
  words_joinHyphenated fun _ => isWord_of_mem_words

theorem paramCase_of_isHyphenated (h : IsHyphenated text) : paramCase text = text := by
  obtain ⟨ws, hws, rfl⟩ := h
  have hlower : ws.map lower = ws := by
    conv_rhs => rw [← List.map_id ws]
    exact List.map_congr_left fun w hw => lower_of_isLowerOrDigit (hws w hw).2
  have hword : ∀ w ∈ ws, IsWord w := fun w hw =>
    ⟨(hws w hw).1, fun c hc => isAlphanum_iff.2 (.inr ((hws w hw).2 c hc))⟩
  have hjoin : joinHyphenated ws = ['-'].intercalate ws := by
    rw [joinHyphenated_eq_intercalate, hlower]
  rw [paramCase, ← hjoin, words_joinHyphenated hword, hlower]

/-- The hyphenated names are the hyphenated forms. -/
theorem isHyphenated_iff : IsHyphenated text ↔ paramCase text = text := by
  constructor
  · exact paramCase_of_isHyphenated
  · intro h
    refine ⟨(words text).map lower, fun w hw => ?_, ?_⟩
    · obtain ⟨v, hv, rfl⟩ := List.mem_map.1 hw
      have hv : IsWord v := isWord_of_mem_words hv
      exact ⟨by simpa [lower] using hv.1, isLowerOrDigit_of_mem_lower hv.2⟩
    · rw [← joinHyphenated_eq_intercalate]
      exact h.symm

theorem mem_joinHyphenated (h : ∀ w ∈ ws, IsWord w) (hc : c ∈ joinHyphenated ws) :
    c.isAlphanum = true ∨ c = '-' := by
  have hlower : ∀ w ∈ ws, ∀ d ∈ lower w, d.isAlphanum = true := fun w hw d hd =>
    isAlphanum_iff.2 (.inr (isLowerOrDigit_of_mem_lower (h w hw).2 d hd))
  cases ws with
  | nil => simp [joinHyphenated] at hc
  | cons w ws =>
    rcases List.mem_append.1 hc with hc | hc
    · exact .inl (hlower w List.mem_cons_self c hc)
    · obtain ⟨v, hv, hc⟩ := List.mem_flatMap.1 hc
      rcases List.mem_cons.1 hc with rfl | hc
      · exact .inr rfl
      · exact .inl (hlower v (List.mem_cons_of_mem _ hv) c hc)

/-! ## Names in capitals -/

theorem joinCapitalized_cons_cons (v w : List Char) (ws : List (List Char)) :
    joinCapitalized (v :: w :: ws) =
      capitalize v ++ (if w.head?.any Char.isDigit then '_' :: joinCapitalized (w :: ws)
        else joinCapitalized (w :: ws)) := by
  simp only [joinCapitalized, List.flatMap_cons, capitalizeInner_eq w]
  split <;> simp

theorem joinCapitalized_map_lower (ws : List (List Char)) :
    joinCapitalized (ws.map lower) = joinCapitalized ws := by
  have hinner : ∀ w, capitalizeInner (lower w) = capitalizeInner w := by
    intro w
    have hhead : (lower w).head?.any Char.isDigit = w.head?.any Char.isDigit := by
      cases w <;> simp [lower, isDigit_toLower]
    rw [capitalizeInner_eq, capitalizeInner_eq, hhead, capitalize_lower]
  cases ws with
  | nil => rfl
  | cons w ws => simp [joinCapitalized, List.flatMap_map, hinner]

theorem isAlphanum_of_mem_capitalize (h : IsWord w) (hc : c ∈ capitalize w) :
    c.isAlphanum = true := by
  cases w with
  | nil => cases hc
  | cons d w =>
    obtain ⟨hd, hw⟩ := isWord_cons.1 h
    rcases List.mem_cons.1 hc with rfl | hc
    · exact isAlphanum_toUpper hd
    · exact isAlphanum_iff.2 (.inr (isLowerOrDigit_of_mem_lower hw c hc))

theorem stopsAt_inner (h : ∀ w ∈ ws, IsWord w) :
    StopsAt isLowerOrDigit (ws.flatMap capitalizeInner) := by
  cases ws with
  | nil => simp [StopsAt]
  | cons w ws =>
    have hw : IsWord w := h w List.mem_cons_self
    obtain ⟨c, w, rfl⟩ := List.exists_cons_of_ne_nil hw.1
    rw [List.flatMap_cons, capitalizeInner]
    split
    · exact stopsAt_cons.2 (by decide)
    · next hdigit =>
      have halpha := (isAlphanum_iff_isAlpha.1 (isWord_cons.1 hw).1).resolve_right hdigit
      exact stopsAt_cons.2 (isLowerOrDigit_of_isUpper (isUpper_toUpper halpha))

theorem stopsAt_isLower (h : ∀ w ∈ ws, IsWord w) (hw : w = [] ∨ w.head?.any Char.isDigit = true) :
    StopsAt Char.isLower (lower w ++ ws.flatMap capitalizeInner) := by
  intro c hc
  rcases hw with rfl | hw
  · have hstop : c.isLower = false ∧ c.isDigit = false := by
      simpa [isLowerOrDigit] using stopsAt_inner h c hc
    exact hstop.1
  · cases w with
    | nil => cases hw
    | cons d w =>
      obtain rfl : d.toLower = c := by simpa [lower] using hc
      rw [← Bool.not_eq_true]
      intro hlower
      have hdigit := isDigit_of_isAlpha (isAlpha_of_isLower hlower)
      rw [isDigit_toLower] at hdigit
      simp [hdigit] at hw

theorem goesOn_joinCapitalized (h : ∀ w ∈ ws, IsWord w) (hrun : RunTogether v w) :
    ∃ a, capitalize v = [a] ∧ a.isAlphanum = true ∧ w.head?.any Char.isDigit = false ∧
      goesOn a (joinCapitalized (w :: ws)) = true := by
  obtain ⟨a, b, t, rfl, rfl, ha, hb, ht⟩ := hrun
  have hupper := isUpper_toUpper hb
  have hlower : isLowerOrDigit a.toUpper = false := isLowerOrDigit_of_isUpper (isUpper_toUpper ha)
  have hnext : (lower t ++ ws.flatMap capitalizeInner).head?.any Char.isLower = false := by
    simpa [Option.any_eq_false, StopsAt] using stopsAt_isLower h ht
  have hborder : isBorder a.toUpper (joinCapitalized ((b :: t) :: ws)) = false := by
    rw [isBorder, hlower, joinCapitalized, capitalize, List.cons_append, List.tail_cons, hnext]
    simp
  refine ⟨a.toUpper, rfl, isAlphanum_toUpper (isAlphanum_iff_isAlpha.2 (.inl ha)),
    by simpa using isDigit_of_isAlpha hb, ?_⟩
  rw [goesOn, hborder]
  simp [joinCapitalized, capitalize, isAlphanum_iff.2 (.inl hupper)]

theorem not_goesOn_joinCapitalized (hv : IsWord v) (hw : IsWord w) (hne : ¬ RunTogether v w)
    (hdigit : w.head?.any Char.isDigit = false) (ws : List (List Char)) :
    ∀ a ∈ (capitalize v).getLast?, goesOn a (joinCapitalized (w :: ws)) = false := by
  obtain ⟨c, v, rfl⟩ := List.exists_cons_of_ne_nil hv.1
  obtain ⟨b, t, rfl⟩ := List.exists_cons_of_ne_nil hw.1
  obtain ⟨hc, hv⟩ := isWord_cons.1 hv
  obtain ⟨hb, ht⟩ := isWord_cons.1 hw
  have hb : b.isAlpha = true := (isAlphanum_iff_isAlpha.1 hb).resolve_right (by simpa using hdigit)
  have hupper := isUpper_toUpper hb
  intro a ha
  suffices hborder : isBorder a (joinCapitalized ((b :: t) :: ws)) = true by
    simp [goesOn, hborder]
  rcases List.eq_nil_or_concat' v with rfl | ⟨u, d, rfl⟩
  · obtain rfl : c.toUpper = a := by simpa [capitalize, lower] using ha
    rcases isAlphanum_iff_isAlpha.1 hc with hc | hc
    · -- Two capitals: the second has a small letter behind it.
      cases t with
      | nil => exact absurd ⟨c, b, [], rfl, rfl, hc, hb, .inl rfl⟩ hne
      | cons d t =>
        have hd : d.isAlpha = true := by
          refine (isAlphanum_iff_isAlpha.1 (ht d List.mem_cons_self)).resolve_right fun hd => ?_
          exact hne ⟨c, b, d :: t, rfl, rfl, hc, hb, .inr (by simpa using hd)⟩
        simp [isBorder, joinCapitalized, capitalize, lower, hupper, isUpper_toUpper hc,
          isLower_toLower hd]
    · simp [isBorder, joinCapitalized, capitalize, hupper, toUpper_of_isDigit hc, isLowerOrDigit,
        hc]
  · obtain rfl : d.toLower = a := by
      simpa [capitalize, lower, List.getLast?_cons] using ha
    have hd : isLowerOrDigit d.toLower = true := isLowerOrDigit_toLower (hv d (by simp))
    simp [isBorder, joinCapitalized, capitalize, hupper, hd]

/-- The words of a name in capitals begin with its first word, and the next word goes with it if
the two run together. -/
theorem words_joinCapitalized_cons_cons (h : ∀ u ∈ v :: w :: ws, IsWord u) :
    words (joinCapitalized (v :: w :: ws)) =
      if RunTogether v w then prepend (capitalize v) (words (joinCapitalized (w :: ws)))
      else capitalize v :: words (joinCapitalized (w :: ws)) := by
  have hv : IsWord v := h v List.mem_cons_self
  have hw : IsWord w := h w (by simp)
  rw [joinCapitalized_cons_cons]
  by_cases hrun : RunTogether v w
  · have hws : ∀ u ∈ ws, IsWord u := fun u hu => h u (by simp [hu])
    obtain ⟨a, hcapital, ha, hdigit, hgoes⟩ := goesOn_joinCapitalized hws hrun
    rw [if_pos hrun, hdigit, if_neg Bool.false_ne_true, hcapital, List.singleton_append, words_cons,
      if_pos ha, if_pos hgoes]
  · rw [if_neg hrun]
    cases hdigit : w.head?.any Char.isDigit with
    | true =>
      have hmark : ('_' : Char).isAlphanum = false := by decide
      rw [if_pos rfl, words_append fun a _ _ => by simp [goesOn, hmark], words_cons,
        words_capitalize hv]
      simp [hmark]
    | false =>
      rw [if_neg Bool.false_ne_true,
        words_append fun a ha _ => not_goesOn_joinCapitalized hv hw hrun hdigit ws a ha,
        words_capitalize hv]
      rfl

/-- The words of a name in capitals, if no two of them run together. -/
theorem words_joinCapitalized (h : ∀ w ∈ ws, IsWord w)
    (hchain : ws.IsChain fun v w => ¬ RunTogether v w) :
    words (joinCapitalized ws) = ws.map capitalize := by
  induction ws with
  | nil => rfl
  | cons v ws ih =>
    cases ws with
    | nil => simpa [joinCapitalized] using words_capitalize (h v List.mem_cons_self)
    | cons w ws =>
      obtain ⟨hne, hchain⟩ := List.isChain_cons_cons.1 hchain
      rw [words_joinCapitalized_cons_cons h, if_neg hne,
        ih (fun u hu => h u (List.mem_cons_of_mem _ hu)) hchain]
      rfl

/-- The hyphenated form of a name survives its capitals, if no two of its words run together. -/
theorem paramCase_pascalCase (hchain : (words text).IsChain fun v w => ¬ RunTogether v w) :
    paramCase (pascalCase text) = paramCase text := by
  rw [paramCase, pascalCase, words_joinCapitalized (fun _ => isWord_of_mem_words) hchain,
    joinHyphenated_map_capitalize, paramCase]

/-! ## The marker of directives -/

theorem joinHyphenated_ne_hyphen (h : ∀ w ∈ ws, IsWord w) {rest : List Char} :
    joinHyphenated ws ≠ '-' :: rest := by
  cases ws with
  | nil => simp [joinHyphenated]
  | cons w ws =>
    have hw : IsWord w := h w List.mem_cons_self
    obtain ⟨c, w, rfl⟩ := List.exists_cons_of_ne_nil hw.1
    rintro heq
    have hc := isLowerOrDigit_toLower (isWord_cons.1 hw).1
    rw [(List.cons.inj heq).1] at hc
    exact absurd hc (by decide)

/-- What stands behind a marker is left, be the marker in front of its first word, a word of its
own or no part of a word. -/
theorem dropMarker_paramCase {marker : Char} (hmarker : marker ≠ '\u212a') (text : List Char) :
    dropMarker marker (paramCase (marker :: text)) = paramCase text := by
  have hlower : lowerMarker marker = marker.toLower := if_neg hmarker
  have hwords : ∀ w ∈ words text, IsWord w := fun _ => isWord_of_mem_words
  have hdrop : ∀ rest, (∀ cs, rest ≠ '-' :: cs) →
      dropMarker marker (marker.toLower :: rest) = rest := by
    intro rest hrest
    rw [dropMarker, if_pos hlower.symm]
    exact hrest
  rw [paramCase, paramCase, words_cons]
  split
  · next halnum =>
    split
    · next hgoes =>
      cases hw : words text with
      | nil => exact hdrop [] (by simp)
      | cons w ws =>
        rw [hw] at hwords
        exact hdrop (joinHyphenated (w :: ws)) fun cs => joinHyphenated_ne_hyphen hwords
    · cases words text with
      | nil => exact hdrop [] (by simp)
      | cons w ws =>
        rw [joinHyphenated_cons_cons]
        exact if_pos hlower.symm
  · next halnum =>
    have halpha : marker.isAlpha = false := by
      simp only [Char.isAlphanum, Bool.or_eq_true, not_or, Bool.not_eq_true] at halnum
      exact halnum.1
    have hself : lowerMarker marker = marker := by rw [hlower, toLower_eq_iff halpha]
    unfold dropMarker
    split
    · next hnil => exact hnil.symm
    · next c cs heq =>
      rw [heq, hself, if_neg]
      rintro rfl
      rcases mem_joinHyphenated hwords (heq ▸ List.mem_cons_self) with hc | rfl
      · exact halnum hc
      · exact joinHyphenated_ne_hyphen hwords heq

theorem dropMarker_suffix (marker : Char) (text : List Char) : dropMarker marker text <:+ text := by
  unfold dropMarker
  split
  · exact List.suffix_refl _
  · split
    · split
      · exact (List.suffix_cons _ _).trans (List.suffix_cons _ _)
      · exact List.suffix_cons _ _
    · exact List.suffix_refl _

theorem mem_registeredName {marker : Char} {exported : String}
    (hc : c ∈ (registeredName marker exported).toList) : c.isAlphanum = true ∨ c = '-' := by
  rw [registeredName, String.toList_ofList] at hc
  exact mem_joinHyphenated (fun _ => isWord_of_mem_words)
    ((dropMarker_suffix _ _).subset hc)

/-- A directive is registered under the hyphenated form of its name in capitals. -/
theorem registeredName_directiveName_eq {marker : Char} (hmarker : marker ≠ '\u212a')
    (raw : String) : registeredName marker (directiveName marker raw) =
      String.ofList (paramCase (pascalCase raw.toList)) := by
  rw [registeredName, directiveName, String.toList_ofList, dropMarker_paramCase hmarker]

theorem registeredName_directiveName {marker : Char} (hmarker : marker ≠ '\u212a')
    {raw : String} (hchain : (words raw.toList).IsChain fun v w => ¬ RunTogether v w) :
    registeredName marker (directiveName marker raw) = String.ofList (paramCase raw.toList) := by
  rw [registeredName_directiveName_eq hmarker, paramCase_pascalCase hchain]

end Registrar.Naming
