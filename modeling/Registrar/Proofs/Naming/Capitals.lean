import Registrar.Proofs.Naming.Case

/-! # The language of names in capitals

A name in capitals is empty, or begins with a capital or a digit and goes on with letters, digits
and underscores in front of digits. All such names occur: each is the form in capitals of its own
words with hyphens between them.
-/

namespace Registrar.Naming

open Registrar.Text

variable {c : Char} {w text : List Char} {ws : List (List Char)}

/-- What may stand behind the first sign of a name in capitals. -/
inductive IsCapitalTail : List Char → Prop
  | nil : IsCapitalTail []
  | alphanum {c : Char} {text : List Char} :
      c.isAlphanum = true → IsCapitalTail text → IsCapitalTail (c :: text)
  | digit {c : Char} {text : List Char} :
      c.isDigit = true → IsCapitalTail text → IsCapitalTail ('_' :: c :: text)

inductive IsCapitalName : List Char → Prop
  | nil : IsCapitalName []
  | cons {c : Char} {text : List Char} :
      c.isUpper = true ∨ c.isDigit = true → IsCapitalTail text → IsCapitalName (c :: text)

theorem IsCapitalTail.mem (h : IsCapitalTail text) (hc : c ∈ text) :
    c.isAlphanum = true ∨ c = '_' := by
  induction h with
  | nil => cases hc
  | alphanum ha _ ih =>
    rcases List.mem_cons.1 hc with rfl | hc
    · exact .inl ha
    · exact ih hc
  | digit hd _ ih =>
    rcases List.mem_cons.1 hc with rfl | hc
    · exact .inr rfl
    · rcases List.mem_cons.1 hc with rfl | hc
      · exact .inl (isAlphanum_iff_isAlpha.2 (.inr hd))
      · exact ih hc

theorem IsCapitalName.mem (h : IsCapitalName text) (hc : c ∈ text) :
    c.isAlphanum = true ∨ c = '_' := by
  cases h with
  | nil => cases hc
  | cons hd htail =>
    rcases List.mem_cons.1 hc with rfl | hc
    · exact .inl (isAlphanum_of_isUpper_or_isDigit hd)
    · exact htail.mem hc

/-! ## Every form in capitals is in the language -/

theorem IsCapitalTail.append (h : IsCapitalTail text) (hw : ∀ d ∈ w, d.isAlphanum = true) :
    IsCapitalTail (w ++ text) := by
  induction w with
  | nil => exact h
  | cons c w ih =>
    obtain ⟨hc, hw⟩ := List.forall_mem_cons.1 hw
    exact .alphanum hc (ih hw)

theorem IsCapitalTail.append_inner (h : IsCapitalTail text) (hw : IsWord w) :
    IsCapitalTail (capitalizeInner w ++ text) := by
  obtain ⟨c, t, rfl⟩ := List.exists_cons_of_ne_nil hw.1
  rw [capitalizeInner_eq]
  split
  · next hdigit =>
    have hc : c.isDigit = true := by simpa using hdigit
    have htail : ∀ d ∈ lower t, d.isAlphanum = true := fun d hd =>
      isAlphanum_of_mem_capitalize hw (List.mem_cons_of_mem _ hd)
    rw [capitalize, toUpper_of_isDigit hc]
    exact .digit hc (h.append htail)
  · exact h.append fun d => isAlphanum_of_mem_capitalize hw

theorem isCapitalTail_inner (h : ∀ w ∈ ws, IsWord w) :
    IsCapitalTail (ws.flatMap capitalizeInner) := by
  induction ws with
  | nil => exact .nil
  | cons w ws ih =>
    obtain ⟨hw, hws⟩ := List.forall_mem_cons.1 h
    exact (ih hws).append_inner hw

theorem isCapitalName_joinCapitalized (h : ∀ w ∈ ws, IsWord w) :
    IsCapitalName (joinCapitalized ws) := by
  cases ws with
  | nil => exact .nil
  | cons w ws =>
    obtain ⟨hw, hws⟩ := List.forall_mem_cons.1 h
    obtain ⟨c, t, rfl⟩ := List.exists_cons_of_ne_nil hw.1
    have hfirst : c.toUpper.isUpper = true ∨ c.toUpper.isDigit = true := by
      rcases isAlphanum_iff_isAlpha.1 (isWord_cons.1 hw).1 with hc | hc
      · exact .inl (isUpper_toUpper hc)
      · exact .inr (by rwa [toUpper_of_isDigit hc])
    exact .cons hfirst ((isCapitalTail_inner hws).append fun d hd =>
      isAlphanum_of_mem_capitalize hw (List.mem_cons_of_mem _ hd))

/-! ## Every name of the language is a form in capitals -/

theorem IsCapitalTail.exists_words (h : IsCapitalTail text) :
    ∃ (w : List Char) (ws : List (List Char)), text = w ++ ws.flatMap capitalizeInner ∧
      (∀ d ∈ w, isLowerOrDigit d = true) ∧ ∀ v ∈ ws, IsWord v := by
  have hword {c : Char} {w : List Char} (hc : c.isAlphanum = true)
      (hw : ∀ d ∈ w, isLowerOrDigit d = true) : IsWord (c :: w) :=
    isWord_cons.2 ⟨hc, fun d hd => isAlphanum_iff.2 (.inr (hw d hd))⟩
  induction h with
  | nil => exact ⟨[], [], rfl, by simp, by simp⟩
  | @alphanum c _ hc _ ih =>
    obtain ⟨w, ws, rfl, hw, hws⟩ := ih
    rcases isAlphanum_iff.1 hc with hupper | hlower
    · -- A capital begins the next word.
      have hdigit : c.isDigit = false := isDigit_of_isAlpha (isAlpha_of_isUpper hupper)
      refine ⟨[], (c :: w) :: ws, ?_, by simp, List.forall_mem_cons.2 ⟨hword hc hw, hws⟩⟩
      simp [capitalizeInner, capitalize, hdigit, toUpper_of_isUpper hupper,
        lower_of_isLowerOrDigit hw]
    · exact ⟨c :: w, ws, rfl, List.forall_mem_cons.2 ⟨hlower, hw⟩, hws⟩
  | @digit c _ hc _ ih =>
    obtain ⟨w, ws, rfl, hw, hws⟩ := ih
    have hc' : c.isAlphanum = true := isAlphanum_iff_isAlpha.2 (.inr hc)
    refine ⟨[], (c :: w) :: ws, ?_, by simp, List.forall_mem_cons.2 ⟨hword hc' hw, hws⟩⟩
    simp [capitalizeInner, hc, lower_of_isLowerOrDigit hw]

theorem IsCapitalName.exists_words (h : IsCapitalName text) :
    ∃ ws, (∀ w ∈ ws, IsWord w) ∧ joinCapitalized ws = text := by
  cases h with
  | nil => exact ⟨[], by simp, rfl⟩
  | @cons c _ hc htail =>
    obtain ⟨w, ws, rfl, hw, hws⟩ := htail.exists_words
    have hupper : c.toUpper = c := hc.elim toUpper_of_isUpper toUpper_of_isDigit
    have halnum := isAlphanum_of_isUpper_or_isDigit hc
    refine ⟨(c :: w) :: ws, List.forall_mem_cons.2 ⟨isWord_cons.2 ⟨halnum, ?_⟩, hws⟩, ?_⟩
    · exact fun d hd => isAlphanum_iff.2 (.inr (hw d hd))
    · simp [joinCapitalized, capitalize, hupper, lower_of_isLowerOrDigit hw]

theorem pascalCase_joinHyphenated (h : ∀ w ∈ ws, IsWord w) :
    pascalCase (joinHyphenated ws) = joinCapitalized ws := by
  rw [pascalCase, words_joinHyphenated h, joinCapitalized_map_lower]

/-- The forms in capitals are the names of the language. -/
theorem exists_pascalCase_eq_iff : (∃ raw, pascalCase raw = text) ↔ IsCapitalName text := by
  constructor
  · rintro ⟨raw, rfl⟩
    exact isCapitalName_joinCapitalized fun _ => isWord_of_mem_words
  · intro h
    obtain ⟨ws, hws, rfl⟩ := h.exists_words
    exact ⟨joinHyphenated ws, pascalCase_joinHyphenated hws⟩

theorem isCapitalName_pascalCase (text : List Char) : IsCapitalName (pascalCase text) :=
  exists_pascalCase_eq_iff.1 ⟨text, rfl⟩

theorem mem_pascalCase (hc : c ∈ pascalCase text) : c.isAlphanum = true ∨ c = '_' :=
  (isCapitalName_pascalCase text).mem hc

theorem isUpper_head?_pascalCase (h : ∃ c ∈ text.head?, c.isAlpha = true) :
    ∃ c ∈ (pascalCase text).head?, c.isUpper = true := by
  obtain ⟨c, hhead, hc⟩ := h
  obtain ⟨rest, rfl⟩ := List.head?_eq_some_iff.1 hhead
  obtain ⟨w, ws, hwords⟩ := exists_words_cons (isAlphanum_iff_isAlpha.2 (.inl hc)) rest
  refine ⟨c.toUpper, ?_, isUpper_toUpper hc⟩
  simp [pascalCase, hwords, joinCapitalized, capitalize]

end Registrar.Naming
