import Mathlib.Data.List.Forall2
import Registrar.Proofs.Naming.Case

/-! # Spellings of a name

Two texts spell the same name if their words are equal one by one, whatever their case. The
hyphenated form of a text tells its words, and so does the form in capitals. The form in capitals is
a spelling of the text itself only if no two words run together in it.
-/

namespace Registrar.Naming

open Registrar.Text

variable {c : Char} {w x y text rest : List Char} {ws : List (List Char)}

def SameWords (x y : List Char) : Prop :=
  List.Forall₂ (fun v w => lower v = lower w) (words x) (words y)

instance : Decidable (SameWords x y) :=
  inferInstanceAs (Decidable (List.Forall₂ _ (words x) (words y)))

theorem sameWords_iff : SameWords x y ↔ (words x).map lower = (words y).map lower := by
  rw [← List.forall₂_eq_eq_eq, List.forall₂_map_left_iff, List.forall₂_map_right_iff, SameWords]

theorem paramCase_eq_iff : paramCase x = paramCase y ↔ SameWords x y := by
  rw [sameWords_iff]
  constructor
  · intro h
    rw [← words_paramCase, h, words_paramCase]
  · intro h
    rw [paramCase, paramCase, joinHyphenated_eq_intercalate, h, ← joinHyphenated_eq_intercalate]

theorem sameWords_paramCase (text : List Char) : SameWords (paramCase text) text := by
  have hlower : lower ∘ lower = lower := funext lower_lower
  rw [sameWords_iff, words_paramCase, List.map_map, hlower]

/-! ## Names in capitals, read back -/

/-- The words that make up a name in capitals, in small letters. A word goes on over small letters
and digits. -/
def capitalWords : List Char → List (List Char)
  | [] => []
  | c :: cs =>
    if c = '_' then capitalWords cs
    else if cs.head?.any isLowerOrDigit then prepend [c.toLower] (capitalWords cs)
    else [c.toLower] :: capitalWords cs

theorem capitalWords_word (hc : c.isAlphanum = true) (hw : ∀ d ∈ w, isLowerOrDigit d = true)
    (hrest : StopsAt isLowerOrDigit rest) :
    capitalWords (c :: (w ++ rest)) = (c.toLower :: w) :: capitalWords rest := by
  have hmark {c : Char} (hc : c.isAlphanum = true) : c ≠ '_' := by
    rintro rfl
    exact absurd hc (by decide)
  induction w generalizing c with
  | nil =>
    have hstop : rest.head?.any isLowerOrDigit = false := by
      simpa [StopsAt, Option.any_eq_false] using hrest
    simp [capitalWords, hmark hc, hstop]
  | cons d w ih =>
    obtain ⟨hd, hw⟩ := List.forall_mem_cons.1 hw
    rw [List.cons_append, capitalWords, if_neg (hmark hc), ih (isAlphanum_iff.2 (.inr hd)) hw,
      toLower_of_isLowerOrDigit hd]
    simp [hd, prepend]

theorem capitalWords_capitalize (hw : IsWord w) (hrest : StopsAt isLowerOrDigit rest) :
    capitalWords (capitalize w ++ rest) = lower w :: capitalWords rest := by
  obtain ⟨c, w, rfl⟩ := List.exists_cons_of_ne_nil hw.1
  obtain ⟨hc, hw⟩ := isWord_cons.1 hw
  rw [capitalize, List.cons_append, capitalWords_word (isAlphanum_toUpper hc)
    (isLowerOrDigit_of_mem_lower hw) hrest, toLower_toUpper]
  rfl

theorem capitalWords_inner (h : ∀ w ∈ ws, IsWord w) :
    capitalWords (ws.flatMap capitalizeInner) = ws.map lower := by
  induction ws with
  | nil => rfl
  | cons w ws ih =>
    obtain ⟨hw, hws⟩ := List.forall_mem_cons.1 h
    have hword := capitalWords_capitalize hw (stopsAt_inner hws)
    rw [ih hws] at hword
    rw [List.flatMap_cons, capitalizeInner_eq]
    split
    · rw [List.cons_append, capitalWords, if_pos rfl, hword]
      rfl
    · exact hword

theorem capitalWords_joinCapitalized (h : ∀ w ∈ ws, IsWord w) :
    capitalWords (joinCapitalized ws) = ws.map lower := by
  cases ws with
  | nil => rfl
  | cons w ws =>
    obtain ⟨hw, hws⟩ := List.forall_mem_cons.1 h
    rw [joinCapitalized, capitalWords_capitalize hw (stopsAt_inner hws), capitalWords_inner hws]
    rfl

theorem pascalCase_eq_iff : pascalCase x = pascalCase y ↔ SameWords x y := by
  constructor
  · intro h
    rw [sameWords_iff, ← capitalWords_joinCapitalized fun _ => isWord_of_mem_words,
      ← capitalWords_joinCapitalized fun _ => isWord_of_mem_words]
    exact congrArg capitalWords h
  · intro h
    rw [pascalCase, pascalCase, ← joinCapitalized_map_lower, sameWords_iff.1 h,
      joinCapitalized_map_lower]

/-! ## Words that run together -/

theorem length_prepend {start : List Char} (h : ws ≠ []) :
    (prepend start ws).length = ws.length := by
  cases ws with
  | nil => exact absurd rfl h
  | cons w ws => rfl

theorem words_joinCapitalized_ne_nil (h : ∀ w ∈ ws, IsWord w) (hne : ws ≠ []) :
    words (joinCapitalized ws) ≠ [] := by
  obtain ⟨w, ws, rfl⟩ := List.exists_cons_of_ne_nil hne
  have hw : IsWord w := h w List.mem_cons_self
  obtain ⟨c, w, rfl⟩ := List.exists_cons_of_ne_nil hw.1
  exact words_ne_nil (isAlphanum_toUpper (isWord_cons.1 hw).1) _

theorem length_words_joinCapitalized_le (h : ∀ w ∈ ws, IsWord w) :
    (words (joinCapitalized ws)).length ≤ ws.length := by
  induction ws with
  | nil => exact le_rfl
  | cons v ws ih =>
    cases ws with
    | nil => simp [joinCapitalized, words_capitalize (h v List.mem_cons_self)]
    | cons w ws =>
      have hws : ∀ u ∈ w :: ws, IsWord u := fun u hu => h u (List.mem_cons_of_mem _ hu)
      have hne := words_joinCapitalized_ne_nil hws (List.cons_ne_nil _ _)
      rw [words_joinCapitalized_cons_cons h]
      split
      · rw [length_prepend hne]
        exact (ih hws).trans (Nat.le_succ _)
      · exact Nat.succ_le_succ (ih hws)

/-- A name in capitals has fewer words than it was made of, if two of them run together. -/
theorem length_words_joinCapitalized_eq_iff (h : ∀ w ∈ ws, IsWord w) :
    (words (joinCapitalized ws)).length = ws.length ↔
      ws.IsChain fun v w => ¬ RunTogether v w := by
  induction ws with
  | nil => simp [joinCapitalized]
  | cons v ws ih =>
    cases ws with
    | nil => simp [joinCapitalized, words_capitalize (h v List.mem_cons_self)]
    | cons w ws =>
      have hws : ∀ u ∈ w :: ws, IsWord u := fun u hu => h u (List.mem_cons_of_mem _ hu)
      have hne := words_joinCapitalized_ne_nil hws (List.cons_ne_nil _ _)
      have hle := length_words_joinCapitalized_le hws
      rw [words_joinCapitalized_cons_cons h, List.isChain_cons_cons, ← ih hws]
      split
      · next hrun =>
        rw [length_prepend hne, List.length_cons]
        simp only [hrun, not_true, false_and, iff_false]
        omega
      · next hrun => simp [hrun]

/-- The form in capitals has the words of the text, unless some of them run together in it. -/
theorem sameWords_pascalCase_iff : SameWords (pascalCase text) text ↔
    (words text).IsChain fun v w => ¬ RunTogether v w := by
  have hwords : ∀ w ∈ words text, IsWord w := fun _ => isWord_of_mem_words
  constructor
  · intro h
    exact (length_words_joinCapitalized_eq_iff hwords).1 h.length_eq
  · intro h
    exact paramCase_eq_iff.1 (paramCase_pascalCase h)

/-! ## The names of directives -/

theorem directiveName_eq_of_paramCase_eq {marker : Char} {raw raw' : String}
    (h : paramCase raw.toList = paramCase raw'.toList) :
    directiveName marker raw = directiveName marker raw' := by
  rw [directiveName, directiveName, pascalCase_eq_iff.2 (paramCase_eq_iff.1 h)]

/-- A directive is registered under the hyphenated form of the name in the template exactly if no
two words of this name run together in capitals. A hyphenated name is then registered as it is. The
marker may be any sign; only the Kelvin sign would be taken for a letter of the name. -/
theorem registeredName_directiveName_iff {marker : Char} (hmarker : marker ≠ '\u212a')
    (raw : String) :
    (registeredName marker (directiveName marker raw) = String.ofList (paramCase raw.toList) ↔
      (words raw.toList).IsChain fun v w => ¬ RunTogether v w) ∧
    (IsHyphenated raw.toList → ((words raw.toList).IsChain fun v w => ¬ RunTogether v w) →
      registeredName marker (directiveName marker raw) = raw) := by
  constructor
  · rw [registeredName_directiveName_eq hmarker, String.ofList_inj, paramCase_eq_iff,
      sameWords_pascalCase_iff]
  · intro hhyphen hchain
    rw [registeredName_directiveName hmarker hchain, paramCase_of_isHyphenated hhyphen,
      String.ofList_toList]

theorem registeredName_directiveName_v2 :
    'v' ≠ '\u212a' ∧ IsHyphenated "v-2x".toList ∧
      ((words "v-2x".toList).IsChain fun v w => ¬ RunTogether v w) ∧
      registeredName 'v' (directiveName 'v' "v-2x") = "v-2x" := by
  have hmarker : 'v' ≠ '\u212a' := by decide
  have hhyphen : IsHyphenated "v-2x".toList := isHyphenated_iff.2 (by decide)
  have hchain : (words "v-2x".toList).IsChain fun v w => ¬ RunTogether v w := by decide
  exact ⟨hmarker, hhyphen, hchain,
    (registeredName_directiveName_iff hmarker "v-2x").2 hhyphen hchain⟩

end Registrar.Naming
