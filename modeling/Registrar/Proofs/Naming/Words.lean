import Registrar.Naming.Words
import Registrar.Proofs.Text.Letter

/-! # Words in one pass

A run of letters and digits is cut in front of a capital behind a small letter or a digit, and in
front of a capital behind another one if a small letter follows it. The cuts can be found in one
pass, since whether a word goes on behind a character shows in the next two.
-/

namespace Registrar.Naming

open Registrar.Text

/-- Whether a word begins in front of a text because of the letter or digit behind it. -/
def isBorder (a : Char) (text : List Char) : Bool :=
  text.head?.any Char.isUpper &&
    (isLowerOrDigit a || a.isUpper && text.tail.head?.any Char.isLower)

def goesOn (a : Char) (text : List Char) : Bool :=
  text.head?.any Char.isAlphanum && !isBorder a text

def prepend (start : List Char) : List (List Char) → List (List Char)
  | [] => [start]
  | w :: ws => (start ++ w) :: ws

variable {a b c : Char} {x y text w : List Char}

/-! ## Kinds of characters -/

theorem isUpper_of_isLower (h : c.isLower = true) : c.isUpper = false := by
  rw [isLower_iff] at h
  rw [← Bool.not_eq_true, isUpper_iff]
  omega

theorem isLowerOrDigit_of_isUpper (h : c.isUpper = true) : isLowerOrDigit c = false := by
  rw [isUpper_iff] at h
  rw [← Bool.not_eq_true, isLowerOrDigit, Bool.or_eq_true, isLower_iff, isDigit_iff]
  omega

theorem isAlphanum_iff : c.isAlphanum = true ↔ c.isUpper = true ∨ isLowerOrDigit c = true := by
  have halpha : c.isAlpha = (c.isUpper || c.isLower) := rfl
  simp [Char.isAlphanum, halpha, isLowerOrDigit, or_assoc]

/-! ## The passes together -/

theorem markCapitals_cons (a : Char) (text : List Char) :
    markCapitals (a :: text) =
      if isLowerOrDigit a && text.head?.any Char.isUpper then a :: border :: markCapitals text
      else a :: markCapitals text := by
  cases text with
  | nil => simp [markCapitals]
  | cons b text =>
    rw [markCapitals]
    split
    · next h =>
      have hb : isLowerOrDigit b = false :=
        isLowerOrDigit_of_isUpper (Bool.and_eq_true _ _ ▸ h).2
      have hskip : markCapitals (b :: text) = b :: markCapitals text := by
        cases text <;> simp [markCapitals, hb]
      simp [h, hskip]
    · next h => simp [h]

theorem markTitles_cons (a : Char) (text : List Char) :
    markTitles (a :: text) =
      if a.isUpper && (text.head?.any Char.isUpper && text.tail.head?.any Char.isLower) then
        a :: border :: markTitles text
      else a :: markTitles text := by
  rcases text with _ | ⟨b, _ | ⟨c, text⟩⟩
  · simp [markTitles]
  · simp [markTitles]
  · rw [markTitles]
    split
    · next h =>
      have hc : c.isUpper = false := isUpper_of_isLower (Bool.and_eq_true _ _ ▸ h).2
      -- Neither of the two letters behind the border has another one behind it.
      have hb : markTitles (b :: c :: text) = b :: markTitles (c :: text) := by
        cases text <;> simp [markTitles, hc]
      have hskip : markTitles (c :: text) = c :: markTitles text := by
        rcases text with _ | ⟨d, _ | ⟨e, text⟩⟩ <;> simp [markTitles, hc]
      simp only [Bool.and_eq_true] at h
      simp [h, hb, hskip]
    · next h =>
      rw [Bool.and_assoc] at h
      simp [h]

theorem head?_markCapitals (text : List Char) : (markCapitals text).head? = text.head? := by
  cases text with
  | nil => rfl
  | cons a text => rw [markCapitals_cons]; split <;> rfl

theorem tail_markCapitals (h : isLowerOrDigit a = false) :
    (markCapitals (a :: text)).tail = markCapitals text := by
  rw [markCapitals_cons]
  simp [h]

/-- The two passes put a mark behind a character exactly where a border is. -/
theorem mark_cons (a : Char) (text : List Char) :
    markTitles (markCapitals (a :: text)) =
      if isBorder a text then a :: border :: markTitles (markCapitals text)
      else a :: markTitles (markCapitals text) := by
  rw [markCapitals_cons]
  by_cases hcapital : (isLowerOrDigit a && text.head?.any Char.isUpper) = true
  · have hborder : isBorder a text = true := by
      simp only [Bool.and_eq_true] at hcapital
      simp [isBorder, hcapital]
    have ha : a.isUpper = false := by
      rw [← Bool.not_eq_true]
      intro ha
      simp [isLowerOrDigit_of_isUpper ha] at hcapital
    have hmark : border.isUpper = false := by decide
    rw [if_pos hcapital, if_pos hborder, markTitles_cons, markTitles_cons border]
    simp [ha, hmark]
  · rw [if_neg hcapital, markTitles_cons, head?_markCapitals]
    cases text with
    | nil => simp [isBorder, markCapitals]
    | cons b text =>
      by_cases hb : b.isUpper = true
      · have hlower : isLowerOrDigit b = false := isLowerOrDigit_of_isUpper hb
        have ha : isLowerOrDigit a = false := by simpa [hb] using hcapital
        rw [tail_markCapitals hlower, head?_markCapitals]
        simp [isBorder, hb, ha]
      · simp [isBorder, hb]

/-! ## The runs between marks -/

theorem prepend_append (x y : List Char) (ws : List (List Char)) :
    prepend (x ++ y) ws = prepend x (prepend y ws) := by
  cases ws <;> simp [prepend]

theorem runsFrom_eq (h : w ≠ []) (text : List Char) :
    runsFrom w text =
      if text.head?.any Char.isAlphanum then prepend w.reverse (runs text)
      else w.reverse :: runs text := by
  induction text generalizing w with
  | nil => simp [runsFrom, runs, h]
  | cons c text ih =>
    by_cases hc : c.isAlphanum = true
    · have hword : runsFrom w (c :: text) = runsFrom (c :: w) text := by simp [runsFrom, hc]
      have hruns : runs (c :: text) = runsFrom [c] text := by simp [runs, runsFrom, hc]
      rw [hword, hruns, ih (List.cons_ne_nil _ _), ih (List.cons_ne_nil _ _)]
      split
      · simp [hc, ← prepend_append]
      · simp [hc, prepend]
    · simp [runsFrom, runs, h, hc]

theorem runs_cons (c : Char) (text : List Char) :
    runs (c :: text) =
      if c.isAlphanum then
        if text.head?.any Char.isAlphanum then prepend [c] (runs text) else [c] :: runs text
      else runs text := by
  by_cases hc : c.isAlphanum = true
  · have : runs (c :: text) = runsFrom [c] text := by simp [runs, runsFrom, hc]
    rw [this, runsFrom_eq (List.cons_ne_nil _ _)]
    simp [hc]
  · simp [runs, runsFrom, hc]

theorem head?_mark (text : List Char) : (markTitles (markCapitals text)).head? = text.head? := by
  cases text with
  | nil => rfl
  | cons a text => rw [mark_cons]; split <;> rfl

@[simp] theorem words_nil : words [] = [] := rfl

theorem words_cons (c : Char) (text : List Char) :
    words (c :: text) =
      if c.isAlphanum then
        if goesOn c text then prepend [c] (words text) else [c] :: words text
      else words text := by
  have hmark : border.isAlphanum = false := by decide
  unfold words
  rw [mark_cons]
  by_cases hborder : isBorder c text = true
  · rw [if_pos hborder, runs_cons, runs_cons border]
    simp [hmark, goesOn, hborder]
  · rw [if_neg hborder, runs_cons, head?_mark]
    simp [goesOn, hborder]

/-! ## Words of texts put together -/

theorem exists_words_cons (h : c.isAlphanum = true) (text : List Char) :
    ∃ w ws, words (c :: text) = (c :: w) :: ws := by
  rw [words_cons, if_pos h]
  split
  · cases words text with
    | nil => exact ⟨[], [], rfl⟩
    | cons w ws => exact ⟨w, ws, rfl⟩
  · exact ⟨[], words text, rfl⟩

theorem words_ne_nil (h : c.isAlphanum = true) (text : List Char) : words (c :: text) ≠ [] := by
  obtain ⟨w, ws, hwords⟩ := exists_words_cons h text
  rw [hwords]
  exact List.cons_ne_nil _ _

theorem mem_words (h : w ∈ words text) : w ≠ [] ∧ ∀ c ∈ w, c.isAlphanum = true := by
  induction text generalizing w with
  | nil => simp at h
  | cons c text ih =>
    rw [words_cons] at h
    split at h
    · next hc =>
      split at h
      · cases hw : words text with
        | nil =>
          obtain rfl : w = [c] := by simpa [hw, prepend] using h
          simpa using hc
        | cons v vs =>
          rw [hw, prepend, List.mem_cons] at h
          rcases h with rfl | h
          · have := (ih (hw ▸ List.mem_cons_self)).2
            simpa [hc] using this
          · exact ih (hw ▸ List.mem_cons_of_mem _ h)
      · rcases List.mem_cons.1 h with rfl | h
        · simpa using hc
        · exact ih h
    · exact ih h

theorem goesOn_append (h : b.isAlphanum = true → goesOn b y = false) :
    goesOn a (b :: y) = goesOn a [b] := by
  cases y with
  | nil => rfl
  | cons c y =>
    by_cases hc : b.isUpper = true ∧ c.isLower = true
    · -- Such a letter would go on with the word in front of it.
      have hlower : c.isAlphanum = true := isAlphanum_iff.2 (.inr (by simp [isLowerOrDigit, hc.2]))
      have := h (isAlphanum_iff.2 (.inl hc.1))
      simp [goesOn, isBorder, isUpper_of_isLower hc.2, hlower] at this
    · grind [goesOn, isBorder]

theorem words_append
    (h : ∀ a ∈ x.getLast?, a.isAlphanum = true → goesOn a y = false) :
    words (x ++ y) = words x ++ words y := by
  induction x with
  | nil => rfl
  | cons a x ih =>
    cases x with
    | nil =>
      have ha : a.isAlphanum = true → goesOn a y = false := h a rfl
      by_cases hc : a.isAlphanum = true
      · have hword : words [a] = [[a]] := by simp [words_cons, hc, goesOn]
        rw [List.singleton_append, words_cons, if_pos hc, if_neg (by simp [ha hc]), hword]
        rfl
      · simp [words_cons, hc]
    | cons b x =>
      have ih := ih (by simpa using h)
      have hgoes : goesOn a (b :: x ++ y) = goesOn a (b :: x) := by
        cases x with
        | nil => exact goesOn_append (h b (by simp))
        | cons c x => rfl
      rw [List.cons_append, words_cons, words_cons a (b :: x), hgoes, ih]
      split
      · split
        · next hgo =>
          have hb : b.isAlphanum = true := by
            have := hgo
            simp only [goesOn, List.head?_cons, Option.any_some, Bool.and_eq_true] at this
            exact this.1
          obtain ⟨v, vs, hv⟩ := List.exists_cons_of_ne_nil (words_ne_nil hb x)
          simp [hv, prepend]
        · rfl
      · rfl

theorem words_of_tail (hc : c.isAlphanum = true) (ht : ∀ d ∈ text, isLowerOrDigit d = true) :
    words (c :: text) = [c :: text] := by
  induction text generalizing c with
  | nil => simp [words_cons, hc, goesOn]
  | cons d text ih =>
    have hd : isLowerOrDigit d = true := ht d List.mem_cons_self
    have halnum : d.isAlphanum = true := isAlphanum_iff.2 (.inr hd)
    have hupper : d.isUpper = false := by
      rw [← Bool.not_eq_true]
      intro hupper
      simp [isLowerOrDigit_of_isUpper hupper] at hd
    have hgoes : goesOn c (d :: text) = true := by simp [goesOn, isBorder, halnum, hupper]
    rw [words_cons, if_pos hc, if_pos hgoes,
      ih halnum fun e he => ht e (List.mem_cons_of_mem _ he)]
    rfl

end Registrar.Naming
