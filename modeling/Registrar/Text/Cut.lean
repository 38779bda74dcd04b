/-! # Cutting a text

A text is cut in front of the first place with a given property. The two pieces always make
up the text, and no earlier place has the property.
-/

namespace Registrar.Text

/-- Cut in front of the first suffix that satisfies `stop`; `before` holds what was passed, latest
character first. -/
def cutFrom (stop : List Char → Bool) (before : List Char) :
    List Char → Option (List Char × List Char)
  | [] => if stop [] then some (before.reverse, []) else none
  | c :: cs =>
    if stop (c :: cs) then some (before.reverse, c :: cs) else cutFrom stop (c :: before) cs

/-- The text in front of the first suffix that satisfies `stop`, and that suffix. -/
def cut? (stop : List Char → Bool) (text : List Char) : Option (List Char × List Char) :=
  cutFrom stop [] text

def cutAt? (mark : List Char) (text : List Char) : Option (List Char × List Char) :=
  cut? mark.isPrefixOf text

theorem cutFrom_eq (stop : List Char → Bool) (before text : List Char) :
    cutFrom stop before text = (cut? stop text).map fun p => (before.reverse ++ p.1, p.2) := by
  suffices h : ∀ text before before', cutFrom stop (before' ++ before) text =
      (cutFrom stop before' text).map fun p => (before.reverse ++ p.1, p.2) by
    simpa [cut?] using h text before []
  intro text
  induction text with
  | nil => intro before before'; by_cases h : stop [] <;> simp [cutFrom, h]
  | cons c cs ih =>
    intro before before'
    by_cases h : stop (c :: cs)
    · simp [cutFrom, h]
    · simpa [cutFrom, h] using ih before (c :: before')

@[simp] theorem cut?_nil (stop : List Char → Bool) :
    cut? stop [] = if stop [] then some ([], []) else none := rfl

theorem cut?_cons (stop : List Char → Bool) (c : Char) (cs : List Char) :
    cut? stop (c :: cs) =
      if stop (c :: cs) then some ([], c :: cs)
      else (cut? stop cs).map fun p => (c :: p.1, p.2) := by
  by_cases h : stop (c :: cs)
  · simp [cut?, cutFrom, h]
  · have := cutFrom_eq stop [c] cs
    simp only [List.reverse_cons, List.reverse_nil, List.nil_append, List.singleton_append] at this
    simpa [cut?, cutFrom, h] using this

theorem append_of_cut? {stop : List Char → Bool} {text a b : List Char}
    (h : cut? stop text = some (a, b)) : a ++ b = text := by
  induction text generalizing a with
  | nil =>
    by_cases hs : stop [] <;> simp [hs] at h
    simp [h]
  | cons c cs ih =>
    rw [cut?_cons] at h
    split at h
    · cases h; rfl
    · obtain ⟨⟨x, y⟩, hxy, he⟩ := Option.map_eq_some_iff.1 h
      cases he
      simp [ih hxy]

theorem stop_of_cut? {stop : List Char → Bool} {text a b : List Char}
    (h : cut? stop text = some (a, b)) : stop b = true := by
  induction text generalizing a with
  | nil =>
    by_cases hs : stop [] <;> simp [hs] at h
    simp [h, hs]
  | cons c cs ih =>
    rw [cut?_cons] at h
    split at h
    · next hs => cases h; exact hs
    · obtain ⟨⟨x, y⟩, hxy, he⟩ := Option.map_eq_some_iff.1 h
      cases he
      exact ih hxy

theorem cut?_eq_none_iff {stop : List Char → Bool} {text : List Char} :
    cut? stop text = none ↔ ∀ s, s <:+ text → stop s = false := by
  induction text with
  | nil => simp
  | cons c cs ih =>
    rw [cut?_cons]
    by_cases h : stop (c :: cs)
    · simp only [h, if_true, reduceCtorEq, false_iff]
      exact fun hall => absurd (hall _ (List.suffix_refl _)) (by simp [h])
    · simp only [h, Bool.false_eq_true, if_false, Option.map_eq_none_iff, ih,
        List.suffix_cons_iff]
      constructor
      · rintro hall s (rfl | hs)
        · simpa using h
        · exact hall s hs
      · exact fun hall s hs => hall s (.inr hs)

theorem not_stop_of_cut? {stop : List Char → Bool} {text a b s : List Char}
    (h : cut? stop text = some (a, b)) (hs : s <:+ a) (hne : s ≠ []) : stop (s ++ b) = false := by
  induction text generalizing a with
  | nil =>
    by_cases hn : stop [] <;> simp [hn] at h
    exact absurd (by simpa [h.1] using hs) hne
  | cons c cs ih =>
    rw [cut?_cons] at h
    split at h
    · cases h
      exact absurd (by simpa using hs) hne
    · next hn =>
      obtain ⟨⟨x, y⟩, hxy, he⟩ := Option.map_eq_some_iff.1 h
      cases he
      rcases List.suffix_cons_iff.1 hs with rfl | hs
      · simpa [append_of_cut? hxy] using hn
      · exact ih hxy hs

theorem cut?_append {stop : List Char → Bool} {a b : List Char} (hb : stop b = true)
    (ha : ∀ s, s <:+ a → s ≠ [] → stop (s ++ b) = false) : cut? stop (a ++ b) = some (a, b) := by
  induction a with
  | nil => cases b <;> simp_all [cut?_cons]
  | cons c cs ih =>
    have hc : stop (c :: (cs ++ b)) = false := ha _ (List.suffix_refl _) (by simp)
    rw [List.cons_append, cut?_cons, ih fun s hs => ha s (hs.trans (List.suffix_cons c cs))]
    simp [hc]

theorem length_of_cut? {stop : List Char → Bool} {text a b : List Char}
    (h : cut? stop text = some (a, b)) : a.length + b.length = text.length := by
  rw [← append_of_cut? h, List.length_append]

theorem length_dropWhile_le (p : Char → Bool) (text : List Char) :
    (text.dropWhile p).length ≤ text.length :=
  (List.dropWhile_suffix p).length_le

end Registrar.Text
