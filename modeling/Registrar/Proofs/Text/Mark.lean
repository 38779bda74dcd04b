import Mathlib.Data.List.Infix
import Mathlib.Data.List.TakeWhile
import Registrar.Text.Cut
import Registrar.Text.Position

/-! # Marks

A text is cut at a mark exactly if the mark does not begin earlier, not even in the last characters
of the text together with the first ones of the mark.
-/

namespace Registrar.Text

def StopsAt (p : Char → Bool) (text : List Char) : Prop := ∀ c ∈ text.head?, p c = false

variable {p : Char → Bool} {a b mark : List Char}

instance {text : List Char} : Decidable (StopsAt p text) := Option.decidableForallMem text.head?

theorem stopsAt_cons {c : Char} : StopsAt p (c :: a) ↔ p c = false := by simp [StopsAt]

theorem StopsAt.congr (ha : StopsAt p a) (h : a.head? = b.head?) : StopsAt p b := by
  rwa [StopsAt, ← h]

theorem stopsAt_dropWhile (p : Char → Bool) (text : List Char) : StopsAt p (text.dropWhile p) := by
  intro c hc
  have h := List.head?_dropWhile_not p text
  rwa [Option.mem_def.1 hc] at h

theorem takeWhile_append_of_stopsAt (ha : ∀ c ∈ a, p c = true) (hb : StopsAt p b) :
    (a ++ b).takeWhile p = a := by
  rw [List.takeWhile_append_of_pos ha]
  cases b with
  | nil => simp
  | cons c b => simp [stopsAt_cons.1 hb]

theorem dropWhile_append_of_stopsAt (ha : ∀ c ∈ a, p c = true) (hb : StopsAt p b) :
    (a ++ b).dropWhile p = b := by
  rw [List.dropWhile_append_of_pos ha]
  cases b with
  | nil => simp
  | cons c b => simp [stopsAt_cons.1 hb]

theorem infix_of_prefix_append {s : List Char} (hs : s <:+ a) (hne : s ≠ [])
    (h : mark <+: s ++ (mark ++ b)) : mark <:+: a ++ mark.dropLast := by
  have hlen : mark.length ≤ (s ++ mark.dropLast).length := by
    have := List.length_pos_iff.2 hne
    simp only [List.length_append, List.length_dropLast]
    omega
  have hsplit : s ++ mark.dropLast <+: s ++ (mark ++ b) :=
    (List.prefix_append_right_inj s).2 ((List.dropLast_prefix mark).trans (List.prefix_append _ _))
  obtain ⟨t, rfl⟩ := hs
  have hp : mark <+: s ++ mark.dropLast := List.prefix_of_prefix_length_le h hsplit hlen
  rw [List.append_assoc]
  exact List.IsInfix.trans hp.isInfix (List.suffix_append t _).isInfix

theorem cutAt?_append_iff (hne : mark ≠ []) :
    cutAt? mark (a ++ (mark ++ b)) = some (a, mark ++ b) ↔ ¬ mark <:+: a ++ mark.dropLast := by
  constructor
  · rintro h ⟨x, y, hxy⟩
    have hlen := congrArg List.length hxy
    have hm := List.length_pos_iff.2 hne
    simp only [List.length_append, List.length_dropLast] at hlen
    have hx : x.length < a.length := by omega
    have hpre : x ++ mark <+: a ++ (mark ++ b) := by
      have hinit : x ++ mark <+: a ++ mark.dropLast := ⟨y, hxy⟩
      exact hinit.trans ((List.prefix_append_right_inj a).2
        ((List.dropLast_prefix mark).trans (List.prefix_append _ _)))
    obtain ⟨s, rfl⟩ : x <+: a := List.prefix_of_prefix_length_le
      ((List.prefix_append x mark).trans hpre) (List.prefix_append _ _) hx.le
    have hs : s ≠ [] := by rintro rfl; simp at hx
    have := not_stop_of_cut? h (List.suffix_append x s) hs
    rw [List.append_assoc, List.prefix_append_right_inj] at hpre
    rw [← List.isPrefixOf_iff_prefix] at hpre
    simp [hpre] at this
  · intro h
    refine cut?_append (List.isPrefixOf_iff_prefix.2 (List.prefix_append mark b)) ?_
    intro s hs hsne
    rw [← Bool.not_eq_true, List.isPrefixOf_iff_prefix]
    exact fun hp => h (infix_of_prefix_append hs hsne hp)

/-- Cutting at a mark gives a text in front of the mark, where the mark does not begin earlier. -/
theorem cutAt?_eq_some_iff (hne : mark ≠ []) {text rest : List Char} :
    cutAt? mark text = some (a, rest) ↔
      (∃ b, rest = mark ++ b ∧ text = a ++ (mark ++ b)) ∧ ¬ mark <:+: a ++ mark.dropLast := by
  constructor
  · intro h
    obtain ⟨b, rfl⟩ := List.isPrefixOf_iff_prefix.1 (stop_of_cut? h)
    obtain rfl := append_of_cut? h
    exact ⟨⟨b, rfl, rfl⟩, (cutAt?_append_iff hne).1 h⟩
  · rintro ⟨⟨b, rfl, rfl⟩, h⟩
    exact (cutAt?_append_iff hne).2 h

theorem cutAt?_eq_none_iff {text : List Char} : cutAt? mark text = none ↔ ¬ mark <:+: text := by
  rw [cutAt?, cut?_eq_none_iff]
  constructor
  · rintro h ⟨x, y, rfl⟩
    have hmark := h (mark ++ y) ⟨x, by rw [List.append_assoc]⟩
    rw [List.isPrefixOf_iff_prefix.2 (List.prefix_append mark y)] at hmark
    cases hmark
  · intro h s hs
    rw [← Bool.not_eq_true, List.isPrefixOf_iff_prefix]
    exact fun hp => h (hp.isInfix.trans hs.isInfix)

theorem singleton_infix_iff {c : Char} : [c] <:+: a ↔ c ∈ a := by
  constructor
  · exact fun h => h.subset (by simp)
  · intro h
    obtain ⟨x, y, rfl⟩ := List.append_of_mem h
    exact ⟨x, y, by simp⟩

private theorem foldl_utf8Size (n : Nat) (text : List Char) :
    text.foldl (fun n c => n + c.utf8Size) n = n + byteCount text := by
  induction text generalizing n with
  | nil => rfl
  | cons c cs ih =>
    simp only [byteCount, List.foldl_cons, Nat.zero_add]
    rw [ih, ih c.utf8Size, Nat.add_assoc]

@[simp] theorem byteCount_nil : byteCount [] = 0 := rfl

@[simp] theorem byteCount_cons (c : Char) (text : List Char) :
    byteCount (c :: text) = c.utf8Size + byteCount text := by
  rw [byteCount, List.foldl_cons, Nat.zero_add, foldl_utf8Size]

@[simp] theorem byteCount_append (a b : List Char) :
    byteCount (a ++ b) = byteCount a + byteCount b := by
  induction a with
  | nil => simp
  | cons c a ih => rw [List.cons_append, byteCount_cons, ih, byteCount_cons, Nat.add_assoc]

theorem byteCount_pos {text : List Char} (h : text ≠ []) : 0 < byteCount text := by
  cases text with
  | nil => exact absurd rfl h
  | cons c text => exact byteCount_cons c text ▸ Nat.add_pos_left c.utf8Size_pos _

end Registrar.Text
