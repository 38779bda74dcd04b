import Registrar.Proofs.Json.Scalars

/-! # How large a number may be

What a reader returns, whatever it is given. A natural number that is read has at most 64 bits.
-/

namespace Registrar.Json

open Registrar.Json.Reader

/-- Whatever the reader returns has this property. -/
def Yields {α : Type} (r : Reader α) (P : α → Prop) : Prop :=
  ∀ c x c', r c = .ok (x, c') → P x

variable {α β : Type} {r : Reader α} {f : α → Reader β} {P : α → Prop} {Q : β → Prop} {x : α}

namespace Yields

theorem bind (h : Yields r P) (h' : ∀ x, P x → Yields (f x) Q) : Yields (r >>= f) Q := by
  intro c y c'' heq
  cases hr : r c with
  | error fault =>
    simp only [Bind.bind, StateT.bind, Except.bind, hr] at heq
    cases heq
  | ok result =>
    obtain ⟨x, c'⟩ := result
    simp only [Bind.bind, StateT.bind, Except.bind, hr] at heq
    exact h' x (h c x c' hr) c' y c'' heq

theorem after (h : ∀ x, Yields (f x) Q) : Yields (r >>= f) Q :=
  bind (P := fun _ => True) (fun _ _ _ _ => trivial) fun x _ => h x

theorem pure (h : P x) : Yields (Pure.pure x) P := by
  rintro c y c' ⟨⟩
  exact h

theorem fail (cause : Cause) : Yields (Reader.fail cause) P := by
  rintro c x c' ⟨⟩

theorem failNext (cause : Cause) : Yields (Reader.failNext cause) P := by
  rintro c x c' ⟨⟩

theorem map {g : α → β} (h : Yields r P) (hg : ∀ x, P x → Q (g x)) : Yields (g <$> r) Q := by
  rw [map_eq_pure_bind]
  exact bind h fun x hx => pure (hg x hx)

theorem of_run {source : String} (h : Yields r P) (hrun : run r source = .ok x) : P x := by
  have hstate {r : Reader α} {c : Cursor} (h : r.run' c = .ok x) : ∃ c', r c = .ok (x, c') := by
    cases hr : r c with
    | error fault =>
      rw [StateT.run', hr] at h
      cases h
    | ok result =>
      rw [StateT.run', hr] at h
      exact ⟨result.2, by rw [← Except.ok.inj h]⟩
  obtain ⟨c', hc'⟩ := hstate hrun
  refine bind h (fun x hx => after fun next => ?_) _ _ _ hc'
  split
  · exact .failNext _
  · exact .pure hx

end Yields

/-- A number that is kept as a natural one is small enough for that. -/
def IsKept : Number → Prop
  | .natural n => n ≤ maxNatural
  | .negative _ => True
  | .floating _ => True

theorem leadingDigits_le (ds : List Char) {n : Nat} (h : n ≤ maxNatural) (used : Nat) :
    (leadingDigits n used ds).1 ≤ maxNatural := by
  induction ds generalizing n used with
  | nil => exact h
  | cons d ds ih =>
    rw [leadingDigits_cons]
    cases hpush : pushDigit? n d with
    | none => exact h
    | some m =>
      refine ih ?_ _
      rw [pushDigit?, Option.ite_none_right_eq_some] at hpush
      exact Option.some.inj hpush.2 ▸ hpush.1

theorem yields_floating (positive : Bool) (significand : Nat) (exponent : Int) :
    Yields (floating positive significand exponent) IsKept := by
  unfold floating
  split
  · exact .fail _
  · exact .pure trivial

theorem yields_exponent (positive : Bool) (significand : Nat) (start : Int) :
    Yields (exponent positive significand start) IsKept := by
  refine .after fun _ => .after fun raised => .after fun next => ?_
  split
  · exact .fail _
  · split
    · refine .after fun n => ?_
      split
      · exact yields_floating _ _ _
      · split
        · exact .fail _
        · exact .after fun _ => .pure trivial
    · exact .failNext _

theorem yields_fraction (positive : Bool) (significand : Nat) (start : Int) :
    Yields (fraction positive significand start) IsKept := by
  refine .after fun _ => .after fun ds => ?_
  split
  · refine .after fun next => ?_
    split
    · exact .failNext _
    · exact .failNext _
  · refine .after fun next => ?_
    split
    · exact yields_exponent _ _ _
    · exact yields_exponent _ _ _
    · exact yields_floating _ _ _

theorem isKept_whole (positive : Bool) {n : Nat} (h : n ≤ maxNatural) :
    IsKept (whole positive n) := by
  unfold whole
  split
  · exact h
  · split <;> trivial

theorem yields_numberRest (positive : Bool) {n : Nat} (h : n ≤ maxNatural) (dropped : Nat) :
    Yields (number.numberRest positive n dropped) IsKept := by
  refine .after fun next => ?_
  split
  · exact yields_fraction _ _ _
  · exact yields_exponent _ _ _
  · exact yields_exponent _ _ _
  · split
    · exact .pure (isKept_whole positive h)
    · exact yields_floating _ _ _

theorem yields_number (positive : Bool) : Yields (number positive) IsKept := by
  refine .after fun next => ?_
  split
  · exact .fail _
  · refine .after fun _ => .after fun next => ?_
    split
    · exact .failNext _
    · exact yields_numberRest positive (Nat.zero_le _) 0
  · split
    · exact .after fun ds => yields_numberRest positive (leadingDigits_le ds (Nat.zero_le _) 0) _
    · exact .failNext _

theorem yields_wrongKind (wanted : String) : Yields (wrongKind wanted : Reader α) P := by
  refine .after fun next => ?_
  split
  · exact .after fun _ => .after fun _ => .fail _
  · exact .after fun _ => .after fun _ => .fail _
  · exact .after fun _ => .after fun _ => .fail _
  · exact .after fun _ => .after fun _ => .fail _
  · exact .after fun _ => .after fun _ => .fail _
  · exact .fail _
  · exact .fail _
  · split
    · exact .after fun _ => .fail _
    · exact .failNext _
  · exact .failNext _

theorem yields_natural : Yields natural (· ≤ maxNatural) := by
  refine .after fun next => ?_
  dsimp only
  split
  · refine .after fun _ => .bind (yields_number false) ?_
    rintro (n | n | x) hn
    exacts [.pure hn, .fail _, .fail _]
  · split
    · refine .bind (yields_number true) ?_
      rintro (n | n | x) hn
      exacts [.pure hn, .fail _, .fail _]
    · exact .bind (yields_wrongKind _) fun _ hn => absurd hn id
  · exact .bind (yields_wrongKind _) fun _ hn => absurd hn id

end Registrar.Json
