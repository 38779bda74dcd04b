import Registrar.Proofs.Json.Scalars

/-! # Reading lists and objects of JSON

Commas are taken between the elements of a list and the members of an object, colons between a key
and its value, and a list of strings is taken as a whole. As many rounds as a text has characters
are enough.
-/

namespace Registrar.Json

open Registrar.Json.Reader

variable {α β : Type} {P : α → List Char → Prop} {as : List α} {f : Bool → Reader β} {y : β}
  {s t u rest : List Char}

theorem SpellsItems.exists_cons (hP : ∀ a t, P a t → ∃ u, t = '"' :: u)
    (h : SpellsItems P as t) : ∃ u, t = '"' :: u := by
  cases h with
  | last ha _ | cons ha _ _ _ =>
    obtain ⟨u, rfl⟩ := hP _ _ ha
    exact ⟨_, rfl⟩

theorem SpellsItems.length_le (hP : ∀ a t, P a t → ∃ u, t = '"' :: u)
    (h : SpellsItems P as t) : as.length ≤ t.length := by
  induction h with
  | last ha _ =>
    obtain ⟨u, rfl⟩ := hP _ _ ha
    simp
  | cons ha _ _ _ ih =>
    obtain ⟨u, rfl⟩ := hP _ _ ha
    simp only [List.length_cons, List.length_append]
    omega

/-! ## Between items -/

def hasItem : Enclosure → Bool → Reader Bool
  | .list => hasElement
  | .object => hasMember

theorem Takes.hasItem_first (e : Enclosure) (hs : IsBlanks s)
    (h : Takes (f true) ('"' :: u) y rest) :
    Takes (hasItem e true >>= f) (s ++ '"' :: u) y rest := by
  have hmore : Takes (hasItem e true) s true ('"' :: u ++ rest) := by
    cases e <;> exact Takes.lookahead hs (by decide) (Takes.pure true _)
  exact Takes.bind hmore h

theorem Takes.hasItem_next (e : Enclosure) (hs : IsBlanks s) (ht : IsBlanks t)
    (h : Takes (f true) ('"' :: u) y rest) :
    Takes (hasItem e false >>= f) (s ++ ',' :: (t ++ '"' :: u)) y rest := by
  have hmore : Takes (hasItem e false) (s ++ ',' :: t) true ('"' :: u ++ rest) := by
    cases e <;> exact Takes.token hs (by decide)
      (Takes.advance (Takes.lookahead ht (by decide) (Takes.pure true _)))
  simpa only [List.append_assoc, List.cons_append] using Takes.bind hmore h

theorem takes_hasItem_last (e : Enclosure) (first : Bool) (hs : IsBlanks s) (rest : List Char) :
    Takes (hasItem e first) s false (closing e :: rest) := by
  cases e <;> exact Takes.lookahead hs (by decide) (Takes.pure false _)

theorem takes_colon (hs : IsBlanks s) (rest : List Char) : Takes colon (s ++ [':']) () rest :=
  Takes.token hs (by decide) (Takes.advance (Takes.pure () rest))

/-! ## Lists of strings -/

theorem exists_cons_of_spellsString (value : String) (text : List Char)
    (h : SpellsString value text) : ∃ u, text = '"' :: u :=
  h.exists_cons

theorem takes_elements {values : List String} (h : SpellsItems SpellsString values t) {fuel : Nat}
    (hfuel : values.length ≤ fuel) (rest : List Char) :
    Takes (text >>= fun v => elements text fuel false >>= fun vs => pure (v :: vs)) t values
      (closing .list :: rest) := by
  induction h generalizing fuel with
  | @last v item x hv hx =>
    cases fuel with
    | zero => cases hfuel
    | succ fuel =>
      have hmore : Takes (elements text (fuel + 1) false) x [] (closing .list :: rest) :=
        Takes.last (takes_hasItem_last .list false hx rest) (Takes.pure [] _)
      exact Takes.bind (takes_text isBlanks_nil hv _) (Takes.last hmore (Takes.pure [v] _))
  | @cons v values item x y items hv hx hy hitems ih =>
    cases fuel with
    | zero => cases hfuel
    | succ fuel =>
      have hrest := ih (Nat.le_of_succ_le_succ hfuel)
      obtain ⟨u, rfl⟩ := hitems.exists_cons exists_cons_of_spellsString
      have hmore : Takes (elements text (fuel + 1) false) (x ++ ',' :: (y ++ '"' :: u)) values
          (closing .list :: rest) := Takes.hasItem_next .list hx hy hrest
      exact Takes.bind (takes_text isBlanks_nil hv _)
        (Takes.last hmore (Takes.pure (v :: values) _))

theorem takes_closeList (rest : List Char) : Takes closeList [closing .list] () rest :=
  Takes.token isBlanks_nil (by decide) (Takes.advance (Takes.pure () rest))

/-- A list of strings is taken from any spelling of it. -/
theorem takes_list {values : List String} (hs : IsBlanks s)
    (h : SpellsAll .list SpellsString values t) (rest : List Char) :
    Takes (list text) (s ++ t) values rest := by
  have hclose {x : List Char} {fuel : Nat} (h : Takes (elements text fuel true) x values
      (closing .list :: rest)) : Takes (elements text fuel true >>= fun vs =>
        closeList >>= fun _ => pure vs) (x ++ [closing .list]) values rest :=
    Takes.bind h (Takes.last (takes_closeList rest) (Takes.pure values rest))
  cases h with
  | @empty x hx =>
    refine Takes.token hs (by decide) (Takes.advance (Takes.get fun place => hclose ?_))
    exact Takes.last (takes_hasItem_last .list true hx rest) (Takes.pure [] _)
  | items hx hitems =>
    have hlength := hitems.length_le exists_cons_of_spellsString
    refine Takes.token hs (by decide) (Takes.advance (Takes.get fun place => ?_))
    rw [← List.append_assoc]
    refine hclose ?_
    obtain ⟨u, rfl⟩ := hitems.exists_cons exists_cons_of_spellsString
    refine Takes.hasItem_first .list hx (takes_elements hitems (Nat.le_trans hlength ?_) rest)
    simp only [List.length_append]
    omega

end Registrar.Json
