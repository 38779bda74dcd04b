import Registrar.Proofs.Json.Grammar

/-! # Reading strings and numbers of JSON

A reader takes a text from the front of another one if it returns a value and leaves the rest. Every
spelling of a string is taken and gives the string. A natural number of at most 64 bits is taken
from its digits, as long as nothing follows that would make another number of them.
-/

namespace Registrar.Json

open Registrar.Json.Reader Registrar.Text

/-- The reader takes this text in front of `rest` and returns a value, whatever the place. -/
def Takes {α : Type} (r : Reader α) (text : List Char) (x : α) (rest : List Char) : Prop :=
  ∀ place, ∃ place', r ⟨place, text ++ rest⟩ = .ok (x, ⟨place', rest⟩)

variable {α β : Type} {r : Reader α} {f : α → Reader β} {x : α} {y : β} {c : Char}
  {t u rest : List Char}

namespace Takes

theorem bind (h : Takes r t x (u ++ rest)) (h' : Takes (f x) u y rest) :
    Takes (r >>= f) (t ++ u) y rest := by
  intro place
  obtain ⟨place', hr⟩ := h place
  obtain ⟨place'', hf⟩ := h' place'
  refine ⟨place'', ?_⟩
  rw [List.append_assoc]
  simp only [Bind.bind, StateT.bind, Except.bind, hr, hf]

theorem last (h : Takes r t x rest) (h' : Takes (f x) [] y rest) : Takes (r >>= f) t y rest := by
  have hboth := bind (u := []) h h'
  rwa [List.append_nil] at hboth

theorem pure (x : α) (rest : List Char) : Takes (Pure.pure x) [] x rest := fun place =>
  ⟨place, rfl⟩

theorem map {g : α → β} (h : Takes r t x rest) : Takes (g <$> r) t (g x) rest := by
  intro place
  obtain ⟨place', hr⟩ := h place
  refine ⟨place', ?_⟩
  simp only [Functor.map, StateT.map, Bind.bind, Except.bind, Pure.pure, Except.pure, hr]

theorem advance {f : Unit → Reader β} (h : Takes (f ()) u y rest) :
    Takes (Reader.advance >>= f) (c :: u) y rest :=
  bind (t := [c]) (fun _ => ⟨_, rfl⟩) h

theorem peek {f : Option Char → Reader β} (h : Takes (f (u ++ rest).head?) u y rest) :
    Takes (Reader.peek >>= f) u y rest :=
  bind (t := []) (fun place => ⟨place, rfl⟩) h

/-- How far a reader goes may depend on how much text there is. -/
theorem get {f : Cursor → Reader β} (h : ∀ place, Takes (f ⟨place, t ++ rest⟩) t y rest) :
    Takes (MonadState.get >>= f) t y rest :=
  fun place => h place place

end Takes

/-! ## Blanks and words -/

theorem exists_skipWhile {p : Char → Bool} (ht : ∀ c ∈ t, p c = true)
    (hrest : ∀ c ∈ rest.head?, p c = false) (place : Place) :
    ∃ place', Cursor.skipWhile p ⟨place, t ++ rest⟩ = ⟨place', rest⟩ := by
  have hgo : ∃ place', Cursor.skipWhile.go p place (t ++ rest) = ⟨place', rest⟩ := by
    induction t generalizing place with
    | nil =>
      cases rest with
      | nil => exact ⟨place, rfl⟩
      | cons c rest => exact ⟨place, by simp [Cursor.skipWhile.go, hrest c rfl]⟩
    | cons c t ih =>
      obtain ⟨hc, ht⟩ := List.forall_mem_cons.1 ht
      obtain ⟨place', hgo⟩ := ih ht (place.advance c)
      exact ⟨place', by simp [Cursor.skipWhile.go, hc, hgo]⟩
  exact hgo

theorem Takes.peekToken {f : Option Char → Reader β} {s : List Char} (hs : IsBlanks s)
    (hu : ∀ c ∈ (u ++ rest).head?, isBlank c = false) (h : Takes (f (u ++ rest).head?) u y rest) :
    Takes (Reader.peekToken >>= f) (s ++ u) y rest := by
  refine bind (fun place => ?_) h
  obtain ⟨place', hskip⟩ := exists_skipWhile hs hu place
  refine ⟨place', ?_⟩
  simp only [Reader.peekToken, skipBlanks, Reader.peek, Bind.bind, StateT.bind, Except.bind, hskip]

theorem Takes.token {f : Option Char → Reader β} {s : List Char} (hs : IsBlanks s)
    (hc : isBlank c = false) (h : Takes (f (some c)) (c :: u) y rest) :
    Takes (Reader.peekToken >>= f) (s ++ c :: u) y rest :=
  peekToken hs (by simpa using hc) h

theorem Takes.lookahead {f : Option Char → Reader β} {s : List Char} (hs : IsBlanks s)
    (hc : isBlank c = false) (h : Takes (f (some c)) [] y (c :: rest)) :
    Takes (Reader.peekToken >>= f) s y (c :: rest) := by
  have hpeek : Takes (Reader.peekToken >>= f) (s ++ []) y (c :: rest) :=
    peekToken hs (by simpa using hc) h
  rwa [List.append_nil] at hpeek

theorem takes_word (text rest : List Char) : Takes (word text) text () rest := by
  induction text with
  | nil => exact Takes.pure _ _
  | cons c text ih =>
    rw [word]
    refine Takes.peek ?_
    simp only [List.cons_append, List.head?_cons, if_true]
    exact Takes.advance ih

/-! ## Strings -/

theorem hexValue?_eq {n : Nat} (h : IsHexDigit n c) : hexValue? c = some n := by
  obtain ⟨hn, rfl | rfl⟩ := h
  · revert n
    decide
  · revert n
    decide

theorem SpellsUnit.hexNumber?_eq {n : Nat} {digits : List Char} (h : SpellsUnit n digits) :
    hexNumber? digits = some n := by
  obtain ⟨ha, hb, hc, hd⟩ := h
  simp [hexNumber?, hexValue?_eq ha, hexValue?_eq hb, hexValue?_eq hc, hexValue?_eq hd]

theorem SpellsUnit.hexEscape_eq {n : Nat} {digits : List Char} (h : SpellsUnit n digits)
    (place : Place) (rest : List Char) :
    digits.length = 4 ∧ hexEscape place (digits ++ rest) = .ok n := by
  have hnumber := h.hexNumber?_eq
  obtain ⟨-, -, -, -⟩ := h
  exact ⟨rfl, by simp [hexEscape, hnumber]⟩

theorem shortEscape?_eq {letter : Char} (h : (letter, c) ∈ shortEscapes) :
    letter ≠ 'u' ∧ shortEscape? letter = some c := by
  simp only [shortEscapes, List.mem_cons, Prod.mk.injEq, List.not_mem_nil, or_false] at h
  rcases h with ⟨rfl, rfl⟩ | ⟨rfl, rfl⟩ | ⟨rfl, rfl⟩ | ⟨rfl, rfl⟩ | ⟨rfl, rfl⟩ | ⟨rfl, rfl⟩ |
    ⟨rfl, rfl⟩ | ⟨rfl, rfl⟩ <;> exact ⟨by decide, rfl⟩

theorem isSurrogate_toNat (c : Char) :
    isLowSurrogate c.toNat = false ∧ isHighSurrogate c.toNat = false := by
  have hvalid : c.toNat < 0xd800 ∨ 0xdfff < c.toNat ∧ c.toNat < 0x110000 := c.valid
  constructor
  · rw [← Bool.not_eq_true, isLowSurrogate, Bool.and_eq_true, decide_eq_true_eq, decide_eq_true_eq]
    omega
  · rw [← Bool.not_eq_true, isHighSurrogate, Bool.and_eq_true, decide_eq_true_eq,
      decide_eq_true_eq]
    omega

theorem escape_eq (h : SpellsEscape c t) (place : Place) (rest : List Char) :
    escape place (t ++ rest) = .ok (c, t.length) := by
  cases h with
  | short hshort =>
    obtain ⟨hletter, hescape⟩ := shortEscape?_eq hshort
    simp [escape, hescape]
  | unit hunit =>
    obtain ⟨hlength, hhex⟩ := hunit.hexEscape_eq (place.advance 'u') rest
    simp [escape, unicodeEscape, hhex, isSurrogate_toNat, hlength, bind, Except.bind]
  | @pair _ n m high low hhigh hlow h₁ h₂ h₃ h₄ hc =>
    have hn : isLowSurrogate n = false ∧ isHighSurrogate n = true := by
      simp [isLowSurrogate, isHighSurrogate]
      omega
    have hm : isLowSurrogate m = true := by
      simp [isLowSurrogate]
      omega
    obtain ⟨hlength, hhex⟩ :=
      hhigh.hexEscape_eq (place.advance 'u') ('\\' :: 'u' :: (low ++ rest))
    have hlowlength := (hlow.hexEscape_eq place rest).1
    have hchar : ofSurrogates n m = c := by
      rw [ofSurrogates, ← hc, Char.ofNat_toNat]
    have hdrop : (high ++ '\\' :: 'u' :: (low ++ rest)).drop 4 = '\\' :: 'u' :: (low ++ rest) := by
      rw [← hlength, List.drop_left]
    simp only [List.cons_append, List.append_assoc, escape, unicodeEscape, hhex, hn, hdrop,
      lowEscape, (hlow.hexEscape_eq _ rest).2, hm, bind, Except.bind]
    simp [hlength, hlowlength, hchar]

theorem exists_stringFrom_eq (h : SpellsChar c t) (value : List Char) (place : Place)
    (rest : List Char) : ∃ place',
      stringFrom value place (t ++ rest) = stringFrom (c :: value) place' rest := by
  cases h with
  | plain hquote hslash hcontrol =>
    refine ⟨place.advance c, ?_⟩
    rw [List.singleton_append, stringFrom, if_neg hquote, if_neg hslash, if_neg (by omega)]
  | @escaped text hescape =>
    have heq := escape_eq hescape (place.advance '\\') rest
    refine ⟨(Cursor.skip ⟨place.advance '\\', text ++ rest⟩ text.length).place, ?_⟩
    rw [List.cons_append, stringFrom, if_neg (by decide), if_pos rfl, heq]
    simp

theorem exists_stringFrom_flatten {cs : List Char} {parts : List (List Char)}
    (h : List.Forall₂ SpellsChar cs parts) (value : List Char) (place : Place)
    (rest : List Char) : ∃ place', stringFrom value place (parts.flatten ++ '"' :: rest) =
      .ok (String.ofList (value.reverse ++ cs), ⟨place', rest⟩) := by
  induction h generalizing value place with
  | nil => exact ⟨place.advance '"', by simp [stringFrom]⟩
  | @cons c part cs parts hc _ ih =>
    obtain ⟨place', hstep⟩ := exists_stringFrom_eq hc value place (parts.flatten ++ '"' :: rest)
    obtain ⟨place'', hrun⟩ := ih (c :: value) place'
    refine ⟨place'', ?_⟩
    rw [List.flatten_cons, List.append_assoc, hstep, hrun]
    simp

/-- Every spelling of a string is taken for it. -/
theorem takes_string {s : String} (h : SpellsString s t) (rest : List Char) :
    Takes (advance >>= fun _ => string) t s rest := by
  obtain ⟨parts, hparts, rfl⟩ := h
  refine Takes.advance fun place => ?_
  obtain ⟨place', hread⟩ := exists_stringFrom_flatten hparts [] place rest
  refine ⟨place', ?_⟩
  simpa [string] using hread

/-! ## Numbers -/

/-- Whether a text in front of this one can be all of a number. -/
def EndsNumber (text : List Char) : Prop :=
  ∀ c ∈ text.head?, c.isDigit = false ∧ c ≠ '.' ∧ c ≠ 'e' ∧ c ≠ 'E'

theorem takes_digits (ht : ∀ c ∈ t, c.isDigit = true)
    (hrest : ∀ c ∈ rest.head?, c.isDigit = false) : Takes digits t t rest := by
  intro place
  obtain ⟨place', hskip⟩ := exists_skipWhile ht hrest place
  have htake : (t ++ rest).takeWhile Char.isDigit = t := by
    rw [List.takeWhile_append_of_pos ht]
    cases rest with
    | nil => simp
    | cons c rest => simp [hrest c rfl]
  exact ⟨place', by rw [digits, htake, hskip]⟩

theorem le_ofDigitChars (ds : List Char) (m : Nat) : m ≤ Nat.ofDigitChars 10 ds m := by
  induction ds generalizing m with
  | nil => exact Nat.le_refl m
  | cons d ds ih =>
    rw [Nat.ofDigitChars_cons]
    exact Nat.le_trans (by omega) (ih _)

theorem leadingDigits_cons (n used : Nat) (c : Char) (cs : List Char) :
    leadingDigits n used (c :: cs) =
      match pushDigit? n c with
      | some m => leadingDigits m (used + 1) cs
      | none => (n, used) := by
  rfl

theorem leadingDigits_eq {ds : List Char} {m : Nat}
    (h : Nat.ofDigitChars 10 ds m ≤ maxNatural) (used : Nat) :
    leadingDigits m used ds = (Nat.ofDigitChars 10 ds m, used + ds.length) := by
  induction ds generalizing m used with
  | nil => rfl
  | cons d ds ih =>
    have hcons : Nat.ofDigitChars 10 (d :: ds) m =
        Nat.ofDigitChars 10 ds (10 * m + digitValue d) := rfl
    rw [hcons] at h ⊢
    have hle : 10 * m + digitValue d ≤ maxNatural := Nat.le_trans (le_ofDigitChars ds _) h
    have hpush : pushDigit? m d = some (10 * m + digitValue d) := if_pos hle
    have hrest := ih h (used + 1)
    simp only [leadingDigits_cons, hpush, hrest, List.length_cons]
    rw [Nat.add_assoc, Nat.add_comm 1]

theorem exists_toDigits_cons {n : Nat} (h : 0 < n) :
    ∃ c cs, Nat.toDigits 10 n = c :: cs ∧ c ≠ '0' := by
  induction n using Nat.strongRecOn with
  | ind n ih =>
    rw [Nat.toDigits_eq_if (by decide)]
    split
    · next hn =>
      refine ⟨_, [], rfl, ?_⟩
      intro hzero
      have hvalue := Nat.toNat_digitChar_of_lt_ten hn
      rw [hzero] at hvalue
      exact absurd hvalue (by simp; omega)
    · obtain ⟨c, cs, hdigits, hc⟩ := ih (n / 10) (by omega) (by omega)
      exact ⟨c, cs ++ [(n % 10).digitChar], by rw [hdigits, List.cons_append], hc⟩

theorem takes_numberRest (h : EndsNumber rest) (n : Nat) :
    Takes (number.numberRest true n 0) [] (.natural n) rest := by
  refine Takes.peek ?_
  rw [List.nil_append]
  split
  · next hhead => exact absurd rfl (h _ hhead).2.1
  · next hhead => exact absurd rfl (h _ hhead).2.2.1
  · next hhead => exact absurd rfl (h _ hhead).2.2.2
  · exact Takes.pure _ _

/-- A number is taken from its digits. -/
theorem takes_number {n : Nat} (hn : n ≤ maxNatural) (h : EndsNumber rest) :
    Takes (number true) (Nat.toDigits 10 n) (.natural n) rest := by
  rcases Nat.eq_zero_or_pos n with rfl | hpos
  · refine Takes.peek (Takes.advance (Takes.peek ?_))
    have hnone : rest.head?.any Char.isDigit = false := by
      simpa [Option.any_eq_false] using fun c hc => (h c hc).1
    rw [if_neg (by simp [hnone])]
    exact takes_numberRest h 0
  · obtain ⟨c, cs, hdigits, hc⟩ := exists_toDigits_cons hpos
    have hall : ∀ d ∈ c :: cs, d.isDigit = true := by
      rw [← hdigits]
      exact fun d hd => Nat.isDigit_of_mem_toDigits (by decide) (by decide) hd
    have hvalue : Nat.ofDigitChars 10 (c :: cs) 0 = n := by
      rw [← hdigits, Nat.ofDigitChars_toDigits (by decide) (by decide)]
    have hleading : leadingDigits 0 0 (c :: cs) =
        (Nat.ofDigitChars 10 (c :: cs) 0, 0 + (c :: cs).length) :=
      leadingDigits_eq (hvalue.symm ▸ hn) 0
    have hread : Takes (digits >>= fun ds =>
        number.numberRest true (leadingDigits 0 0 ds).1 (ds.length - (leadingDigits 0 0 ds).2))
          (c :: cs) (.natural n) rest := by
      refine Takes.last (takes_digits hall fun d hd => (h d hd).1) ?_
      rw [hleading, hvalue, Nat.zero_add, Nat.sub_self]
      exact takes_numberRest h n
    rw [hdigits]
    refine Takes.peek ?_
    rw [List.cons_append, List.head?_cons]
    split
    · next hhead => cases hhead
    · next hhead => exact absurd (Option.some.inj hhead) hc
    · next d hhead =>
      obtain rfl := Option.some.inj hhead
      rw [if_pos (List.forall_mem_cons.1 hall).1]
      exact hread

/-! ## Values that are wanted -/

theorem isBlank_of_isDigit (h : c.isDigit = true) : isBlank c = false := by
  rw [← Bool.not_eq_true]
  intro hblank
  simp only [isBlank, Bool.or_eq_true, decide_eq_true_eq] at hblank
  rcases hblank with ((rfl | rfl) | rfl) | rfl <;> cases h

variable {s : List Char}

theorem exists_toDigits_isDigit (n : Nat) :
    ∃ c cs, Nat.toDigits 10 n = c :: cs ∧ c.isDigit = true := by
  obtain ⟨c, cs, hdigits⟩ := List.exists_cons_of_ne_nil (Nat.toDigits_ne_nil (b := 10) (n := n))
  have hmem : c ∈ Nat.toDigits 10 n := hdigits ▸ List.mem_cons_self
  exact ⟨c, cs, hdigits, Nat.isDigit_of_mem_toDigits (by decide) (by decide) hmem⟩

theorem takes_natural {n : Nat} (hs : IsBlanks s) (hn : n ≤ maxNatural) (h : EndsNumber rest) :
    Takes natural (s ++ Nat.toDigits 10 n) n rest := by
  obtain ⟨c, cs, hdigits, hc⟩ := exists_toDigits_isDigit n
  have hread : Takes (number true) (c :: cs) (.natural n) rest := hdigits ▸ takes_number hn h
  rw [hdigits]
  refine Takes.token hs (isBlank_of_isDigit hc) ?_
  dsimp only
  split
  · next hhead =>
    obtain rfl := Option.some.inj hhead
    cases hc
  · next hhead =>
    obtain rfl := Option.some.inj hhead
    rw [if_pos hc]
    exact Takes.last hread (Takes.pure n rest)
  · next hhead => cases hhead

theorem SpellsString.exists_cons {value : String} (h : SpellsString value t) :
    ∃ u, t = '"' :: u := by
  obtain ⟨parts, -, rfl⟩ := h
  exact ⟨_, rfl⟩

theorem takes_text {value : String} (hs : IsBlanks s) (h : SpellsString value t)
    (rest : List Char) : Takes text (s ++ t) value rest := by
  obtain ⟨u, rfl⟩ := h.exists_cons
  exact Takes.token hs (by decide) (takes_string h rest)

theorem takes_boolean (hs : IsBlanks s) (b : Bool) (rest : List Char) :
    Takes boolean (s ++ (toString b).toList) b rest := by
  have hword (first : Char) (text : List Char) :
      Takes (advance >>= fun _ => word text >>= fun _ => pure b) (first :: text) b rest :=
    Takes.advance (Takes.last (takes_word text rest) (Takes.pure b rest))
  cases b with
  | true => exact Takes.token hs (by decide) (hword 't' ['r', 'u', 'e'])
  | false => exact Takes.token hs (by decide) (hword 'f' ['a', 'l', 's', 'e'])

theorem takes_optional {value : String} (hs : IsBlanks s) (h : SpellsString value t)
    (rest : List Char) : Takes (optional text) (s ++ t) (some value) rest := by
  obtain ⟨u, rfl⟩ := h.exists_cons
  exact Takes.token hs (by decide) (takes_text (s := []) (by simp [IsBlanks]) h rest).map

theorem takes_null {value : Reader α} (hs : IsBlanks s) (rest : List Char) :
    Takes (optional value) (s ++ ['n', 'u', 'l', 'l']) none rest := by
  exact Takes.token hs (by decide)
    (Takes.advance (Takes.last (takes_word ['u', 'l', 'l'] rest) (Takes.pure none rest)))

end Registrar.Json
