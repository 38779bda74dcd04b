import Registrar.Proofs.Json.Items

/-! # Skipping values of JSON

Every value of the grammar is skipped as a whole, be it nested as it may, and the rounds that the
reader allows itself are enough. A number is skipped only if nothing follows that would go on with
it.
-/

namespace Registrar.Json

open Registrar.Json.Reader

variable {α β : Type} {c : Char} {e : Enclosure} {s t u v rest : List Char}

/-! ## Strings -/

theorem skipEscape_unit {n : Nat} (h : SpellsUnit n t) (place : Place) (rest : List Char) :
    skipEscape place ('u' :: (t ++ rest)) = .ok 5 := by
  rw [skipEscape, (h.hexEscape_eq (place.advance 'u') rest).2]
  rfl

theorem exists_skipStringFrom_eq (h : IsCharText t) (place : Place) (rest : List Char) :
    ∃ place', skipStringFrom place (t ++ rest) = skipStringFrom place' rest := by
  cases h with
  | @plain c hquote hslash hcontrol =>
    refine ⟨place.advance c, ?_⟩
    rw [List.singleton_append, skipStringFrom, if_neg hquote, if_neg hslash, if_neg (by omega)]
  | @short letter c hshort =>
    obtain ⟨hletter, hescape⟩ := shortEscape?_eq hshort
    refine ⟨(Cursor.skip ⟨place.advance '\\', letter :: rest⟩ 1).place, ?_⟩
    rw [List.cons_append, skipStringFrom, if_neg (by decide), if_pos rfl]
    simp [skipEscape, hescape]
  | @unit n digits hunit =>
    have hlength := (hunit.hexEscape_eq place rest).1
    refine ⟨(Cursor.skip ⟨place.advance '\\', 'u' :: (digits ++ rest)⟩ 5).place, ?_⟩
    rw [List.cons_append, List.cons_append, skipStringFrom, if_neg (by decide), if_pos rfl,
      skipEscape_unit hunit]
    simp [← hlength]

theorem takes_skipString (h : IsString t) (rest : List Char) :
    Takes (advance >>= fun _ => skipString) t () rest := by
  obtain ⟨parts, hparts, rfl⟩ := h
  refine Takes.advance fun place => ?_
  have hskip : ∃ place', skipStringFrom place (parts.flatten ++ '"' :: rest) =
      .ok ⟨place', rest⟩ := by
    induction parts generalizing place with
    | nil => exact ⟨place.advance '"', by simp [skipStringFrom]⟩
    | cons part parts ih =>
      obtain ⟨hpart, hparts⟩ := List.forall_mem_cons.1 hparts
      obtain ⟨place', hstep⟩ := exists_skipStringFrom_eq hpart place (parts.flatten ++ '"' :: rest)
      obtain ⟨place'', hrun⟩ := ih hparts place'
      exact ⟨place'', by rw [List.flatten_cons, List.append_assoc, hstep, hrun]⟩
  obtain ⟨place', hread⟩ := hskip
  refine ⟨place', ?_⟩
  rw [List.append_assoc]
  simp [skipString, hread, Except.map]

/-! ## Numbers -/

theorem takes_discard {r : Reader α} {x : α} (h : Takes r t x rest) :
    Takes (discard r) t () rest :=
  h.map

theorem takes_exponentSign (hs : s ∈ [[], ['+'], ['-']]) (ht : IsDigits t) (rest : List Char) :
    ∃ raised, Takes exponentSign s raised (t ++ rest) := by
  obtain ⟨hne, hdigits⟩ := ht
  obtain ⟨c, t, rfl⟩ := List.exists_cons_of_ne_nil hne
  have hc := hdigits c List.mem_cons_self
  simp only [List.mem_cons, List.not_mem_nil, or_false] at hs
  rcases hs with rfl | rfl | rfl
  · refine ⟨true, Takes.peek ?_⟩
    rw [List.nil_append, List.cons_append, List.head?_cons]
    split
    · next hhead => exact absurd hc (Option.some.inj hhead ▸ by decide)
    · next hhead => exact absurd hc (Option.some.inj hhead ▸ by decide)
    · exact Takes.pure true _
  · exact ⟨true, Takes.peek (Takes.advance (Takes.pure true _))⟩
  · exact ⟨false, Takes.peek (Takes.advance (Takes.pure false _))⟩

theorem IsExponent.head (h : IsExponent t) (hrest : EndsNumber rest) :
    ∀ c ∈ (t ++ rest).head?, c.isDigit = false ∧ c ≠ '.' := by
  cases h with
  | none => exact fun c hc => ⟨(hrest c hc).1, (hrest c hc).2.1⟩
  | digits hletter _ _ =>
    rintro c ⟨⟩
    simp only [List.mem_cons, List.not_mem_nil, or_false] at hletter
    rcases hletter with rfl | rfl <;> decide

theorem IsFraction.head (h : IsFraction t) (ht : ∀ c ∈ u.head?, c.isDigit = false) :
    ∀ c ∈ (t ++ u).head?, c.isDigit = false := by
  cases h with
  | none => exact ht
  | digits _ =>
    rintro c ⟨⟩
    rfl

theorem takes_skipExponentOrEnd (h : IsExponent t) (hrest : EndsNumber rest) :
    Takes skipExponentOrEnd t () rest := by
  refine Takes.peek ?_
  cases h with
  | none =>
    rw [List.nil_append]
    split
    · next hhead => exact absurd rfl (hrest _ hhead).2.2.1
    · next hhead => exact absurd rfl (hrest _ hhead).2.2.2
    · exact Takes.pure () rest
  | @digits letter sign text hletter hsign htext =>
    have hexponent : Takes skipExponent (letter :: (sign ++ text)) () rest := by
      obtain ⟨raised, hraised⟩ := takes_exponentSign hsign htext rest
      refine Takes.advance (Takes.bind (takes_discard hraised) (Takes.peek ?_))
      obtain ⟨hne, hdigits⟩ := htext
      obtain ⟨c, text, rfl⟩ := List.exists_cons_of_ne_nil hne
      rw [List.cons_append, List.head?_cons]
      dsimp only
      rw [if_pos (hdigits c List.mem_cons_self)]
      exact takes_discard (takes_digits hdigits fun d hd => (hrest d hd).1)
    simp only [List.mem_cons, List.not_mem_nil, or_false] at hletter
    rcases hletter with rfl | rfl <;> exact hexponent

theorem takes_skipNumberRest (ht : IsFraction t) (hu : IsExponent u) (hrest : EndsNumber rest) :
    Takes skipNumber.skipNumberRest (t ++ u) () rest := by
  refine Takes.peek ?_
  cases ht with
  | none =>
    have hpoint : (u ++ rest).head? ≠ some '.' := fun hhead => (hu.head hrest _ hhead).2 rfl
    rw [List.nil_append, if_neg hpoint]
    exact takes_skipExponentOrEnd hu hrest
  | digits htext =>
    rw [List.cons_append, List.cons_append, List.head?_cons, if_pos rfl]
    have hdigits := takes_digits htext.2 fun d hd => (hu.head hrest d hd).1
    refine Takes.advance (Takes.bind hdigits ?_)
    rw [if_neg (by simpa using htext.1)]
    exact takes_skipExponentOrEnd hu hrest

theorem takes_skipNumber (h : IsUnsigned t) (hrest : EndsNumber rest) :
    Takes skipNumber t () rest := by
  obtain ⟨hwhole, hfraction, hexponent⟩ := h
  have hbehind := takes_skipNumberRest hfraction hexponent hrest
  have hhead := hfraction.head fun c hc => (hexponent.head hrest c hc).1
  refine Takes.peek ?_
  cases hwhole with
  | zero =>
    refine Takes.advance (Takes.peek ?_)
    rw [if_neg (by simpa [Option.any_eq_true] using hhead)]
    exact hbehind
  | @digits c text hc htext =>
    rw [List.cons_append, List.cons_append, List.head?_cons]
    split
    · next hsome => cases hsome
    · next hsome => exact absurd (Option.some.inj hsome) hc
    · next d hsome =>
      obtain rfl := Option.some.inj hsome
      rw [if_pos (htext.2 c List.mem_cons_self)]
      refine Takes.bind (takes_discard (takes_digits htext.2 ?_)) hbehind
      rwa [List.append_assoc]

/-! ## Values -/

theorem isBlank_opening (e : Enclosure) : isBlank (opening e) = false := by cases e <;> decide

theorem isBlank_closing (e : Enclosure) : isBlank (closing e) = false := by cases e <;> decide

theorem isClosing_closing (e : Enclosure) : isClosing e (closing e) = true := by
  cases e <;> decide

theorem closing_ne_comma (e : Enclosure) : closing e ≠ ',' := by cases e <;> decide

/-- What stands in front of the next item, be it a value or a label, is no blank, and no item
begins like the end of what holds it. -/
def BeginsItem (text : List Char) : Prop :=
  ∃ c u, text = c :: u ∧ isBlank c = false ∧ ∀ e, isClosing e c = false

theorem BeginsItem.append (h : BeginsItem t) (u : List Char) : BeginsItem (t ++ u) := by
  obtain ⟨c, t, rfl, hc⟩ := h
  exact ⟨c, t ++ u, rfl, hc⟩

theorem beginsItem_of_isDigit (hc : c.isDigit = true) (t : List Char) : BeginsItem (c :: t) := by
  refine ⟨c, t, rfl, isBlank_of_isDigit hc, ?_⟩
  intro e
  rw [← Bool.not_eq_true]
  intro hclosing
  cases e <;> (simp only [isClosing, decide_eq_true_eq] at hclosing; subst hclosing; cases hc)

theorem IsUnsigned.exists_cons (h : IsUnsigned t) : ∃ c u, t = c :: u ∧ c.isDigit = true := by
  obtain ⟨hwhole, -, -⟩ := h
  cases hwhole with
  | zero => exact ⟨'0', _, rfl, by decide⟩
  | digits _ htext => exact ⟨_, _, rfl, htext.2 _ List.mem_cons_self⟩

theorem IsString.exists_cons (h : IsString t) : ∃ u, t = '"' :: u := by
  obtain ⟨parts, -, rfl⟩ := h
  exact ⟨_, rfl⟩

theorem beginsItem_string (h : IsString t) : BeginsItem t := by
  obtain ⟨u, rfl⟩ := h.exists_cons
  exact ⟨'"', u, rfl, by decide, fun e => by cases e <;> decide⟩

theorem beginsItem_opening (e : Enclosure) (t : List Char) : BeginsItem (opening e :: t) :=
  ⟨opening e, t, rfl, isBlank_opening e, fun e' => by cases e <;> cases e' <;> decide⟩

theorem IsValue.beginsItem (h : IsValue v) : BeginsItem v := by
  have hother (c : Char) (u : List Char) (hc : c ∈ ['n', 't', 'f', '-']) :
      BeginsItem (c :: u) := by
    simp only [List.mem_cons, List.not_mem_nil, or_false] at hc
    refine ⟨c, u, rfl, ?_, ?_⟩
    · rcases hc with rfl | rfl | rfl | rfl <;> decide
    · intro e
      rcases hc with rfl | rfl | rfl | rfl <;> cases e <;> decide
  cases h with
  | null | true | false | negative _ => exact hother _ _ (by decide)
  | natural hnumber =>
    obtain ⟨c, u, rfl, hc⟩ := hnumber.exists_cons
    exact beginsItem_of_isDigit hc u
  | string hstring => exact beginsItem_string hstring
  | empty e _ | items e _ _ => exact beginsItem_opening e _

theorem beginsItem_label (hlabel : IsLabel e t) (hvalue : IsValue v) : BeginsItem (t ++ v) := by
  cases hlabel with
  | none => exact hvalue.beginsItem
  | key hkey _ _ => exact ((beginsItem_string hkey).append _).append _

theorem AreItems.beginsItem (h : AreItems e t) : BeginsItem t := by
  cases h with
  | last hlabel hvalue _ | cons hlabel hvalue _ _ _ =>
    rw [← List.append_assoc]
    exact (beginsItem_label hlabel hvalue).append _

theorem exists_takes_skipKey (h : IsLabel e t) (hs : IsBlanks s) : ∃ front back,
    s ++ t = front ++ back ∧ IsBlanks back ∧ ∀ rest, Takes (skipKey e) front () rest := by
  cases h with
  | none => exact ⟨[], s, by simp, hs, fun rest => Takes.pure () rest⟩
  | @key key x y hkey hx hy =>
    refine ⟨s ++ (key ++ (x ++ [':'])), y, by simp, hy, fun rest => ?_⟩
    have hread : Takes (advance >>= fun _ => skipString >>= fun _ => colon) (key ++ (x ++ [':']))
        () rest := by
      have hboth := Takes.bind (f := fun _ => colon) (takes_skipString hkey _) (takes_colon hx rest)
      rwa [bind_assoc] at hboth
    obtain ⟨u, rfl⟩ := hkey.exists_cons
    exact Takes.token hs (by decide) hread

/-- A number is told from every other value by the digit that it begins with. -/
theorem takes_skipHead_number (hs : IsBlanks s) (h : IsUnsigned t) (hrest : EndsNumber rest) :
    Takes skipHead (s ++ t) none rest := by
  have hread : Takes (skipNumber >>= fun _ => pure none) t (none : Option Enclosure) rest :=
    Takes.last (takes_skipNumber h hrest) (Takes.pure none rest)
  obtain ⟨c, u, rfl, hc⟩ := h.exists_cons
  refine Takes.token hs (isBlank_of_isDigit hc) ?_
  split
  case h_9 hhead =>
    obtain rfl := Option.some.inj hhead
    rw [if_pos hc]
    exact hread
  all_goals
    next hhead => cases hhead <;> cases hc

/-! ## Steps

What stands behind a value is skipped by some number of further steps. The value adds its own.
-/

def SkipsValue (n : Nat) (v : List Char) : Prop :=
  ∀ {outer fuel s u rest}, IsBlanks s → EndsNumber (u ++ rest) →
    Takes (skipFrom fuel .nextElement outer) u () rest →
      Takes (skipFrom (fuel + n) .value outer) (s ++ (v ++ u)) () rest

def SkipsItems (e : Enclosure) (n : Nat) (t : List Char) : Prop :=
  ∀ {outer fuel s u rest}, IsBlanks s → Takes (skipFrom fuel .nextElement outer) u () rest →
    Takes (skipKey e >>= fun _ => skipFrom (fuel + n) .value (e :: outer))
      (s ++ (t ++ closing e :: u)) () rest

theorem endsNumber_append (hs : IsBlanks s) (ht : EndsNumber t) : EndsNumber (s ++ t) := by
  cases s with
  | nil => exact ht
  | cons c s =>
    rintro d ⟨⟩
    have hc := hs c List.mem_cons_self
    simp only [isBlank, Bool.or_eq_true, decide_eq_true_eq] at hc
    rcases hc with ((rfl | rfl) | rfl) | rfl <;> decide

theorem endsNumber_comma (t : List Char) : EndsNumber (',' :: t) := by
  rintro c ⟨⟩
  decide

theorem endsNumber_closing (e : Enclosure) (t : List Char) : EndsNumber (closing e :: t) := by
  rintro c ⟨⟩
  cases e <;> decide

theorem skipsValue_scalar (h : ∀ {s rest}, IsBlanks s → EndsNumber rest →
    Takes skipHead (s ++ v) none rest) : SkipsValue 1 v := by
  intro outer fuel s u rest hs hu hbehind
  rw [← List.append_assoc]
  exact Takes.bind (h hs hu) hbehind

theorem takes_opening {fuel : Nat} {outer : List Enclosure} (hs : IsBlanks s)
    (h : Takes (skipFrom fuel .firstElement (e :: outer)) u () rest) :
    Takes (skipFrom (fuel + 1) .value outer) (s ++ opening e :: u) () rest := by
  have hhead : Takes skipHead (s ++ [opening e]) (some e) (u ++ rest) := by
    cases e <;> exact Takes.token hs (by decide) (Takes.advance (Takes.pure _ _))
  have hboth : Takes (skipFrom (fuel + 1) .value outer) (s ++ [opening e] ++ u) () rest :=
    Takes.bind hhead h
  rwa [List.append_assoc] at hboth

theorem skipsValue_empty (e : Enclosure) (hs : IsBlanks s) :
    SkipsValue 2 (opening e :: (s ++ [closing e])) := by
  intro outer fuel x u rest hx _ hbehind
  have hend : Takes (skipFrom (fuel + 1) .firstElement (e :: outer)) (s ++ closing e :: u) ()
      rest := by
    refine Takes.token hs (isBlank_closing e) ?_
    dsimp only
    rw [if_pos (isClosing_closing e)]
    exact Takes.advance hbehind
  simpa using takes_opening hx hend

theorem skipsValue_items {n : Nat} (hs : IsBlanks s) (hbegin : BeginsItem t)
    (ht : SkipsItems e n t) : SkipsValue (n + 2) (opening e :: (s ++ (t ++ [closing e]))) := by
  intro outer fuel x u rest hx _ hbehind
  have hitems : Takes (skipFrom (fuel + n + 1) .firstElement (e :: outer))
      (s ++ (t ++ closing e :: u)) () rest := by
    have hread := ht (s := []) isBlanks_nil hbehind
    rw [List.nil_append] at hread
    obtain ⟨c, t, rfl, hc, hnone⟩ := hbegin
    refine Takes.token hs hc ?_
    dsimp only
    rw [if_neg (Bool.eq_false_iff.1 (hnone e))]
    exact hread
  simpa [Nat.add_assoc] using takes_opening hx hitems

theorem takes_item {n fuel : Nat} {label : List Char} {outer : List Enclosure}
    (hs : IsBlanks s) (hlabel : IsLabel e label) (hv : SkipsValue n v)
    (hu : EndsNumber (u ++ rest)) (hbehind : Takes (skipFrom fuel .nextElement outer) u () rest) :
    Takes (skipKey e >>= fun _ => skipFrom (fuel + n) .value outer) (s ++ (label ++ (v ++ u))) ()
      rest := by
  obtain ⟨front, back, heq, hback, hfront⟩ := exists_takes_skipKey hlabel hs
  rw [← List.append_assoc, heq, List.append_assoc]
  exact Takes.bind (hfront _) (hv hback hu hbehind)

theorem skipsItems_last {n : Nat} {label x : List Char} (hlabel : IsLabel e label)
    (hv : SkipsValue n v) (hx : IsBlanks x) : SkipsItems e (1 + n) (label ++ (v ++ x)) := by
  intro outer fuel s u rest hs hbehind
  have hend : Takes (skipFrom (fuel + 1) .nextElement (e :: outer)) (x ++ closing e :: u) ()
      rest := by
    refine Takes.token hx (isBlank_closing e) ?_
    dsimp only
    rw [if_neg (closing_ne_comma e), if_pos (isClosing_closing e)]
    exact Takes.advance hbehind
  have hitem := takes_item hs hlabel hv (by
    rw [List.append_assoc]
    exact endsNumber_append hx (endsNumber_closing e _)) hend
  simpa [Nat.add_assoc] using hitem

theorem skipsItems_cons {n m : Nat} {label x y : List Char} (hlabel : IsLabel e label)
    (hv : SkipsValue n v) (hx : IsBlanks x) (hy : IsBlanks y) (ht : SkipsItems e m t) :
    SkipsItems e (m + 1 + n) (label ++ (v ++ (x ++ ',' :: (y ++ t)))) := by
  intro outer fuel s u rest hs hbehind
  have hnext : Takes (skipFrom (fuel + m + 1) .nextElement (e :: outer))
      (x ++ ',' :: (y ++ (t ++ closing e :: u))) () rest := by
    refine Takes.token hx (by decide) ?_
    dsimp only
    rw [if_pos rfl]
    exact Takes.advance (ht hy hbehind)
  have hitem := takes_item hs hlabel hv (by
    rw [List.append_assoc]
    exact endsNumber_append hx (endsNumber_comma _)) hnext
  simpa [Nat.add_assoc] using hitem

mutual

/-- Every value is skipped by at most two steps for each of its characters. -/
theorem IsValue.exists_skipsValue : ∀ {v : List Char}, IsValue v →
    ∃ n, n ≤ 2 * v.length ∧ SkipsValue n v
  | _, .null => ⟨1, by decide, skipsValue_scalar fun hs _ => Takes.token hs (by decide)
      (Takes.advance (Takes.last (takes_word ['u', 'l', 'l'] _) (Takes.pure none _)))⟩
  | _, .true => ⟨1, by decide, skipsValue_scalar fun hs _ => Takes.token hs (by decide)
      (Takes.advance (Takes.last (takes_word ['r', 'u', 'e'] _) (Takes.pure none _)))⟩
  | _, .false => ⟨1, by decide, skipsValue_scalar fun hs _ => Takes.token hs (by decide)
      (Takes.advance (Takes.last (takes_word ['a', 'l', 's', 'e'] _) (Takes.pure none _)))⟩
  | v, .natural hnumber => by
    obtain ⟨c, u, rfl, -⟩ := hnumber.exists_cons
    refine ⟨1, ?_, skipsValue_scalar fun hs => takes_skipHead_number hs hnumber⟩
    simp only [List.length_cons]
    omega
  | _, .negative hnumber => by
    refine ⟨1, ?_, skipsValue_scalar fun hs hrest => Takes.token hs (by decide)
      (Takes.advance (Takes.last (takes_skipNumber hnumber hrest) (Takes.pure none _)))⟩
    simp only [List.length_cons]
    omega
  | _, .string hstring => by
    obtain ⟨u, rfl⟩ := hstring.exists_cons
    refine ⟨1, ?_, skipsValue_scalar fun {s rest} hs _ => ?_⟩
    · simp only [List.length_cons]
      omega
    · have hread : Takes ((advance >>= fun _ => skipString) >>= fun _ => pure none) ('"' :: u)
          (none : Option Enclosure) rest :=
        Takes.last (takes_skipString hstring rest) (Takes.pure none rest)
      rw [bind_assoc] at hread
      exact Takes.token hs (by decide) hread
  | _, .empty e hx => by
    refine ⟨2, ?_, skipsValue_empty e hx⟩
    simp only [List.length_cons, List.length_append]
    omega
  | _, .items e hx hitems => by
    obtain ⟨n, hn, hskips⟩ := hitems.exists_skipsItems
    refine ⟨n + 2, ?_, skipsValue_items hx hitems.beginsItem hskips⟩
    simp only [List.length_cons, List.length_append, List.length_nil]
    omega

theorem AreItems.exists_skipsItems : ∀ {e : Enclosure} {t : List Char}, AreItems e t →
    ∃ n, n ≤ 2 * t.length + 1 ∧ SkipsItems e n t
  | _, _, .last hlabel hvalue hx => by
    obtain ⟨n, hn, hskips⟩ := hvalue.exists_skipsValue
    refine ⟨1 + n, ?_, skipsItems_last hlabel hskips hx⟩
    simp only [List.length_append]
    omega
  | _, _, .cons hlabel hvalue hx hy hitems => by
    obtain ⟨n, hn, hskips⟩ := hvalue.exists_skipsValue
    obtain ⟨m, hm, hrest⟩ := hitems.exists_skipsItems
    refine ⟨m + 1 + n, ?_, skipsItems_cons hlabel hskips hx hy hrest⟩
    simp only [List.length_cons, List.length_append]
    omega

end

/-- The rounds that the reader allows itself are enough for any value. -/
theorem takes_skipValue (hs : IsBlanks s) (h : IsValue v) (hrest : EndsNumber rest) :
    Takes skipValue (s ++ v) () rest := by
  obtain ⟨n, hn, hskips⟩ := h.exists_skipsValue
  refine Takes.get fun place => ?_
  have hfuel : ∃ fuel, 2 * (s ++ v ++ rest).length + 2 = fuel + 1 + n := by
    refine ⟨2 * (s ++ v ++ rest).length + 1 - n, ?_⟩
    simp only [List.length_append]
    omega
  obtain ⟨fuel, hfuel⟩ := hfuel
  have hend : Takes (skipFrom (fuel + 1) .nextElement []) [] () rest := Takes.pure () rest
  have hskip := hskips (u := []) hs hrest hend
  rw [List.append_nil] at hskip
  dsimp only
  rwa [hfuel]

end Registrar.Json
