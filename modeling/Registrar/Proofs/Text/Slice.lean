import Mathlib.Data.Prod.Lex
import Registrar.Proofs.Text.Utf8

/-! # Slices of a text

A text is sliced by byte offsets. There is a slice only between two offsets in order that stand
between characters; offsets inside a character and behind the end have none.
-/

namespace Registrar.Text

def splitAt? : List Char → Nat → Option (List Char × List Char)
  | text, 0 => some ([], text)
  | [], _ + 1 => none
  | c :: cs, n + 1 =>
    if c.utf8Size ≤ n + 1 then (splitAt? cs (n + 1 - c.utf8Size)).map fun p => (c :: p.1, p.2)
    else none

def slice? (text : List Char) (start stop : Nat) : Option (List Char) :=
  if start ≤ stop then
    (splitAt? text start).bind fun p => (splitAt? p.2 (stop - start)).map Prod.fst
  else none

def bytesFrom? (text : List Char) (start : Nat) : Option (List UInt8) :=
  if start ≤ (utf8 text).length then some ((utf8 text).drop start) else none

def lastIndex? (c : Char) (text : List Char) : Option Nat :=
  match text.reverse.dropWhile (· ≠ c) with
  | [] => none
  | _ :: before => some (byteCount before.reverse)

def sliceLastLine? (text : List Char) : Option (List Char) :=
  match lastIndex? '\n' text with
  | none => some text
  | some newline => slice? text (newline + 1) (byteCount text)

/-- Line and column of a byte offset, from slices of the text. -/
def lineColumn? (text : List Char) (offset : Nat) : Option (Nat × Nat) := do
  let before ← slice? text 0 (min offset (byteCount text))
  let line ← sliceLastLine? before
  return (before.count '\n' + 1, line.length + 1)

/-- An offset stands between characters, in front of the rest of the source. -/
def Stands (source : List Char) (pos : Nat) (text : List Char) : Prop :=
  ∃ passed, passed ++ text = source ∧ byteCount passed = pos

variable {source text rest a b : List Char} {pos next : Nat}

theorem splitAt?_append (a b : List Char) : splitAt? (a ++ b) (byteCount a) = some (a, b) := by
  induction a with
  | nil => cases b <;> rfl
  | cons c a ih =>
    have hc := c.utf8Size_pos
    obtain ⟨n, hn⟩ : ∃ n, byteCount (c :: a) = n + 1 :=
      Nat.exists_eq_succ_of_ne_zero (by rw [byteCount_cons]; omega)
    have hrest : n + 1 - c.utf8Size = byteCount a := by rw [← hn, byteCount_cons]; omega
    rw [List.cons_append, hn, splitAt?, hrest, ih, if_pos (by rw [← hn, byteCount_cons]; omega)]
    rfl

namespace Stands

theorem start (source : List Char) : Stands source 0 source := ⟨[], rfl, rfl⟩

theorem advance (h : Stands source pos (a ++ b)) : Stands source (pos + byteCount a) b := by
  obtain ⟨passed, rfl, rfl⟩ := h
  exact ⟨passed ++ a, List.append_assoc .., byteCount_append ..⟩

theorem uncons {c : Char} (h : Stands source pos (c :: text)) :
    Stands source (pos + c.utf8Size) text := by
  have hadv := h.advance (a := [c])
  rwa [byteCount_cons] at hadv

theorem tail {c : Char} (h : Stands source pos (c :: text)) (hc : IsAscii c) :
    Stands source (pos + 1) text := by
  rw [← utf8Size_of_isAscii hc]
  exact h.uncons

theorem dropWhile (h : Stands source pos text) (p : Char → Bool) :
    Stands source (pos + byteCount (text.takeWhile p)) (text.dropWhile p) := by
  rw [← List.takeWhile_append_dropWhile (p := p) (l := text)] at h
  exact h.advance

theorem length (h : Stands source pos text) : pos + byteCount text = byteCount source := by
  obtain ⟨passed, rfl, rfl⟩ := h
  exact (byteCount_append ..).symm

theorem drop (h : Stands source pos text) : (utf8 source).drop pos = utf8 text := by
  obtain ⟨passed, rfl, rfl⟩ := h
  rw [utf8_append, List.drop_left' (length_utf8 passed)]

theorem splitAt? (h : Stands source pos text) :
    ∃ passed, Text.splitAt? source pos = some (passed, text) := by
  obtain ⟨passed, rfl, rfl⟩ := h
  exact ⟨passed, splitAt?_append passed text⟩

theorem slice? (h : Stands source pos (a ++ b)) :
    slice? source pos (pos + byteCount a) = some a := by
  obtain ⟨passed, hpassed⟩ := h.splitAt?
  rw [Text.slice?, if_pos (Nat.le_add_right ..), hpassed, Nat.add_sub_cancel_left]
  simp [splitAt?_append]

theorem bytesFrom? (h : Stands source pos text) : bytesFrom? source pos = some (utf8 text) := by
  have := h.length
  rw [Text.bytesFrom?, if_pos (by rw [length_utf8]; omega), h.drop]

theorem exists_append_of_le (h : Stands source pos text) (hnext : Stands source next rest)
    (hle : pos ≤ next) : ∃ x, text = x ++ rest ∧ next = pos + byteCount x := by
  obtain ⟨passed, hpassed, rfl⟩ := h
  obtain ⟨passed', rfl, rfl⟩ := hnext
  rcases List.append_eq_append_iff.1 hpassed with ⟨x, rfl, rfl⟩ | ⟨x, rfl, rfl⟩
  · exact ⟨x, rfl, byteCount_append ..⟩
  · obtain rfl : x = [] := by
      by_contra hne
      have hpos := byteCount_pos hne
      rw [byteCount_append] at hle
      omega
    exact ⟨[], rfl, by simp⟩

theorem lt_of_suffix (h : Stands source pos text) (hnext : Stands source next rest)
    (hs : rest <:+ text) (hlt : rest.length < text.length) :
    pos < next ∧ next ≤ byteCount source := by
  obtain ⟨a, rfl⟩ := hs
  have h₁ := h.length
  have h₂ := hnext.length
  have ha : 0 < byteCount a := by
    refine byteCount_pos ?_
    rintro rfl
    exact absurd hlt (Nat.lt_irrefl _)
  rw [byteCount_append] at h₁
  omega

end Stands

theorem Position.after_append (p : Position) (a b : List Char) :
    p.after (byteCount a) (a ++ b) = a.foldl Position.advance p := by
  induction a generalizing p with
  | nil => cases b <;> rfl
  | cons c a ih =>
    have hc := c.utf8Size_pos
    obtain ⟨n, hn⟩ : ∃ n, byteCount (c :: a) = n + 1 :=
      Nat.exists_eq_succ_of_ne_zero (by rw [byteCount_cons]; omega)
    have hrest : n + 1 - c.utf8Size = byteCount a := by rw [← hn, byteCount_cons]; omega
    rw [List.cons_append, hn, after, hrest, ih, List.foldl_cons]

def lastLine (text : List Char) : List Char := (text.reverse.takeWhile (· ≠ '\n')).reverse

theorem Position.foldl_advance (text : List Char) : text.foldl Position.advance ⟨1, 1⟩ =
    ⟨text.count '\n' + 1, (lastLine text).length + 1⟩ := by
  induction text using List.reverseRecOn with
  | nil => rfl
  | append_singleton text c ih =>
    rw [List.foldl_append, ih]
    by_cases hc : c = '\n'
    · simp [advance, lastLine, hc]
    · simp [advance, lastLine, hc]

/-! ## The order of positions -/

def Position.place (p : Position) : ℕ ×ₗ ℕ := toLex (p.line, p.column)

theorem Position.place_lt_advance (p : Position) (c : Char) : p.place < (p.advance c).place := by
  rw [place, place, Prod.Lex.toLex_lt_toLex, advance]
  split
  · exact .inl (Nat.lt_succ_self _)
  · exact .inr ⟨rfl, Nat.lt_succ_self _⟩

theorem Position.place_le_foldl (p : Position) (text : List Char) :
    p.place ≤ (text.foldl advance p).place := by
  induction text generalizing p with
  | nil => exact le_rfl
  | cons c text ih => exact (p.place_lt_advance c).le.trans (ih _)

/-- Later places between characters have later positions. -/
theorem strictMonoOn_place (source : List Char) :
    StrictMonoOn (fun offset => (Position.ofOffset source offset).place)
      {offset | ∃ text, Stands source offset text} := by
  rintro a ⟨text, ha⟩ b ⟨rest, hb⟩ hlt
  obtain ⟨x, rfl, rfl⟩ := ha.exists_append_of_le hb hlt.le
  obtain ⟨passed, rfl, rfl⟩ := ha
  rw [← byteCount_append]
  simp only [Position.ofOffset]
  rw [Position.after_append, ← List.append_assoc, Position.after_append, List.foldl_append]
  cases x with
  | nil => exact absurd hlt (by simp)
  | cons c x =>
    rw [List.foldl_cons]
    exact (Position.place_lt_advance _ c).trans_le (Position.place_le_foldl _ x)

theorem sliceLastLine?_eq (text : List Char) : sliceLastLine? text = some (lastLine text) := by
  have hsplit := congrArg List.reverse
    (List.takeWhile_append_dropWhile (p := (· ≠ '\n')) (l := text.reverse))
  rw [List.reverse_append, List.reverse_reverse, ← lastLine] at hsplit
  rw [sliceLastLine?, lastIndex?]
  cases hd : text.reverse.dropWhile (· ≠ '\n') with
  | nil => rw [hd] at hsplit; exact congrArg some hsplit.symm
  | cons d before =>
    obtain rfl : d = '\n' := by
      have hstop := stopsAt_dropWhile (· ≠ '\n') text.reverse
      rw [hd, stopsAt_cons] at hstop
      simpa using hstop
    rw [hd, List.reverse_cons, List.append_assoc] at hsplit
    have hline : Stands text (byteCount before.reverse + 1) (lastLine text ++ []) := by
      have h : Stands text (byteCount before.reverse) (['\n'] ++ lastLine text) :=
        ⟨before.reverse, hsplit, rfl⟩
      rw [List.append_nil]
      exact h.advance
    have hlen := hline.length
    rw [List.append_nil] at hlen
    rw [← hlen]
    exact hline.slice?

/-- The place of an offset between characters is read off slices of the text. -/
theorem Stands.lineColumn? (h : Stands source pos text) : lineColumn? source pos =
    some ((Position.ofOffset source pos).line, (Position.ofOffset source pos).column) := by
  have hmin : min pos (byteCount source) = pos := by have := h.length; omega
  obtain ⟨passed, rfl, rfl⟩ := h
  have hbefore : Text.slice? (passed ++ text) 0 (byteCount passed) = some passed := by
    simpa using (Stands.start (passed ++ text)).slice?
  rw [Text.lineColumn?, hmin, hbefore, Position.ofOffset, Position.after_append,
    Position.foldl_advance]
  simp only [Option.bind_eq_bind, Option.bind_some, sliceLastLine?_eq, Option.pure_def]

end Registrar.Text
