import Mathlib.Data.List.Forall2
import Registrar.Json.Reader
import Registrar.Json.Value

/-! # The grammar of JSON

Which texts are values, and which strings and lists they stand for. A string has many spellings,
since any of its characters may be escaped. Blanks may stand around values and signs.
-/

namespace Registrar.Json

open Registrar.Json.Reader

def IsBlanks (text : List Char) : Prop := ∀ c ∈ text, isBlank c = true

instance (text : List Char) : Decidable (IsBlanks text) :=
  List.decidableBAll (isBlank · = true) text

/-! ## Strings -/

def IsHexDigit (n : Nat) (c : Char) : Prop :=
  n < 16 ∧ (c = Nat.digitChar n ∨ c = (Nat.digitChar n).toUpper)

inductive SpellsUnit : Nat → List Char → Prop
  | mk {n₁ n₂ n₃ n₄ : Nat} {a b c d : Char} : IsHexDigit n₁ a → IsHexDigit n₂ b →
      IsHexDigit n₃ c → IsHexDigit n₄ d →
      SpellsUnit (16 * (16 * (16 * n₁ + n₂) + n₃) + n₄) [a, b, c, d]

/-- The letters of short escapes and the characters that they stand for. -/
def shortEscapes : List (Char × Char) :=
  [('"', '"'), ('\\', '\\'), ('/', '/'), ('b', '\x08'), ('f', '\x0c'), ('n', '\n'), ('r', '\r'),
    ('t', '\t')]

/-- What a character is written as behind a backslash: a letter, its number, or the numbers of two
surrogates if it is beyond 16 bits. -/
inductive SpellsEscape : Char → List Char → Prop
  | short {letter c : Char} : (letter, c) ∈ shortEscapes → SpellsEscape c [letter]
  | unit {c : Char} {digits : List Char} : SpellsUnit c.toNat digits →
      SpellsEscape c ('u' :: digits)
  | pair {c : Char} {n m : Nat} {high low : List Char} : SpellsUnit n high → SpellsUnit m low →
      0xd800 ≤ n → n < 0xdc00 → 0xdc00 ≤ m → m < 0xe000 →
      c.toNat = 0x10000 + (n - 0xd800) * 0x400 + (m - 0xdc00) →
      SpellsEscape c ('u' :: (high ++ '\\' :: 'u' :: low))

inductive SpellsChar : Char → List Char → Prop
  | plain {c : Char} : c ≠ '"' → c ≠ '\\' → 0x20 ≤ c.toNat → SpellsChar c [c]
  | escaped {c : Char} {text : List Char} : SpellsEscape c text → SpellsChar c ('\\' :: text)

def SpellsString (s : String) (text : List Char) : Prop :=
  ∃ parts, List.Forall₂ SpellsChar s.toList parts ∧ text = '"' :: (parts.flatten ++ ['"'])

/-- Part of a string that may be half of a character. -/
inductive IsCharText : List Char → Prop
  | plain {c : Char} : c ≠ '"' → c ≠ '\\' → 0x20 ≤ c.toNat → IsCharText [c]
  | short {letter c : Char} : (letter, c) ∈ shortEscapes → IsCharText ['\\', letter]
  | unit {n : Nat} {digits : List Char} : SpellsUnit n digits →
      IsCharText ('\\' :: 'u' :: digits)

def IsString (text : List Char) : Prop :=
  ∃ parts : List (List Char), (∀ part ∈ parts, IsCharText part) ∧
    text = '"' :: (parts.flatten ++ ['"'])

/-! ## Numbers -/

def IsDigits (text : List Char) : Prop := text ≠ [] ∧ ∀ c ∈ text, c.isDigit = true

/-- Digits, of which the first is no zero unless it is the only one. -/
inductive IsWhole : List Char → Prop
  | zero : IsWhole ['0']
  | digits {c : Char} {text : List Char} : c ≠ '0' → IsDigits (c :: text) → IsWhole (c :: text)

inductive IsFraction : List Char → Prop
  | none : IsFraction []
  | digits {text : List Char} : IsDigits text → IsFraction ('.' :: text)

inductive IsExponent : List Char → Prop
  | none : IsExponent []
  | digits {letter : Char} {sign text : List Char} : letter ∈ ['e', 'E'] →
      sign ∈ [[], ['+'], ['-']] → IsDigits text → IsExponent (letter :: (sign ++ text))

inductive IsUnsigned : List Char → Prop
  | mk {whole fraction exponent : List Char} : IsWhole whole → IsFraction fraction →
      IsExponent exponent → IsUnsigned (whole ++ (fraction ++ exponent))

/-! ## Values -/

def opening : Enclosure → Char
  | .list => '['
  | .object => '\x7b'

def closing : Enclosure → Char
  | .list => ']'
  | .object => '\x7d'

/-- What stands in front of a value in a list or an object. -/
inductive IsLabel : Enclosure → List Char → Prop
  | none : IsLabel .list []
  | key {key x y : List Char} : IsString key → IsBlanks x → IsBlanks y →
      IsLabel .object (key ++ (x ++ ':' :: y))

mutual

inductive IsValue : List Char → Prop
  | null : IsValue ['n', 'u', 'l', 'l']
  | true : IsValue ['t', 'r', 'u', 'e']
  | false : IsValue ['f', 'a', 'l', 's', 'e']
  | natural {text : List Char} : IsUnsigned text → IsValue text
  | negative {text : List Char} : IsUnsigned text → IsValue ('-' :: text)
  | string {text : List Char} : IsString text → IsValue text
  | empty (e : Enclosure) {x : List Char} : IsBlanks x → IsValue (opening e :: (x ++ [closing e]))
  | items (e : Enclosure) {x text : List Char} : IsBlanks x → AreItems e text →
      IsValue (opening e :: (x ++ (text ++ [closing e])))

inductive AreItems : Enclosure → List Char → Prop
  | last {e : Enclosure} {label value x : List Char} : IsLabel e label → IsValue value →
      IsBlanks x → AreItems e (label ++ (value ++ x))
  | cons {e : Enclosure} {label value x y text : List Char} : IsLabel e label → IsValue value →
      IsBlanks x → IsBlanks y → AreItems e text →
      AreItems e (label ++ (value ++ (x ++ ',' :: (y ++ text))))

end

/-! ## Values that are known -/

inductive SpellsItems {α : Type} (P : α → List Char → Prop) : List α → List Char → Prop
  | last {a : α} {item x : List Char} : P a item → IsBlanks x → SpellsItems P [a] (item ++ x)
  | cons {a : α} {as : List α} {item x y text : List Char} : P a item → IsBlanks x → IsBlanks y →
      SpellsItems P as text → SpellsItems P (a :: as) (item ++ (x ++ ',' :: (y ++ text)))

inductive SpellsAll {α : Type} (e : Enclosure) (P : α → List Char → Prop) :
    List α → List Char → Prop
  | empty {x : List Char} : IsBlanks x → SpellsAll e P [] (opening e :: (x ++ [closing e]))
  | items {as : List α} {x text : List Char} : IsBlanks x → SpellsItems P as text →
      SpellsAll e P as (opening e :: (x ++ (text ++ [closing e])))

def SpellsMember (member : String × List Char) (text : List Char) : Prop :=
  ∃ key x y, SpellsString member.1 key ∧ IsBlanks x ∧ IsBlanks y ∧
    text = key ++ (x ++ ':' :: (y ++ member.2))

/-! ## What is written is in the grammar -/

theorem isBlanks_nil : IsBlanks [] := by decide

theorem spellsUnit_hexPair {n : Nat} (h : n < 0x20) : SpellsUnit n ('0' :: '0' :: hexPair n) := by
  have hunit : SpellsUnit (16 * (16 * (16 * 0 + 0) + n / 16) + n % 16) ('0' :: '0' :: hexPair n) :=
    .mk ⟨by decide, .inl rfl⟩ ⟨by decide, .inl rfl⟩ ⟨by omega, .inl rfl⟩ ⟨by omega, .inl rfl⟩
  have hn : 16 * (16 * (16 * 0 + 0) + n / 16) + n % 16 = n := by omega
  rwa [hn] at hunit

theorem spellsChar_encodeChar (c : Char) : SpellsChar c (encodeChar c) := by
  have hshort {letter c : Char} (h : (letter, c) ∈ shortEscapes) : SpellsChar c ['\\', letter] :=
    .escaped (.short h)
  unfold encodeChar
  split_ifs with hquote hslash hback hform hline hreturn htab hcontrol
  · subst hquote
    exact hshort (by decide)
  · subst hslash
    exact hshort (by decide)
  · subst hback
    exact hshort (by decide)
  · subst hform
    exact hshort (by decide)
  · subst hline
    exact hshort (by decide)
  · subst hreturn
    exact hshort (by decide)
  · subst htab
    exact hshort (by decide)
  · exact .escaped (.unit (spellsUnit_hexPair hcontrol))
  · exact .plain hquote hslash (by omega)

theorem spellsString_encodeString (s : String) : SpellsString s (encodeString s) := by
  refine ⟨s.toList.map encodeChar, ?_, by simp [encodeString, List.flatMap]⟩
  rw [List.forall₂_map_right_iff]
  exact List.forall₂_same.2 fun c _ => spellsChar_encodeChar c

theorem spellsItems_commaSeparated {α : Type} {P : α → List Char → Prop} {f : α → List Char}
    (h : ∀ a, P a (f a)) (a : α) (as : List α) :
    SpellsItems P (a :: as) (commaSeparated ((a :: as).map f)) := by
  induction as generalizing a with
  | nil =>
    have hlast : SpellsItems P [a] (f a ++ []) := .last (h a) isBlanks_nil
    rwa [List.append_nil] at hlast
  | cons b as ih => exact .cons (h a) isBlanks_nil isBlanks_nil (ih b)

theorem spellsAll_commaSeparated {α : Type} {P : α → List Char → Prop} {f : α → List Char}
    (e : Enclosure) (h : ∀ a, P a (f a)) (as : List α) :
    SpellsAll e P as (opening e :: commaSeparated (as.map f) ++ [closing e]) := by
  cases as with
  | nil => exact .empty isBlanks_nil
  | cons a as => exact .items isBlanks_nil (spellsItems_commaSeparated h a as)

end Registrar.Json
