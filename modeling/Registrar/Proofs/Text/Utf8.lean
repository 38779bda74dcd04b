import Registrar.Markup.Vocabulary
import Registrar.Proofs.Text.Letter
import Registrar.Proofs.Text.Mark

/-! # The bytes of a text

The UTF-8 form of a text, byte by byte. An ASCII character is one byte, and no byte of another
character is an ASCII byte, so that a search for ASCII bytes finds characters.
-/

namespace Registrar.Text

def utf8 (text : List Char) : List UInt8 := text.flatMap String.utf8EncodeChar

def IsAscii (c : Char) : Prop := c.val.toNat < 128

instance {c : Char} : Decidable (IsAscii c) := inferInstanceAs (Decidable (_ < _))

variable {a b text : List Char} {c x : Char} {byte : UInt8}

@[simp] theorem utf8_nil : utf8 [] = [] := rfl

@[simp] theorem utf8_cons (c : Char) (text : List Char) :
    utf8 (c :: text) = String.utf8EncodeChar c ++ utf8 text := List.flatMap_cons

@[simp] theorem utf8_append (a b : List Char) : utf8 (a ++ b) = utf8 a ++ utf8 b :=
  List.flatMap_append

theorem exists_utf8EncodeChar (c : Char) :
    ∃ byte bytes, String.utf8EncodeChar c = byte :: bytes :=
  List.exists_cons_of_ne_nil String.utf8EncodeChar_ne_nil

@[simp] theorem length_utf8 (text : List Char) : (utf8 text).length = byteCount text := by
  induction text with
  | nil => rfl
  | cons c text ih => simp [ih]

theorem utf8EncodeChar_of_isAscii (h : IsAscii c) :
    String.utf8EncodeChar c = [c.toUInt8] := by
  unfold IsAscii at h
  rw [String.utf8EncodeChar, if_pos (by omega)]
  rfl

theorem utf8Size_of_isAscii (h : IsAscii c) : c.utf8Size = 1 := by
  rw [← String.length_utf8EncodeChar, utf8EncodeChar_of_isAscii h]
  rfl

theorem byteCount_ascii (h : IsAscii x) : byteCount (x :: text) = byteCount text + 1 := by
  rw [byteCount_cons, utf8Size_of_isAscii h, Nat.add_comm]

theorem le_of_mem_utf8EncodeChar (h : ¬ IsAscii c) (hb : byte ∈ String.utf8EncodeChar c) :
    128 ≤ byte.toNat := by
  unfold IsAscii at h
  have hc : c.val.toNat < 1114112 := by
    have := c.valid
    simp only [UInt32.isValidChar, Nat.isValidChar] at this
    omega
  rw [String.utf8EncodeChar, if_neg (by omega)] at hb
  split at hb
  · simp only [List.mem_cons, List.not_mem_nil, or_false] at hb
    rcases hb with rfl | rfl <;> simp only [UInt8.toNat_ofNat'] <;> omega
  · split at hb
    · simp only [List.mem_cons, List.not_mem_nil, or_false] at hb
      rcases hb with rfl | rfl | rfl <;> simp only [UInt8.toNat_ofNat'] <;> omega
    · simp only [List.mem_cons, List.not_mem_nil, or_false] at hb
      rcases hb with rfl | rfl | rfl | rfl <;> simp only [UInt8.toNat_ofNat'] <;> omega

theorem toNat_toUInt8 (h : IsAscii c) : c.toUInt8.toNat = c.val.toNat := by
  unfold IsAscii at h
  rw [Char.toUInt8, UInt32.toNat_toUInt8, Nat.mod_eq_of_lt (by omega)]

theorem utf8EncodeChar_append_lt {c d : Char} (h : c < d) (s t : List UInt8) :
    String.utf8EncodeChar c ++ s < String.utf8EncodeChar d ++ t := by
  have hval : c.val.toNat < d.val.toNat := h
  have hd : d.val.toNat < 1114112 := by
    have := d.valid
    simp only [UInt32.isValidChar, Nat.isValidChar] at this
    omega
  unfold String.utf8EncodeChar
  generalize c.val.toNat = m at *
  generalize d.val.toNat = n at *
  -- what decides is the first of the digits to the base 64 that differs
  have hdigits : m / 262144 < n / 262144 ∨ m / 262144 = n / 262144 ∧
      (m / 4096 % 64 < n / 4096 % 64 ∨ m / 4096 % 64 = n / 4096 % 64 ∧
        (m / 64 % 64 < n / 64 % 64 ∨ m / 64 % 64 = n / 64 % 64 ∧ m % 64 < n % 64)) := by
    omega
  dsimp only
  repeat' split
  all_goals
    simp only [List.cons_append, List.nil_append, List.cons_lt_cons_iff, UInt8.lt_iff_toNat_lt,
      ← UInt8.toNat_inj, UInt8.toNat_ofNat']
    simp (disch := omega) only [Nat.mod_eq_of_lt]
    omega

/-- Texts are ordered as their bytes are. -/
theorem utf8_lt_utf8 (h : a < b) : utf8 a < utf8 b := by
  induction h with
  | @nil c text =>
    obtain ⟨byte, bytes, hbytes⟩ := exists_utf8EncodeChar c
    rw [utf8_cons, hbytes]
    exact .nil
  | rel hlt =>
    rw [utf8_cons, utf8_cons]
    exact utf8EncodeChar_append_lt hlt _ _
  | cons _ ih =>
    rw [utf8_cons, utf8_cons]
    exact List.append_left_lt ih

/-- The character that an ASCII byte of a text is, and none that another byte belongs to. -/
theorem eq_toUInt8_iff (hx : IsAscii x) (hb : byte ∈ String.utf8EncodeChar c) :
    byte = x.toUInt8 ↔ c = x := by
  by_cases hc : IsAscii c
  · obtain rfl : byte = c.toUInt8 := by simpa [utf8EncodeChar_of_isAscii hc] using hb
    rw [← UInt8.toNat_inj, toNat_toUInt8 hc, toNat_toUInt8 hx, UInt32.toNat_inj, Char.ext_iff]
  · have hle := le_of_mem_utf8EncodeChar hc hb
    constructor
    · rintro rfl
      rw [toNat_toUInt8 hx] at hle
      unfold IsAscii at hx
      omega
    · rintro rfl
      exact absurd hx hc

def isAlphaByte (byte : UInt8) : Bool :=
  (65 ≤ byte.toNat && byte.toNat ≤ 90) || (97 ≤ byte.toNat && byte.toNat ≤ 122)

def lowerByte (byte : UInt8) : UInt8 :=
  if 65 ≤ byte.toNat ∧ byte.toNat ≤ 90 then byte + 32 else byte

theorem isAlphaByte_eq (hb : byte ∈ String.utf8EncodeChar c) : isAlphaByte byte = c.isAlpha := by
  rw [Bool.eq_iff_iff, isAlpha_iff]
  simp only [isAlphaByte, Bool.or_eq_true, Bool.and_eq_true, decide_eq_true_eq]
  by_cases hc : IsAscii c
  · obtain rfl : byte = c.toUInt8 := by simpa [utf8EncodeChar_of_isAscii hc] using hb
    rw [toNat_toUInt8 hc]
  · have hle := le_of_mem_utf8EncodeChar hc hb
    unfold IsAscii at hc
    omega

theorem map_lowerByte (c : Char) :
    (String.utf8EncodeChar c).map lowerByte = String.utf8EncodeChar c.toLower := by
  have hval := toNat_toLower c
  by_cases hc : IsAscii c
  · have hlower : IsAscii c.toLower := by unfold IsAscii at hc ⊢; split at hval <;> omega
    rw [utf8EncodeChar_of_isAscii hc, utf8EncodeChar_of_isAscii hlower, List.map_singleton,
      List.singleton_inj, ← UInt8.toNat_inj, toNat_toUInt8 hlower, hval, lowerByte,
      toNat_toUInt8 hc]
    split
    · rw [UInt8.toNat_add, toNat_toUInt8 hc, show (32 : UInt8).toNat = 32 from rfl]
      omega
    · exact toNat_toUInt8 hc
  · have hlower : c.toLower = c := by
      unfold IsAscii at hc
      rw [if_neg (by omega), UInt32.toNat_inj] at hval
      exact Char.ext hval
    have hself : ∀ byte ∈ String.utf8EncodeChar c, lowerByte byte = byte := by
      intro byte hb
      have hle := le_of_mem_utf8EncodeChar hc hb
      exact if_neg (by omega)
    rw [hlower, List.map_congr_left hself, List.map_id']

theorem utf8_lowerName (text : List Char) :
    utf8 (Markup.lowerName text) = (utf8 text).map lowerByte := by
  induction text with
  | nil => rfl
  | cons c text ih =>
    rw [utf8_cons, List.map_append, map_lowerByte, ← ih]
    rfl

theorem utf8_prefix_iff : utf8 a <+: utf8 b ↔ a <+: b := by
  constructor
  · rintro ⟨t, ht⟩
    refine List.isPrefix_of_utf8Encode_append_eq_utf8Encode t.toByteArray ?_
    rw [List.utf8Encode, List.utf8Encode, ← List.toByteArray_append]
    exact congrArg List.toByteArray ht
  · rintro ⟨t, rfl⟩
    exact ⟨utf8 t, (utf8_append a t).symm⟩

end Registrar.Text
