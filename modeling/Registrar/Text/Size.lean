/-! # The size of a text

No text has more bytes than `maxSize`, however much memory there is. A program that would make a
larger one ends there and then.
-/

namespace Registrar.Text

@[irreducible] def maxSize : Nat := 0x7fffffffffffffff

inductive Overflow
  | tooLarge
deriving DecidableEq, Repr

def blanks (size : Nat) : String := String.ofList (List.replicate size ' ')

def makeBlanks (size : Nat) : Except Overflow String :=
  if size ≤ maxSize then .ok (blanks size) else .error .tooLarge

def bounded (text : String) : Except Overflow String :=
  if text.utf8ByteSize ≤ maxSize then .ok text else .error .tooLarge

@[simp] theorem toList_blanks (size : Nat) : (blanks size).toList = List.replicate size ' ' :=
  String.toList_ofList

@[simp] theorem utf8ByteSize_blanks (size : Nat) : (blanks size).utf8ByteSize = size := by
  induction size with
  | zero => rfl
  | succ size ih =>
    have hsucc : blanks (size + 1) = " " ++ blanks size := by
      rw [blanks, List.replicate_succ, ← List.singleton_append, String.ofList_append]
      rfl
    have hone : " ".utf8ByteSize = 1 := rfl
    rw [hsucc, String.utf8ByteSize_append, ih, hone, Nat.add_comm]

end Registrar.Text
