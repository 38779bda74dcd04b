/-! # Sets of names

A set is the list of its names in strictly increasing order. Two sets with the same members are
equal.
-/

namespace Registrar

def insertName (name : String) : List String → List String
  | [] => [name]
  | n :: ns =>
    if name < n then name :: n :: ns
    else if n < name then n :: insertName name ns
    else n :: ns

theorem mem_insertName {name x : String} {ns : List String} :
    x ∈ insertName name ns ↔ x = name ∨ x ∈ ns := by
  induction ns with
  | nil => simp [insertName]
  | cons n ns ih =>
    unfold insertName
    split
    · simp
    · split
      · simp only [List.mem_cons, ih]
        exact or_left_comm
      · next h₁ h₂ =>
        have : name = n := String.le_antisymm (String.not_lt.1 h₂) (String.not_lt.1 h₁)
        simp [this]

theorem pairwise_insertName {name : String} {ns : List String} (h : ns.Pairwise (· < ·)) :
    (insertName name ns).Pairwise (· < ·) := by
  induction ns with
  | nil => simp [insertName]
  | cons n ns ih =>
    unfold insertName
    split
    · next hlt =>
      refine List.pairwise_cons.2 ⟨fun x hx => ?_, h⟩
      rcases List.mem_cons.1 hx with rfl | hx
      · exact hlt
      · exact String.lt_trans hlt (List.rel_of_pairwise_cons h hx)
    · split
      · next hlt =>
        refine List.pairwise_cons.2 ⟨fun x hx => ?_, ih (List.pairwise_cons.1 h).2⟩
        rcases mem_insertName.1 hx with rfl | hx
        · exact hlt
        · exact List.rel_of_pairwise_cons h hx
      · exact h

theorem eq_of_increasing {xs ys : List String} (hx : xs.Pairwise (· < ·))
    (hy : ys.Pairwise (· < ·)) (h : ∀ n, n ∈ xs ↔ n ∈ ys) : xs = ys := by
  induction xs generalizing ys with
  | nil => exact (List.eq_nil_iff_forall_not_mem.2 fun n hn => by simpa using (h n).2 hn).symm
  | cons x xs ih =>
    cases ys with
    | nil => exact absurd ((h x).1 (by simp)) List.not_mem_nil
    | cons y ys =>
      obtain ⟨hx', hxs⟩ := List.pairwise_cons.1 hx
      obtain ⟨hy', hys⟩ := List.pairwise_cons.1 hy
      have hxy : x = y := by
        rcases List.mem_cons.1 ((h x).1 (by simp)) with he | hxy
        · exact he
        · rcases List.mem_cons.1 ((h y).2 (by simp)) with he | hyx
          · exact he.symm
          · exact absurd (hx' y hyx) (String.lt_asymm (hy' x hxy))
      subst hxy
      rw [ih hxs hys fun n => ?_]
      constructor
      · intro hn
        rcases List.mem_cons.1 ((h n).1 (by simp [hn])) with rfl | hn'
        · exact absurd (hx' n hn) (String.lt_irrefl n)
        · exact hn'
      · intro hn
        rcases List.mem_cons.1 ((h n).2 (by simp [hn])) with rfl | hn'
        · exact absurd (hy' n hn) (String.lt_irrefl n)
        · exact hn'

structure NameSet where
  names : List String
  increasing : names.Pairwise (· < ·)

namespace NameSet

instance : Membership String NameSet := ⟨fun s name => name ∈ s.names⟩

def empty : NameSet := ⟨[], .nil⟩

def insert (s : NameSet) (name : String) : NameSet :=
  ⟨insertName name s.names, pairwise_insertName s.increasing⟩

def insertAll (s : NameSet) (names : List String) : NameSet := names.foldl insert s

def ofList (names : List String) : NameSet := empty.insertAll names

def contains (s : NameSet) (name : String) : Bool := s.names.contains name

def isEmpty (s : NameSet) : Bool := s.names.isEmpty

def size (s : NameSet) : Nat := s.names.length

theorem mem_def {s : NameSet} {name : String} : name ∈ s ↔ name ∈ s.names := Iff.rfl

@[ext] theorem ext {s t : NameSet} (h : ∀ name, name ∈ s ↔ name ∈ t) : s = t := by
  cases s with
  | mk xs hx =>
    cases t with
    | mk ys hy =>
      obtain rfl : xs = ys := eq_of_increasing hx hy h
      rfl

@[simp] theorem mem_insert {s : NameSet} {name x : String} :
    x ∈ s.insert name ↔ x = name ∨ x ∈ s := mem_insertName

@[simp] theorem not_mem_empty {x : String} : x ∉ empty := List.not_mem_nil

@[simp] theorem mem_insertAll {s : NameSet} {names : List String} {x : String} :
    x ∈ s.insertAll names ↔ x ∈ s ∨ x ∈ names := by
  induction names generalizing s with
  | nil => simp [insertAll]
  | cons n ns ih =>
    have : s.insertAll (n :: ns) = (s.insert n).insertAll ns := rfl
    rw [this, ih, mem_insert, List.mem_cons]
    constructor
    · rintro ((h | h) | h) <;> simp [h]
    · rintro (h | h | h) <;> simp [h]

@[simp] theorem mem_ofList {names : List String} {x : String} : x ∈ ofList names ↔ x ∈ names := by
  simp [ofList]

theorem contains_iff {s : NameSet} {name : String} : s.contains name = true ↔ name ∈ s := by
  simp [contains, mem_def]

end NameSet

end Registrar
