/-! # File trees

A tree is a list of entries in increasing order of their locations. A location is the list of names
on the way from the root. In this order a folder comes in front of its entries, and its entries are
sorted by name. Every entry stands in a folder.
-/

namespace Registrar.Files

abbrev Location := List String

inductive Node
  | folder
  | file (content : ByteArray)
  | link (target : String)

def Node.isFolder : Node → Bool
  | .folder => true
  | _ => false

abbrev Entry := Location × Node

def insertEntry (e : Entry) : List Entry → List Entry
  | [] => [e]
  | x :: xs =>
    if e.1 < x.1 then e :: x :: xs
    else if x.1 < e.1 then x :: insertEntry e xs
    else e :: xs

abbrev Increasing (entries : List Entry) : Prop := entries.Pairwise fun a b => a.1 < b.1

theorem mem_insertEntry {e x : Entry} {xs : List Entry} (h : x ∈ insertEntry e xs) :
    x = e ∨ x ∈ xs := by
  induction xs with
  | nil => simpa [insertEntry] using h
  | cons y ys ih =>
    unfold insertEntry at h
    split at h
    · simpa using h
    · split at h
      · rcases List.mem_cons.1 h with rfl | h
        · simp
        · rcases ih h with rfl | h <;> simp [*]
      · rcases List.mem_cons.1 h with rfl | h <;> simp [*]

theorem mem_insertEntry_of_mem {e x : Entry} {xs : List Entry} (h : x ∈ xs) (hne : x.1 ≠ e.1) :
    x ∈ insertEntry e xs := by
  induction xs with
  | nil => cases h
  | cons y ys ih =>
    unfold insertEntry
    split
    · simp [h]
    · split
      · rcases List.mem_cons.1 h with rfl | h
        · simp
        · simp [ih h]
      · next h₁ h₂ =>
        rcases List.mem_cons.1 h with rfl | h
        · exact absurd (List.le_antisymm h₁ h₂) hne
        · simp [h]

theorem increasing_insertEntry {e : Entry} {xs : List Entry} (h : Increasing xs) :
    Increasing (insertEntry e xs) := by
  induction xs with
  | nil => simp [insertEntry, Increasing]
  | cons x xs ih =>
    obtain ⟨hx, hxs⟩ := List.pairwise_cons.1 h
    unfold insertEntry
    split
    · next hlt =>
      refine List.pairwise_cons.2 ⟨fun y hy => ?_, h⟩
      rcases List.mem_cons.1 hy with rfl | hy
      · exact hlt
      · exact List.lt_trans hlt (hx y hy)
    · split
      · next hlt =>
        refine List.pairwise_cons.2 ⟨fun y hy => ?_, ih hxs⟩
        rcases mem_insertEntry hy with rfl | hy
        · exact hlt
        · exact hx y hy
      · next h₁ h₂ =>
        have heq : e.1 = x.1 := List.le_antisymm h₂ h₁
        refine List.pairwise_cons.2 ⟨fun y hy => ?_, hxs⟩
        rw [heq]
        exact hx y hy

structure FileTree where
  entries : List Entry
  increasing : Increasing entries
  housed : ∀ e ∈ entries, e.1.dropLast = [] ∨ (e.1.dropLast, Node.folder) ∈ entries

namespace FileTree

def empty : FileTree := ⟨[], .nil, by simp⟩

/-- What stands at a location. The root is a folder. -/
def lookup (t : FileTree) (location : Location) : Option Node :=
  if location = [] then some .folder
  else (t.entries.find? (·.1 = location)).map Prod.snd

def isFolder (t : FileTree) (location : Location) : Bool :=
  location = [] || t.entries.any fun e => e.1 = location && e.2.isFolder

theorem folder_mem {t : FileTree} {location : Location} (h : t.isFolder location = true) :
    location = [] ∨ (location, Node.folder) ∈ t.entries := by
  rcases Bool.or_eq_true _ _ ▸ h with hroot | hany
  · exact .inl (by simpa using hroot)
  · obtain ⟨⟨l, node⟩, hmem, he⟩ := List.any_eq_true.1 hany
    obtain ⟨rfl, hf⟩ : l = location ∧ node.isFolder = true := by simpa using he
    cases node with
    | folder => exact .inr hmem
    | file => cases hf
    | link => cases hf

def erase (t : FileTree) (location : Location) : FileTree where
  entries := t.entries.filter fun e => !location.isPrefixOf e.1
  increasing := t.increasing.filter _
  housed e he := by
    obtain ⟨hmem, hnot⟩ := List.mem_filter.1 he
    rcases t.housed e hmem with h | h
    · exact .inl h
    · refine .inr (List.mem_filter.2 ⟨h, ?_⟩)
      rw [Bool.not_eq_true', ← Bool.not_eq_true, List.isPrefixOf_iff_prefix] at hnot ⊢
      exact fun hp => hnot (hp.trans (List.dropLast_prefix e.1))

theorem not_prefix_dropLast {location : Location} (h : location ≠ []) :
    ¬ location <+: location.dropLast := by
  intro hp
  have := hp.length_le
  have := List.length_pos_iff.2 h
  simp only [List.length_dropLast] at *
  omega

/-- The tree with this entry in place of what stood at its location. Without a folder to hold it,
nothing changes. -/
def put (t : FileTree) (location : Location) (node : Node) : FileTree :=
  if h : location ≠ [] ∧ t.isFolder location.dropLast = true then
    { entries := insertEntry (location, node) (t.erase location).entries
      increasing := increasing_insertEntry (t.erase location).increasing
      housed := by
        have keep : ∀ x ∈ (t.erase location).entries, x.1 ≠ location := by
          intro x hx heq
          have hnot := (List.mem_filter.1 hx).2
          rw [heq, Bool.not_eq_true', ← Bool.not_eq_true, List.isPrefixOf_iff_prefix] at hnot
          exact hnot (List.prefix_refl _)
        intro e he
        rcases mem_insertEntry he with rfl | he
        · rcases folder_mem h.2 with hroot | hmem
          · exact .inl hroot
          · refine .inr (mem_insertEntry_of_mem (List.mem_filter.2 ⟨hmem, ?_⟩) ?_)
            · rw [Bool.not_eq_true', ← Bool.not_eq_true, List.isPrefixOf_iff_prefix]
              exact not_prefix_dropLast h.1
            · intro heq
              exact not_prefix_dropLast h.1 ⟨[], by rw [List.append_nil]; exact heq.symm⟩
        · rcases (t.erase location).housed e he with hroot | hmem
          · exact .inl hroot
          · exact .inr (mem_insertEntry_of_mem hmem (keep _ hmem)) }
  else t

/-- The tree in which the folders on the way to a location, and one there, exist. What stands in
their way stays. -/
def addFolder (t : FileTree) (location : Location) : FileTree :=
  (List.range location.length).foldl
    (fun t n =>
      let outer := location.take (n + 1)
      if (t.lookup outer).isNone then t.put outer .folder else t) t

def add (t : FileTree) (location : Location) (node : Node) : FileTree :=
  (t.addFolder location.dropLast).put location node

/-- What is below a location, with the names on the way from there. -/
def below (t : FileTree) (location : Location) : List Entry :=
  t.entries.filterMap fun e =>
    if location.isPrefixOf e.1 && e.1 ≠ location then some (e.1.drop location.length, e.2)
    else none

end FileTree

end Registrar.Files
