import Registrar.Proofs.Files.Entries

/-! # Walking a tree depth first

A walk visits what a folder holds in the order of the names, and each folder among it is walked
before the next name is visited. Links are visited but not followed. The entries below a location
stand in the order in which such a walk comes to them.
-/

namespace Registrar.Files.FileTree

variable {t : FileTree} {location names : Location} {name : String} {node : Node}

/-- What a folder holds, by name, as the entries of the tree happen to list it. -/
def children (t : FileTree) (location : Location) : List (String × Node) :=
  t.entries.filterMap fun e =>
    if e.1.dropLast = location then e.1.getLast?.map fun name => (name, e.2) else none

def sortedChildren (t : FileTree) (location : Location) : List (String × Node) :=
  (t.children location).mergeSort fun c c' => c.1 ≤ c'.1

theorem mem_children_iff : (name, node) ∈ t.children location ↔
    (location ++ [name], node) ∈ t.entries := by
  simp only [children, List.mem_filterMap, Option.ite_none_right_eq_some, Option.map_eq_some_iff,
    Prod.mk.injEq]
  constructor
  · rintro ⟨⟨there, _⟩, hmem, rfl, _, hlast, rfl, rfl⟩
    rwa [List.dropLast_append_getLast? _ hlast]
  · intro hmem
    exact ⟨_, hmem, by simp, name, by simp, rfl, rfl⟩

theorem mem_sortedChildren_iff : (name, node) ∈ t.sortedChildren location ↔
    (location ++ [name], node) ∈ t.entries :=
  List.mem_mergeSort.trans mem_children_iff

/-- What is inside of a location. A walk goes on where there is less of it. -/
def inner (t : FileTree) (location : Location) : List Entry :=
  t.entries.filter fun e => location.isPrefixOf e.1 && e.1 ≠ location

theorem length_inner_lt (h : (name, node) ∈ t.sortedChildren location) :
    (t.inner (location ++ [name])).length < (t.inner location).length := by
  have hsub : (t.inner (location ++ [name])).Sublist (t.inner location) := by
    refine List.monotone_filter_right _ fun e he => ?_
    simp only [Bool.and_eq_true, List.isPrefixOf_iff_prefix, decide_eq_true_eq, ne_eq] at he ⊢
    refine ⟨(List.prefix_append _ _).trans he.1, ?_⟩
    intro heq
    have hlength := he.1.length_le
    simp only [heq, List.length_append, List.length_singleton] at hlength
    omega
  refine Nat.lt_of_le_of_ne hsub.length_le fun hlength => ?_
  have hmem : (location ++ [name], node) ∈ t.inner location :=
    List.mem_filter.2 ⟨mem_sortedChildren_iff.1 h, by simp⟩
  rw [← hsub.eq_of_length hlength] at hmem
  simp [inner] at hmem

def walk (t : FileTree) (location : Location) : List Entry :=
  (t.sortedChildren location).attach.flatMap fun ⟨(name, node), _⟩ =>
    ([name], node) ::
      if node.isFolder then (t.walk (location ++ [name])).map fun e => (name :: e.1, e.2) else []
termination_by (t.inner location).length
decreasing_by exact length_inner_lt ‹_›

def visit (t : FileTree) (location : Location) (c : String × Node) : List Entry :=
  ([c.1], c.2) ::
    if c.2.isFolder then (t.walk (location ++ [c.1])).map fun e => (c.1 :: e.1, e.2) else []

theorem walk_eq (t : FileTree) (location : Location) :
    t.walk location = (t.sortedChildren location).flatMap (t.visit location) := by
  conv_rhs => rw [← List.attach_map_subtype_val (t.sortedChildren location), List.flatMap_map]
  rw [walk]
  rfl

theorem mem_visit_iff {c : String × Node} {e : Entry} : e ∈ t.visit location c ↔
    e = ([c.1], c.2) ∨
      c.2 = .folder ∧ ∃ e' ∈ t.walk (location ++ [c.1]), (c.1 :: e'.1, e'.2) = e := by
  obtain ⟨name, node⟩ := c
  rw [visit, List.mem_cons]
  cases node <;> simp [Node.isFolder]

/-! ## Entries -/

theorem nil_notMem_walk : ([], node) ∉ t.walk location := by
  rw [walk_eq]
  simp [mem_visit_iff]

theorem cons_mem_walk_iff : (name :: names, node) ∈ t.walk location ↔
    (names = [] ∧ (location ++ [name], node) ∈ t.entries) ∨
      ((location ++ [name], .folder) ∈ t.entries ∧
        (names, node) ∈ t.walk (location ++ [name])) := by
  simp only [walk_eq t location, List.mem_flatMap, Prod.exists, mem_sortedChildren_iff,
    mem_visit_iff, Prod.mk.injEq, List.cons.injEq]
  constructor
  · rintro ⟨_, _, hmem, ⟨⟨rfl, rfl⟩, rfl⟩ | ⟨rfl, _, _, hinner, ⟨rfl, rfl⟩, rfl⟩⟩
    · exact .inl ⟨rfl, hmem⟩
    · exact .inr ⟨hmem, hinner⟩
  · rintro (⟨rfl, hmem⟩ | ⟨hmem, hinner⟩)
    · exact ⟨name, node, hmem, .inl ⟨⟨rfl, rfl⟩, rfl⟩⟩
    · exact ⟨name, .folder, hmem, .inr ⟨rfl, _, _, hinner, ⟨rfl, rfl⟩, rfl⟩⟩

theorem folder_mem_of_mem (h : (location ++ name :: names, node) ∈ t.entries) (hne : names ≠ []) :
    (location ++ [name], .folder) ∈ t.entries := by
  obtain ⟨name', rest, rfl⟩ := List.exists_cons_of_ne_nil hne
  rw [List.append_cons] at h
  exact (lookup_eq_some_iff (by simp)).1
    (lookup_of_append_cons ((lookup_eq_some_iff (by simp)).2 h))

theorem mem_walk_iff : (names, node) ∈ t.walk location ↔
    names ≠ [] ∧ (location ++ names, node) ∈ t.entries := by
  induction names generalizing location with
  | nil => simp [nil_notMem_walk]
  | cons name names ih =>
    rw [cons_mem_walk_iff, ih, ← List.append_cons]
    constructor
    · rintro (⟨rfl, hmem⟩ | ⟨-, -, hmem⟩)
      · exact ⟨List.cons_ne_nil _ _, hmem⟩
      · exact ⟨List.cons_ne_nil _ _, hmem⟩
    · rintro ⟨-, hmem⟩
      by_cases hne : names = []
      · subst hne
        exact .inl ⟨rfl, hmem⟩
      · exact .inr ⟨folder_mem_of_mem hmem hne, hne, hmem⟩

/-! ## Order -/

theorem pairwise_children (t : FileTree) (location : Location) :
    (t.children location).Pairwise fun c c' => c.1 ≠ c'.1 := by
  refine t.increasing.filterMap _ fun e e' hlt c hc c' hc' heq => ?_
  simp only [Option.ite_none_right_eq_some, Option.map_eq_some_iff] at hc hc'
  obtain ⟨hhome, name, hname, rfl⟩ := hc
  obtain ⟨hhome', name', hname', rfl⟩ := hc'
  obtain rfl : name = name' := heq
  rw [← List.dropLast_append_getLast? _ hname, ← List.dropLast_append_getLast? _ hname', hhome,
    hhome'] at hlt
  exact List.lt_irrefl _ hlt

theorem increasing_sortedChildren (t : FileTree) (location : Location) :
    (t.sortedChildren location).Pairwise fun c c' => c.1 < c'.1 := by
  have hsorted : (t.sortedChildren location).Pairwise fun c c' => c.1 ≤ c'.1 := by
    refine (List.pairwise_mergeSort ?_ ?_ (t.children location)).imp of_decide_eq_true
    · simpa using fun a _ b _ c _ => String.le_trans
    · simpa using fun a _ b _ => String.le_total a b
  have hdistinct : (t.sortedChildren location).Pairwise fun c c' => c.1 ≠ c'.1 :=
    ((List.mergeSort_perm _ _).pairwise_iff Ne.symm).2 (t.pairwise_children location)
  exact (hsorted.and hdistinct).imp fun ⟨hle, hne⟩ =>
    String.not_le.1 fun hge => hne (String.le_antisymm hle hge)

theorem exists_of_mem_visit {c : String × Node} {e : Entry} (h : e ∈ t.visit location c) :
    ∃ rest, e.1 = c.1 :: rest := by
  rcases mem_visit_iff.1 h with rfl | ⟨-, e', -, rfl⟩
  · exact ⟨[], rfl⟩
  · exact ⟨e'.1, rfl⟩

theorem increasing_visit {c : String × Node} (h : Increasing (t.walk (location ++ [c.1]))) :
    Increasing (t.visit location c) := by
  rw [visit]
  cases c.2.isFolder with
  | false => exact List.pairwise_singleton _ _
  | true =>
    rw [if_pos rfl]
    refine List.pairwise_cons.2 ⟨fun e he => ?_, List.pairwise_map.2 (h.imp fun hlt => ?_)⟩
    · obtain ⟨⟨names, node⟩, hmem, rfl⟩ := List.mem_map.1 he
      obtain ⟨name, rest, rfl⟩ := List.exists_cons_of_ne_nil (mem_walk_iff.1 hmem).1
      exact List.cons_lt_cons_iff.2 (.inr ⟨rfl, List.nil_lt_cons _ _⟩)
    · exact List.cons_lt_cons_iff.2 (.inr ⟨rfl, hlt⟩)

theorem increasing_walk (t : FileTree) (location : Location) : Increasing (t.walk location) := by
  induction location using walk.induct t with
  | case1 location ih =>
    rw [walk_eq]
    refine List.pairwise_flatMap.2 ⟨fun c hc => increasing_visit (ih c.1 c.2 hc), ?_⟩
    refine (t.increasing_sortedChildren location).imp fun {c c'} hlt e he e' he' => ?_
    obtain ⟨rest, hrest⟩ := exists_of_mem_visit he
    obtain ⟨rest', hrest'⟩ := exists_of_mem_visit he'
    rw [hrest, hrest']
    exact List.cons_lt_cons_iff.2 (.inl hlt)

theorem nodup_of_increasing {entries : List Entry} (h : Increasing entries) : entries.Nodup := by
  refine List.Pairwise.imp ?_ h
  rintro e _ hlt rfl
  exact List.lt_irrefl _ hlt

/-- What is below a location is what a walk comes to, in this order. -/
theorem below_eq_walk (t : FileTree) (location : Location) :
    t.below location = t.walk location := by
  have hbelow := t.increasing_below location
  have hwalk := t.increasing_walk location
  have hasymm (e e' : Entry) (hlt : e.1 < e'.1) (hlt' : e'.1 < e.1) : e = e' :=
    absurd (List.lt_trans hlt hlt') (List.lt_irrefl _)
  refine List.Perm.eq_of_pairwise (fun e e' _ _ => hasymm e e') hbelow hwalk ?_
  rw [List.perm_ext_iff_of_nodup (nodup_of_increasing hbelow) (nodup_of_increasing hwalk)]
  exact fun e => mem_below_iff.trans mem_walk_iff.symm

end Registrar.Files.FileTree
