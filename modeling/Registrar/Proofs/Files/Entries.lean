import Mathlib.Data.List.Induction
import Mathlib.Data.List.Nodup
import Registrar.Proofs.Files.Walks
import Registrar.Scan

/-! # The entries of a tree and their paths

An entry is what a lookup of its location finds, and everything around it is a folder. On a disk
whose names are names the path of an entry leads to the entry, so that no two files of a scan are
one and the same.
-/

namespace Registrar.Files

variable {t : FileTree} {d : Disk} {root : FilePath} {names : List String} {links : Nat}
  {location outer : Location} {node : Node} {content : ByteArray}

namespace FileTree

def IsNamed (t : FileTree) : Prop := ∀ e ∈ t.entries, ∀ name ∈ e.1, IsName name

theorem eq_of_mem_entries {node' : Node} (h : (location, node) ∈ t.entries)
    (h' : (location, node') ∈ t.entries) : node = node' := by
  have hdistinct : (t.entries.map Prod.fst).Nodup := by
    refine List.pairwise_map.2 (t.increasing.imp fun {a b} hlt heq => ?_)
    rw [heq] at hlt
    exact List.lt_irrefl _ hlt
  exact (Prod.mk.inj (List.inj_on_of_nodup_map hdistinct h h' rfl)).2

theorem lookup_eq_some_iff (hne : location ≠ []) :
    t.lookup location = some node ↔ (location, node) ∈ t.entries := by
  rw [lookup, if_neg hne, Option.map_eq_some_iff]
  constructor
  · rintro ⟨⟨here, _⟩, hfind, rfl⟩
    obtain rfl : here = location := by simpa using List.find?_some hfind
    exact List.mem_of_find?_eq_some hfind
  · intro h
    cases hfind : t.entries.find? (·.1 = location) with
    | none => simpa using List.find?_eq_none.1 hfind _ h
    | some e =>
      obtain ⟨here, node'⟩ := e
      obtain rfl : here = location := by simpa using List.find?_some hfind
      exact ⟨_, rfl, eq_of_mem_entries (List.mem_of_find?_eq_some hfind) h⟩

theorem lookup_dropLast (h : t.lookup location = some node) :
    t.lookup location.dropLast = some .folder := by
  by_cases hne : location = []
  · rw [hne]
    rfl
  · rcases t.housed _ ((lookup_eq_some_iff hne).1 h) with hroot | hmem
    · rw [hroot]
      rfl
    · by_cases hroot : location.dropLast = []
      · rw [hroot]
        rfl
      · exact (lookup_eq_some_iff hroot).2 hmem

theorem lookup_of_append_cons {name : String} {rest : List String}
    (h : t.lookup (location ++ name :: rest) = some node) : t.lookup location = some .folder := by
  induction rest using List.reverseRecOn generalizing node with
  | nil => simpa using lookup_dropLast h
  | append_singleton rest last ih =>
    have hdrop : (location ++ name :: (rest ++ [last])).dropLast = location ++ name :: rest := by
      rw [← List.cons_append, ← List.append_assoc, List.dropLast_concat]
    exact ih (hdrop ▸ lookup_dropLast h)

theorem IsNamed.of_lookup (hnamed : t.IsNamed) {name : String}
    (h : t.lookup (location ++ [name]) = some node) : IsName name :=
  hnamed _ ((lookup_eq_some_iff (by simp)).1 h) name (by simp)

theorem mem_below_iff : (names, node) ∈ t.below location ↔
    names ≠ [] ∧ (location ++ names, node) ∈ t.entries := by
  simp only [below, List.mem_filterMap, Option.ite_none_right_eq_some, Option.some.injEq,
    Prod.mk.injEq, Bool.and_eq_true, List.isPrefixOf_iff_prefix, decide_eq_true_eq, ne_eq]
  constructor
  · rintro ⟨⟨_, node⟩, hmem, ⟨⟨rest, rfl⟩, hne⟩, hdrop, rfl⟩
    obtain rfl : rest = names := by simpa using hdrop
    exact ⟨fun hnil => hne (by simp [hnil]), hmem⟩
  · rintro ⟨hne, hmem⟩
    exact ⟨_, hmem, ⟨List.prefix_append _ _, by simpa using hne⟩, by simp, rfl⟩

theorem lt_of_append_lt {names' : List String} (h : location ++ names < location ++ names') :
    names < names' := by
  induction location with
  | nil => exact h
  | cons name location ih =>
    rcases List.cons_lt_cons_iff.1 h with hlt | ⟨-, hlt⟩
    · exact absurd hlt (String.lt_irrefl name)
    · exact ih hlt

theorem increasing_below (t : FileTree) (location : Location) :
    Increasing (t.below location) := by
  refine t.increasing.filterMap _ fun a a' hlt b hb b' hb' => ?_
  simp only [Option.ite_none_right_eq_some, Option.some.injEq, Bool.and_eq_true,
    List.isPrefixOf_iff_prefix] at hb hb'
  obtain ⟨⟨⟨rest, ha⟩, -⟩, rfl⟩ := hb
  obtain ⟨⟨⟨rest', ha'⟩, -⟩, rfl⟩ := hb'
  rw [← ha, ← ha'] at hlt
  simpa [← ha, ← ha'] using lt_of_append_lt hlt

theorem pairwise_below (t : FileTree) (location : Location) :
    (t.below location).Pairwise fun e e' => e.1 ≠ e'.1 := by
  refine (t.increasing_below location).imp fun {e e'} hlt heq => ?_
  rw [heq] at hlt
  exact List.lt_irrefl _ hlt

theorem follow_true_of_file {last : Bool} {here there : Location}
    (h : t.follow last links here names = .ok (there, .file content)) :
    t.follow true links here names = .ok (there, .file content) := by
  fun_induction FileTree.follow t last links here names with
  | case2 _ _ _ _ hstay ih => rw [follow, if_pos hstay, ih h]
  | case3 _ _ _ hstay ih => rw [follow, if_neg hstay, if_pos rfl, ih h]
  | case6 _ _ _ _ hstay hup hlong next hlookup ih =>
    rw [follow, if_neg hstay, if_neg hup, if_neg hlong]
    simpa only [next, hlookup] using ih h
  | case7 _ _ _ _ hstay hup hlong next _ hlookup hend =>
    rw [follow, if_neg hstay, if_neg hup, if_neg hlong]
    simpa only [next, hlookup, hend, if_true] using h
  | case11 _ _ _ hstay hup hlong next target hlookup hend links ih =>
    rw [follow, if_neg hstay, if_neg hup, if_neg hlong]
    simpa [next, hlookup] using ih h
  | case1 | case4 | case5 | case8 | case9 | case10 => simp at h

theorem exists_follow_false {last : Bool} {here : Location} {found : Location × Node}
    (h : t.follow last links here names = .ok found) :
    ∃ found', t.follow false links here names = .ok found' := by
  fun_induction FileTree.follow t last links here names with
  | case1 => exact ⟨_, by rw [follow]⟩
  | case2 _ _ _ _ hstay ih =>
    rw [follow, if_pos hstay]
    exact ih h
  | case3 _ _ _ hstay ih =>
    rw [follow, if_neg hstay, if_pos rfl]
    exact ih h
  | case6 _ _ _ _ hstay hup hlong next hlookup ih =>
    rw [follow, if_neg hstay, if_neg hup, if_neg hlong]
    simpa only [next, hlookup] using ih h
  | case7 _ _ _ _ hstay hup hlong next content hlookup hend =>
    rw [follow, if_neg hstay, if_neg hup, if_neg hlong]
    simp only [next, hlookup, hend, if_true]
    exact ⟨_, rfl⟩
  | case9 _ _ _ _ hstay hup hlong next target hlookup hend =>
    rw [follow, if_neg hstay, if_neg hup, if_neg hlong]
    have hend' := (Bool.and_eq_true_iff.1 hend).1
    simp only [next, hlookup, hend', Bool.not_false, Bool.and_self, if_true]
    exact ⟨_, rfl⟩
  | case11 _ _ names hstay hup hlong next target hlookup hend links ih =>
    rw [follow, if_neg hstay, if_neg hup, if_neg hlong]
    cases names.isEmpty with
    | true =>
      simp only [next, hlookup, Bool.not_false, Bool.and_self, if_true]
      exact ⟨_, rfl⟩
    | false => simpa [next, hlookup] using ih h
  | case4 | case5 | case8 | case10 => simp at h

end FileTree

namespace Disk

theorem find_true_of_file {last : Bool} {there : Location}
    (h : d.find last root = .ok (there, .file content)) :
    d.find true root = .ok (there, .file content) := by
  obtain ⟨hzero, hne, hsize, hfollow⟩ := of_find_eq_ok h
  rw [find_eq hzero hne hsize]
  exact FileTree.follow_true_of_file hfollow

theorem exists_find_false {found : Location × Node} (h : d.find true root = .ok found) :
    ∃ found', d.find false root = .ok found' := by
  obtain ⟨hzero, hne, hsize, hfollow⟩ := of_find_eq_ok h
  rw [find_eq hzero hne hsize]
  exact FileTree.exists_follow_false hfollow

theorem Enters.entryPath (h : d.Enters root links location) (hnamed : d.tree.IsNamed)
    (hlookup : d.tree.lookup (location ++ names) = some .folder) :
    d.Enters (Scan.entryPath root names) links (location ++ names) := by
  induction names using List.reverseRecOn with
  | nil => simpa [Scan.entryPath] using h
  | append_singleton names name ih =>
    rw [← List.append_assoc] at hlookup ⊢
    have houter := ih (FileTree.lookup_of_append_cons hlookup)
    have hname : IsName name := hnamed.of_lookup hlookup
    rw [Scan.entryPath, List.foldl_append]
    exact houter.join hname hlookup

/-- The path of a file below a folder leads to that file, unless it is too long. -/
theorem Enters.resolve_entryPath (h : d.Enters root links location) (hnamed : d.tree.IsNamed)
    (hmem : (names, .file content) ∈ d.tree.below location) {there : Location}
    (hresolve : d.resolve (Scan.entryPath root names) = .ok there) : there = location ++ names := by
  obtain ⟨hne, hentry⟩ := FileTree.mem_below_iff.1 hmem
  rcases List.eq_nil_or_concat names with hnil | ⟨names, name, hlast⟩
  · exact absurd hnil hne
  · rw [List.concat_eq_append] at hlast
    subst hlast
    have hlookup : d.tree.lookup (location ++ names ++ [name]) = some (.file content) := by
      rw [FileTree.lookup_eq_some_iff (by simp), List.append_assoc]
      exact hentry
    have houter := h.entryPath hnamed (FileTree.lookup_of_append_cons hlookup)
    have hname : IsName name := hnamed.of_lookup hlookup
    have hjoin : Scan.entryPath root (names ++ [name]) = (Scan.entryPath root names).join name := by
      simp [Scan.entryPath]
    rw [hjoin, resolve] at hresolve
    cases hfind : d.find true ((Scan.entryPath root names).join name) with
    | error fault =>
      rw [hfind] at hresolve
      cases hresolve
    | ok found =>
      obtain ⟨-, -, hsize, -⟩ := of_find_eq_ok hfind
      rw [houter.find_join hname hsize, FileTree.follow_name hname, hlookup] at hresolve
      rw [← List.append_assoc]
      exact (Except.ok.inj hresolve).symm

end Disk

end Registrar.Files

namespace Registrar.Scan

open Registrar.Files

variable {d : Disk}

theorem selects_eq_true {extensions : List String} {ignored : List Glob} {e : FilePath × Node}
    (h : selects extensions ignored e = true) : ∃ content, e.2 = .file content := by
  obtain ⟨path, node⟩ := e
  cases node with
  | file content => exact ⟨content, rfl⟩
  | folder | link _ => simp [selects] at h

theorem entries_eq_ok {root : FilePath} {found : List (FilePath × Node)}
    (h : entries d root = .ok found) : ∃ location node, d.find false root = .ok (location, node) ∧
      found = (root, node) :: (d.below root).map fun e => (entryPath root e.1, e.2) := by
  unfold entries at h
  split at h
  · cases h
  · next location node hfind =>
    refine ⟨location, node, hfind, ?_⟩
    cases node with
    | folder | file _ => exact (Except.ok.inj h).symm
    | link _ =>
      cases hnode : d.node root with
      | error _ =>
        rw [hnode] at h
        cases h
      | ok _ =>
        rw [hnode] at h
        exact (Except.ok.inj h).symm

theorem entries_of_folderAt? {root : FilePath} {location : Location}
    (h : d.folderAt? root = some location) : ∃ node, (∀ content, node ≠ .file content) ∧
      entries d root =
        .ok ((root, node) :: (d.tree.below location).map fun e => (entryPath root e.1, e.2)) := by
  have hbelow : d.below root = d.tree.below location := by rw [Disk.below, h]
  rw [Disk.folderAt?_eq_some_iff] at h
  obtain ⟨⟨there, node⟩, hfind⟩ := Disk.exists_find_false h
  refine ⟨node, ?_, ?_⟩
  · rintro content rfl
    rw [Disk.find_true_of_file hfind] at h
    cases h
  · rw [entries, hfind, hbelow]
    cases node with
    | folder | file _ => rfl
    | link _ => simp [Disk.node, h, Except.map]

theorem files_eq {root : FilePath} {location : Location} (h : d.folderAt? root = some location)
    (extensions ignores : List String) : (run d root extensions ignores).files =
      (((d.tree.below location).map fun e => (entryPath root e.1, e.2)).filter
        (selects extensions (patterns ignores))).map Prod.fst := by
  obtain ⟨node, hnode, hentries⟩ := entries_of_folderAt? h
  have hroot : ¬ selects extensions (patterns ignores) (root, node) = true := by
    intro hselects
    obtain ⟨content, hcontent⟩ := selects_eq_true hselects
    exact hnode content hcontent
  rw [run, hentries]
  exact congrArg (List.map Prod.fst) (List.filter_cons_of_neg hroot)

/-- No two files of a scan are the same file. -/
theorem files_pairwise (hnamed : d.tree.IsNamed) (root : FilePath)
    (extensions ignores : List String) :
    (run d root extensions ignores).files.Pairwise fun p q =>
      ∀ location, d.resolve p = .ok location → d.resolve q ≠ .ok location := by
  cases hfolder : d.folderAt? root with
  | none =>
    unfold run
    cases hentries : entries d root with
    | error _ => exact .nil
    | ok found =>
      obtain ⟨here, node, hfind, rfl⟩ := entries_eq_ok hentries
      -- only the path itself is left to be selected
      have hbelow : d.below root = [] := by rw [Disk.below, hfolder]
      rw [hbelow]
      dsimp only
      rw [List.map_nil, List.filter_singleton]
      cases selects extensions (patterns ignores) (root, node) <;> simp
  | some location =>
    obtain ⟨links, henters⟩ := Disk.enters_of_folderAt? hfolder
    rw [files_eq hfolder, List.filter_map, List.map_map, List.pairwise_map]
    refine ((d.tree.pairwise_below location).filter _).imp_of_mem ?_
    rintro ⟨names, node⟩ ⟨names', node'⟩ hmem hmem' hne there hp hq
    obtain ⟨hbelow, hselects⟩ := List.mem_filter.1 hmem
    obtain ⟨hbelow', hselects'⟩ := List.mem_filter.1 hmem'
    obtain ⟨content, rfl⟩ := selects_eq_true hselects
    obtain ⟨content', rfl⟩ := selects_eq_true hselects'
    have hthere := henters.resolve_entryPath hnamed hbelow hp
    have hthere' := henters.resolve_entryPath hnamed hbelow' hq
    exact hne (List.append_cancel_left (hthere.symm.trans hthere'))

end Registrar.Scan
