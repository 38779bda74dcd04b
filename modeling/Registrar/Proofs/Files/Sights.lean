import Registrar.Proofs.Files.Outer

/-! # What a path looks up

A path looks up one location after the other. Trees that agree on these locations are followed
alike, whatever else is different in them. Without links and without a way outwards the locations
are those that the names of the path name.
-/

namespace Registrar.Files

variable {t t' : FileTree} {d : Disk} {p : FilePath} {name : String} {names rest : List String}
  {links : Nat} {here seen : Location} {node : Node}

namespace FileTree

/-- The locations that are looked up when names are followed from a folder through all links. -/
def sights (t : FileTree) (links : Nat) (here : Location) : List String → List Location
  | [] => []
  | name :: names =>
    if staysHere name then t.sights links here names
    else if name = ".." then t.sights links here.dropLast names
    else if name.utf8ByteSize > maxNameSize then []
    else
      let next := here ++ [name]
      match t.lookup next with
      | some .folder => next :: t.sights links next names
      | some (.link target) =>
        match links with
        | 0 => [next]
        | links + 1 =>
          next :: t.sights links (if (FilePath.mk target).isAbsolute then [] else here)
            (pathNames target ++ names)
      | _ => [next]
termination_by names => (links, names.length)

theorem follow_cons (hleads : ¬ staysHere name = true) (hup : name ≠ "..")
    (hsize : ¬ name.utf8ByteSize > maxNameSize) : t.follow true links here (name :: names) =
      match t.lookup (here ++ [name]) with
      | none => .error .notFound
      | some .folder => t.follow true links (here ++ [name]) names
      | some (.file content) =>
        if names.isEmpty then .ok (here ++ [name], .file content) else .error .notFolder
      | some (.link target) =>
        match links with
        | 0 => .error .tooManyLinks
        | links + 1 =>
          t.follow true links (if (FilePath.mk target).isAbsolute then [] else here)
            (pathNames target ++ names) := by
  rw [follow, if_neg hleads, if_neg hup, if_neg hsize]
  cases hlookup : t.lookup (here ++ [name]) with
  | none => simp [hlookup]
  | some node => cases node <;> cases links <;> simp [hlookup]

/-- Names lead to the same end in a tree that looks the same on the way. -/
theorem follow_congr (h : ∀ seen ∈ t.sights links here names, t'.lookup seen = t.lookup seen) :
    t'.follow true links here names = t.follow true links here names := by
  fun_induction FileTree.sights t links here names with
  | case1 => rw [follow, follow]
  | case2 _ _ _ _ hstay ih => rw [follow, follow, if_pos hstay, if_pos hstay, ih h]
  | case3 _ _ _ hstay ih =>
    rw [follow, follow, if_neg hstay, if_neg hstay, if_pos rfl, if_pos rfl, ih h]
  | case4 _ _ _ _ hstay hup hlong =>
    rw [follow, follow, if_neg hstay, if_neg hstay, if_neg hup, if_neg hup, if_pos hlong,
      if_pos hlong]
  | case5 _ _ _ _ hstay hup hlong next hlookup ih =>
    obtain ⟨hnext, hrest⟩ := List.forall_mem_cons.1 h
    rw [follow_cons hstay hup hlong, follow_cons hstay hup hlong, hnext, ← ih hrest, hlookup]
  | case6 _ _ _ hstay hup hlong next _ hlookup =>
    obtain ⟨hnext, -⟩ := List.forall_mem_cons.1 h
    rw [follow_cons hstay hup hlong, follow_cons hstay hup hlong, hnext, hlookup]
  | case7 _ _ _ hstay hup hlong next _ hlookup _ ih =>
    obtain ⟨hnext, hrest⟩ := List.forall_mem_cons.1 h
    rw [follow_cons hstay hup hlong, follow_cons hstay hup hlong, hnext, hlookup]
    exact ih hrest
  | case8 _ _ _ _ hstay hup hlong next hfolder hlink =>
    have hnext := h next (List.mem_singleton_self next)
    rw [follow_cons hstay hup hlong, follow_cons hstay hup hlong, hnext]
    cases hlookup : t.lookup next with
    | none => rfl
    | some node =>
      cases node with
      | folder => exact absurd hlookup hfolder
      | file content => rfl
      | link target => exact absurd hlookup (hlink target)

theorem sights_of_isLinkFree (hplain : t.IsLinkFree) (hup : ".." ∉ names)
    (h : seen ∈ t.sights links here names) : ∃ front rest, front ≠ [] ∧ seen = here ++ front ∧
      names.filter (fun name => !staysHere name) = front ++ rest := by
  fun_induction FileTree.sights t links here names with
  | case1 => cases h
  | case2 _ _ _ _ hstay ih =>
    rw [List.filter_cons_of_neg (by simp [hstay])]
    exact ih (fun hmem => hup (List.mem_cons_of_mem _ hmem)) h
  | case3 => exact absurd List.mem_cons_self hup
  | case4 => cases h
  | case5 _ _ name names hstay _ _ next hlookup ih =>
    rw [List.filter_cons_of_pos (by simp [hstay])]
    rcases List.mem_cons.1 h with rfl | h
    · exact ⟨[name], _, by simp, rfl, rfl⟩
    · obtain ⟨front, rest, -, hseen, hfilter⟩ :=
        ih (fun hmem => hup (List.mem_cons_of_mem _ hmem)) h
      exact ⟨name :: front, rest, by simp, by simp [hseen, next], by rw [hfilter]; rfl⟩
  | case6 _ _ _ _ _ _ _ _ hlookup => exact absurd hlookup (hplain.lookup_ne _)
  | case7 _ _ _ _ _ _ _ _ hlookup => exact absurd hlookup (hplain.lookup_ne _)
  | case8 _ _ name _ hstay _ _ next =>
    rw [List.filter_cons_of_pos (by simp [hstay])]
    exact ⟨[name], _, by simp, by simpa [next] using h, rfl⟩

theorem Walks.of_follow_append {found : Location × Node} (hrest : rest ≠ [])
    (h : t.follow true links here (names ++ rest) = .ok found) : ∃ links' there,
      t.Walks links here names links' there ∧ t.follow true links' there rest = .ok found := by
  generalize hall : names ++ rest = all at h
  fun_induction FileTree.follow t true links here all generalizing names with
  | case1 => exact absurd (List.append_eq_nil_iff.1 hall).2 hrest
  | case2 _ _ _ _ hstay ih =>
    rcases List.append_eq_cons_iff.1 hall with ⟨rfl, rfl⟩ | ⟨names, rfl, rfl⟩
    · exact ⟨_, _, .nil, by rwa [follow, if_pos hstay]⟩
    · obtain ⟨links', there, hwalks, hfound⟩ := ih rfl h
      exact ⟨links', there, .stay hstay hwalks, hfound⟩
  | case3 _ _ _ hstay ih =>
    rcases List.append_eq_cons_iff.1 hall with ⟨rfl, rfl⟩ | ⟨names, rfl, rfl⟩
    · exact ⟨_, _, .nil, by rwa [follow, if_neg hstay, if_pos rfl]⟩
    · obtain ⟨links', there, hwalks, hfound⟩ := ih rfl h
      exact ⟨links', there, .up hwalks, hfound⟩
  | case6 =>
    rename_i hstay hup hlong next hlookup ih
    rcases List.append_eq_cons_iff.1 hall with ⟨rfl, rfl⟩ | ⟨names, rfl, rfl⟩
    · exact ⟨_, _, .nil, by rwa [follow_cons hstay hup hlong, hlookup]⟩
    · obtain ⟨links', there, hwalks, hfound⟩ := ih rfl h
      exact ⟨links', there, .enter (by simpa using hstay) hup (by omega) hlookup hwalks, hfound⟩
  | case7 =>
    rename_i hstay hup hlong next _ hlookup hend
    rcases List.append_eq_cons_iff.1 hall with ⟨rfl, rfl⟩ | ⟨names, rfl, rfl⟩
    · refine ⟨_, _, .nil, ?_⟩
      rw [follow_cons hstay hup hlong, hlookup]
      exact (if_pos hend).trans h
    · exact absurd (List.append_eq_nil_iff.1 (List.isEmpty_iff.1 hend)).2 hrest
  | case11 =>
    rename_i hstay hup hlong next target hlookup hend links ih
    rcases List.append_eq_cons_iff.1 hall with ⟨rfl, rfl⟩ | ⟨names, rfl, rfl⟩
    · exact ⟨_, _, .nil, by rwa [follow_cons hstay hup hlong, hlookup]⟩
    · obtain ⟨links', there, hwalks, hfound⟩ := ih (List.append_assoc _ _ _) h
      exact ⟨links', there, .jump (by simpa using hstay) hup (by omega) hlookup hwalks, hfound⟩
  | case9 =>
    rename_i hend
    simp at hend
  | case4 | case5 | case8 | case10 => simp at h

end FileTree

namespace Disk

def sights (d : Disk) (p : FilePath) : List Location :=
  d.tree.sights maxLinks (d.start p) (pathNames p.text)

theorem find_congr (h : ∀ seen ∈ d.sights p, t'.lookup seen = d.tree.lookup seen) :
    Disk.find ⟨t', d.here⟩ true p = d.find true p := by
  unfold find
  split
  · rfl
  · split
    · rfl
    · split
      · rfl
      · exact FileTree.follow_congr h

theorem has_congr (h : ∀ seen ∈ d.sights p, t'.lookup seen = d.tree.lookup seen) :
    Disk.has ⟨t', d.here⟩ p = d.has p := by
  rw [has, node, find_congr h, has, node]

/-- The folder that a path names has an entry of that name. A link there leads somewhere, and the
path of the entry is not too long. -/
structure Contains (d : Disk) (folder : FilePath) (name : String) : Prop where
  entry : ∃ links here node, d.Enters folder links here ∧
    d.tree.lookup (here ++ [name]) = some node ∧
    ∀ target, node = .link target → d.has (folder.join name) = true
  size : (folder.join name).text.utf8ByteSize ≤ maxPathSize

theorem contains_iff_has (hname : IsName name) :
    d.Contains p name ↔ d.has (p.join name) = true := by
  constructor
  · rintro ⟨⟨links, here, node, henters, hlookup, hlink⟩, hsize⟩
    cases node with
    | link target => exact hlink target rfl
    | folder | file _ =>
      rw [has, Disk.node, henters.find_join hname hsize, FileTree.follow_name hname, hlookup]
      rfl
  · intro hhas
    cases hfind : d.find true (p.join name) with
    | error _ => simp [has, Disk.node, hfind, Except.map, Except.isOk, Except.toBool] at hhas
    | ok found =>
      obtain ⟨hzero, -, hsize, hfollow⟩ := of_find_eq_ok hfind
      obtain ⟨front, hjoin, hbase⟩ := FilePath.pathNames_join hname.slashless p
      rw [hjoin] at hfollow
      obtain ⟨links, here, hwalks, hfound⟩ :=
        FileTree.Walks.of_follow_append (List.cons_ne_nil _ _) hfollow
      have hstart : d.start (p.join name) = d.start p := by
        rw [start, FilePath.isAbsolute_join hname.slashless, start]
      have henters : d.Enters p links here := by
        refine ⟨fun hp => hzero ?_, ?_⟩
        · rw [FilePath.text_join hname.slashless]
          split <;> simp [hp]
        · rw [← hstart]
          rcases hbase with hbase | hbase <;> rw [hbase]
          · exact hwalks
          · exact hwalks.append (.stay rfl .nil)
      rw [FileTree.follow_name hname] at hfound
      cases hlookup : d.tree.lookup (here ++ [name]) with
      | none =>
        rw [hlookup] at hfound
        cases hfound
      | some node => exact ⟨⟨links, here, node, henters, hlookup, fun _ _ => hhas⟩, hsize⟩

end Disk

end Registrar.Files
