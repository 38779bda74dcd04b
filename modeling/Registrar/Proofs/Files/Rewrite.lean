import Registrar.Scan

/-! # Another content in a file

On a disk where one file has another content, paths lead where they led before and a scan finds what
it found before. Only a path that leads to that file is read differently.
-/

namespace Registrar.Files

variable {t : FileTree} {d : Disk} {p : FilePath} {location here : Location} {content : ByteArray}

def rewriteEntry (location : Location) (content : ByteArray) : Entry → Entry
  | (here, .file old) => (here, .file (if here = location then content else old))
  | (here, node) => (here, node)

@[simp] theorem rewriteEntry_folder :
    rewriteEntry location content (here, .folder) = (here, .folder) := rfl

@[simp] theorem rewriteEntry_link {target : String} :
    rewriteEntry location content (here, .link target) = (here, .link target) := rfl

@[simp] theorem fst_rewriteEntry (e : Entry) : (rewriteEntry location content e).1 = e.1 := by
  unfold rewriteEntry
  split <;> rfl

/-- What stands somewhere, the content of a file left out. -/
def Node.shape : Node → Node
  | .file _ => .file .empty
  | node => node

@[simp] theorem Node.shape_file : (Node.file content).shape = .file .empty := rfl

@[simp] theorem shape_rewriteEntry (e : Entry) :
    (rewriteEntry location content e).2.shape = e.2.shape := by
  unfold rewriteEntry
  split <;> rfl

namespace FileTree

def rewrite (t : FileTree) (location : Location) (content : ByteArray) : FileTree where
  entries := t.entries.map (rewriteEntry location content)
  increasing := List.pairwise_map.2 (by simpa using t.increasing)
  housed e he := by
    obtain ⟨e, hmem, rfl⟩ := List.mem_map.1 he
    rw [fst_rewriteEntry]
    rcases t.housed e hmem with h | h
    · exact .inl h
    · exact .inr (List.mem_map.2 ⟨_, h, rewriteEntry_folder⟩)

theorem lookup_rewrite (t : FileTree) (here : Location) :
    (t.rewrite location content).lookup here =
      (t.lookup here).map fun node => (rewriteEntry location content (here, node)).2 := by
  unfold lookup
  split
  · simp
  · simp only [rewrite, List.find?_map, Option.map_map, Function.comp_def, fst_rewriteEntry]
    cases hfind : t.entries.find? fun e => decide (e.1 = here) with
    | none => rfl
    | some e =>
      obtain rfl : e.1 = here := by simpa using List.find?_some hfind
      rfl

theorem follow_rewrite (t : FileTree) (last : Bool) (links : Nat) (here : Location)
    (names : List String) : (t.rewrite location content).follow last links here names =
      (t.follow last links here names).map (rewriteEntry location content) := by
  fun_induction follow t last links here names with
  | case1 => simp [follow, Except.map]
  | case2 _ _ _ _ hstay ih => rw [follow, if_pos hstay, ih]
  | case3 _ _ _ hstay ih => rw [follow, if_neg hstay, if_pos rfl, ih]
  | case4 _ _ _ _ hstay hup hlong =>
    rw [follow, if_neg hstay, if_neg hup, if_pos hlong]
    rfl
  | case5 _ _ _ _ hstay hup hlong next hlookup =>
    rw [follow, if_neg hstay, if_neg hup, if_neg hlong]
    simp [lookup_rewrite, next, hlookup, Except.map]
  | case6 _ _ _ _ hstay hup hlong next hlookup ih =>
    rw [follow, if_neg hstay, if_neg hup, if_neg hlong, ← ih]
    simp [lookup_rewrite, next, hlookup]
  | case7 | case8 | case9 | case10 =>
    rename_i hstay hup hlong next _ hlookup hend
    rw [follow, if_neg hstay, if_neg hup, if_neg hlong]
    simp [lookup_rewrite, rewriteEntry, next, hlookup, hend, Except.map]
  | case11 _ _ _ hstay hup hlong next target hlookup hend links ih =>
    rw [dite_eq_ite] at ih
    rw [follow, if_neg hstay, if_neg hup, if_neg hlong, ← ih]
    simp only [lookup_rewrite, next, hlookup, Option.map_some, rewriteEntry_link, if_neg hend]

theorem below_rewrite (t : FileTree) (here : Location) :
    ((t.rewrite location content).below here).map (Prod.map id Node.shape) =
      (t.below here).map (Prod.map id Node.shape) := by
  simp only [below, rewrite, List.map_filterMap, List.filterMap_map]
  refine congrArg (List.filterMap · t.entries) (funext fun e => ?_)
  simp only [Function.comp_apply, fst_rewriteEntry]
  split <;> simp

end FileTree

namespace Disk

def rewrite (d : Disk) (location : Location) (content : ByteArray) : Disk :=
  ⟨d.tree.rewrite location content, d.here⟩

theorem find_rewrite (last : Bool) (p : FilePath) : (d.rewrite location content).find last p =
    (d.find last p).map (rewriteEntry location content) := by
  simp only [find]
  split
  · rfl
  · split
    · rfl
    · split
      · rfl
      · exact FileTree.follow_rewrite ..

@[simp] theorem resolve_rewrite (p : FilePath) :
    (d.rewrite location content).resolve p = d.resolve p := by
  simp only [resolve, find_rewrite]
  cases d.find true p <;> simp [Except.map]

@[simp] theorem canonical_rewrite (p : FilePath) :
    (d.rewrite location content).canonical p = d.canonical p := by
  simp [canonical]

@[simp] theorem has_rewrite (p : FilePath) : (d.rewrite location content).has p = d.has p := by
  simp only [has, node, find_rewrite]
  cases d.find true p <;> rfl

@[simp] theorem isFolder_rewrite (p : FilePath) :
    (d.rewrite location content).isFolder p = d.isFolder p := by
  simp only [isFolder, node, find_rewrite]
  cases d.find true p with
  | error _ => rfl
  | ok e =>
    obtain ⟨_, _ | _ | _⟩ := e <;> rfl

@[simp] theorem isFile_rewrite (p : FilePath) :
    (d.rewrite location content).isFile p = d.isFile p := by
  simp only [isFile, node, find_rewrite]
  cases d.find true p with
  | error _ => rfl
  | ok e =>
    obtain ⟨_, _ | _ | _⟩ := e <;> rfl

@[simp] theorem folderAt?_rewrite (p : FilePath) :
    (d.rewrite location content).folderAt? p = d.folderAt? p := by
  simp only [folderAt?, find_rewrite]
  cases d.find true p with
  | error _ => rfl
  | ok e =>
    obtain ⟨_, _ | _ | _⟩ := e <;> rfl

theorem below_rewrite (d : Disk) (location : Location) (content : ByteArray) (p : FilePath) :
    ((d.rewrite location content).below p).map (Prod.map id Node.shape) =
      (d.below p).map (Prod.map id Node.shape) := by
  simp only [below, folderAt?_rewrite]
  cases d.folderAt? p with
  | none => rfl
  | some here => exact FileTree.below_rewrite d.tree here

theorem filterMap_below_rewrite {α : Type} {f : Entry → Option α}
    (hf : ∀ e, f (Prod.map id Node.shape e) = f e) (d : Disk) (location : Location)
    (content : ByteArray) (p : FilePath) :
    ((d.rewrite location content).below p).filterMap f = (d.below p).filterMap f := by
  have hshape (entries : List Entry) :
      (entries.map (Prod.map id Node.shape)).filterMap f = entries.filterMap f := by
    rw [List.filterMap_map]
    exact congrArg (List.filterMap · entries) (funext hf)
  rw [← hshape, below_rewrite, hshape]

theorem readText_of_node {text : String} (h : d.node p = .ok (.file text.toUTF8)) :
    d.readText p = .ok text := by
  have hfrom : String.fromUTF8? text.toUTF8 = some text := dif_pos text.isValidUTF8
  unfold readText
  rw [h]
  simp only [hfrom]

/-- Other files are read as before. -/
theorem readText_rewrite (h : d.resolve p ≠ .ok location) :
    (d.rewrite location content).readText p = d.readText p := by
  simp only [readText, node, find_rewrite]
  cases hfind : d.find true p with
  | error _ => rfl
  | ok e =>
    obtain ⟨here, _ | old | _⟩ := e
    · rfl
    · have hne : here ≠ location := by
        rintro rfl
        exact h (by rw [resolve, hfind]; rfl)
      simp [Except.map, rewriteEntry, hne]
    · rfl

theorem readText_rewrite_self (h : d.find true p = .ok (location, .file content)) (text : String) :
    (d.rewrite location text.toUTF8).readText p = .ok text :=
  readText_of_node (by simp only [node, find_rewrite, h, Except.map, rewriteEntry, if_true])

/-- A path leads to the rewritten file or it is read as before. -/
theorem readText_rewrite_cases (d : Disk) (location : Location) (p : FilePath) :
    (∀ content, (d.rewrite location content).readText p = d.readText p) ∨
      ∀ text : String, (d.rewrite location text.toUTF8).readText p = .ok text := by
  by_cases h : d.resolve p = .ok location
  · cases hfind : d.find true p with
    | error fault =>
      rw [resolve, hfind] at h
      cases h
    | ok e =>
      obtain ⟨here, node⟩ := e
      obtain rfl : here = location := by
        rw [resolve, hfind] at h
        exact Except.ok.inj h
      cases node with
      | folder | link _ =>
        refine .inl fun content => ?_
        simp [readText, node, find_rewrite, hfind, Except.map]
      | file old => exact .inr (readText_rewrite_self hfind)
  · exact .inl fun content => readText_rewrite h

def rewriteAll (d : Disk) (changes : List (Location × ByteArray)) : Disk :=
  changes.foldl (fun d c => d.rewrite c.1 c.2) d

/-- What no safe change affects stays the same through all changes. -/
theorem rewriteAll_eq {α : Type} (f : Disk → α) (safe : Disk → Location → Prop)
    (hsafe : ∀ d location content there, safe d there → safe (d.rewrite location content) there)
    (hf : ∀ d location content, safe d location → f (d.rewrite location content) = f d)
    {changes : List (Location × ByteArray)} (h : ∀ c ∈ changes, safe d c.1) :
    f (d.rewriteAll changes) = f d := by
  induction changes generalizing d with
  | nil => rfl
  | cons c changes ih =>
    obtain ⟨hc, hchanges⟩ := List.forall_mem_cons.1 h
    have hlater := ih (d := d.rewrite c.1 c.2) fun c' hc' => hsafe _ _ _ _ (hchanges c' hc')
    exact hlater.trans (hf _ _ _ hc)

@[simp] theorem isFolder_rewriteAll (d : Disk) (changes : List (Location × ByteArray))
    (p : FilePath) : (d.rewriteAll changes).isFolder p = d.isFolder p :=
  rewriteAll_eq (·.isFolder p) (fun _ _ => True) (fun _ _ _ _ _ => trivial)
    (fun _ _ _ _ => isFolder_rewrite p) fun _ _ => trivial

theorem readText_rewriteAll {changes : List (Location × ByteArray)}
    (h : ∀ c ∈ changes, d.resolve p ≠ .ok c.1) :
    (d.rewriteAll changes).readText p = d.readText p :=
  rewriteAll_eq (·.readText p) (fun d there => d.resolve p ≠ .ok there)
    (fun _ _ _ _ hsafe => by rwa [resolve_rewrite]) (fun _ _ _ => readText_rewrite) h

end Disk

end Registrar.Files

namespace Registrar.Scan

open Registrar.Files

variable {d : Disk} {location : Location} {content : ByteArray}

theorem entries_rewrite (d : Disk) (location : Location) (content : ByteArray) (root : FilePath) :
    (entries (d.rewrite location content) root).map (·.map (Prod.map id Node.shape)) =
      (entries d root).map (·.map (Prod.map id Node.shape)) := by
  have hbelow : ((d.rewrite location content).below root).map
      (fun e => (entryPath root e.1, e.2.shape)) =
        (d.below root).map fun e => (entryPath root e.1, e.2.shape) := by
    have h := congrArg (List.map fun e => (entryPath root e.1, e.2))
      (d.below_rewrite location content root)
    simpa [Function.comp_def] using h
  simp only [entries, Disk.find_rewrite, Disk.node]
  cases d.find false root with
  | error _ => rfl
  | ok e =>
    obtain ⟨here, _ | old | _⟩ := e
    · simp [Except.map, Function.comp_def, hbelow]
    · simp [Except.map, Function.comp_def, hbelow, rewriteEntry]
    · cases d.find true root <;> simp [Except.map, Function.comp_def, hbelow]

theorem filter_selects_shape (extensions : List String) (ignored : List Glob)
    (found : List (FilePath × Node)) :
    ((found.map (Prod.map id Node.shape)).filter (selects extensions ignored)).map Prod.fst =
      (found.filter (selects extensions ignored)).map Prod.fst := by
  have hselects : selects extensions ignored ∘ Prod.map id Node.shape =
      selects extensions ignored := by
    funext e
    obtain ⟨path, _ | _ | _⟩ := e <;> rfl
  rw [List.filter_map, hselects, List.map_map]
  rfl

/-- A scan does not see contents. -/
theorem run_eq_of_shape (d : Disk) (root : FilePath) (extensions ignores : List String) :
    run d root extensions ignores =
      match (entries d root).map (·.map (Prod.map id Node.shape)) with
      | .ok found =>
        ⟨(found.filter (selects extensions (patterns ignores))).map Prod.fst,
          patternWarnings ignores, 0⟩
      | .error fault => ⟨[], patternWarnings ignores ++ [.unreachable root fault], 1⟩ := by
  unfold run
  cases entries d root with
  | error _ => rfl
  | ok found => simp only [Except.map, filter_selects_shape]

theorem run_rewrite (d : Disk) (location : Location) (content : ByteArray) (root : FilePath)
    (extensions ignores : List String) :
    run (d.rewrite location content) root extensions ignores = run d root extensions ignores := by
  rw [run_eq_of_shape, entries_rewrite, ← run_eq_of_shape]

theorem run_rewriteAll (d : Disk) (changes : List (Location × ByteArray)) (root : FilePath)
    (extensions ignores : List String) :
    run (d.rewriteAll changes) root extensions ignores = run d root extensions ignores :=
  Disk.rewriteAll_eq (run · root extensions ignores) (fun _ _ => True) (fun _ _ _ _ _ => trivial)
    (fun _ _ _ _ => run_rewrite ..) fun _ _ => trivial

end Registrar.Scan
