import Registrar.Files.Disk

/-! # Walks through folders

A path that leads to a folder walks there name by name. What is behind it in a longer path is
followed from where the walk ends, so that a name joined to the path is looked up in that folder.
-/

namespace Registrar.Files

variable {t : FileTree} {d : Disk} {p base : FilePath} {name : String} {names rest : List String}
  {links links' : Nat} {here there : Location} {node : Node}

/-! ## The names in a joined path -/

theorem segmentsFrom_slash (segment a b : List Char) :
    segmentsFrom segment (a ++ '/' :: b) = segmentsFrom segment a ++ segments b := by
  induction a generalizing segment with
  | nil => rfl
  | cons c cs ih =>
    rw [List.cons_append, segmentsFrom, segmentsFrom]
    split
    · rw [ih, List.cons_append]
    · exact ih _

theorem segmentsFrom_of_not_mem {s : List Char} (h : '/' ∉ s) (segment : List Char) :
    segmentsFrom segment s = [segment.reverse ++ s] := by
  induction s generalizing segment with
  | nil => simp [segmentsFrom]
  | cons c cs ih =>
    have hc : c ≠ '/' := fun hc => h (hc ▸ List.mem_cons_self)
    rw [segmentsFrom, if_neg hc, ih fun hcs => h (List.mem_cons_of_mem c hcs)]
    simp

theorem pathNames_slash (a b : String) :
    pathNames (a ++ "/" ++ b) = pathNames a ++ pathNames b := by
  have htext : (a ++ "/" ++ b).toList = a.toList ++ '/' :: b.toList := by simp
  rw [pathNames, htext, segments, segmentsFrom_slash, List.map_append]
  rfl

theorem pathNames_of_not_mem (h : '/' ∉ name.toList) : pathNames name = [name] := by
  rw [pathNames, segments, segmentsFrom_of_not_mem h]
  simp

structure IsName (name : String) : Prop where
  slashless : '/' ∉ name.toList
  zeroless : '\x00' ∉ name.toList
  leads : staysHere name = false
  inward : name ≠ ".."
  size : name.utf8ByteSize ≤ maxNameSize

namespace FilePath

theorem isAbsolute_of_not_mem (h : '/' ∉ name.toList) : isAbsolute ⟨name⟩ = false := by
  rw [isAbsolute, decide_eq_false_iff_not]
  exact fun hhead => h (List.mem_of_mem_head? hhead)

theorem text_join_of_relative (h : isAbsolute ⟨name⟩ = false) (base : FilePath) :
    (base.join name).text =
      if base.text.toList.getLast?.all (· = '/') then base.text ++ name
      else base.text ++ "/" ++ name := by
  rw [join, h]
  simp only [Bool.false_eq_true, if_false]
  split <;> rfl

theorem text_join (h : '/' ∉ name.toList) (base : FilePath) :
    (base.join name).text =
      if base.text.toList.getLast?.all (· = '/') then base.text ++ name
      else base.text ++ "/" ++ name :=
  text_join_of_relative (isAbsolute_of_not_mem h) base

theorem isAbsolute_join_of_relative (h : isAbsolute ⟨name⟩ = false) (base : FilePath) :
    (base.join name).isAbsolute = base.isAbsolute := by
  rw [isAbsolute, isAbsolute, text_join_of_relative h]
  rw [isAbsolute] at h
  cases hbase : base.text.toList with
  | nil => simpa [hbase] using h
  | cons c cs => split <;> simp [hbase]

theorem isAbsolute_join (h : '/' ∉ name.toList) (base : FilePath) :
    (base.join name).isAbsolute = base.isAbsolute :=
  isAbsolute_join_of_relative (isAbsolute_of_not_mem h) base

theorem size_join (h : '/' ∉ name.toList) (base : FilePath) :
    (base.join name).text.utf8ByteSize ≤
      base.text.utf8ByteSize + 1 + name.utf8ByteSize := by
  have hslash : "/".utf8ByteSize = 1 := rfl
  rw [text_join h]
  split <;> simp only [String.utf8ByteSize_append] <;> omega

theorem join_ne_empty (hne : name ≠ "") (h : '/' ∉ name.toList) (base : FilePath) :
    (base.join name).text ≠ "" := by
  rw [text_join h]
  split <;> simp [hne]

theorem zero_not_mem_join (hbase : '\x00' ∉ base.text.toList) (h : IsName name) :
    '\x00' ∉ (base.join name).text.toList := by
  rw [text_join h.slashless]
  split <;> simp [hbase, h.zeroless]

/-- Behind the names of a path stand the joined names; an empty one at its end is lost. -/
theorem pathNames_join_of_relative (h : isAbsolute ⟨name⟩ = false) (base : FilePath) :
    ∃ front, pathNames (base.join name).text = front ++ pathNames name ∧
      (pathNames base.text = front ∨ pathNames base.text = front ++ [""]) := by
  rw [text_join_of_relative h]
  split
  · next hlast =>
    rcases List.eq_nil_or_concat base.text.toList with hnil | ⟨cs, c, hcs⟩
    · have hempty : base.text = "" := by simpa using hnil
      refine ⟨[], ?_, .inr ?_⟩
      · rw [hempty, String.empty_append, List.nil_append]
      · rw [hempty]
        rfl
    · obtain rfl : c = '/' := by simpa [hcs] using hlast
      have htext : base.text = String.ofList cs ++ "/" ++ "" := by simp [← String.toList_inj, hcs]
      have htext' : base.text ++ name = String.ofList cs ++ "/" ++ name := by
        simp [← String.toList_inj, hcs]
      refine ⟨pathNames (String.ofList cs), ?_, .inr ?_⟩
      · rw [htext', pathNames_slash]
      · rw [htext, pathNames_slash]
        rfl
  · exact ⟨pathNames base.text, pathNames_slash _ _, .inl rfl⟩

theorem pathNames_join (h : '/' ∉ name.toList) (base : FilePath) :
    ∃ front, pathNames (base.join name).text = front ++ [name] ∧
      (pathNames base.text = front ∨ pathNames base.text = front ++ [""]) := by
  have hjoin := pathNames_join_of_relative (isAbsolute_of_not_mem h) base
  rwa [pathNames_of_not_mem h] at hjoin

end FilePath

/-! ## Walks -/

/-- From a folder, with so many links that may be followed, the names lead through folders to
another folder, and so many links are left. -/
inductive FileTree.Walks (t : FileTree) : Nat → Location → List String → Nat → Location → Prop
  | nil {links : Nat} {here : Location} : t.Walks links here [] links here
  | stay {links links' : Nat} {here there : Location} {name : String} {names : List String} :
      staysHere name = true → t.Walks links here names links' there →
      t.Walks links here (name :: names) links' there
  | up {links links' : Nat} {here there : Location} {names : List String} :
      t.Walks links here.dropLast names links' there →
      t.Walks links here (".." :: names) links' there
  | enter {links links' : Nat} {here there : Location} {name : String} {names : List String} :
      staysHere name = false → name ≠ ".." → name.utf8ByteSize ≤ maxNameSize →
      t.lookup (here ++ [name]) = some .folder → t.Walks links (here ++ [name]) names links' there →
      t.Walks links here (name :: names) links' there
  | jump {links links' : Nat} {here there : Location} {name target : String}
      {names : List String} :
      staysHere name = false → name ≠ ".." → name.utf8ByteSize ≤ maxNameSize →
      t.lookup (here ++ [name]) = some (.link target) →
      t.Walks links (if (FilePath.mk target).isAbsolute then [] else here)
        (pathNames target ++ names) links' there →
      t.Walks (links + 1) here (name :: names) links' there

namespace FileTree.Walks

theorem follow_append (h : t.Walks links here names links' there) (hrest : rest ≠ [])
    (last : Bool) :
    t.follow last links here (names ++ rest) = t.follow last links' there rest := by
  induction h with
  | nil => rfl
  | stay hstay _ ih => rw [List.cons_append, follow, if_pos hstay, ih]
  | up _ ih => rw [List.cons_append, follow, if_neg (by decide), if_pos rfl, ih]
  | enter hstay hup hsize hlookup _ ih =>
    rw [List.cons_append, follow, if_neg (by simp [hstay]), if_neg hup, if_neg (by omega)]
    simp only [hlookup, ih]
  | @jump _ _ _ _ _ _ names hstay hup hsize hlookup _ ih =>
    -- the link is not the last name of the path, so it is followed in any case
    have hend : ¬ ((names ++ rest).isEmpty && !last) = true := by simp [hrest]
    rw [List.cons_append, follow, if_neg (by simp [hstay]), if_neg hup, if_neg (by omega)]
    simp only [hlookup, if_neg hend, ← ih, List.append_assoc]

theorem of_follow (h : t.follow true links here names = .ok (there, .folder)) :
    ∃ links', t.Walks links here names links' there := by
  fun_induction FileTree.follow t true links here names with
  | case1 =>
    obtain ⟨rfl, -⟩ := Prod.mk.inj (Except.ok.inj h)
    exact ⟨_, .nil⟩
  | case2 _ _ _ _ hstay ih =>
    obtain ⟨links', h⟩ := ih h
    exact ⟨links', .stay hstay h⟩
  | case3 _ _ _ _ ih =>
    obtain ⟨links', h⟩ := ih h
    exact ⟨links', .up h⟩
  | case6 _ _ _ _ hstay hup hlong next hlookup ih =>
    obtain ⟨links', h⟩ := ih h
    exact ⟨links', .enter (by simpa using hstay) hup (by omega) hlookup h⟩
  | case11 _ _ _ hstay hup hlong next target hlookup hend links ih =>
    obtain ⟨links', h⟩ := ih h
    exact ⟨links', .jump (by simpa using hstay) hup (by omega) hlookup (by simpa using h)⟩
  | case4 | case5 | case7 | case8 | case9 | case10 => simp at h

theorem of_append {front : List String} (h : t.Walks links here (front ++ names) links' there) :
    ∃ links₁ mid, t.Walks links here front links₁ mid ∧ t.Walks links₁ mid names links' there := by
  generalize hall : front ++ names = all at h
  induction h generalizing front with
  | nil =>
    obtain ⟨rfl, rfl⟩ := List.append_eq_nil_iff.1 hall
    exact ⟨_, _, .nil, .nil⟩
  | stay hstay h ih =>
    rcases List.append_eq_cons_iff.1 hall with ⟨rfl, rfl⟩ | ⟨front, rfl, rfl⟩
    · exact ⟨_, _, .nil, .stay hstay h⟩
    · obtain ⟨links₁, mid, hfront, hnames⟩ := ih rfl
      exact ⟨links₁, mid, .stay hstay hfront, hnames⟩
  | up h ih =>
    rcases List.append_eq_cons_iff.1 hall with ⟨rfl, rfl⟩ | ⟨front, rfl, rfl⟩
    · exact ⟨_, _, .nil, .up h⟩
    · obtain ⟨links₁, mid, hfront, hnames⟩ := ih rfl
      exact ⟨links₁, mid, .up hfront, hnames⟩
  | enter hstay hup hsize hlookup h ih =>
    rcases List.append_eq_cons_iff.1 hall with ⟨rfl, rfl⟩ | ⟨front, rfl, rfl⟩
    · exact ⟨_, _, .nil, .enter hstay hup hsize hlookup h⟩
    · obtain ⟨links₁, mid, hfront, hnames⟩ := ih rfl
      exact ⟨links₁, mid, .enter hstay hup hsize hlookup hfront, hnames⟩
  | jump hstay hup hsize hlookup h ih =>
    rcases List.append_eq_cons_iff.1 hall with ⟨rfl, rfl⟩ | ⟨front, rfl, rfl⟩
    · exact ⟨_, _, .nil, .jump hstay hup hsize hlookup h⟩
    · obtain ⟨links₁, mid, hfront, hnames⟩ := ih (List.append_assoc _ _ _)
      exact ⟨links₁, mid, .jump hstay hup hsize hlookup hfront, hnames⟩

theorem append {links₁ : Nat} {mid : Location} (h : t.Walks links here names links₁ mid)
    (hrest : t.Walks links₁ mid rest links' there) :
    t.Walks links here (names ++ rest) links' there := by
  induction h with
  | nil => exact hrest
  | stay hstay _ ih => exact .stay hstay (ih hrest)
  | up _ ih => exact .up (ih hrest)
  | enter hstay hup hsize hlookup _ ih => exact .enter hstay hup hsize hlookup (ih hrest)
  | jump hstay hup hsize hlookup _ ih =>
    have hjump := ih hrest
    rw [List.append_assoc] at hjump
    exact .jump hstay hup hsize hlookup hjump

theorem cons_of_stays (hstay : staysHere name = true) :
    t.Walks links here (name :: names) links' there ↔ t.Walks links here names links' there := by
  constructor
  · intro h
    cases h with
    | stay _ h => exact h
    | up => exact absurd hstay (by decide)
    | enter hleads | jump hleads =>
      rw [hleads] at hstay
      cases hstay
  · exact .stay hstay

theorem of_append_stay {front : List String} (hstay : staysHere name = true)
    (h : t.Walks links here (front ++ [name]) links' there) :
    t.Walks links here front links' there := by
  obtain ⟨links₁, mid, hfront, hname⟩ := h.of_append
  rw [cons_of_stays hstay] at hname
  cases hname
  exact hfront

end FileTree.Walks

/-! ## Paths that lead to folders -/

namespace Disk

def start (d : Disk) (p : FilePath) : Location := if p.isAbsolute then [] else d.here

/-- The names of a path lead to a folder, with so many links left. -/
structure Enters (d : Disk) (p : FilePath) (links : Nat) (there : Location) : Prop where
  zeroless : '\x00' ∉ p.text.toList
  walks : d.tree.Walks maxLinks (d.start p) (pathNames p.text) links there

theorem find_eq {last : Bool} (hzero : '\x00' ∉ p.text.toList) (hne : p.text ≠ "")
    (hsize : p.text.utf8ByteSize ≤ maxPathSize) :
    d.find last p = d.tree.follow last maxLinks (d.start p) (pathNames p.text) := by
  have hempty : p.text.isEmpty = false := by simpa using hne
  rw [find, if_neg (by simpa using hzero), if_neg (by simp [hempty]), if_neg (by omega)]
  rfl

/-- A path that leads somewhere is neither empty nor too long, and has no zero. -/
theorem of_find_eq_ok {last : Bool} {found : Location × Node} (h : d.find last p = .ok found) :
    '\x00' ∉ p.text.toList ∧ p.text ≠ "" ∧ p.text.utf8ByteSize ≤ maxPathSize ∧
      d.tree.follow last maxLinks (d.start p) (pathNames p.text) = .ok found := by
  unfold find at h
  split at h
  · cases h
  · next hzero =>
    split at h
    · cases h
    · next hempty =>
      split at h
      · cases h
      · next hsize =>
        exact ⟨by simpa using hzero, by simpa using hempty, by omega, h⟩

theorem folderAt?_eq_some_iff : d.folderAt? p = some there ↔
    d.find true p = .ok (there, .folder) := by
  unfold folderAt?
  split
  · next h => simp [h]
  · next hno => simpa using hno there

theorem isFolder_iff : d.isFolder p = true ↔ ∃ location, d.folderAt? p = some location := by
  unfold isFolder folderAt? node
  cases d.find true p with
  | error _ => simp [Except.map]
  | ok found => obtain ⟨location, _ | _ | _⟩ := found <;> simp [Except.map]

theorem enters_of_folderAt? (h : d.folderAt? p = some there) : ∃ links, d.Enters p links there := by
  obtain ⟨hzero, -, -, hfollow⟩ := of_find_eq_ok (folderAt?_eq_some_iff.1 h)
  obtain ⟨links, hwalks⟩ := FileTree.Walks.of_follow hfollow
  exact ⟨links, hzero, hwalks⟩

namespace Enters

theorem walks_front (h : d.Enters base links there) (hname : '/' ∉ name.toList) :
    ∃ front, pathNames (base.join name).text = front ++ [name] ∧
      d.tree.Walks maxLinks (d.start (base.join name)) front links there := by
  obtain ⟨front, hjoin, hbase⟩ := FilePath.pathNames_join hname base
  have hstart : d.start (base.join name) = d.start base := by
    rw [start, FilePath.isAbsolute_join hname, start]
  refine ⟨front, hjoin, ?_⟩
  have hwalks := h.walks
  rw [hstart]
  rcases hbase with hbase | hbase
  · rwa [hbase] at hwalks
  · rw [hbase] at hwalks
    exact hwalks.of_append_stay rfl

/-- A joined name is looked up in the folder that the path leads to. -/
theorem find_join (h : d.Enters base links there) (hname : IsName name)
    (hsize : (base.join name).text.utf8ByteSize ≤ maxPathSize) (last : Bool) :
    d.find last (base.join name) = d.tree.follow last links there [name] := by
  have hne : name ≠ "" := fun hempty => by simpa [hempty, staysHere] using hname.leads
  obtain ⟨front, hjoin, hwalks⟩ := h.walks_front hname.slashless
  rw [find_eq (FilePath.zero_not_mem_join h.zeroless hname)
    (FilePath.join_ne_empty hne hname.slashless base) hsize, hjoin]
  exact hwalks.follow_append (List.cons_ne_nil _ _) last

theorem join (h : d.Enters base links there) (hname : IsName name)
    (hlookup : d.tree.lookup (there ++ [name]) = some .folder) :
    d.Enters (base.join name) links (there ++ [name]) := by
  obtain ⟨front, hjoin, hwalks⟩ := h.walks_front hname.slashless
  refine ⟨FilePath.zero_not_mem_join h.zeroless hname, ?_⟩
  rw [hjoin]
  exact hwalks.append (.enter hname.leads hname.inward hname.size hlookup .nil)

end Enters

end Disk

namespace FileTree

/-- What a name leads to in a folder. A link at the end is followed if `last`. -/
theorem follow_name (hname : IsName name) (last : Bool) :
    t.follow last links here [name] =
      match t.lookup (here ++ [name]) with
      | none => .error .notFound
      | some (.link target) =>
        if last then
          match links with
          | 0 => .error .tooManyLinks
          | links + 1 =>
            t.follow true links (if (FilePath.mk target).isAbsolute then [] else here)
              (pathNames target)
        else .ok (here ++ [name], .link target)
      | some node => .ok (here ++ [name], node) := by
  have hsize : ¬ name.utf8ByteSize > maxNameSize := Nat.not_lt.2 hname.size
  rw [follow, if_neg (by simp [hname.leads]), if_neg hname.inward, if_neg hsize]
  cases hlookup : t.lookup (here ++ [name]) with
  | none => simp [hlookup]
  | some node =>
    cases node with
    | folder => simp [hlookup, follow]
    | file content => simp [hlookup]
    | link target => cases last <;> cases links <;> simp [hlookup]

end FileTree

end Registrar.Files
