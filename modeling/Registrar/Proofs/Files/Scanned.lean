import Registrar.Proofs.Files.DepthFirst
import Registrar.Proofs.Files.Extension
import Registrar.Proofs.Text.Utf8

/-! # What a scan lists

A scan lists the files below its folder that have a wanted extension and a path that no pattern
describes, in the order of the names on the way to them. This is not the order of the paths as
texts: what is in a folder stands in front of a file whose name only begins like that of the folder.
-/

namespace Registrar.Scan

open Registrar.Files
open Registrar.Text (utf8 utf8_lt_utf8)

variable {d : Disk} {root p : FilePath} {home names : Location} {name text : String}
  {extensions ignores before after : List String} {e : FilePath × Node}

/-- One of the extensions stands behind the last dot of a name, which is not at its start. -/
def HasExtension (extensions : List String) (name : String) : Prop :=
  ∃ extension ∈ extensions, ∃ front, front ≠ "" ∧ name = front ++ "." ++ extension ∧
    '.' ∉ extension.toList

def Spares (ignores : List String) (p : FilePath) : Prop :=
  ∀ text ∈ ignores, ∀ glob, Glob.ofText text = .ok glob → glob.describes p.text = false

theorem mem_patterns_iff {glob : Glob} :
    glob ∈ patterns ignores ↔ ∃ text ∈ ignores, Glob.ofText text = .ok glob := by
  rw [patterns, List.mem_filterMap]
  refine exists_congr fun text => and_congr_right fun _ => ?_
  cases Glob.ofText text <;> simp [Except.toOption]

theorem spares_iff :
    Spares ignores p ↔ ∀ glob ∈ patterns ignores, glob.describes p.text = false := by
  simp only [Spares, mem_patterns_iff]
  exact ⟨fun h glob ⟨text, htext, hglob⟩ => h text htext glob hglob,
    fun h text htext glob hglob => h glob ⟨text, htext, hglob⟩⟩

theorem selects_iff : selects extensions (patterns ignores) e = true ↔
    (∃ content, e.2 = .file content) ∧ (∃ extension ∈ extensions, e.1.extension? = some extension) ∧
      Spares ignores e.1 := by
  obtain ⟨path, node⟩ := e
  rw [spares_iff, selects, Bool.and_eq_true, Bool.not_eq_true', List.any_eq_false]
  cases node with
  | file content =>
    cases path.extension? with
    | none => simp
    | some extension => simp [and_comm]
  | folder | link _ => simp

theorem entryPath_concat (root : FilePath) (names : Location) (name : String) :
    entryPath root (names ++ [name]) = (entryPath root names).join name := by
  simp [entryPath]

theorem way_entryPath (hnames : ∀ name ∈ names, IsName name) (root : FilePath) :
    (entryPath root names).way = root.way ++ names := by
  induction names using List.reverseRecOn with
  | nil => simp [entryPath]
  | append_singleton names name ih =>
    obtain ⟨hnames, hname⟩ := List.forall_mem_append.1 hnames
    rw [entryPath_concat, FilePath.way_join (hname name List.mem_cons_self), ih hnames,
      List.append_assoc]

theorem extension?_entryPath_iff (hname : IsName name) :
    (∃ extension ∈ extensions,
      (entryPath root (names ++ [name])).extension? = some extension) ↔
      HasExtension extensions name := by
  rw [entryPath_concat]
  simp only [FilePath.extension?_join_eq_some_iff hname, HasExtension]

theorem mem_files_iff (hnamed : d.tree.IsNamed) (hhome : d.folderAt? root = some home) :
    p ∈ (run d root extensions ignores).files ↔ ∃ names name content,
      d.tree.lookup (home ++ names ++ [name]) = some (.file content) ∧
        p = entryPath root (names ++ [name]) ∧ HasExtension extensions name ∧
        Spares ignores p := by
  rw [files_eq hhome, List.mem_map]
  simp only [List.mem_filter, List.mem_map, selects_iff]
  constructor
  · rintro ⟨_, ⟨⟨⟨names, node⟩, hbelow, rfl⟩, ⟨content, rfl⟩, hextension, hspares⟩, rfl⟩
    obtain ⟨hne, hentry⟩ := FileTree.mem_below_iff.1 hbelow
    rcases List.eq_nil_or_concat names with hnil | ⟨names, name, hlast⟩
    · exact absurd hnil hne
    · rw [List.concat_eq_append] at hlast
      subst hlast
      have hlookup : d.tree.lookup (home ++ names ++ [name]) = some (.file content) := by
        rw [FileTree.lookup_eq_some_iff (by simp), List.append_assoc]
        exact hentry
      exact ⟨names, name, content, hlookup, rfl,
        (extension?_entryPath_iff (hnamed.of_lookup hlookup)).1 hextension, hspares⟩
  · rintro ⟨names, name, content, hlookup, rfl, hextension, hspares⟩
    have hentry := (FileTree.lookup_eq_some_iff (by simp)).1 hlookup
    rw [List.append_assoc] at hentry
    exact ⟨_, ⟨⟨_, FileTree.mem_below_iff.2 ⟨by simp, hentry⟩, rfl⟩, ⟨content, rfl⟩,
      (extension?_entryPath_iff (hnamed.of_lookup hlookup)).2 hextension, hspares⟩, rfl⟩

theorem isName_of_mem_below (hnamed : d.tree.IsNamed) {node : Node}
    (h : (names, node) ∈ d.tree.below home) : ∀ name ∈ names, IsName name := by
  intro name hname
  exact hnamed _ (FileTree.mem_below_iff.1 h).2 name (List.mem_append_right home hname)

/-- Files stand in the order of the names on the way to them, compared byte by byte. -/
theorem files_ascending (hnamed : d.tree.IsNamed) (hhome : d.folderAt? root = some home)
    (extensions ignores : List String) :
    (run d root extensions ignores).files.Pairwise fun p q =>
      p.way.map (utf8 ·.toList) < q.way.map (utf8 ·.toList) := by
  rw [files_eq hhome, List.filter_map, List.map_map, List.pairwise_map]
  refine ((d.tree.increasing_below home).filter _).imp_of_mem fun {e e'} hmem hmem' hlt => ?_
  have hnames := isName_of_mem_below hnamed (List.mem_of_mem_filter hmem)
  have hnames' := isName_of_mem_below hnamed (List.mem_of_mem_filter hmem')
  simp only [Function.comp_apply, way_entryPath hnames, way_entryPath hnames', List.map_append]
  exact List.append_left_lt (List.map_lt (fun _ _ => utf8_lt_utf8) hlt)

theorem files_nodup (hnamed : d.tree.IsNamed) (hhome : d.folderAt? root = some home)
    (extensions ignores : List String) : (run d root extensions ignores).files.Nodup := by
  refine (files_ascending hnamed hhome extensions ignores).imp fun {p q} hlt heq => ?_
  rw [heq] at hlt
  exact List.lt_irrefl _ hlt

theorem selects_patterns_append {glob : Glob} (hglob : Glob.ofText text = .ok glob) :
    selects extensions (patterns (before ++ text :: after)) e =
      (!glob.describes e.1.text && selects extensions (patterns (before ++ after)) e) := by
  have hpatterns : patterns (before ++ text :: after) =
      patterns before ++ glob :: patterns after := by
    simp [patterns, hglob, Except.toOption]
  have hpatterns' : patterns (before ++ after) = patterns before ++ patterns after :=
    List.filterMap_append
  simp only [selects, hpatterns, hpatterns', List.any_append, List.any_cons]
  cases glob.describes e.1.text <;> simp

theorem files_of_valid {glob : Glob} (hglob : Glob.ofText text = .ok glob) (d : Disk)
    (root : FilePath) (extensions before after : List String) :
    (run d root extensions (before ++ text :: after)).files =
      (run d root extensions (before ++ after)).files.filter fun p => !glob.describes p.text := by
  unfold run
  cases entries d root with
  | error _ => rfl
  | ok found =>
    dsimp only
    rw [List.filter_map, List.filter_filter]
    refine congrArg (List.map Prod.fst) (List.filter_congr fun e _ => ?_)
    exact selects_patterns_append hglob

theorem files_of_invalid {fault : Glob.Fault} (hglob : Glob.ofText text = .error fault)
    (d : Disk) (root : FilePath) (extensions before after : List String) :
    (run d root extensions (before ++ text :: after)).files =
      (run d root extensions (before ++ after)).files := by
  have hpatterns : patterns (before ++ text :: after) = patterns (before ++ after) := by
    simp [patterns, hglob, Except.toOption]
  unfold run
  rw [hpatterns]
  cases entries d root <;> rfl

theorem files_of_folders_described (hnamed : d.tree.IsNamed)
    (hhome : d.folderAt? root = some home) {glob : Glob} (hglob : Glob.ofText text = .ok glob)
    (hfiles : ∀ names content, d.tree.lookup (home ++ names) = some (.file content) →
      glob.describes (entryPath root names).text = false)
    (extensions before after : List String) :
    (run d root extensions (before ++ text :: after)).files =
      (run d root extensions (before ++ after)).files := by
  rw [files_of_valid hglob, List.filter_eq_self]
  intro p hp
  obtain ⟨names, name, content, hlookup, rfl, -, -⟩ := (mem_files_iff hnamed hhome).1 hp
  rw [List.append_assoc] at hlookup
  simp [hfiles _ content hlookup]

theorem files_eq_walk (hhome : d.folderAt? root = some home) (extensions ignores : List String) :
    (run d root extensions ignores).files =
      (((d.tree.walk home).map fun e => (entryPath root e.1, e.2)).filter
        (selects extensions (patterns ignores))).map Prod.fst := by
  rw [files_eq hhome, FileTree.below_eq_walk]

/-- A scan lists exactly the files that are wanted, in the order of their names on the way, which is
the one in which a walk comes to them depth first. A further pattern takes away the files it
describes: none if it is invalid or describes folders only. -/
theorem files_exact (hnamed : d.tree.IsNamed) (hhome : d.folderAt? root = some home)
    (extensions ignores : List String) :
    (∀ p, p ∈ (run d root extensions ignores).files ↔ ∃ names name content,
      d.tree.lookup (home ++ names ++ [name]) = some (.file content) ∧
        p = entryPath root (names ++ [name]) ∧ HasExtension extensions name ∧
        Spares ignores p) ∧
    ((run d root extensions ignores).files.Pairwise fun p q =>
      p.way.map (utf8 ·.toList) < q.way.map (utf8 ·.toList)) ∧
    (run d root extensions ignores).files.Nodup ∧
    (run d root extensions ignores).files =
      (((d.tree.walk home).map fun e => (entryPath root e.1, e.2)).filter
        (selects extensions (patterns ignores))).map Prod.fst ∧
    ∀ before after text, ignores = before ++ after →
      (∀ glob, Glob.ofText text = .ok glob →
        (run d root extensions (before ++ text :: after)).files =
          (run d root extensions ignores).files.filter fun p => !glob.describes p.text) ∧
      (∀ fault, Glob.ofText text = .error fault →
        (run d root extensions (before ++ text :: after)).files =
          (run d root extensions ignores).files) ∧
      ∀ glob, Glob.ofText text = .ok glob →
        (∀ names content, d.tree.lookup (home ++ names) = some (.file content) →
          glob.describes (entryPath root names).text = false) →
        (run d root extensions (before ++ text :: after)).files =
          (run d root extensions ignores).files := by
  refine ⟨fun p => mem_files_iff hnamed hhome, files_ascending hnamed hhome extensions ignores,
    files_nodup hnamed hhome extensions ignores, files_eq_walk hhome extensions ignores,
    fun before after text hignores => ?_⟩
  subst hignores
  exact ⟨fun glob hglob => files_of_valid hglob d root extensions before after,
    fun fault hglob => files_of_invalid hglob d root extensions before after,
    fun glob hglob hfiles =>
      files_of_folders_described hnamed hhome hglob hfiles extensions before after⟩

/-! ## A folder and a file with one name in front of the dot -/

def besideDisk : Disk where
  tree.entries :=
    [(["m"], .folder), (["m", "a"], .folder), (["m", "a", ".vue"], .file "".toUTF8),
      (["m", "a", "x.vue"], .file "".toUTF8), (["m", "a.vue"], .file "".toUTF8),
      (["m", "b.vue"], .link "a")]
  tree.increasing := by simp +decide
  tree.housed := by simp
  here := []

namespace besideDisk

theorem isNamed : besideDisk.tree.IsNamed := by
  have hnames : ∀ name ∈ besideDisk.tree.entries.flatMap Prod.fst,
      '/' ∉ name.toList ∧ '\x00' ∉ name.toList ∧ staysHere name = false ∧ name ≠ ".." ∧
        name.utf8ByteSize ≤ maxNameSize := by
    decide +kernel
  intro e he name hname
  obtain ⟨hslash, hzero, hstay, hup, hsize⟩ := hnames name (List.mem_flatMap.2 ⟨e, he, hname⟩)
  exact ⟨hslash, hzero, hstay, hup, hsize⟩

theorem folderAt?_eq : besideDisk.folderAt? ⟨"m"⟩ = some ["m"] := by
  have hnames : pathNames "m" = ["m"] := by decide +kernel
  simp +decide [Disk.folderAt?, Disk.find, hnames, FileTree.follow, FileTree.lookup, besideDisk]

theorem texts :
    Glob.ofText "m/a" = .ok ⟨[.char 'm', .char '/', .char 'a']⟩ ∧
    (Glob.mk [.char 'm', .char '/', .char 'a']).describes "m/a/x.vue" = false ∧
    (Glob.mk [.char 'm', .char '/', .char 'a']).describes "m/a.vue" = false ∧
    entryPath ⟨"m"⟩ ["a", "x.vue"] = ⟨"m/a/x.vue"⟩ ∧ entryPath ⟨"m"⟩ ["a.vue"] = ⟨"m/a.vue"⟩ := by
  decide +kernel

end besideDisk

/-- A pattern for a folder leaves the file in it; neither a link nor a hidden file is listed. -/
theorem files_exact_beside :
    besideDisk.tree.IsNamed ∧ besideDisk.folderAt? ⟨"m"⟩ = some ["m"] ∧
      ∀ p, p ∈ (run besideDisk ⟨"m"⟩ ["vue"] ["m/a"]).files ↔
        p = ⟨"m/a/x.vue"⟩ ∨ p = ⟨"m/a.vue"⟩ := by
  have hnamed := besideDisk.isNamed
  have hhome := besideDisk.folderAt?_eq
  obtain ⟨hglob, hspared, hspared', hpath, hpath'⟩ := besideDisk.texts
  obtain ⟨hmem, -⟩ := files_exact hnamed hhome ["vue"] ["m/a"]
  have hspares (p : FilePath)
      (hp : (Glob.mk [.char 'm', .char '/', .char 'a']).describes p.text = false) :
      Spares ["m/a"] p := by
    intro text htext glob hok
    obtain rfl := List.mem_singleton.1 htext
    obtain rfl := Except.ok.inj (hglob.symm.trans hok)
    exact hp
  refine ⟨hnamed, hhome, fun p => (hmem p).trans ⟨?_, ?_⟩⟩
  · rintro ⟨names, name, content, hlookup, rfl, ⟨_, hextension, front, hne, hname, -⟩, -⟩
    obtain rfl := List.mem_singleton.1 hextension
    have hentry := (FileTree.lookup_eq_some_iff (by simp)).1 hlookup
    obtain ⟨hcases, -⟩ : (names ++ [name] = ["a", ".vue"] ∨ names ++ [name] = ["a", "x.vue"] ∨
        names ++ [name] = ["a.vue"]) ∧ content = ByteArray.empty := by
      simpa [besideDisk, ← or_and_right] using hentry
    rcases hcases with h | h | h
    · obtain rfl : name = ".vue" := by simpa using congrArg List.getLast? h
      have hfront : [] = front.toList := by
        have htext : ".vue".toList = front.toList ++ ".vue".toList := by
          simpa [String.append_assoc] using congrArg String.toList hname
        exact List.append_cancel_right htext
      exact absurd (by simpa using hfront.symm) hne
    · rw [h, hpath]
      exact .inl rfl
    · rw [h, hpath']
      exact .inr rfl
  · rintro (rfl | rfl)
    · refine ⟨["a"], "x.vue", "".toUTF8, ?_, hpath.symm, ?_, hspares _ hspared⟩
      · simp +decide [FileTree.lookup, besideDisk]
      · exact ⟨"vue", List.mem_cons_self, "x", by decide, by decide, by decide⟩
    · refine ⟨[], "a.vue", "".toUTF8, ?_, hpath'.symm, ?_, hspares _ hspared'⟩
      · simp +decide [FileTree.lookup, besideDisk]
      · exact ⟨"vue", List.mem_cons_self, "a", by decide, by decide, by decide⟩

end Registrar.Scan
