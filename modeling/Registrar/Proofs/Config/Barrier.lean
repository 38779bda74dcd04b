import Registrar.Config.Search
import Registrar.Proofs.Config.Nearest
import Registrar.Proofs.Files.Sights

/-! # Where the search for the configuration stops

The search goes outwards as the path names the folders, and ends at the first one that has a
configuration or is the root of a repository. What is further out makes no difference, unless the
search passes it on its way: through a link, by a name that leads outwards, or inside of a folder
that is called like one of the two entries.
-/

namespace Registrar

open Registrar.Files

variable {d : Disk} {t' : FileTree} {p q start folder inner : FilePath} {i j : Nat}

namespace Files.FilePath

/-- The path without its last names, so many of them. -/
def outward (p : FilePath) : Nat → Option FilePath
  | 0 => some p
  | n + 1 => (p.outward n).bind parent?

theorem outward_succ (p : FilePath) (n : Nat) :
    p.outward (n + 1) = p.parent?.bind (·.outward n) := by
  induction n with
  | zero => simp [outward]
  | succ n ih =>
    rw [outward, ih, Option.bind_assoc]
    rfl

theorem exists_outward_eq_none (p : FilePath) : ∃ n, p.outward n = none := by
  induction p using ancestors.induct with
  | case1 p ih =>
    cases hparent : p.parent? with
    | none => exact ⟨1, by rw [outward_succ, hparent]; rfl⟩
    | some q =>
      obtain ⟨n, hn⟩ := ih q hparent
      exact ⟨n + 1, by rw [outward_succ, hparent]; exact hn⟩

theorem way_prefix_of_outward (hle : j ≤ i) (hj : p.outward j = some inner)
    (hi : p.outward i = some folder) : folder.way <+: inner.way := by
  induction hle generalizing folder with
  | refl =>
    obtain rfl := Option.some.inj (hj.symm.trans hi)
    exact List.prefix_refl _
  | @step i _ ih =>
    obtain ⟨between, hbetween, hparent⟩ := Option.bind_eq_some_iff.1 hi
    obtain ⟨rest, hway, -⟩ := way_of_parent? hparent
    have hstep : folder.way <+: between.way := hway ▸ List.prefix_append _ rest
    exact hstep.trans (ih hbetween)

theorem isAbsolute_of_outward (h : p.outward i = some folder) :
    folder.isAbsolute = p.isAbsolute := by
  induction i generalizing folder with
  | zero => rw [Option.some.inj h]
  | succ i ih =>
    obtain ⟨between, hbetween, hparent⟩ := Option.bind_eq_some_iff.1 h
    rw [isAbsolute_of_parent? hparent, ih hbetween]

end Files.FilePath

/-- Trees that differ at most at some locations and below them. -/
def Files.FileTree.DiffersAt (t t' : FileTree) (changed : List Location) : Prop :=
  ∀ seen, (∀ c ∈ changed, ¬ c <+: seen) → t'.lookup seen = t.lookup seen

theorem Files.FileTree.differsAt_of_entries {t t' : FileTree} {front back : List Entry}
    {location : Location} {node : Node} (h : t.entries = front ++ back)
    (h' : t'.entries = front ++ (location, node) :: back) : t.DiffersAt t' [location] := by
  intro seen hseen
  have hne : location ≠ seen := by
    rintro rfl
    exact hseen _ (List.mem_singleton_self _) (List.prefix_refl _)
  rw [lookup, lookup, h, h', List.find?_append, List.find?_append,
    List.find?_cons_of_neg (by simpa using hne)]

namespace ConfigFile

/-- Whether a folder ends the search. -/
def Ends (d : Disk) (folder : FilePath) : Prop :=
  d.Contains folder fileName ∨ d.Contains folder repositoryMark

/-- The first folder outwards that ends the search, and the number of names dropped for it. -/
structure StopsAt (d : Disk) (start : FilePath) (i : Nat) (folder : FilePath) : Prop where
  outward : start.outward i = some folder
  ends : Ends d folder
  first : ∀ j < i, ∀ inner, start.outward j = some inner → ¬ Ends d inner

theorem ends_iff_has : Ends d p ↔
    d.has (p.join fileName) = true ∨ d.has (p.join repositoryMark) = true := by
  rw [Ends, Disk.contains_iff_has isName_fileName, Disk.contains_iff_has isName_repositoryMark]

/-! ## The steps of the search -/

theorem find_of_ends (h : Ends d p) :
    find d p = if d.has (p.join fileName) then some (p.join fileName) else none := by
  rw [ends_iff_has] at h
  rw [find, FilePath.ancestors, findAmong]
  split
  · rfl
  · next hno => rw [if_pos (h.resolve_left hno)]

theorem find_of_not_ends (h : ¬ Ends d p) : find d p = p.parent?.bind (find d) := by
  rw [ends_iff_has, not_or] at h
  cases hparent : p.parent? with
  | none =>
    rw [find, FilePath.ancestors_of_parent?_eq_none hparent, findAmong, if_neg h.1, if_neg h.2]
    rfl
  | some q =>
    rw [find, FilePath.ancestors_of_parent? hparent, findAmong, if_neg h.1, if_neg h.2]
    rfl

theorem stopsAt_zero (h : Ends d p) : StopsAt d p 0 p := ⟨rfl, h, fun _ hj => absurd hj (by omega)⟩

theorem stopsAt_succ_iff (h : ¬ Ends d p) (hparent : p.parent? = some q) :
    StopsAt d p (i + 1) folder ↔ StopsAt d q i folder := by
  have houtward (n : Nat) : p.outward (n + 1) = q.outward n := by
    rw [FilePath.outward_succ, hparent]
    rfl
  constructor
  · intro hstop
    refine ⟨houtward i ▸ hstop.outward, hstop.ends, fun j hj inner hinner => ?_⟩
    exact hstop.first (j + 1) (by omega) inner (houtward j ▸ hinner)
  · intro hstop
    refine ⟨(houtward i).trans hstop.outward, hstop.ends, fun j hj inner hinner => ?_⟩
    cases j with
    | zero => rwa [← Option.some.inj hinner]
    | succ j => exact hstop.first j (by omega) inner (houtward j ▸ hinner)

/-- The search looks no further than where it stops. -/
theorem find_of_stopsAt (h : StopsAt d p i folder) :
    find d p = if d.has (folder.join fileName) then some (folder.join fileName) else none := by
  induction i generalizing p with
  | zero =>
    obtain rfl := Option.some.inj h.outward
    exact find_of_ends h.ends
  | succ i ih =>
    have hno : ¬ Ends d p := h.first 0 (by omega) p rfl
    obtain ⟨q, hparent, -⟩ := Option.bind_eq_some_iff.1 (FilePath.outward_succ p i ▸ h.outward)
    rw [find_of_not_ends hno, hparent]
    exact ih ((stopsAt_succ_iff hno hparent).1 h)

theorem exists_stopsAt {file : FilePath} (h : find d p = some file) :
    ∃ i folder, StopsAt d p i folder := by
  induction p using FilePath.ancestors.induct with
  | case1 p ih =>
    by_cases hends : Ends d p
    · exact ⟨0, p, stopsAt_zero hends⟩
    · rw [find_of_not_ends hends] at h
      obtain ⟨q, hparent, hfind⟩ := Option.bind_eq_some_iff.1 h
      obtain ⟨i, folder, hstop⟩ := ih q hparent hfind
      exact ⟨i + 1, folder, (stopsAt_succ_iff hends hparent).2 hstop⟩

theorem find_eq_some_iff {file : FilePath} : find d start = some file ↔ ∃ i folder,
    StopsAt d start i folder ∧ d.Contains folder fileName ∧ file = folder.join fileName := by
  simp only [Disk.contains_iff_has isName_fileName]
  constructor
  · intro h
    obtain ⟨i, folder, hstop⟩ := exists_stopsAt h
    rw [find_of_stopsAt hstop, Option.ite_none_right_eq_some] at h
    exact ⟨i, folder, hstop, h.1, (Option.some.inj h.2).symm⟩
  · rintro ⟨i, folder, hstop, hhas, rfl⟩
    rw [find_of_stopsAt hstop, if_pos hhas]

theorem has_of_find {file : FilePath} (h : find d start = some file) : d.has file = true := by
  obtain ⟨i, folder, -, hfile, rfl⟩ := find_eq_some_iff.1 h
  exact (Disk.contains_iff_has isName_fileName).1 hfile

/-! ## What is further out -/

/-- The locations that the search looks up in a folder. -/
def sights (d : Disk) (folder : FilePath) : List Location :=
  d.sights (folder.join fileName) ++ d.sights (folder.join repositoryMark)

/-- Another tree that looks the same up to where the search stops makes no difference to it. -/
theorem find_congr (h : StopsAt d start i folder)
    (hsame : ∀ j ≤ i, ∀ inner, start.outward j = some inner →
      ∀ seen ∈ sights d inner, t'.lookup seen = d.tree.lookup seen) :
    find ⟨t', d.here⟩ start = find d start := by
  have hhas (j : Nat) (hj : j ≤ i) (inner : FilePath) (hinner : start.outward j = some inner) :
      Disk.has ⟨t', d.here⟩ (inner.join fileName) = d.has (inner.join fileName) ∧
        Disk.has ⟨t', d.here⟩ (inner.join repositoryMark) = d.has (inner.join repositoryMark) := by
    obtain ⟨hfile, hmark⟩ := List.forall_mem_append.1 (hsame j hj inner hinner)
    exact ⟨Disk.has_congr hfile, Disk.has_congr hmark⟩
  have hends (j : Nat) (hj : j ≤ i) (inner : FilePath) (hinner : start.outward j = some inner) :
      Ends ⟨t', d.here⟩ inner ↔ Ends d inner := by
    obtain ⟨hfile, hmark⟩ := hhas j hj inner hinner
    rw [ends_iff_has, ends_iff_has, hfile, hmark]
  have hstop : StopsAt ⟨t', d.here⟩ start i folder := by
    refine ⟨h.outward, (hends i (Nat.le_refl i) _ h.outward).2 h.ends, fun j hj inner hinner => ?_⟩
    rw [hends j (Nat.le_of_lt hj) inner hinner]
    exact h.first j hj inner hinner
  rw [find_of_stopsAt hstop, find_of_stopsAt h, (hhas i (Nat.le_refl i) _ h.outward).1]

/-- The search goes outwards on its own way: there are no links, no name leads outwards, and no
folder on the way is called like what the search looks for. -/
structure IsPlain (d : Disk) (start : FilePath) : Prop where
  linkFree : d.tree.IsLinkFree
  inward : ".." ∉ start.way
  unmarked : ∀ name ∈ d.start start ++ start.way, name ≠ fileName ∧ name ≠ repositoryMark

/-- A configuration or the mark of a repository in a folder that is strictly further out. -/
def IsBeyond (here changed : Location) : Prop :=
  ∃ outer name, changed = outer ++ [name] ∧ (name = fileName ∨ name = repositoryMark) ∧
    outer <+: here ∧ outer ≠ here

theorem IsPlain.not_prefix {links : Nat} {here changed seen : Location} (hplain : IsPlain d start)
    (hi : start.outward i = some folder) (henters : d.Enters folder links here)
    (hbeyond : IsBeyond here changed) (hle : j ≤ i) (hj : start.outward j = some inner)
    (hseen : seen ∈ sights d inner) : ¬ changed <+: seen := by
  obtain ⟨hfree, hinward, hunmarked⟩ := hplain
  obtain ⟨outer, mark, rfl, hmark, hout, hne⟩ := hbeyond
  intro hprefix
  have hinner : inner.way <+: start.way :=
    FilePath.way_prefix_of_outward (Nat.zero_le j) rfl hj
  have hfolder : folder.way <+: inner.way := FilePath.way_prefix_of_outward hle hj hi
  have hstart {p : FilePath} (h : p.isAbsolute = start.isAbsolute) :
      d.start p = d.start start := by
    rw [Disk.start, h, Disk.start]
  have hhere : here = d.start start ++ folder.way := by
    rw [← hstart (FilePath.isAbsolute_of_outward hi)]
    exact henters.eq_of_isLinkFree hfree fun hup => hinward (hinner.subset (hfolder.subset hup))
  obtain ⟨name, hname, hsight⟩ : ∃ name, IsName name ∧ seen ∈ d.sights (inner.join name) := by
    rcases List.mem_append.1 hseen with h | h
    · exact ⟨_, isName_fileName, h⟩
    · exact ⟨_, isName_repositoryMark, h⟩
  have hup : ".." ∉ pathNames (inner.join name).text := fun hup => by
    have hway : ".." ∈ (inner.join name).way := FilePath.mem_way.2 ⟨hup, by decide⟩
    rw [FilePath.way_join hname, List.mem_append, List.mem_singleton] at hway
    exact hway.elim (fun h => hinward (hinner.subset h)) fun h => hname.inward h.symm
  obtain ⟨front, rest, -, rfl, hfront⟩ := FileTree.sights_of_isLinkFree hfree hup hsight
  have hjoin : d.start (inner.join name) = d.start start := by
    refine hstart ?_
    rw [FilePath.isAbsolute_join hname.slashless, FilePath.isAbsolute_of_outward hj]
  -- the changed entry is the last one that is looked up, for no folder in front has its name
  have hlast : outer ++ [mark] <+: d.start start ++ inner.way ++ [name] := by
    have hwhole : (inner.join name).way = front ++ rest := hfront
    rw [FilePath.way_join hname] at hwhole
    rw [hjoin] at hprefix
    rw [List.append_assoc, hwhole, ← List.append_assoc]
    exact hprefix.trans (List.prefix_append _ _)
  rcases List.prefix_concat_iff.1 hlast with heq | hin
  · obtain rfl : outer = d.start start ++ inner.way := (List.append_inj' heq rfl).1
    rw [hhere] at hout hne
    rw [List.prefix_append_right_inj] at hout
    exact hne (by rw [hout.eq_of_length_le hfolder.length_le])
  · have hmem : mark ∈ d.start start ++ start.way := by
      have hmark : mark ∈ d.start start ++ inner.way := hin.subset (by simp)
      exact List.mem_append.2 ((List.mem_append.1 hmark).imp_right fun h => hinner.subset h)
    obtain ⟨hfile, hgit⟩ := hunmarked mark hmem
    exact hmark.elim hfile hgit

/-- The search ends and finds the configuration of the first folder that has one, unless a folder in
front of it is the root of a repository. Entries that the search does not look at on its way there
make no difference, and on a plain way these are all entries further out. -/
theorem find_stops (d : Disk) (start : FilePath) :
    (∃ n, start.outward n = none) ∧
    (∀ file, find d start = some file ↔ ∃ i folder,
      start.outward i = some folder ∧ d.Contains folder fileName ∧
      (∀ j < i, ∀ inner, start.outward j = some inner →
        ¬ d.Contains inner fileName ∧ ¬ d.Contains inner repositoryMark) ∧
      file = folder.join fileName) ∧
    ∀ i folder, StopsAt d start i folder → ∀ t' changed, d.tree.DiffersAt t' changed →
      ((∀ j ≤ i, ∀ inner, start.outward j = some inner → ∀ seen ∈ sights d inner,
          ∀ c ∈ changed, ¬ c <+: seen) →
        find ⟨t', d.here⟩ start = find d start) ∧
      (IsPlain d start →
        (∀ links here, d.Enters folder links here → ∀ c ∈ changed, IsBeyond here c) →
        find ⟨t', d.here⟩ start = find d start) := by
  refine ⟨start.exists_outward_eq_none, fun file => ?_, fun i folder hstop t' changed hdiff => ?_⟩
  · rw [find_eq_some_iff]
    constructor
    · rintro ⟨i, folder, ⟨houtward, -, hfirst⟩, hfile, rfl⟩
      exact ⟨i, folder, houtward, hfile,
        fun j hj inner hinner => not_or.1 (hfirst j hj inner hinner), rfl⟩
    · rintro ⟨i, folder, houtward, hfile, hfirst, rfl⟩
      exact ⟨i, folder, ⟨houtward, .inl hfile, fun j hj inner hinner =>
        not_or.2 (hfirst j hj inner hinner)⟩, hfile, rfl⟩
  · have hunseen (h : ∀ j ≤ i, ∀ inner, start.outward j = some inner → ∀ seen ∈ sights d inner,
        ∀ c ∈ changed, ¬ c <+: seen) : find ⟨t', d.here⟩ start = find d start :=
      find_congr hstop fun j hj inner hinner seen hseen =>
        hdiff seen (h j hj inner hinner seen hseen)
    refine ⟨hunseen, fun hplain hbeyond => hunseen fun j hj inner hinner seen hseen c hc => ?_⟩
    obtain ⟨links, here, henters⟩ : ∃ links here, d.Enters folder links here := by
      rcases hstop.ends with h | h <;>
        obtain ⟨links, here, -, henters, -⟩ := h.entry <;> exact ⟨links, here, henters⟩
    exact hplain.not_prefix hstop.outward henters (hbeyond links here henters c hc) hj hinner hseen

end ConfigFile

def besideDisk : Disk where
  tree.entries :=
    [(["q"], .folder), (["q", ".bvtrimrc.json"], .file "\x7b\x7d".toUTF8),
      (["q", ".git"], .folder), (["q", "s"], .folder)]
  tree.increasing := by simp +decide
  tree.housed := by simp
  here := []

namespace besideDisk

def outerTree : FileTree where
  entries :=
    [([".bvtrimrc.json"], .file "\x7b\x7d".toUTF8), (["q"], .folder),
      (["q", ".bvtrimrc.json"], .file "\x7b\x7d".toUTF8), (["q", ".git"], .folder),
      (["q", "s"], .folder)]
  increasing := by simp +decide
  housed := by simp

theorem paths :
    (pathNames "q" = ["q"] ∧ pathNames "q/.bvtrimrc.json" = ["q", ".bvtrimrc.json"] ∧
      pathNames "q/s/.bvtrimrc.json" = ["q", "s", ".bvtrimrc.json"] ∧
      pathNames "q/s/.git" = ["q", "s", ".git"]) ∧
    FilePath.parent? ⟨"q/s"⟩ = some ⟨"q"⟩ ∧
    (FilePath.mk "q").join ConfigFile.fileName = ⟨"q/.bvtrimrc.json"⟩ ∧
    (FilePath.mk "q/s").join ConfigFile.fileName = ⟨"q/s/.bvtrimrc.json"⟩ ∧
    (FilePath.mk "q/s").join ConfigFile.repositoryMark = ⟨"q/s/.git"⟩ ∧
    (FilePath.mk "q/s").way = ["q", "s"] ∧ (FilePath.mk "q/s").isAbsolute = false := by
  decide +kernel

theorem outward_one : FilePath.outward ⟨"q/s"⟩ 1 = some ⟨"q"⟩ := paths.2.1

theorem has_eq : besideDisk.has ⟨"q/.bvtrimrc.json"⟩ = true ∧
    besideDisk.has ⟨"q/s/.bvtrimrc.json"⟩ = false ∧ besideDisk.has ⟨"q/s/.git"⟩ = false := by
  simp +decide [Disk.has, Disk.node, Disk.find, paths.1, FileTree.follow, FileTree.lookup,
    besideDisk, Except.map, Except.isOk]

theorem stopsAt : ConfigFile.StopsAt besideDisk ⟨"q/s"⟩ 1 ⟨"q"⟩ := by
  obtain ⟨-, -, hfile, hinner, hmark, -⟩ := paths
  have hhas := has_eq
  refine ⟨outward_one, ConfigFile.ends_iff_has.2 (.inl (hfile ▸ hhas.1)), fun j hj inner h => ?_⟩
  obtain rfl : j = 0 := by omega
  obtain rfl := Option.some.inj h
  rw [ConfigFile.ends_iff_has, hinner, hmark]
  simp [hhas]

theorem differsAt : besideDisk.tree.DiffersAt outerTree [[".bvtrimrc.json"]] :=
  @FileTree.differsAt_of_entries _ _ [] _ _ _ rfl rfl

theorem isPlain : ConfigFile.IsPlain besideDisk ⟨"q/s"⟩ := by
  obtain ⟨-, -, -, -, -, hway, hrelative⟩ := paths
  refine ⟨by simp [besideDisk, FileTree.IsLinkFree], by simp [hway], ?_⟩
  rw [hway, Disk.start, hrelative]
  simp +decide

theorem isBeyond {links : Nat} {here : Location} (h : besideDisk.Enters ⟨"q"⟩ links here) :
    ConfigFile.IsBeyond here [".bvtrimrc.json"] := by
  obtain ⟨hnames, -⟩ := paths
  have hstart : besideDisk.start ⟨"q"⟩ = [] := by simp [Disk.start, besideDisk]
  have hhere : here = ["q"] := by
    have heq := h.walks.eq_of_isLinkFree isPlain.linkFree (by simp [hnames])
    rw [hstart, hnames.1] at heq
    simpa +decide using heq
  exact ⟨[], _, rfl, .inl rfl, List.nil_prefix, by simp [hhere]⟩

end besideDisk

open besideDisk in
theorem ConfigFile.find_stops_beside :
    find besideDisk ⟨"q/s"⟩ = some ⟨"q/.bvtrimrc.json"⟩ ∧
    StopsAt besideDisk ⟨"q/s"⟩ 1 ⟨"q"⟩ ∧ IsPlain besideDisk ⟨"q/s"⟩ ∧
    besideDisk.tree.DiffersAt outerTree [[".bvtrimrc.json"]] ∧
    find ⟨outerTree, []⟩ ⟨"q/s"⟩ = find besideDisk ⟨"q/s"⟩ := by
  obtain ⟨-, hfind, hsame⟩ := find_stops besideDisk ⟨"q/s"⟩
  obtain ⟨-, hplain⟩ := hsame 1 ⟨"q"⟩ stopsAt outerTree _ differsAt
  obtain ⟨-, -, hfile, -⟩ := paths
  refine ⟨(hfind _).2 ⟨1, ⟨"q"⟩, outward_one, ?_, ?_, hfile.symm⟩, stopsAt, isPlain, differsAt,
    hplain isPlain fun links here h c hc => ?_⟩
  · rw [Disk.contains_iff_has isName_fileName, hfile]
    exact has_eq.1
  · exact fun j hj inner hinner => not_or.1 (stopsAt.first j hj inner hinner)
  · rw [List.mem_singleton] at hc
    exact hc ▸ isBeyond h

/-! ## Detours -/

def danglingDisk : Disk where
  tree.entries := [(["q"], .folder), (["q", ".bvtrimrc.json"], .link "nowhere")]
  tree.increasing := by simp +decide
  tree.housed := by simp
  here := []

namespace strayDisk

def nearerTree : FileTree where
  entries :=
    [(["p"], .folder), (["p", ".bvtrimrc.json"], .file "\x7b\"wrapLimit\":10\x7d".toUTF8),
      (["p", "src"], .folder), (["p", "src", ".bvtrimrc.json"], .file "\x7b\x7d".toUTF8),
      (["p", "src", "a"], .folder),
      (["p", "src", "a", ".bvtrimrc.json"], .file "\x7b\x7d".toUTF8)]
  increasing := by simp +decide
  housed := by simp

theorem stopsAt_up : ConfigFile.StopsAt (strayDisk []) ⟨"p/src/a/.."⟩ 1 ⟨"p/src/a"⟩ := by
  obtain ⟨hparent, -, -, hconfig, hmark, hinner, -⟩ := steps
  have hhas : (strayDisk []).has ⟨"p/src/a/../.bvtrimrc.json"⟩ = false ∧
      (strayDisk []).has ⟨"p/src/a/../.git"⟩ = false ∧
      (strayDisk []).has ⟨"p/src/a/.bvtrimrc.json"⟩ = true := by
    simp +decide [Disk.has, Disk.node, Disk.find, names.1, FileTree.follow, FileTree.lookup,
      strayDisk, Except.map, Except.isOk]
  refine ⟨hparent, ConfigFile.ends_iff_has.2 (.inl (hinner ▸ hhas.2.2)), fun j hj inner h => ?_⟩
  obtain rfl : j = 0 := by omega
  obtain rfl := Option.some.inj h
  rw [ConfigFile.ends_iff_has, hconfig, hmark]
  simp [hhas]

theorem differsAt_nearer :
    (strayDisk []).tree.DiffersAt nearerTree [["p", "src", ".bvtrimrc.json"]] :=
  @FileTree.differsAt_of_entries _ _ ((strayDisk []).tree.entries.take 3) _ _ _ rfl rfl

theorem find_nearer : ConfigFile.find ⟨nearerTree, []⟩ ⟨"p/src/a/.."⟩ =
    some ⟨"p/src/a/../.bvtrimrc.json"⟩ := by
  obtain ⟨hparent, -, -, hconfig, -⟩ := steps
  have hhas : Disk.has ⟨nearerTree, []⟩ ⟨"p/src/a/../.bvtrimrc.json"⟩ = true := by
    simp +decide [Disk.has, Disk.node, Disk.find, names.1, FileTree.follow, FileTree.lookup,
      nearerTree, Except.map, Except.isOk]
  have hends : ConfigFile.Ends ⟨nearerTree, []⟩ ⟨"p/src/a/.."⟩ :=
    ConfigFile.ends_iff_has.2 (.inl (hconfig ▸ hhas))
  rw [ConfigFile.find_of_ends hends, hconfig, if_pos hhas]

end strayDisk

open strayDisk in
/-- A link that leads nowhere is passed over. A way that leaves a folder again passes what is
strictly outside of that folder. -/
theorem ConfigFile.find_ne_of_detour :
    (danglingDisk.folderAt? ⟨"q"⟩ = some ["q"] ∧
      (danglingDisk.tree.lookup ["q", ".bvtrimrc.json"]).isSome ∧
      find danglingDisk ⟨"q"⟩ ≠ some ⟨"q/.bvtrimrc.json"⟩) ∧
    StopsAt (strayDisk []) ⟨"p/src/a/.."⟩ 1 ⟨"p/src/a"⟩ ∧
    (strayDisk []).folderAt? ⟨"p/src/a"⟩ = some ["p", "src", "a"] ∧
    (strayDisk []).tree.DiffersAt nearerTree [["p", "src", ".bvtrimrc.json"]] ∧
    IsBeyond ["p", "src", "a"] ["p", "src", ".bvtrimrc.json"] ∧
    find ⟨nearerTree, []⟩ ⟨"p/src/a/.."⟩ ≠ find (strayDisk []) ⟨"p/src/a/.."⟩ := by
  have hinner : pathNames "p/src/a" = ["p", "src", "a"] := by decide +kernel
  refine ⟨⟨?_, ?_, fun hfind => ?_⟩, stopsAt_up, ?_, differsAt_nearer, ?_, ?_⟩
  · simp +decide [Disk.folderAt?, Disk.find, besideDisk.paths.1, FileTree.follow, FileTree.lookup,
      danglingDisk]
  · rfl
  · have hhas : danglingDisk.has ⟨"q/.bvtrimrc.json"⟩ = false := by
      have htarget : pathNames "nowhere" = ["nowhere"] := by decide +kernel
      simp +decide [Disk.has, Disk.node, Disk.find, besideDisk.paths.1, htarget, FileTree.follow,
        FileTree.lookup, danglingDisk, Except.map, Except.isOk, maxLinks]
    rw [has_of_find hfind] at hhas
    cases hhas
  · simp +decide [Disk.folderAt?, Disk.find, hinner, FileTree.follow, FileTree.lookup, strayDisk]
  · exact ⟨["p", "src"], _, rfl, .inl rfl, ⟨["a"], rfl⟩, by simp⟩
  · rw [find_nearer, find_up]
    simp

end Registrar
