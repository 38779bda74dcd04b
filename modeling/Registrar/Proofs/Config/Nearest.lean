import Mathlib.Tactic.ByContra
import Registrar.Proofs.Files.Outer
import Registrar.Settings

/-! # The nearest configuration

The configuration of a folder stands in the nearest folder outwards that has one, but not beyond the
root of a repository. The search for it drops names from the text of a path. On a disk without links
it finds that configuration as long as no name of the path leads outwards, and as long as a relative
path starts inside the folder with the configuration. Other spellings of the same folder are a
different matter: the library is found through any of them, the configuration is not.
-/

namespace Registrar

open Registrar.Files

variable {d : Disk} {p q : FilePath} {links : Nat} {here inner outer : Location}

namespace ConfigFile

/-- The nearest folder from `inner` outwards that has a configuration, none of the folders on the
way being the root of a repository. -/
structure IsNearest (t : FileTree) (inner outer : Location) : Prop where
  outward : outer <+: inner
  holds : (t.lookup (outer ++ [fileName])).isSome
  passes : ∀ between, outer <+: between → between <+: inner → between ≠ outer →
    t.lookup (between ++ [fileName]) = none ∧ t.lookup (between ++ [repositoryMark]) = none

variable {t : FileTree}

theorem isNearest_self (h : (t.lookup (inner ++ [fileName])).isSome) :
    IsNearest t inner outer ↔ outer = inner := by
  constructor
  · intro hnearest
    by_contra hne
    have hpassed := (hnearest.passes inner hnearest.outward (List.prefix_refl _) (Ne.symm hne)).1
    rw [hpassed] at h
    cases h
  · rintro rfl
    refine ⟨List.prefix_refl _, h, fun between hout hin hne => ?_⟩
    exact absurd (hin.eq_of_length_le hout.length_le) hne

theorem IsNearest.ne (h : IsNearest t inner outer) (hnone : t.lookup (here ++ [fileName]) = none) :
    outer ≠ here := by
  rintro rfl
  have hholds := h.holds
  rw [hnone] at hholds
  cases hholds

theorem not_isNearest (hnone : t.lookup (inner ++ [fileName]) = none)
    (hmark : (t.lookup (inner ++ [repositoryMark])).isSome) : ¬ IsNearest t inner outer := by
  intro h
  have hpassed := (h.passes inner h.outward (List.prefix_refl _) (h.ne hnone).symm).2
  rw [hpassed] at hmark
  cases hmark

theorem isNearest_concat {name : String} (hnone : t.lookup (inner ++ [name] ++ [fileName]) = none)
    (hmark : t.lookup (inner ++ [name] ++ [repositoryMark]) = none) :
    IsNearest t (inner ++ [name]) outer ↔ IsNearest t inner outer := by
  constructor
  · intro h
    rcases List.prefix_concat_iff.1 h.outward with heq | houtward
    · exact absurd heq (h.ne hnone)
    · exact ⟨houtward, h.holds, fun between hout hin =>
        h.passes between hout (hin.trans (List.prefix_append _ _))⟩
  · intro h
    refine ⟨h.outward.trans (List.prefix_append _ _), h.holds, fun between hout hin hne => ?_⟩
    rcases List.prefix_concat_iff.1 hin with rfl | hin
    · exact ⟨hnone, hmark⟩
    · exact h.passes between hout hin hne

theorem IsNearest.unique {outer' : Location} (h : IsNearest t inner outer)
    (h' : IsNearest t inner outer') : outer = outer' := by
  by_contra hne
  rcases List.prefix_or_prefix_of_prefix h.outward h'.outward with hout | hout
  · exact h'.ne (h.passes outer' hout h'.outward (Ne.symm hne)).1 rfl
  · exact h.ne (h'.passes outer hout h.outward hne).1 rfl

theorem isName_fileName : IsName fileName := by
  constructor <;> decide

theorem isName_repositoryMark : IsName repositoryMark := by
  constructor <;> decide

def added : Nat := 1 + fileName.utf8ByteSize

/-- What the search finds in the folders that a path names. -/
inductive Finds (d : Disk) (p : FilePath) (here : Location) : Option FilePath → Prop
  | found {file : FilePath} {outer : Location} {node : Node} :
      IsNearest d.tree here outer → d.start p <+: outer →
      d.tree.lookup (outer ++ [fileName]) = some node →
      d.find true file = .ok (outer ++ [fileName], node) → Finds d p here (some file)
  | missed : (∀ outer, IsNearest d.tree here outer → ¬ d.start p <+: outer) → Finds d p here none

theorem Finds.congr {file : Option FilePath} (h : Finds d q inner file)
    (hstart : d.start q = d.start p)
    (hnearest : ∀ outer, IsNearest d.tree here outer ↔ IsNearest d.tree inner outer) :
    Finds d p here file := by
  cases h with
  | found hn hout hfile hfind => exact .found ((hnearest _).2 hn) (hstart ▸ hout) hfile hfind
  | missed hmissed =>
    exact .missed fun outer hn hout => hmissed outer ((hnearest _).1 hn) (hstart ▸ hout)

theorem has_join (hplain : d.tree.IsLinkFree) (h : d.Enters p links here) {name : String}
    (hname : IsName name) (hsize : p.text.utf8ByteSize + 1 + name.utf8ByteSize ≤ maxPathSize) :
    d.has (p.join name) = (d.tree.lookup (here ++ [name])).isSome := by
  have hjoin := Nat.le_trans (FilePath.size_join hname.slashless p) hsize
  rw [Disk.has, Disk.node, h.find_join_of_isLinkFree hplain hname hjoin]
  cases d.tree.lookup (here ++ [name]) <;> rfl

theorem finds_cons (hplain : d.tree.IsLinkFree) (h : d.Enters p links here)
    (hinside : d.start p <+: here) (hroom : p.text.utf8ByteSize + added ≤ maxPathSize)
    {folders : List FilePath}
    (houter : d.tree.lookup (here ++ [fileName]) = none →
      d.tree.lookup (here ++ [repositoryMark]) = none → Finds d p here (findAmong d folders)) :
    Finds d p here (findAmong d (p :: folders)) := by
  have hsize : fileName.utf8ByteSize = 14 ∧ repositoryMark.utf8ByteSize = 4 := by decide
  rw [added] at hroom
  have hconfig := has_join hplain h isName_fileName (by omega)
  have hmark := has_join hplain h isName_repositoryMark (by omega)
  rw [findAmong, hconfig, hmark]
  cases hfile : d.tree.lookup (here ++ [fileName]) with
  | some node =>
    have hjoin := FilePath.size_join isName_fileName.slashless p
    have hfind := h.find_join_of_isLinkFree hplain isName_fileName (by omega)
    rw [hfile] at hfind
    exact .found ((isNearest_self (by rw [hfile]; rfl)).2 rfl) hinside hfile hfind
  | none =>
    cases hgit : d.tree.lookup (here ++ [repositoryMark]) with
    | some node => exact .missed fun outer hn => absurd hn (not_isNearest hfile (by rw [hgit]; rfl))
    | none => exact houter hfile hgit

theorem finds_ancestors (hplain : d.tree.IsLinkFree) (h : d.Enters p links here)
    (hup : ".." ∉ p.way) (hroom : p.text.utf8ByteSize + added ≤ maxPathSize) :
    Finds d p here (findAmong d p.ancestors) := by
  induction p using FilePath.ancestors.induct generalizing links here with
  | case1 p ih =>
    have hhere : here = d.start p ++ p.way := h.eq_of_isLinkFree hplain hup
    have hinside : d.start p <+: here := ⟨p.way, hhere.symm⟩
    cases hparent : p.parent? with
    | none =>
      rw [FilePath.ancestors_of_parent?_eq_none hparent]
      refine finds_cons hplain h hinside hroom fun hfile _ => .missed fun outer hn hout => ?_
      -- the search has come to where the path starts
      rw [FilePath.way_of_parent?_eq_none hparent, List.append_nil] at hhere
      exact hn.ne hfile (hn.outward.eq_of_length_le (hhere ▸ hout.length_le))
    | some q =>
      rw [FilePath.ancestors_of_parent? hparent]
      refine finds_cons hplain h hinside hroom fun hfile hgit => ?_
      obtain ⟨links', mid, henters⟩ := h.parent hparent
      obtain ⟨rest, hway, hrest⟩ := FilePath.way_of_parent? hparent
      have hup' : ".." ∉ q.way := fun hmem => hup (hway ▸ List.mem_append_left rest hmem)
      have hshort := FilePath.size_of_parent? hparent
      have hstart : d.start q = d.start p := Disk.start_of_parent? hparent
      have hmid : mid = d.start q ++ q.way := henters.eq_of_isLinkFree hplain hup'
      obtain rfl : here = mid ++ rest := by
        rw [hhere, hmid, hstart, hway, List.append_assoc]
      refine (ih q hparent henters hup' (by omega)).congr hstart fun outer => ?_
      match rest, hrest with
      | [], _ => rw [List.append_nil]
      | [name], _ => exact isNearest_concat hfile hgit

/-- A path to a folder that the search can follow: no name of it leads outwards, and a
configuration may be joined to it. -/
structure Spells (d : Disk) (p : FilePath) (here : Location) : Prop where
  leads : d.folderAt? p = some here
  inward : ".." ∉ pathNames p.text
  room : p.text.utf8ByteSize + added ≤ maxPathSize

/-- A relative path starts inside the folder with the nearest configuration. -/
def Reaches (d : Disk) (p : FilePath) (here : Location) : Prop :=
  ∀ outer, IsNearest d.tree here outer → p.isAbsolute = true ∨ d.here <+: outer

theorem start_prefix_iff : d.start p <+: outer ↔ p.isAbsolute = true ∨ d.here <+: outer := by
  rw [Disk.start]
  cases p.isAbsolute <;> simp

theorem Spells.finds (hplain : d.tree.IsLinkFree) (h : Spells d p here) :
    Finds d p here (find d p) := by
  obtain ⟨links, henters⟩ := Disk.enters_of_folderAt? h.leads
  have hup : ".." ∉ p.way := fun hmem => h.inward (FilePath.mem_way.1 hmem).1
  exact finds_ancestors hplain henters hup h.room

theorem map_find_of_isNearest (hplain : d.tree.IsLinkFree) (h : Spells d p here) {node : Node}
    (hn : IsNearest d.tree here outer) (hout : d.start p <+: outer)
    (hnode : d.tree.lookup (outer ++ [fileName]) = some node) :
    (find d p).map (d.find true) = some (.ok (outer ++ [fileName], node)) := by
  have hfinds := h.finds hplain
  cases hfind : find d p with
  | none =>
    rw [hfind] at hfinds
    cases hfinds with
    | missed hmissed => exact absurd hout (hmissed outer hn)
  | some file =>
    rw [hfind] at hfinds
    cases hfinds with
    | found hn' _ hnode' hfile =>
      obtain rfl := hn.unique hn'
      rw [hnode] at hnode'
      rw [Option.map_some, hfile, Option.some.inj hnode']

theorem exists_isNearest_of_find (hplain : d.tree.IsLinkFree) (h : Spells d p here)
    {file : FilePath} (hfind : find d p = some file) : ∃ outer node,
      IsNearest d.tree here outer ∧ d.start p <+: outer ∧
        d.find true file = .ok (outer ++ [fileName], node) := by
  have hfinds := h.finds hplain
  rw [hfind] at hfinds
  cases hfinds with
  | found hn hout _ hfile => exact ⟨_, _, hn, hout, hfile⟩

/-- The search finds the nearest configuration, unless a relative path starts further inwards. -/
theorem exists_find_iff (hplain : d.tree.IsLinkFree) (h : Spells d p here) :
    (∃ file, find d p = some file ∧ d.resolve file = .ok (outer ++ [fileName])) ↔
      IsNearest d.tree here outer ∧ (p.isAbsolute = true ∨ d.here <+: outer) := by
  rw [← start_prefix_iff]
  constructor
  · rintro ⟨file, hfind, hresolve⟩
    obtain ⟨outer', node, hn, hout, hfile⟩ := exists_isNearest_of_find hplain h hfind
    rw [Disk.resolve, hfile] at hresolve
    obtain rfl : outer' = outer := List.append_cancel_right (Except.ok.inj hresolve)
    exact ⟨hn, hout⟩
  · rintro ⟨hn, hout⟩
    obtain ⟨node, hnode⟩ := Option.isSome_iff_exists.1 hn.holds
    obtain ⟨file, hfind, hfile⟩ :=
      Option.map_eq_some_iff.1 (map_find_of_isNearest hplain h hn hout hnode)
    exact ⟨file, hfind, by rw [Disk.resolve, hfile]; rfl⟩

theorem map_find_eq (hplain : d.tree.IsLinkFree) (hp : Spells d p here) (hq : Spells d q here)
    (hreach : Reaches d p here) (hreach' : Reaches d q here) :
    (find d p).map (d.find true) = (find d q).map (d.find true) := by
  by_cases hex : ∃ outer, IsNearest d.tree here outer
  · obtain ⟨outer, hn⟩ := hex
    obtain ⟨node, hnode⟩ := Option.isSome_iff_exists.1 hn.holds
    rw [map_find_of_isNearest hplain hp hn (start_prefix_iff.2 (hreach outer hn)) hnode,
      map_find_of_isNearest hplain hq hn (start_prefix_iff.2 (hreach' outer hn)) hnode]
  · have hnone {p : FilePath} (h : Spells d p here) : find d p = none := by
      cases hfind : find d p with
      | none => rfl
      | some file =>
        obtain ⟨outer, -, hn, -⟩ := exists_isNearest_of_find hplain h hfind
        exact absurd ⟨outer, hn⟩ hex
    rw [hnone hp, hnone hq]

end ConfigFile

namespace LoadedConfig

theorem ofFile_congr {file file' : FilePath} (h : d.find true file = d.find true file') :
    (ofFile d file).toOption.map (·.config) = (ofFile d file').toOption.map (·.config) := by
  have htext : d.readText file = d.readText file' := by
    rw [Disk.readText, Disk.node, h, Disk.readText, Disk.node]
  unfold ofFile
  rw [htext]
  cases d.readText file' with
  | error _ => rfl
  | ok text =>
    simp only [Except.mapError, bind, Except.bind]
    cases Config.read text with
    | error _ => rfl
    | ok config =>
      dsimp only
      cases config.fault? <;> rfl

theorem load_congr (h : (ConfigFile.find d p).map (d.find true) =
    (ConfigFile.find d q).map (d.find true)) :
    (load d p).toOption.map (·.config) = (load d q).toOption.map (·.config) := by
  unfold load
  cases hp : ConfigFile.find d p with
  | none =>
    cases hq : ConfigFile.find d q with
    | none => rfl
    | some _ => simp [hp, hq] at h
  | some file =>
    cases hq : ConfigFile.find d q with
    | none => simp [hp, hq] at h
    | some file' =>
      rw [hp, hq] at h
      exact ofFile_congr (Option.some.inj h)

end LoadedConfig

theorem Settings.exists_of_resolve {profile : Profile} {arguments : Arguments}
    {verbose : Option String} {settings : Settings}
    (h : resolve d profile arguments verbose = .ok settings) :
    ∃ loaded libraryRoot, LoadedConfig.load d ⟨arguments.markupRoot⟩ = .ok loaded ∧
      Library.resolve d profile ((arguments.givenLibrary?.map FilePath.mk).or loaded.libraryRoot?)
        ⟨arguments.markupRoot⟩ = .ok libraryRoot ∧
      settings =
        { options :=
            { markupRoot := ⟨arguments.markupRoot⟩, libraryRoot
              extensions := loaded.config.extensions, ignores := loaded.config.ignores
              layout := layout arguments loaded.config }
          verbose := loaded.config.verbose || verbose.any saysYes
          configPath := loaded.path } := by
  simp only [resolve] at h
  cases hfolder : d.isFolder ⟨arguments.markupRoot⟩ with
  | false =>
    rw [hfolder] at h
    cases h
  | true =>
    cases hload : LoadedConfig.load d ⟨arguments.markupRoot⟩ with
    | error _ =>
      rw [hfolder, hload] at h
      cases h
    | ok loaded =>
      simp only [hfolder, hload, Except.mapError, bind, Except.bind] at h
      cases hlibrary : Library.resolve d profile
        ((arguments.givenLibrary?.map FilePath.mk).or loaded.libraryRoot?)
          ⟨arguments.markupRoot⟩ with
      | error _ =>
        rw [hlibrary] at h
        cases h
      | ok root =>
        rw [hlibrary] at h
        exact ⟨loaded, root, rfl, hlibrary, (Except.ok.inj h).symm⟩

theorem Settings.exists_load_of_resolve {profile : Profile} {arguments : Arguments}
    {verbose : Option String} {settings : Settings}
    (h : resolve d profile arguments verbose = .ok settings) :
    ∃ loaded, LoadedConfig.load d ⟨arguments.markupRoot⟩ = .ok loaded ∧
      settings.options.layout = layout arguments loaded.config ∧
      settings.options.extensions = loaded.config.extensions ∧
      settings.options.ignores = loaded.config.ignores ∧
      settings.verbose = (loaded.config.verbose || verbose.any saysYes) := by
  obtain ⟨loaded, _, hload, _, rfl⟩ := exists_of_resolve h
  exact ⟨loaded, hload, rfl, rfl, rfl, rfl⟩

theorem Library.locate_congr (h : d.folderAt? p = some here) (h' : d.folderAt? q = some here)
    (profile : Profile) : locate d profile p = locate d profile q := by
  have hcanonical {p : FilePath} (h : d.folderAt? p = some here) :
      d.canonical p = .ok (Disk.absolute here) := by
    rw [Disk.canonical, Disk.resolve, Disk.folderAt?_eq_some_iff.1 h]
    rfl
  rw [locate, locate, hcanonical h, hcanonical h']

/-- The search finds the nearest configuration from any path that it can follow, as far as a
relative path reaches. Two such paths to one folder lead to the same configuration and give the same
settings. The library that is found is the same for all paths to the folder. -/
theorem ConfigFile.find_nearest (hplain : d.tree.IsLinkFree) (here : Location) :
    (∀ p, Spells d p here → ∀ outer,
      (∃ file, find d p = some file ∧ d.resolve file = .ok (outer ++ [fileName])) ↔
        IsNearest d.tree here outer ∧ (p.isAbsolute = true ∨ d.here <+: outer)) ∧
    (∀ p q, Spells d p here → Spells d q here → Reaches d p here → Reaches d q here →
      (find d p).map d.resolve = (find d q).map d.resolve ∧
      (LoadedConfig.load d p).toOption.map (·.config) =
        (LoadedConfig.load d q).toOption.map (·.config) ∧
      ∀ (profile : Profile) (arguments : Arguments) (verbose : Option String)
        (settings settings' : Settings),
        Settings.resolve d profile { arguments with markupRoot := p.text } verbose =
          .ok settings →
        Settings.resolve d profile { arguments with markupRoot := q.text } verbose =
          .ok settings' →
        settings.options.layout = settings'.options.layout ∧
          settings.options.extensions = settings'.options.extensions ∧
          settings.options.ignores = settings'.options.ignores ∧
          settings.verbose = settings'.verbose) ∧
    ∀ p q, d.folderAt? p = some here → d.folderAt? q = some here → ∀ profile,
      Library.locate d profile p = Library.locate d profile q := by
  refine ⟨fun p hp outer => exists_find_iff hplain hp, fun p q hp hq hreach hreach' => ?_,
    fun p q hp hq => Library.locate_congr hp hq⟩
  have hfind := map_find_eq hplain hp hq hreach hreach'
  have hload := LoadedConfig.load_congr hfind
  refine ⟨?_, hload, fun profile arguments verbose settings settings' h h' => ?_⟩
  · have hresolve := congrArg (Option.map (Except.map Prod.fst)) hfind
    rw [Option.map_map, Option.map_map] at hresolve
    exact hresolve
  · obtain ⟨loaded, hl, hlayout, hextensions, hignores, hverbose⟩ :=
      Settings.exists_load_of_resolve h
    obtain ⟨loaded', hl', hlayout', hextensions', hignores', hverbose'⟩ :=
      Settings.exists_load_of_resolve h'
    rw [hl, hl'] at hload
    have hconfig : loaded.config = loaded'.config := Option.some.inj hload
    rw [hlayout, hlayout', hextensions, hextensions', hignores, hignores', hverbose, hverbose',
      hconfig]
    exact ⟨rfl, rfl, rfl, rfl⟩

/-! ## Spellings that the search cannot follow -/

/-- A folder with a configuration, and one further inwards, next to what is searched from. -/
def strayDisk (here : Location) : Disk where
  tree.entries :=
    [(["p"], .folder), (["p", ".bvtrimrc.json"], .file "\x7b\"wrapLimit\":10\x7d".toUTF8),
      (["p", "src"], .folder), (["p", "src", "a"], .folder),
      (["p", "src", "a", ".bvtrimrc.json"], .file "\x7b\x7d".toUTF8)]
  tree.increasing := by simp +decide
  tree.housed := by simp
  here := here

namespace strayDisk

theorem names :
    (pathNames "p/src" = ["p", "src"] ∧ pathNames "p/src/a/.." = ["p", "src", "a", ".."] ∧
      pathNames "/p/src" = ["", "p", "src"] ∧ pathNames "." = ["."] ∧
      pathNames "p/src/a/../.bvtrimrc.json" = ["p", "src", "a", "..", ".bvtrimrc.json"] ∧
      pathNames "p/src/a/../.git" = ["p", "src", "a", "..", ".git"] ∧
      pathNames "p/src/a/.bvtrimrc.json" = ["p", "src", "a", ".bvtrimrc.json"] ∧
      pathNames "./.bvtrimrc.json" = [".", ".bvtrimrc.json"] ∧
      pathNames "./.git" = [".", ".git"] ∧ pathNames ".bvtrimrc.json" = [".bvtrimrc.json"] ∧
      pathNames ".git" = [".git"]) ∧
    (".." ∉ pathNames "p/src" ∧ "p/src".utf8ByteSize + ConfigFile.added ≤ maxPathSize) ∧
    (".." ∉ pathNames "/p/src" ∧ "/p/src".utf8ByteSize + ConfigFile.added ≤ maxPathSize) ∧
    (FilePath.mk "/p/src").isAbsolute = true := by
  decide +kernel

theorem steps :
    FilePath.parent? ⟨"p/src/a/.."⟩ = some ⟨"p/src/a"⟩ ∧ FilePath.parent? ⟨"."⟩ = some ⟨""⟩ ∧
    FilePath.parent? ⟨""⟩ = none ∧
    (FilePath.mk "p/src/a/..").join ConfigFile.fileName = ⟨"p/src/a/../.bvtrimrc.json"⟩ ∧
    (FilePath.mk "p/src/a/..").join ConfigFile.repositoryMark = ⟨"p/src/a/../.git"⟩ ∧
    (FilePath.mk "p/src/a").join ConfigFile.fileName = ⟨"p/src/a/.bvtrimrc.json"⟩ ∧
    (FilePath.mk ".").join ConfigFile.fileName = ⟨"./.bvtrimrc.json"⟩ ∧
    (FilePath.mk ".").join ConfigFile.repositoryMark = ⟨"./.git"⟩ ∧
    (FilePath.mk "").join ConfigFile.fileName = ⟨".bvtrimrc.json"⟩ ∧
    (FilePath.mk "").join ConfigFile.repositoryMark = ⟨".git"⟩ := by
  decide +kernel

theorem isLinkFree (here : Location) : (strayDisk here).tree.IsLinkFree := by
  simp [strayDisk, FileTree.IsLinkFree]

theorem isNearest (here : Location) :
    ConfigFile.IsNearest (strayDisk here).tree ["p", "src"] ["p"] := by
  have hnone : (strayDisk here).tree.lookup (["p"] ++ ["src"] ++ [ConfigFile.fileName]) = none ∧
      (strayDisk here).tree.lookup (["p"] ++ ["src"] ++ [ConfigFile.repositoryMark]) = none := by
    simp +decide [FileTree.lookup, strayDisk]
  have hsome : ((strayDisk here).tree.lookup (["p"] ++ [ConfigFile.fileName])).isSome := by
    simp +decide [FileTree.lookup, strayDisk]
  exact (ConfigFile.isNearest_concat hnone.1 hnone.2).2 ((ConfigFile.isNearest_self hsome).2 rfl)

theorem folderAt?_eq (here : Location) :
    (strayDisk []).folderAt? ⟨"p/src"⟩ = some ["p", "src"] ∧
      (strayDisk []).folderAt? ⟨"p/src/a/.."⟩ = some ["p", "src"] ∧
      (strayDisk here).folderAt? ⟨"/p/src"⟩ = some ["p", "src"] ∧
      (strayDisk ["p", "src"]).folderAt? ⟨"."⟩ = some ["p", "src"] := by
  simp +decide [Disk.folderAt?, Disk.find, names.1, FileTree.follow, FileTree.lookup, strayDisk]

theorem spells (here : Location) :
    ConfigFile.Spells (strayDisk []) ⟨"p/src"⟩ ["p", "src"] ∧
      ConfigFile.Spells (strayDisk here) ⟨"/p/src"⟩ ["p", "src"] := by
  obtain ⟨hleads, -, hleads', -⟩ := folderAt?_eq here
  obtain ⟨-, ⟨hinward, hroom⟩, ⟨hinward', hroom'⟩, -⟩ := names
  exact ⟨⟨hleads, hinward, hroom⟩, ⟨hleads', hinward', hroom'⟩⟩

theorem map_resolve_find (here : Location) :
    (ConfigFile.find (strayDisk []) ⟨"p/src"⟩).map (strayDisk []).resolve =
        some (.ok ["p", ConfigFile.fileName]) ∧
      (ConfigFile.find (strayDisk here) ⟨"/p/src"⟩).map (strayDisk here).resolve =
        some (.ok ["p", ConfigFile.fileName]) := by
  obtain ⟨hsrc, hroot⟩ := spells here
  obtain ⟨-, -, -, habsolute⟩ := names
  obtain ⟨file, hfind, hresolve⟩ := (ConfigFile.exists_find_iff (isLinkFree _) hsrc).2
    ⟨isNearest _, .inr List.nil_prefix⟩
  obtain ⟨file', hfind', hresolve'⟩ := (ConfigFile.exists_find_iff (isLinkFree _) hroot).2
    ⟨isNearest _, .inl habsolute⟩
  rw [hfind, hfind', Option.map_some, Option.map_some, hresolve, hresolve']
  exact ⟨rfl, rfl⟩

theorem find_up : ConfigFile.find (strayDisk []) ⟨"p/src/a/.."⟩ =
    some ⟨"p/src/a/.bvtrimrc.json"⟩ := by
  obtain ⟨hparent, -, -, hconfig, hmark, hinner, -⟩ := steps
  have hhas : (strayDisk []).has ⟨"p/src/a/../.bvtrimrc.json"⟩ = false ∧
      (strayDisk []).has ⟨"p/src/a/../.git"⟩ = false ∧
      (strayDisk []).has ⟨"p/src/a/.bvtrimrc.json"⟩ = true := by
    simp +decide [Disk.has, Disk.node, Disk.find, names.1, FileTree.follow, FileTree.lookup,
      strayDisk, Except.map, Except.isOk]
  rw [ConfigFile.find, FilePath.ancestors_of_parent? hparent, FilePath.ancestors]
  simp [ConfigFile.findAmong, hconfig, hmark, hinner, hhas]

theorem find_dot : ConfigFile.find (strayDisk ["p", "src"]) ⟨"."⟩ = none := by
  obtain ⟨-, hparent, hstart, -, -, -, hjoin⟩ := steps
  have hhas : ∀ p ∈ [FilePath.mk "./.bvtrimrc.json", ⟨"./.git"⟩, ⟨".bvtrimrc.json"⟩, ⟨".git"⟩],
      (strayDisk ["p", "src"]).has p = false := by
    simp +decide [Disk.has, Disk.node, Disk.find, names.1, FileTree.follow, FileTree.lookup,
      strayDisk, Except.map, Except.isOk]
  simp only [List.forall_mem_cons] at hhas
  rw [ConfigFile.find, FilePath.ancestors_of_parent? hparent,
    FilePath.ancestors_of_parent?_eq_none hstart]
  simp [ConfigFile.findAmong, hjoin, hhas]

end strayDisk

open ConfigFile strayDisk in
theorem ConfigFile.find_nearest_stray :
    (∃ file, find (strayDisk []) ⟨"p/src"⟩ = some file ∧
      (strayDisk []).resolve file = .ok ["p", ".bvtrimrc.json"]) ∧
    (LoadedConfig.load (strayDisk []) ⟨"p/src"⟩).toOption.map (·.config) =
      (LoadedConfig.load (strayDisk []) ⟨"/p/src"⟩).toOption.map (·.config) ∧
    Library.locate (strayDisk []) bootstrapVue ⟨"p/src/a/.."⟩ =
      Library.locate (strayDisk []) bootstrapVue ⟨"p/src"⟩ := by
  obtain ⟨hfind, hsame, hlocate⟩ := find_nearest (isLinkFree []) ["p", "src"]
  obtain ⟨hp, hroot⟩ := spells []
  obtain ⟨hleads, hleads', -⟩ := folderAt?_eq []
  have hreach (p : FilePath) : Reaches (strayDisk []) p ["p", "src"] :=
    fun _ _ => .inr List.nil_prefix
  refine ⟨(hfind _ hp ["p"]).2 ⟨isNearest _, .inr List.nil_prefix⟩, ?_, ?_⟩
  · exact (hsame _ _ hp hroot (hreach _) (hreach _)).2.1
  · exact hlocate _ _ hleads' hleads _

open ConfigFile strayDisk in
/-- From a path that leaves a folder again the configuration in that folder is found. A path that
starts further inwards than the configuration does not lead to it at all. -/
theorem ConfigFile.find_ne_of_spelling :
    (strayDisk []).folderAt? ⟨"p/src/a/.."⟩ = (strayDisk []).folderAt? ⟨"p/src"⟩ ∧
    (find (strayDisk []) ⟨"p/src/a/.."⟩).map (strayDisk []).resolve ≠
      (find (strayDisk []) ⟨"p/src"⟩).map (strayDisk []).resolve ∧
    (strayDisk ["p", "src"]).folderAt? ⟨"."⟩ = (strayDisk ["p", "src"]).folderAt? ⟨"/p/src"⟩ ∧
    (find (strayDisk ["p", "src"]) ⟨"."⟩).map (strayDisk ["p", "src"]).resolve ≠
      (find (strayDisk ["p", "src"]) ⟨"/p/src"⟩).map (strayDisk ["p", "src"]).resolve := by
  obtain ⟨hsrc, hup, hroot, hdot⟩ := folderAt?_eq ["p", "src"]
  obtain ⟨hfind, -⟩ := map_resolve_find []
  obtain ⟨-, hfind'⟩ := map_resolve_find ["p", "src"]
  have hinner : (strayDisk []).resolve ⟨"p/src/a/.bvtrimrc.json"⟩ =
      .ok ["p", "src", "a", ".bvtrimrc.json"] := by
    simp +decide [Disk.resolve, Disk.find, names.1, FileTree.follow, FileTree.lookup, strayDisk,
      Except.map]
  refine ⟨hup.trans hsrc.symm, ?_, hdot.trans hroot.symm, ?_⟩
  · rw [hfind, find_up, Option.map_some, hinner]
    simp
  · rw [hfind', find_dot]
    simp

end Registrar
