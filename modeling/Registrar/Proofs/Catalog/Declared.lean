import Registrar.Proofs.Files.Entries
import Registrar.Proofs.Files.Extension
import Registrar.Proofs.Generation.Sources
import Registrar.Proofs.Generation.Usage

/-! # What a library declares

A catalog is loaded if one file lists exported string constants and nothing else, and the entry file
of every folder of a directive is a module. It then holds the values of these constants and the
names that the entry files declare as exports, whatever else stands in the folders.
-/

namespace Registrar

open Registrar.Files
open Registrar.Module (Declarator Item)

variable {d : Disk} {profile : Profile} {root folder path : FilePath} {t : FileTree}
  {items : List Item} {names : List String} {name extension : String} {home : Location}

/-! ## Declarations among the items of a file -/

namespace Declarations

/-- Nothing but exported constants whose values are strings, and one of them at least. -/
structure IsListing (items : List Item) : Prop where
  constants : ∀ item ∈ items, ∃ ds, item = .exportVariables ds ∧
    ∀ d ∈ ds, ∃ value, d.init = some (.literal (some value))
  inhabited : ∃ ds, Item.exportVariables ds ∈ items ∧ ds ≠ []

/-- A string that an exported constant stands for. -/
def Lists (items : List Item) (value : String) : Prop :=
  ∃ ds, Item.exportVariables ds ∈ items ∧ ∃ d ∈ ds, d.init = some (.literal (some value))

inductive Exports (items : List Item) (name : String) : Prop
  | variable {ds : List Declarator} {d : Declarator} (hitem : .exportVariables ds ∈ items)
      (hd : d ∈ ds) (hname : d.name = some name)
  | function (hitem : .exportFunction name ∈ items)
  | class (hitem : .exportClass name ∈ items)

theorem value_eq_ok_iff {d : Declarator} {value : String} :
    Declarations.value d = .ok value ↔ d.init = some (.literal (some value)) := by
  unfold Declarations.value
  split <;> simp_all

theorem itemValues_eq_ok_iff {item : Item} {values : List String} :
    itemValues item = .ok values ↔
      ∃ ds, item = .exportVariables ds ∧ ds.mapM Declarations.value = .ok values := by
  cases item <;> simp [itemValues]

theorem exists_itemValues_iff {item : Item} : (∃ values, itemValues item = .ok values) ↔
    ∃ ds, item = .exportVariables ds ∧
      ∀ d ∈ ds, ∃ value, d.init = some (.literal (some value)) := by
  simp only [itemValues_eq_ok_iff, ← value_eq_ok_iff, ← exists_mapM_eq_ok_iff]
  exact ⟨fun ⟨values, ds, hitem, hvalues⟩ => ⟨ds, hitem, values, hvalues⟩,
    fun ⟨ds, hitem, values, hvalues⟩ => ⟨values, ds, hitem, hvalues⟩⟩

theorem exists_componentNames_iff : (∃ names, componentNames items = .ok names) ↔
    ∀ item ∈ items, ∃ ds, item = .exportVariables ds ∧
      ∀ d ∈ ds, ∃ value, d.init = some (.literal (some value)) := by
  simp only [← exists_itemValues_iff, ← exists_mapM_eq_ok_iff, componentNames]
  cases items.mapM itemValues <;> simp [Except.map]

theorem mem_componentNames_iff (h : componentNames items = .ok names) :
    name ∈ names ↔ Lists items name := by
  unfold componentNames at h
  cases hvalues : items.mapM itemValues with
  | error fault => simp [hvalues, Except.map] at h
  | ok values =>
    obtain rfl : values.flatten = names := by simpa [hvalues, Except.map] using h
    rw [List.mem_flatten]
    constructor
    · rintro ⟨ofItem, hofItem, hname⟩
      obtain ⟨item, hitem, hok⟩ := (mem_iff_of_mapM_eq_ok hvalues _).1 hofItem
      obtain ⟨ds, rfl, hds⟩ := itemValues_eq_ok_iff.1 hok
      obtain ⟨d, hd, hvalue⟩ := (mem_iff_of_mapM_eq_ok hds _).1 hname
      exact ⟨ds, hitem, d, hd, value_eq_ok_iff.1 hvalue⟩
    · rintro ⟨ds, hitem, d, hd, hinit⟩
      obtain ⟨ofItem, hok⟩ := exists_mapM_eq_ok_iff.1 ⟨values, hvalues⟩ _ hitem
      refine ⟨ofItem, (mem_iff_of_mapM_eq_ok hvalues _).2 ⟨_, hitem, hok⟩, ?_⟩
      exact (mem_iff_of_mapM_eq_ok hok _).2 ⟨d, hd, value_eq_ok_iff.2 hinit⟩

theorem isListing_iff : IsListing items ↔ ∃ names, componentNames items = .ok names ∧
    names ≠ [] := by
  constructor
  · rintro ⟨hconstants, ds, hitem, hne⟩
    obtain ⟨names, hnames⟩ := exists_componentNames_iff.2 hconstants
    obtain ⟨d, hd⟩ := List.exists_mem_of_ne_nil ds hne
    obtain ⟨_, heq, hds⟩ := hconstants _ hitem
    obtain rfl := Item.exportVariables.inj heq
    obtain ⟨value, hvalue⟩ := hds d hd
    have hmem : value ∈ names := (mem_componentNames_iff hnames).2 ⟨ds, hitem, d, hd, hvalue⟩
    exact ⟨names, hnames, List.ne_nil_of_mem hmem⟩
  · rintro ⟨names, hnames, hne⟩
    obtain ⟨name, hname⟩ := List.exists_mem_of_ne_nil names hne
    obtain ⟨ds, hitem, d, hd, -⟩ := (mem_componentNames_iff hnames).1 hname
    exact ⟨exists_componentNames_iff.1 ⟨names, hnames⟩, ds, hitem, List.ne_nil_of_mem hd⟩

theorem mem_exportedNames_iff : name ∈ exportedNames items ↔ Exports items name := by
  rw [exportedNames, List.mem_flatMap]
  constructor
  · rintro ⟨item, hitem, hname⟩
    cases item with
    | exportVariables ds =>
      obtain ⟨d, hd, hname⟩ := List.mem_filterMap.1 hname
      exact .variable hitem hd hname
    | exportFunction _ =>
      obtain rfl := List.mem_singleton.1 hname
      exact .function hitem
    | exportClass _ =>
      obtain rfl := List.mem_singleton.1 hname
      exact .class hitem
    | other => cases hname
  · rintro (⟨hitem, hd, hname⟩ | hitem | hitem)
    · exact ⟨_, hitem, List.mem_filterMap.2 ⟨_, hd, hname⟩⟩
    · exact ⟨_, hitem, List.mem_singleton_self name⟩
    · exact ⟨_, hitem, List.mem_singleton_self name⟩

end Declarations

namespace Catalog

/-! ## Entry files -/

/-- A folder in another that holds a file of its own name. -/
def IsEntryFolder (t : FileTree) (extension : String) (home : Location) (name : String) : Prop :=
  name ≠ "" ∧ t.lookup (home ++ [name]) = some .folder ∧
    ∃ content, t.lookup (home ++ [name, name ++ "." ++ extension]) = some (.file content)

def entryFile (extension : String) (folder : FilePath) (name : String) : FilePath :=
  (folder.join name).join (name ++ "." ++ extension)

def IsEntryFile (d : Disk) (profile : Profile) (root path : FilePath) : Prop :=
  ∃ home name, d.folderAt? (profile.directivesPath root) = some home ∧
    IsEntryFolder d.tree profile.sourceExtension home name ∧
    path = entryFile profile.sourceExtension (profile.directivesPath root) name

/-- The folder whose entry file an entry is, two names away. -/
def entryFolder? (extension : String) : Entry → Option String
  | ([inner, file], .file _) => if isEntryName extension inner file then some inner else none
  | _ => none

def entryFolders (t : FileTree) (extension : String) (home : Location) : List String :=
  (t.below home).filterMap (entryFolder? extension)

theorem isEntryName_iff (hdot : '.' ∉ extension.toList) {inner file : String} :
    isEntryName extension inner file = true ↔ inner ≠ "" ∧ file = inner ++ "." ++ extension := by
  rw [isEntryName, decide_eq_true_eq, splitName_eq_iff]
  constructor
  · rintro ⟨hne, hfile, -⟩
    exact ⟨by simpa using hne, by simp [← String.toList_inj, hfile]⟩
  · rintro ⟨hne, rfl⟩
    exact ⟨by simpa using hne, by simp, hdot⟩

theorem entryFolder?_eq_some_iff (hdot : '.' ∉ extension.toList) {e : Entry} :
    entryFolder? extension e = some name ↔ name ≠ "" ∧
      ∃ content, e = ([name, name ++ "." ++ extension], .file content) := by
  constructor
  · intro h
    unfold entryFolder? at h
    split at h
    · next inner file content =>
      obtain ⟨hentry, rfl⟩ : isEntryName extension inner file = true ∧ inner = name := by
        simpa using h
      obtain ⟨hne, rfl⟩ := (isEntryName_iff hdot).1 hentry
      exact ⟨hne, content, rfl⟩
    · cases h
  · rintro ⟨hne, content, rfl⟩
    exact if_pos ((isEntryName_iff hdot).2 ⟨hne, rfl⟩)

theorem mem_entryFolders_iff (hdot : '.' ∉ extension.toList) :
    name ∈ entryFolders t extension home ↔ IsEntryFolder t extension home name := by
  simp only [entryFolders, List.mem_filterMap, entryFolder?_eq_some_iff hdot]
  constructor
  · rintro ⟨_, hbelow, hne, content, rfl⟩
    have hfile : t.lookup (home ++ [name, name ++ "." ++ extension]) = some (.file content) :=
      (FileTree.lookup_eq_some_iff (by simp)).2 (FileTree.mem_below_iff.1 hbelow).2
    have hinside : t.lookup (home ++ [name] ++ [name ++ "." ++ extension]) =
        some (.file content) := by
      rwa [List.append_assoc]
    exact ⟨hne, FileTree.lookup_of_append_cons hinside, content, hfile⟩
  · rintro ⟨hne, -, content, hfile⟩
    have hentry := (FileTree.lookup_eq_some_iff (by simp)).1 hfile
    exact ⟨_, FileTree.mem_below_iff.2 ⟨by simp, hentry⟩, hne, content, rfl⟩

theorem pairwise_entryFolders (hdot : '.' ∉ extension.toList) (t : FileTree) (home : Location) :
    (entryFolders t extension home).Pairwise (· < ·) := by
  refine (t.increasing_below home).filterMap _ fun e e' hlt name hname name' hname' => ?_
  obtain ⟨-, content, rfl⟩ := (entryFolder?_eq_some_iff hdot).1 hname
  obtain ⟨-, content', rfl⟩ := (entryFolder?_eq_some_iff hdot).1 hname'
  rcases List.cons_lt_cons_iff.1 hlt with hlt | ⟨rfl, hlt⟩
  · exact hlt
  · exact absurd hlt (List.lt_irrefl _)

theorem entryFiles_eq (hdot : '.' ∉ extension.toList) (hhome : d.folderAt? folder = some home) :
    entryFiles d extension folder =
      .ok ((entryFolders d.tree extension home).map (entryFile extension folder)) := by
  have hbelow : d.below folder = d.tree.below home := by rw [Disk.below, hhome]
  rw [entryFiles, if_pos (Disk.isFolder_iff.2 ⟨home, hhome⟩), hbelow, entryFolders,
    List.map_filterMap]
  refine congrArg Except.ok (List.filterMap_congr fun e _ => ?_)
  rcases e with ⟨_ | ⟨inner, _ | ⟨file, _ | _⟩⟩, content | _ | _⟩
  case cons.cons.nil.file =>
    by_cases hentry : isEntryName extension inner file = true
    · obtain ⟨-, rfl⟩ := (isEntryName_iff hdot).1 hentry
      simp only [entryFolder?, if_pos hentry, Option.map_some, entryFile]
    · simp only [entryFolder?, if_neg hentry, Option.map_none]
  all_goals rfl

/-! ## Loading -/

def Holds (d : Disk) (path : FilePath) (items : List Item) : Prop :=
  ∃ source, d.readText path = .ok source ∧ Module.read? source = some items

theorem Holds.unique {items' : List Item} (h : Holds d path items) (h' : Holds d path items') :
    items = items' := by
  obtain ⟨source, hsource, hitems⟩ := h
  obtain ⟨source', hsource', hitems'⟩ := h'
  obtain rfl := Except.ok.inj (hsource.symm.trans hsource')
  exact Option.some.inj (hitems.symm.trans hitems')

theorem parse_eq_ok_iff {source : String} :
    parse path source = .ok items ↔ Module.read? source = some items := by
  unfold parse
  cases Module.read? source <;> simp

theorem loadComponents_eq_ok_iff : loadComponents d profile root = .ok names ↔
    ∃ items, Holds d (profile.componentsPath root) items ∧
      Declarations.componentNames items = .ok names ∧ names ≠ [] := by
  have hsome (declared : List String) (fault : CatalogFault) :
      (if declared.isEmpty then .error fault else .ok declared) = Except.ok names ↔
        declared = names ∧ names ≠ [] := by
    cases declared <;> simp +contextual [eq_comm]
  simp only [loadComponents, bind_eq_ok_iff, mapError_eq_ok_iff, parse_eq_ok_iff, hsome, Holds]
  constructor
  · rintro ⟨source, hsource, items, hitems, _, hnames, rfl, hne⟩
    exact ⟨items, ⟨source, hsource, hitems⟩, hnames, hne⟩
  · rintro ⟨items, ⟨source, hsource, hitems⟩, hnames, hne⟩
    exact ⟨source, hsource, items, hitems, names, hnames, rfl, hne⟩

theorem entryExports_eq_ok_iff : entryExports d path = .ok names ↔
    ∃ items, Holds d path items ∧ Declarations.exportedNames items = names := by
  simp only [entryExports, bind_eq_ok_iff, mapError_eq_ok_iff, parse_eq_ok_iff, Holds, pure,
    Except.pure, Except.ok.injEq]
  constructor
  · rintro ⟨source, hsource, items, hitems, hnames⟩
    exact ⟨items, ⟨source, hsource, hitems⟩, hnames⟩
  · rintro ⟨items, ⟨source, hsource, hitems⟩, hnames⟩
    exact ⟨source, hsource, items, hitems, hnames⟩

theorem exists_loadComponents_iff : (∃ names, loadComponents d profile root = .ok names) ↔
    ∃ items, Holds d (profile.componentsPath root) items ∧ Declarations.IsListing items := by
  simp only [loadComponents_eq_ok_iff, Declarations.isListing_iff]
  exact exists_comm.trans (exists_congr fun _ => exists_and_left)

theorem mem_iff_of_loadComponents (h : loadComponents d profile root = .ok names) :
    name ∈ names ↔
      ∃ items, Holds d (profile.componentsPath root) items ∧ Declarations.Lists items name := by
  obtain ⟨items, hholds, hnames, -⟩ := loadComponents_eq_ok_iff.1 h
  rw [Declarations.mem_componentNames_iff hnames]
  constructor
  · intro hlists
    exact ⟨items, hholds, hlists⟩
  · rintro ⟨items', hholds', hlists⟩
    rwa [hholds.unique hholds']

theorem exists_entryFiles (hdot : '.' ∉ profile.sourceExtension.toList)
    (hfolder : d.isFolder (profile.directivesPath root) = true) : ∃ paths,
      entryFiles d profile.sourceExtension (profile.directivesPath root) = .ok paths ∧
        ∀ path, path ∈ paths ↔ IsEntryFile d profile root path := by
  obtain ⟨home, hhome⟩ := Disk.isFolder_iff.1 hfolder
  refine ⟨_, entryFiles_eq hdot hhome, fun path => ?_⟩
  simp only [List.mem_map, mem_entryFolders_iff hdot, IsEntryFile]
  constructor
  · rintro ⟨name, hname, rfl⟩
    exact ⟨home, name, hhome, hname, rfl⟩
  · rintro ⟨home', name, hhome', hname, rfl⟩
    obtain rfl := Option.some.inj (hhome.symm.trans hhome')
    exact ⟨name, hname, rfl⟩

theorem isFolder_of_loadDirectives (h : loadDirectives d profile root = .ok names) :
    d.isFolder (profile.directivesPath root) = true := by
  obtain ⟨paths, hpaths, -⟩ := bind_eq_ok_iff.1 h
  unfold entryFiles at hpaths
  split at hpaths
  · assumption
  · cases hpaths

theorem loadDirectives_eq_ok_iff {paths : List FilePath}
    (hpaths : entryFiles d profile.sourceExtension (profile.directivesPath root) = .ok paths) :
    loadDirectives d profile root = .ok names ↔
      ∃ lists, paths.mapM (entryExports d) = .ok lists ∧ lists.flatten = names := by
  rw [loadDirectives_of_entryFiles hpaths]
  cases paths.mapM (entryExports d) <;> simp [Except.map]

theorem exists_loadDirectives_iff (hdot : '.' ∉ profile.sourceExtension.toList) :
    (∃ names, loadDirectives d profile root = .ok names) ↔
      d.isFolder (profile.directivesPath root) = true ∧
        ∀ path, IsEntryFile d profile root path → ∃ items, Holds d path items := by
  constructor
  · rintro ⟨names, hload⟩
    have hfolder := isFolder_of_loadDirectives hload
    refine ⟨hfolder, fun path hpath => ?_⟩
    obtain ⟨paths, hpaths, hmem⟩ := exists_entryFiles hdot hfolder
    obtain ⟨lists, hlists, -⟩ := (loadDirectives_eq_ok_iff hpaths).1 hload
    obtain ⟨exported, hexported⟩ := exists_mapM_eq_ok_iff.1 ⟨lists, hlists⟩ path
      ((hmem path).2 hpath)
    obtain ⟨items, hitems, -⟩ := entryExports_eq_ok_iff.1 hexported
    exact ⟨items, hitems⟩
  · rintro ⟨hfolder, hholds⟩
    obtain ⟨paths, hpaths, hmem⟩ := exists_entryFiles hdot hfolder
    obtain ⟨lists, hlists⟩ : ∃ lists, paths.mapM (entryExports d) = .ok lists := by
      refine exists_mapM_eq_ok_iff.2 fun path hpath => ?_
      obtain ⟨items, hitems⟩ := hholds path ((hmem path).1 hpath)
      exact ⟨_, entryExports_eq_ok_iff.2 ⟨items, hitems, rfl⟩⟩
    exact ⟨_, (loadDirectives_eq_ok_iff hpaths).2 ⟨lists, hlists, rfl⟩⟩

theorem mem_iff_of_loadDirectives (hdot : '.' ∉ profile.sourceExtension.toList)
    (h : loadDirectives d profile root = .ok names) :
    name ∈ names ↔ ∃ path items, IsEntryFile d profile root path ∧ Holds d path items ∧
      Declarations.Exports items name := by
  obtain ⟨paths, hpaths, hmem⟩ := exists_entryFiles hdot (isFolder_of_loadDirectives h)
  obtain ⟨lists, hlists, rfl⟩ := (loadDirectives_eq_ok_iff hpaths).1 h
  simp only [List.mem_flatten, mem_iff_of_mapM_eq_ok hlists, entryExports_eq_ok_iff,
    hmem]
  constructor
  · rintro ⟨_, ⟨path, hpath, items, hitems, rfl⟩, hname⟩
    exact ⟨path, items, hpath, hitems, Declarations.mem_exportedNames_iff.1 hname⟩
  · rintro ⟨path, items, hpath, hitems, hname⟩
    exact ⟨_, ⟨path, hpath, items, hitems, rfl⟩, Declarations.mem_exportedNames_iff.2 hname⟩

/-- A catalog is what a library declares in its two ways, or there is none. -/
theorem load_declared (d : Disk) (root : FilePath)
    (hdot : '.' ∉ profile.sourceExtension.toList) :
    ((∃ catalog, load d profile root = .ok catalog) ↔
      (∃ items, Holds d (profile.componentsPath root) items ∧ Declarations.IsListing items) ∧
        d.isFolder (profile.directivesPath root) = true ∧
        ∀ path, IsEntryFile d profile root path → ∃ items, Holds d path items) ∧
    (∀ catalog, load d profile root = .ok catalog → ∀ name,
      (name ∈ catalog.components ↔ ∃ items, Holds d (profile.componentsPath root) items ∧
        Declarations.Lists items name) ∧
      (name ∈ catalog.directives ↔ ∃ path items, IsEntryFile d profile root path ∧
        Holds d path items ∧ Declarations.Exports items name)) ∧
    ∀ home, d.folderAt? (profile.directivesPath root) = some home →
      ∃ folders : List String, folders.Pairwise (· < ·) ∧
        (∀ name, name ∈ folders ↔ IsEntryFolder d.tree profile.sourceExtension home name) ∧
        entryFiles d profile.sourceExtension (profile.directivesPath root) =
          .ok (folders.map (entryFile profile.sourceExtension (profile.directivesPath root))) := by
  refine ⟨?_, fun catalog hload name => ?_, fun home hhome => ?_⟩
  · rw [← exists_loadComponents_iff, ← exists_loadDirectives_iff hdot]
    simp only [load_eq_ok_iff]
    constructor
    · rintro ⟨catalog, components, directives, hcomponents, hdirectives, -⟩
      exact ⟨⟨components, hcomponents⟩, directives, hdirectives⟩
    · rintro ⟨⟨components, hcomponents⟩, directives, hdirectives⟩
      exact ⟨_, components, directives, hcomponents, hdirectives, rfl⟩
  · obtain ⟨components, directives, hcomponents, hdirectives, rfl⟩ := load_eq_ok_iff.1 hload
    simp only [ofLists, NameSet.mem_ofList]
    exact ⟨mem_iff_of_loadComponents hcomponents, mem_iff_of_loadDirectives hdot hdirectives⟩
  · exact ⟨_, pairwise_entryFolders hdot d.tree home, fun _ => mem_entryFolders_iff hdot,
      entryFiles_eq hdot hhome⟩

end Catalog

/-! ## A library with files that look like entry files -/

/-- A folder with its entry file and two others, a folder further in with a file of its name, and
a file that stands in no folder of its own. -/
def lookalikeDisk : Disk where
  tree.entries :=
    [(["l"], .folder), (["l", "src"], .folder), (["l", "src", "constants"], .folder),
      (["l", "src", "constants", "components.js"], .file "export const A='BX',B='BY'".toUTF8),
      (["l", "src", "directives"], .folder), (["l", "src", "directives", "a"], .folder),
      (["l", "src", "directives", "a", "a.js"], .file "export class VA{}".toUTF8),
      (["l", "src", "directives", "a", "a.spec.js"], .file "(".toUTF8),
      (["l", "src", "directives", "a", "b"], .folder),
      (["l", "src", "directives", "a", "b", "b.js"], .file "(".toUTF8),
      (["l", "src", "directives", "a", "c.js"], .file "(".toUTF8),
      (["l", "src", "directives", "d.js"], .file "(".toUTF8)]
  tree.increasing := by simp +decide
  tree.housed := by simp
  here := []

namespace lookalikeDisk

theorem paths :
    (pathNames "l/src/constants/components.js" = ["l", "src", "constants", "components.js"] ∧
      pathNames "l/src/directives" = ["l", "src", "directives"] ∧
      pathNames "l/src/directives/a/a.js" = ["l", "src", "directives", "a", "a.js"]) ∧
    bootstrapVue.componentsPath ⟨"l"⟩ = ⟨"l/src/constants/components.js"⟩ ∧
    bootstrapVue.directivesPath ⟨"l"⟩ = ⟨"l/src/directives"⟩ ∧
    Catalog.entryFile bootstrapVue.sourceExtension ⟨"l/src/directives"⟩ "a" =
      ⟨"l/src/directives/a/a.js"⟩ := by
  decide +kernel

theorem texts :
    Module.read? "export const A='BX',B='BY'" = some [.exportVariables
      [⟨some "A", some (.literal (some "BX"))⟩, ⟨some "B", some (.literal (some "BY"))⟩]] ∧
    Module.read? "export class VA{}" = some [.exportClass "VA"] := by
  decide +kernel

theorem holds :
    Catalog.Holds lookalikeDisk ⟨"l/src/constants/components.js"⟩ [.exportVariables
      [⟨some "A", some (.literal (some "BX"))⟩, ⟨some "B", some (.literal (some "BY"))⟩]] ∧
    Catalog.Holds lookalikeDisk ⟨"l/src/directives/a/a.js"⟩ [.exportClass "VA"] := by
  refine ⟨⟨_, Disk.readText_of_node ?_, texts.1⟩, _, Disk.readText_of_node ?_, texts.2⟩
  all_goals
    simp +decide [Disk.node, Disk.find, paths.1, FileTree.follow, FileTree.lookup, lookalikeDisk,
      Except.map]

theorem folderAt?_eq :
    lookalikeDisk.folderAt? ⟨"l/src/directives"⟩ = some ["l", "src", "directives"] := by
  simp +decide [Disk.folderAt?, Disk.find, paths.1, FileTree.follow, FileTree.lookup,
    lookalikeDisk]

theorem isEntryFile_iff {path : FilePath} :
    Catalog.IsEntryFile lookalikeDisk bootstrapVue ⟨"l"⟩ path ↔
      path = ⟨"l/src/directives/a/a.js"⟩ := by
  obtain ⟨-, -, hdirectives, hentry⟩ := paths
  have hfolders : Catalog.entryFolders lookalikeDisk.tree bootstrapVue.sourceExtension
      ["l", "src", "directives"] = ["a"] := by
    decide +kernel
  have hfolder (name : String) : Catalog.IsEntryFolder lookalikeDisk.tree
      bootstrapVue.sourceExtension ["l", "src", "directives"] name ↔ name = "a" := by
    rw [← Catalog.mem_entryFolders_iff (by decide), hfolders, List.mem_singleton]
  rw [Catalog.IsEntryFile, hdirectives, folderAt?_eq]
  constructor
  · rintro ⟨_, name, hhome, hname, rfl⟩
    obtain rfl := Option.some.inj hhome
    rw [(hfolder name).1 hname, hentry]
  · rintro rfl
    exact ⟨_, "a", rfl, (hfolder "a").2 rfl, hentry.symm⟩

end lookalikeDisk

theorem Catalog.load_declared_lookalike :
    '.' ∉ bootstrapVue.sourceExtension.toList ∧
    ∃ catalog, load lookalikeDisk bootstrapVue ⟨"l"⟩ = .ok catalog ∧ "BY" ∈ catalog.components ∧
      ∀ name, name ∈ catalog.directives ↔ name = "VA" := by
  have hdot : '.' ∉ bootstrapVue.sourceExtension.toList := by decide
  obtain ⟨hload, hnames, -⟩ := load_declared lookalikeDisk ⟨"l"⟩ hdot
  obtain ⟨-, hcomponents, hdirectives, hentry⟩ := lookalikeDisk.paths
  obtain ⟨hlisting, hclass⟩ := lookalikeDisk.holds
  have hlists : Declarations.IsListing [.exportVariables
      [⟨some "A", some (.literal (some "BX"))⟩, ⟨some "B", some (.literal (some "BY"))⟩]] :=
    ⟨by simp, by simp⟩
  have hfolder : lookalikeDisk.isFolder (bootstrapVue.directivesPath ⟨"l"⟩) = true :=
    Disk.isFolder_iff.2 ⟨_, hdirectives ▸ lookalikeDisk.folderAt?_eq⟩
  obtain ⟨catalog, hcatalog⟩ := hload.2 ⟨⟨_, hcomponents ▸ hlisting, hlists⟩, hfolder,
    fun path hpath => ⟨_, lookalikeDisk.isEntryFile_iff.1 hpath ▸ hclass⟩⟩
  refine ⟨hdot, catalog, hcatalog, (hnames catalog hcatalog "BY").1.2 ?_, fun name => ?_⟩
  · exact ⟨_, hcomponents ▸ hlisting, _, List.mem_cons_self, by simp⟩
  · rw [(hnames catalog hcatalog name).2]
    constructor
    · rintro ⟨path, items, hpath, hitems, hname⟩
      obtain rfl := lookalikeDisk.isEntryFile_iff.1 hpath
      obtain rfl := hitems.unique hclass
      rcases hname with ⟨hitem, -, -⟩ | hitem | hitem
      · simp at hitem
      · simp at hitem
      · simpa using hitem
    · rintro rfl
      exact ⟨_, _, lookalikeDisk.isEntryFile_iff.2 rfl, hclass, .class List.mem_cons_self⟩

end Registrar
