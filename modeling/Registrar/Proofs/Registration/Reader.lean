import Registrar.Proofs.Naming.Case
import Registrar.Proofs.Registration.Size
import Registrar.Proofs.Text.Mark

/-! # A reader of registration modules

A module is read line by line, an import on one line or on several, without knowing how it was laid
out. Each line that the generator writes says what it was written for.
-/

namespace Registrar.Registration

open Registrar.Text

/-- What the lines of a module say. An import may take several of them. -/
inductive Statement
  | runtime
  | names (names : List String) (onOneLine : Bool)
  | blank
  | component (name : String)
  | directive (registered name : String)
deriving DecidableEq, Repr

def isExportChar (c : Char) : Bool := c.isAlphanum || c = '_'

def behind? (start line : List Char) : Option (List Char) :=
  if start.isPrefixOf line then some (line.drop start.length) else none

def name? (text : List Char) : Option String :=
  let text := text.dropWhile (· = ' ')
  let name := text.takeWhile isExportChar
  if !name.isEmpty && (text.dropWhile isExportChar).all (· = ' ') then some (String.ofList name)
  else none

def listedName? (line : List Char) : Option String :=
  match line.splitOn ',' with
  | [text, []] => name? text
  | _ => none

def importNames? (line : List Char) : Option (List String) := do
  let text ← behind? "import \x7b".toList line
  if text.dropWhile (· ≠ '}') = "\x7d from 'bootstrap-vue';".toList then
    ((text.takeWhile (· ≠ '}')).splitOn ',').mapM name?
  else none

/-- The name in the registration of a component, which has it twice. -/
def component? (line : List Char) : Option String := do
  let text ← behind? "Vue.component('".toList line
  let name := text.takeWhile isExportChar
  if text.dropWhile isExportChar = "', ".toList ++ name ++ ");".toList then
    some (String.ofList name)
  else none

def directive? (line : List Char) : Option (String × String) := do
  let text ← behind? "Vue.directive('".toList line
  let value ← behind? "', ".toList (text.dropWhile (· ≠ '\''))
  if value.dropWhile isExportChar = ");".toList then
    some (String.ofList (text.takeWhile (· ≠ '\'')), String.ofList (value.takeWhile isExportChar))
  else none

def statement? (line : List Char) : Option Statement :=
  if line = [] then some .blank
  else if line = "import Vue from 'vue';".toList then some .runtime
  else ((importNames? line).map fun names => .names names true).or <|
    ((component? line).map .component).or <|
      (directive? line).map fun r => .directive r.1 r.2

/-- Read lines, either between statements or behind some names of an import that goes on. Behind the
last line no text is left. -/
def readLines : Option (List String) → List (List Char) → Option (List Statement)
  | _, [] => none
  | none, [line] => if line = [] then some [] else none
  | none, line :: lines =>
    if line = "import \x7b".toList then readLines (some []) lines
    else do return (← statement? line) :: (← readLines none lines)
  | some names, line :: lines =>
    if line = "\x7d from 'bootstrap-vue';".toList then do
      return .names names false :: (← readLines none lines)
    else do readLines (some (names ++ [← listedName? line])) lines

def readModule? (text : String) : Option (List Statement) :=
  readLines none (text.toList.splitOn '\n')

def IsExportName (name : String) : Prop := ∀ c ∈ name.toList, isExportChar c = true

variable {line start text : List Char} {name : String} {names : List String}
  {lines : List (List Char)} {layout : Layout} {selection : Selection}

/-! ## Pieces of a line -/

theorem behind?_append (start text : List Char) : behind? start (start ++ text) = some text := by
  have : start.isPrefixOf (start ++ text) = true :=
    List.isPrefixOf_iff_prefix.2 (List.prefix_append _ _)
  rw [behind?, if_pos this, List.drop_left]

theorem eq_append_of_behind? (h : behind? start line = some text) : line = start ++ text := by
  unfold behind? at h
  split at h
  · next hp =>
    obtain ⟨t, rfl⟩ := List.isPrefixOf_iff_prefix.1 hp
    obtain rfl : t = text := by simpa using h
    rfl
  · cases h

theorem isExportChar_iff {c : Char} :
    isExportChar c = true ↔ c.isAlphanum = true ∨ c = '_' := by simp [isExportChar]

theorem IsExportName.ne {c : Char} (h : IsExportName name) (hc : isExportChar c = false) :
    ∀ d ∈ name.toList, d ≠ c := by
  rintro d hd rfl
  rw [h d hd] at hc
  cases hc

theorem name?_eq (h : IsExportName name) (hne : name ≠ "") (n m : Nat) :
    name? (List.replicate n ' ' ++ (name.toList ++ List.replicate m ' ')) = some name := by
  have hstart : StopsAt (· = ' ') (name.toList ++ List.replicate m ' ') := by
    obtain ⟨c, cs, hcs⟩ : ∃ c cs, name.toList = c :: cs :=
      List.exists_cons_of_ne_nil (by simpa using hne)
    have hc : c ≠ ' ' := h.ne (by decide) c (by simp [hcs])
    simp [hcs, stopsAt_cons, hc]
  have hend : StopsAt isExportChar (List.replicate m ' ') := by
    cases m with
    | zero => simp [StopsAt]
    | succ m => simp [List.replicate_succ, stopsAt_cons, isExportChar]
  have htext := dropWhile_append_of_stopsAt (a := List.replicate n ' ') (by simp) hstart
  have hname := takeWhile_append_of_stopsAt h hend
  have hrest := dropWhile_append_of_stopsAt h hend
  simp [name?, htext, hname, hrest, hne]

theorem listedName?_nameLine (h : IsExportName name) (hne : name ≠ "") (n : Nat) :
    listedName? (nameLine (blanks n) name).toList = some name := by
  have hline : (nameLine (blanks n) name).toList =
      [','].intercalate [List.replicate n ' ' ++ name.toList, []] := by
    simp [nameLine, List.intercalate]
  have hcomma : ∀ text ∈ [List.replicate n ' ' ++ name.toList, []], ',' ∉ text := by
    have := h.ne (c := ',') (by decide)
    simpa using fun hmem => this _ hmem rfl
  unfold listedName?
  rw [hline, List.splitOn_intercalate _ hcomma (by simp)]
  simpa using name?_eq h hne n 0

/-! ## Lines -/

def pieces : List String → List (List Char)
  | [] => []
  | [name] => [' ' :: (name.toList ++ [' '])]
  | name :: names => (' ' :: name.toList) :: pieces names

theorem mem_of_mem_intercalate {α : Type} {a : α} {separator : List α} {ls : List (List α)}
    (h : a ∈ separator.intercalate ls) : a ∈ separator ∨ ∃ l ∈ ls, a ∈ l := by
  induction ls with
  | nil => simp [List.intercalate] at h
  | cons l ls ih =>
    cases ls with
    | nil => exact .inr ⟨l, List.mem_cons_self, by simpa [List.intercalate] using h⟩
    | cons l' ls =>
      simp only [List.intercalate_cons_cons, List.mem_append] at h
      rcases h with (h | h) | h
      · exact .inr ⟨l, List.mem_cons_self, h⟩
      · exact .inl h
      · rcases ih h with h | ⟨l'', hl, h⟩
        · exact .inl h
        · exact .inr ⟨l'', List.mem_cons_of_mem _ hl, h⟩

theorem pieces_cons_cons (name next : String) (names : List String) :
    pieces (name :: next :: names) = (' ' :: name.toList) :: pieces (next :: names) := rfl

theorem intercalate_pieces (hne : names ≠ []) :
    [','].intercalate (pieces names) =
      ' ' :: ([',', ' '].intercalate (names.map String.toList) ++ [' ']) := by
  induction names with
  | nil => exact absurd rfl hne
  | cons name names ih =>
    cases names with
    | nil => simp [pieces, List.intercalate]
    | cons next names =>
      obtain ⟨piece, rest, hpieces⟩ : ∃ piece rest, pieces (next :: names) = piece :: rest := by
        cases names <;> exact ⟨_, _, rfl⟩
      have ih := ih (List.cons_ne_nil _ _)
      rw [hpieces] at ih
      rw [pieces_cons_cons, hpieces, List.intercalate_cons_cons, ih]
      simp [List.intercalate_cons_cons]

theorem mapM_name?_pieces (h : ∀ name ∈ names, IsExportName name ∧ name ≠ "") :
    (pieces names).mapM name? = some names := by
  induction names with
  | nil => rfl
  | cons name names ih =>
    obtain ⟨hname, hne⟩ := h name List.mem_cons_self
    have ih := ih fun n hn => h n (List.mem_cons_of_mem _ hn)
    cases names with
    | nil =>
      have hread : name? (' ' :: (name.toList ++ [' '])) = some name := name?_eq hname hne 1 1
      simp [pieces, hread]
    | cons next names =>
      have hread : name? (' ' :: name.toList) = some name := by simpa using name?_eq hname hne 1 0
      rw [pieces_cons_cons, List.mapM_cons, hread, ih]
      rfl

theorem mem_pieces {piece : List Char} (h : ∀ name ∈ names, IsExportName name)
    (hpiece : piece ∈ pieces names) : ∀ c ∈ piece, c = ' ' ∨ isExportChar c = true := by
  induction names with
  | nil => cases hpiece
  | cons name names ih =>
    have hname : ∀ c ∈ name.toList, isExportChar c = true := h name List.mem_cons_self
    cases names with
    | nil =>
      obtain rfl : piece = _ := List.mem_singleton.1 hpiece
      intro c hc
      simp only [List.mem_cons, List.mem_append, List.not_mem_nil, or_false] at hc
      rcases hc with rfl | hc | rfl
      · exact .inl rfl
      · exact .inr (hname c hc)
      · exact .inl rfl
    | cons next names =>
      rw [pieces_cons_cons] at hpiece
      rcases List.mem_cons.1 hpiece with rfl | hpiece
      · intro c hc
        rcases List.mem_cons.1 hc with rfl | hc
        · exact .inl rfl
        · exact .inr (hname c hc)
      · exact ih (fun n hn => h n (List.mem_cons_of_mem _ hn)) hpiece

theorem importNames?_importLine (h : ∀ name ∈ names, IsExportName name ∧ name ≠ "")
    (hne : names ≠ []) :
    importNames? (importLine bootstrapVue.package names).toList = some names := by
  have hline : (importLine bootstrapVue.package names).toList = "import \x7b".toList ++
      ([','].intercalate (pieces names) ++ '}' :: " from 'bootstrap-vue';".toList) := by
    rw [intercalate_pieces hne]
    simp only [importLine, bootstrapVue, String.toList_append, List.append_assoc,
      String.toList_intercalate]
    simp
  have hpieces : ∀ piece ∈ pieces names, ∀ c ∈ piece, c = ' ' ∨ isExportChar c = true :=
    fun piece => mem_pieces fun name hname => (h name hname).1
  have hcomma : ∀ piece ∈ pieces names, ',' ∉ piece := fun piece hpiece hmem =>
    (hpieces piece hpiece _ hmem).elim (by decide) (by decide)
  have hbrace : ∀ c ∈ [','].intercalate (pieces names), decide (c ≠ '}') = true := by
    intro c hc
    rw [decide_eq_true_eq]
    rintro rfl
    rcases mem_of_mem_intercalate hc with hc | ⟨piece, hpiece, hc⟩
    · exact absurd hc (by decide)
    · exact (hpieces piece hpiece _ hc).elim (by decide) (by decide)
  have hstop : StopsAt (fun c => decide (c ≠ '}')) ('}' :: " from 'bootstrap-vue';".toList) := by
    simp [stopsAt_cons]
  have hsome : pieces names ≠ [] := by
    intro hnil
    have := intercalate_pieces hne
    simp [hnil, List.intercalate] at this
  unfold importNames?
  rw [hline, behind?_append]
  simp only [Option.bind_eq_bind, Option.bind_some, dropWhile_append_of_stopsAt hbrace hstop,
    takeWhile_append_of_stopsAt hbrace hstop, List.splitOn_intercalate _ hcomma hsome]
  rw [if_pos (by rfl), mapM_name?_pieces h]

theorem component?_componentLine (h : IsExportName name) :
    component? (componentLine bootstrapVue name).toList = some name := by
  have hline : (componentLine bootstrapVue name).toList = "Vue.component('".toList ++
      (name.toList ++ '\'' :: (", ".toList ++ (name.toList ++ ");".toList))) := by
    simp only [componentLine, bootstrapVue, String.toList_append, List.append_assoc]
    rfl
  have hstop (rest : List Char) : StopsAt isExportChar ('\'' :: rest) := by
    simp [stopsAt_cons, isExportChar]
  unfold component?
  rw [hline, behind?_append]
  simp only [Option.bind_eq_bind, Option.bind_some, dropWhile_append_of_stopsAt h (hstop _),
    takeWhile_append_of_stopsAt h (hstop _)]
  rw [if_pos (by simp), String.ofList_toList]

theorem directive?_directiveLine (h : IsExportName name) :
    directive? (directiveLine bootstrapVue name).toList =
      some (Naming.registeredName bootstrapVue.marker name, name) := by
  have hregistered : ∀ c ∈ (Naming.registeredName bootstrapVue.marker name).toList,
      decide (c ≠ '\'') = true := by
    intro c hc
    rw [decide_eq_true_eq]
    rintro rfl
    exact (Naming.mem_registeredName hc).elim (by decide) (by decide)
  have hline : (directiveLine bootstrapVue name).toList = "Vue.directive('".toList ++
      ((Naming.registeredName bootstrapVue.marker name).toList ++
        '\'' :: (", ".toList ++ (name.toList ++ ");".toList))) := by
    simp only [directiveLine, bootstrapVue, String.toList_append, List.append_assoc]
    rfl
  have hquote (rest : List Char) : StopsAt (fun c => decide (c ≠ '\'')) ('\'' :: rest) := by
    simp [stopsAt_cons]
  have hstop : StopsAt isExportChar ");".toList := by decide
  have hvalue (rest : List Char) :
      behind? "', ".toList ('\'' :: (", ".toList ++ rest)) = some rest :=
    behind?_append _ _
  unfold directive?
  rw [hline, behind?_append]
  simp only [Option.bind_eq_bind, Option.bind_some,
    dropWhile_append_of_stopsAt hregistered (hquote _),
    takeWhile_append_of_stopsAt hregistered (hquote _), hvalue,
    dropWhile_append_of_stopsAt h hstop, takeWhile_append_of_stopsAt h hstop, if_true,
    String.ofList_toList]

theorem statement?_componentLine (h : IsExportName name) :
    statement? (componentLine bootstrapVue name).toList = some (.component name) := by
  have hread := component?_componentLine h
  obtain ⟨x, hx⟩ : ∃ x, (componentLine bootstrapVue name).toList = 'V' :: x := by
    simp [componentLine, bootstrapVue]
  have himport : importNames? ('V' :: x) = none := rfl
  rw [hx] at hread ⊢
  simp [statement?, himport, hread]

theorem statement?_directiveLine (h : IsExportName name) :
    statement? (directiveLine bootstrapVue name).toList =
      some (.directive (Naming.registeredName bootstrapVue.marker name) name) := by
  have hread := directive?_directiveLine h
  obtain ⟨x, hx⟩ : ∃ x, (directiveLine bootstrapVue name).toList =
      'V' :: 'u' :: 'e' :: '.' :: 'd' :: x := by
    simp [directiveLine, bootstrapVue]
  have himport : importNames? ('V' :: 'u' :: 'e' :: '.' :: 'd' :: x) = none := rfl
  have hcomponent : component? ('V' :: 'u' :: 'e' :: '.' :: 'd' :: x) = none := rfl
  rw [hx] at hread ⊢
  simp [statement?, himport, hcomponent, hread]

theorem statement?_importLine (h : ∀ name ∈ names, IsExportName name ∧ name ≠ "")
    (hne : names ≠ []) :
    statement? (importLine bootstrapVue.package names).toList = some (.names names true) := by
  have hread := importNames?_importLine h hne
  obtain ⟨x, hx⟩ : ∃ x, (importLine bootstrapVue.package names).toList =
      'i' :: 'm' :: 'p' :: 'o' :: 'r' :: 't' :: ' ' :: '{' :: x := by
    simp [importLine]
  rw [hx] at hread ⊢
  simp [statement?, hread]

/-! ## Modules -/

theorem readLines_line {s : Statement} (hs : statement? line = some s) (hne : lines ≠ []) :
    readLines none (line :: lines) = (readLines none lines).map (s :: ·) := by
  have hline : line ≠ "import \x7b".toList := by
    rintro rfl
    have hnone : statement? "import \x7b".toList = none := by decide
    rw [hnone] at hs
    cases hs
  obtain ⟨next, lines, rfl⟩ := List.exists_cons_of_ne_nil hne
  rw [readLines, if_neg hline, hs]
  · cases readLines none (next :: lines) <;> rfl
  · simp

theorem readLines_map {α : Type} {f : α → String} {g : α → Statement} {xs : List α}
    (h : ∀ x ∈ xs, statement? (f x).toList = some (g x)) (hne : lines ≠ []) :
    readLines none ((xs.map f).map String.toList ++ lines) =
      (readLines none lines).map (xs.map g ++ ·) := by
  induction xs with
  | nil => simp
  | cons x xs ih =>
    have hx := h x List.mem_cons_self
    rw [List.map_cons, List.map_cons, List.cons_append, readLines_line hx (by simp [hne]),
      ih fun y hy => h y (List.mem_cons_of_mem _ hy), Option.map_map]
    rfl

theorem readLines_names (h : ∀ name ∈ names, IsExportName name ∧ name ≠ "") (n : Nat)
    (known : List String) :
    readLines (some known) ((names.map (nameLine (blanks n))).map String.toList ++
        "\x7d from 'bootstrap-vue';".toList :: lines) =
      (readLines none lines).map (.names (known ++ names) false :: ·) := by
  induction names generalizing known with
  | nil =>
    simp only [List.map_nil, List.nil_append, readLines, if_true, List.append_nil]
    cases readLines none lines <;> rfl
  | cons name names ih =>
    obtain ⟨hname, hne⟩ := h name List.mem_cons_self
    have hread := listedName?_nameLine hname hne n
    have hline : (nameLine (blanks n) name).toList ≠ "\x7d from 'bootstrap-vue';".toList := by
      intro heq
      have hnone : listedName? "\x7d from 'bootstrap-vue';".toList = none := by decide
      rw [heq, hnone] at hread
      cases hread
    rw [List.map_cons, List.map_cons, List.cons_append, readLines, if_neg hline, hread]
    have ih := ih (fun m hm => h m (List.mem_cons_of_mem _ hm)) (known ++ [name])
    simpa using ih

theorem readLines_wholeImport (h : ∀ name ∈ names, IsExportName name ∧ name ≠ "")
    (hne : names ≠ []) (hlines : lines ≠ []) :
    readLines none ((wholeImport bootstrapVue.package layout names).map String.toList ++ lines) =
      (readLines none lines).map (.names names
        (decide ((importLine bootstrapVue.package names).length ≤ layout.wrapLimit)) :: ·) := by
  unfold wholeImport
  split
  · next hfits =>
    rw [List.map_singleton, List.singleton_append,
      readLines_line (statement?_importLine h hne) hlines]
    simp [hfits]
  · next hfits =>
    have hopen (rest : List (List Char)) (hrest : rest ≠ []) :
        readLines none ("import \x7b".toList :: rest) = readLines (some []) rest := by
      obtain ⟨line, rest, rfl⟩ := List.exists_cons_of_ne_nil hrest
      rw [readLines, if_pos rfl]
      simp
    have hwrapped : readLines (some []) ((names.map (nameLine (blanks layout.indentSize))).map
        String.toList ++ "\x7d from 'bootstrap-vue';".toList :: lines) = _ :=
      readLines_names h layout.indentSize []
    have hend : "\x7d from '" ++ bootstrapVue.package ++ "';" = "\x7d from 'bootstrap-vue';" := rfl
    rw [← hopen _ (by simp)] at hwrapped
    rw [wrappedLines, hend]
    simpa [hfits] using hwrapped

theorem splitOn_unlines {lines : List String} (h : ∀ line ∈ lines, '\n' ∉ line.toList) :
    (unlines lines).toList.splitOn '\n' = lines.map String.toList ++ [[]] := by
  have hjoin : (unlines lines).toList = ['\n'].intercalate (lines.map String.toList ++ [[]]) := by
    induction lines with
    | nil => rfl
    | cons line lines ih =>
      obtain ⟨next, rest, hrest⟩ : ∃ next rest, lines.map String.toList ++ [[]] = next :: rest := by
        cases lines <;> exact ⟨_, _, rfl⟩
      have hhead : (unlines (line :: lines)).toList =
          line.toList ++ ['\n'] ++ (unlines lines).toList := by
        simp [unlines, String.toList_join]
      rw [hhead, ih fun l hl => h l (List.mem_cons_of_mem _ hl), List.map_cons, List.cons_append,
        hrest, List.intercalate_cons_cons]
  have hpieces : ∀ piece ∈ lines.map String.toList ++ [[]], '\n' ∉ piece := by
    simpa [or_imp, forall_and] using h
  rw [hjoin, List.splitOn_intercalate _ hpieces (by simp)]

end Registrar.Registration
