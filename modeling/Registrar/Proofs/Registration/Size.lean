import Registrar.Except
import Registrar.Registration

/-! # The size of a module

Every selection has its module, but there is no module that is larger than texts can be. It may be
that large since the blanks in front of a name count for every name of an import with one name a
line. For a selection that is not empty a module is generated exactly if its text can be that large.
-/

namespace Registrar

open Registrar.Text

namespace Registration

/-- The import of names from a package, however large it is. -/
def wholeImport (package : String) (layout : Layout) (names : List String) : List String :=
  if (importLine package names).length ≤ layout.wrapLimit then [importLine package names]
  else wrappedLines package (blanks layout.indentSize) names

def wholeModule (profile : Profile) (layout : Layout) (selection : Selection) : String :=
  unlines (moduleLines profile selection (wholeImport profile.package layout selection.imports))

variable {profile : Profile} {layout : Layout} {selection : Selection} {package : String}
  {names lines lines' : List String} {code : Option String} {text : String}

/-! ## Lines -/

theorem unlines_append (lines lines' : List String) :
    unlines (lines ++ lines') = unlines lines ++ unlines lines' := by
  simp [unlines]

theorem unlines_cons (line : String) (lines : List String) :
    unlines (line :: lines) = line ++ "\n" ++ unlines lines := by
  simp [unlines]

theorem unlines_eq_intercalate (h : lines ≠ []) :
    unlines lines = "\n".intercalate lines ++ "\n" := by
  induction lines with
  | nil => exact absurd rfl h
  | cons line lines ih =>
    cases lines with
    | nil => simp [unlines]
    | cons next lines =>
      rw [unlines_cons, ih (List.cons_ne_nil _ _), String.intercalate_cons_cons]
      simp [String.append_assoc]

theorem utf8ByteSize_unlines_append (lines lines' : List String) :
    (unlines (lines ++ lines')).utf8ByteSize =
      (unlines lines).utf8ByteSize + (unlines lines').utf8ByteSize := by
  rw [unlines_append, String.utf8ByteSize_append]

theorem utf8ByteSize_unlines_cons (line : String) (lines : List String) :
    (unlines (line :: lines)).utf8ByteSize =
      line.utf8ByteSize + 1 + (unlines lines).utf8ByteSize := by
  have hone : "\n".utf8ByteSize = 1 := rfl
  rw [unlines_cons, String.utf8ByteSize_append, String.utf8ByteSize_append, hone]

/-- The module is made of what stands in front of its import, the import, and what stands behind. -/
theorem exists_unlines_moduleLines (profile : Profile) (selection : Selection) :
    ∃ rest, ∀ lines, unlines (moduleLines profile selection lines) =
      runtimeLine profile ++ "\n" ++ unlines lines ++ "\n" ++ rest := by
  refine ⟨unlines (selection.components.names.map (componentLine profile) ++
    ((if selection.components.names.isEmpty || selection.directives.names.isEmpty then []
      else [""]) ++ selection.directives.names.map (directiveLine profile))), ?_⟩
  intro lines
  simp only [moduleLines, List.cons_append, List.append_assoc, unlines_cons, unlines_append,
    String.append_assoc, String.empty_append, List.nil_append]

/-! ## Imports -/

theorem utf8ByteSize_wrappedLines (package indent : String) (names : List String) :
    (unlines (wrappedLines package indent names)).utf8ByteSize =
      (unlines (wrappedLines package "" names)).utf8ByteSize +
        indent.utf8ByteSize * names.length := by
  have hnames : (unlines (names.map (nameLine indent))).utf8ByteSize =
      (unlines (names.map (nameLine ""))).utf8ByteSize + indent.utf8ByteSize * names.length := by
    induction names with
    | nil => rfl
    | cons name names ih =>
      have hempty : "".utf8ByteSize = 0 := rfl
      simp only [List.map_cons, utf8ByteSize_unlines_cons, ih, nameLine, List.length_cons,
        String.utf8ByteSize_append, hempty, Nat.mul_succ]
      omega
  simp only [wrappedLines, utf8ByteSize_unlines_append, utf8ByteSize_unlines_cons,
    List.cons_append, hnames]
  omega

theorem importLines_eq (package : String) (layout : Layout) (names : List String) :
    importLines package layout names =
      if (importLine package names).length ≤ layout.wrapLimit ∨ layout.indentSize ≤ maxSize then
        .ok (wholeImport package layout names)
      else .error .tooLarge := by
  unfold importLines wholeImport makeBlanks
  by_cases hline : (importLine package names).length ≤ layout.wrapLimit
  · simp [hline]
  · by_cases hindent : layout.indentSize ≤ maxSize <;> simp [hline, hindent, Except.map]

theorem wholeImport_ne_nil : wholeImport package layout names ≠ [] := by
  unfold wholeImport
  split
  · exact List.cons_ne_nil _ _
  · exact List.cons_ne_nil _ _

theorem importStatement_eq_ok_iff : importStatement package layout names = .ok text ↔
    ((importLine package names).length ≤ layout.wrapLimit ∨ layout.indentSize ≤ maxSize) ∧
      text.utf8ByteSize ≤ maxSize ∧ "\n".intercalate (wholeImport package layout names) = text := by
  simp only [importStatement, bind_eq_ok_iff, importLines_eq, bounded, ite_eq_ok_iff]
  constructor
  · rintro ⟨_, ⟨hfits, rfl⟩, hsize, rfl⟩
    exact ⟨hfits, hsize, rfl⟩
  · rintro ⟨hfits, hsize, rfl⟩
    exact ⟨_, ⟨hfits, rfl⟩, hsize, rfl⟩

/-! ## Modules -/

/-- The bytes of a module are those that it has without blanks in front of the names of its import,
and these blanks. -/
theorem utf8ByteSize_wholeModule (profile : Profile) (layout : Layout) (selection : Selection) :
    (wholeModule profile layout selection).utf8ByteSize =
      (wholeModule profile { layout with indentSize := 0 } selection).utf8ByteSize +
        if (importLine profile.package selection.imports).length ≤ layout.wrapLimit then 0
        else layout.indentSize * selection.imports.length := by
  obtain ⟨rest, hrest⟩ := exists_unlines_moduleLines profile selection
  have hzero : blanks 0 = "" := rfl
  simp only [wholeModule, hrest, String.utf8ByteSize_append, wholeImport, hzero]
  split
  · rfl
  · rw [utf8ByteSize_wrappedLines, utf8ByteSize_blanks]
    omega

theorem imports_ne_nil (h : selection.isEmpty = false) : selection.imports ≠ [] := by
  simpa [Selection.isEmpty, NameSet.isEmpty, Selection.imports] using h

theorem indentSize_le_of_wholeModule (hne : selection.isEmpty = false)
    (hwraps : ¬ (importLine profile.package selection.imports).length ≤ layout.wrapLimit) :
    layout.indentSize ≤ (wholeModule profile layout selection).utf8ByteSize := by
  have hlength : 0 < selection.imports.length := List.length_pos_iff.2 (imports_ne_nil hne)
  calc layout.indentSize
      ≤ layout.indentSize * selection.imports.length := Nat.le_mul_of_pos_right _ hlength
    _ ≤ (wholeModule profile layout selection).utf8ByteSize := by
      rw [utf8ByteSize_wholeModule, if_neg hwraps]
      exact Nat.le_add_left _ _

theorem generate_eq (profile : Profile) (layout : Layout) (selection : Selection) :
    generate profile layout selection =
      if selection.isEmpty = true then .ok none
      else if (wholeModule profile layout selection).utf8ByteSize ≤ maxSize then
        .ok (some (wholeModule profile layout selection))
      else .error .tooLarge := by
  unfold generate
  cases hempty : selection.isEmpty with
  | true => rw [if_pos rfl, if_pos rfl]
  | false =>
    rw [if_neg Bool.false_ne_true, if_neg Bool.false_ne_true, importLines_eq]
    split
    · simp only [bind, Except.bind]
      rw [← wholeModule, bounded]
      by_cases hsize : (wholeModule profile layout selection).utf8ByteSize ≤ maxSize
      · rw [if_pos hsize, if_pos hsize]
        rfl
      · rw [if_neg hsize, if_neg hsize]
    · next hlarge =>
      obtain ⟨hwraps, hindent⟩ := not_or.1 hlarge
      have hsize := indentSize_le_of_wholeModule hempty hwraps
      rw [if_neg (by omega)]
      simp only [bind, Except.bind]

theorem generate_eq_none_iff : generate profile layout selection = .ok none ↔
    selection.isEmpty = true := by
  rw [generate_eq]
  split
  · next h => simp [h]
  · next h => split <;> simp [h]

theorem generate_eq_some_iff : generate profile layout selection = .ok (some text) ↔
    selection.isEmpty = false ∧ text.utf8ByteSize ≤ maxSize ∧
      wholeModule profile layout selection = text := by
  rw [generate_eq]
  cases hempty : selection.isEmpty with
  | true => simp
  | false =>
    rw [if_neg Bool.false_ne_true, ite_eq_ok_iff, Option.some.injEq]
    constructor
    · rintro ⟨hsize, rfl⟩
      exact ⟨rfl, hsize, rfl⟩
    · rintro ⟨-, hsize, rfl⟩
      exact ⟨hsize, rfl⟩

/-- Behind the import of the runtime stands the one of the selected names. The layout makes no
difference to what is around it. -/
theorem exists_rest_of_generate (profile : Profile) (selection : Selection) :
    ∃ rest, ∀ layout text, generate profile layout selection = .ok (some text) →
      ∃ statement, importStatement profile.package layout selection.imports = .ok statement ∧
        text = runtimeLine profile ++ "\n" ++ statement ++ "\n" ++ rest := by
  obtain ⟨rest, hrest⟩ := exists_unlines_moduleLines profile selection
  refine ⟨"\n" ++ rest, ?_⟩
  intro layout text htext
  obtain ⟨hne, hsize, rfl⟩ := generate_eq_some_iff.1 htext
  have hwhole : wholeModule profile layout selection = runtimeLine profile ++ "\n" ++
      "\n".intercalate (wholeImport profile.package layout selection.imports) ++ "\n" ++
        ("\n" ++ rest) := by
    rw [wholeModule, hrest, unlines_eq_intercalate wholeImport_ne_nil]
    simp only [String.append_assoc]
  refine ⟨_, importStatement_eq_ok_iff.2 ⟨?_, ?_, rfl⟩, hwhole⟩
  · by_cases hline : (importLine profile.package selection.imports).length ≤ layout.wrapLimit
    · exact .inl hline
    · exact .inr (Nat.le_trans (indentSize_le_of_wholeModule hne hline) hsize)
  · rw [hwhole] at hsize
    simp only [String.utf8ByteSize_append] at hsize
    omega

/-- There is a module, or none is needed, unless it would be too large. -/
theorem exists_generate_eq_ok_iff : (∃ code, generate profile layout selection = .ok code) ↔
    selection.isEmpty = true ∨ (wholeModule profile layout selection).utf8ByteSize ≤ maxSize := by
  rw [generate_eq]
  split
  · next h => simp [h]
  · next h => split <;> simp [*]

end Registration

end Registrar
