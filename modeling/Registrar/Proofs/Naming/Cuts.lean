import Registrar.Proofs.Naming.Words

/-! # Words as pieces of runs

The words of a text can be found by replacing patterns one after another, each time in the text that
the replacement before has left: two patterns put marks at borders, and a third one makes a mark of
everything that is neither a letter nor a digit. They can also be found in one pass, by cutting the
longest runs of letters and digits at the borders in them. Both ways give the same words.
-/

namespace Registrar.Naming

/-! ## Replacing patterns -/

/-- A pattern matches so many characters at the start of a text, and has a replacement for a
match. -/
structure Pattern where
  width : List Char → Nat
  replacement : List Char → List Char

namespace Pattern

/-- Replace all matches, the leftmost one first. The next match begins behind it. -/
def replaceAll (p : Pattern) : List Char → List Char
  | [] => []
  | c :: cs =>
    match p.width (c :: cs) with
    | 0 => c :: p.replaceAll cs
    | n + 1 => p.replacement (c :: cs.take n) ++ p.replaceAll (cs.drop n)
termination_by text => text.length
decreasing_by
  all_goals simp only [List.length_cons, List.length_drop]; omega

def startsWith : List (Char → Bool) → List Char → Bool
  | [], _ => true
  | _ :: _, [] => false
  | kind :: kinds, c :: cs => kind c && startsWith kinds cs

/-- Characters of some kinds in front of characters of others, with a mark put between them. -/
def bordered (front behind : List (Char → Bool)) : Pattern where
  width text :=
    if startsWith (front ++ behind) text then front.length + behind.length else 0
  replacement found := found.take front.length ++ border :: found.drop front.length

def capitals : Pattern := bordered [isLowerOrDigit] [Char.isUpper]

def titles : Pattern := bordered [Char.isUpper] [Char.isUpper, Char.isLower]

def separators : Pattern where
  width text := (text.takeWhile fun c => !c.isAlphanum).length
  replacement _ := [border]

variable {p : Pattern} {text : List Char} {c : Char} {n : Nat}

theorem replaceAll_of_width_eq_zero (h : p.width (c :: text) = 0) :
    p.replaceAll (c :: text) = c :: p.replaceAll text := by
  rw [replaceAll, h]

theorem replaceAll_of_width_eq_succ (h : p.width (c :: text) = n + 1) :
    p.replaceAll (c :: text) =
      p.replacement (c :: text.take n) ++ p.replaceAll (text.drop n) := by
  rw [replaceAll, h]

end Pattern

/-- The words of a text by replacing patterns and splitting what is left at the marks. -/
def markedWords (text : List Char) : List (List Char) :=
  ((Pattern.separators.replaceAll (Pattern.titles.replaceAll
    (Pattern.capitals.replaceAll text))).splitOn border).filter (!·.isEmpty)

/-! ## Cutting runs -/

def alphanumRuns (text : List Char) : List (List Char) :=
  (text.splitOnP (!·.isAlphanum)).filter (!·.isEmpty)

def cut : List Char → List (List Char)
  | [] => []
  | c :: cs => if isBorder c cs then [c] :: cut cs else prepend [c] (cut cs)

/-- At most one capital in front of small letters and digits, or more capitals, behind which comes
first a digit if anything does. -/
inductive IsWordForm : List Char → Prop
  | titled {front rest : List Char} : front.length ≤ 1 → (∀ c ∈ front, c.isUpper = true) →
      (∀ c ∈ rest, isLowerOrDigit c = true) → IsWordForm (front ++ rest)
  | capitals {front rest : List Char} : 2 ≤ front.length → (∀ c ∈ front, c.isUpper = true) →
      rest.head?.all Char.isDigit = true → (∀ c ∈ rest, isLowerOrDigit c = true) →
      IsWordForm (front ++ rest)

variable {a b c : Char} {x y text w run : List Char} {ws : List (List Char)}

/-! ## The passes are replacements -/

theorem markCapitals_eq (text : List Char) :
    markCapitals text = Pattern.capitals.replaceAll text := by
  fun_induction markCapitals text with
  | case1 a b cs h ih =>
    have hwidth : Pattern.capitals.width (a :: b :: cs) = 1 + 1 := by
      simp [Pattern.capitals, Pattern.bordered, Pattern.startsWith, (Bool.and_eq_true _ _ ▸ h)]
    rw [Pattern.replaceAll_of_width_eq_succ hwidth, ih]
    rfl
  | case2 a b cs h ih =>
    have hwidth : Pattern.capitals.width (a :: b :: cs) = 0 := by
      simpa [Pattern.capitals, Pattern.bordered, Pattern.startsWith] using h
    rw [Pattern.replaceAll_of_width_eq_zero hwidth, ih]
  | case3 cs h =>
    rcases cs with _ | ⟨a, _ | ⟨b, cs⟩⟩
    · rw [Pattern.replaceAll]
    · have hwidth : Pattern.capitals.width [a] = 0 := by
        simp [Pattern.capitals, Pattern.bordered, Pattern.startsWith]
      rw [Pattern.replaceAll_of_width_eq_zero hwidth, Pattern.replaceAll]
    · exact absurd rfl (h a b cs)

theorem markTitles_eq (text : List Char) :
    markTitles text = Pattern.titles.replaceAll text := by
  fun_induction markTitles text with
  | case1 a b c cs h ih =>
    have hwidth : Pattern.titles.width (a :: b :: c :: cs) = 2 + 1 := by
      simp only [Bool.and_eq_true] at h
      simp [Pattern.titles, Pattern.bordered, Pattern.startsWith, h]
    rw [Pattern.replaceAll_of_width_eq_succ hwidth, ih]
    rfl
  | case2 a b c cs h ih =>
    have hwidth : Pattern.titles.width (a :: b :: c :: cs) = 0 := by
      simpa [Pattern.titles, Pattern.bordered, Pattern.startsWith] using h
    rw [Pattern.replaceAll_of_width_eq_zero hwidth, ih]
  | case3 cs h =>
    have hwidth {a : Char} {cs : List Char} (hshort : cs.length ≤ 1) :
        Pattern.titles.width (a :: cs) = 0 := by
      rcases cs with _ | ⟨b, _ | ⟨c, cs⟩⟩
      · simp [Pattern.titles, Pattern.bordered, Pattern.startsWith]
      · simp [Pattern.titles, Pattern.bordered, Pattern.startsWith]
      · simp at hshort
    rcases cs with _ | ⟨a, _ | ⟨b, _ | ⟨c, cs⟩⟩⟩
    · rw [Pattern.replaceAll]
    · rw [Pattern.replaceAll_of_width_eq_zero (hwidth (by simp)), Pattern.replaceAll]
    · rw [Pattern.replaceAll_of_width_eq_zero (hwidth (by simp)),
        Pattern.replaceAll_of_width_eq_zero (hwidth (by simp)), Pattern.replaceAll]
    · exact absurd rfl (h a b c cs)

/-! ## Runs are parts between separators -/

/-- The runs of a text are the parts between signs that are no letters or digits. -/
theorem runs_eq_splitOnP {p : Char → Bool} (h : ∀ c ∈ text, p c = !c.isAlphanum) :
    runs text = (text.splitOnP p).filter (!·.isEmpty) := by
  induction text with
  | nil => rfl
  | cons c text ih =>
    obtain ⟨hc, htext⟩ := List.forall_mem_cons.1 h
    have ih := ih htext
    by_cases halnum : c.isAlphanum = true
    · have hsplit : (c :: text).splitOnP p = (text.splitOnP p).modifyHead (c :: ·) := by
        simp [List.splitOnP_cons_eq_if_modifyHead, hc, halnum]
      rw [runs_cons, if_pos halnum, ih, hsplit]
      cases text with
      | nil => rfl
      | cons d text =>
        have hd : p d = !d.isAlphanum := htext d List.mem_cons_self
        obtain ⟨v, vs, hv⟩ := List.exists_cons_of_ne_nil (List.splitOnP_ne_nil p text)
        rw [List.splitOnP_cons_eq_if_modifyHead, hd, hv]
        by_cases hdalnum : d.isAlphanum = true
        · simp [hdalnum, prepend]
        · simp [hdalnum]
    · rw [runs_cons, if_neg halnum, ih, List.splitOnP_cons_eq_if_modifyHead, hc]
      simp [halnum]

theorem runs_eq_alphanumRuns (text : List Char) : runs text = alphanumRuns text :=
  runs_eq_splitOnP fun _ _ => rfl

theorem runs_append (h : ∀ c ∈ x, c.isAlphanum = false) : runs (x ++ y) = runs y := by
  induction x with
  | nil => rfl
  | cons c x ih =>
    obtain ⟨hc, hx⟩ := List.forall_mem_cons.1 h
    rw [List.cons_append, runs_cons, hc, ih hx]
    rfl

theorem width_separators (c : Char) (text : List Char) :
    (c.isAlphanum = true ∧ Pattern.separators.width (c :: text) = 0) ∨
      (c.isAlphanum = false ∧ ∃ x y, text = x ++ y ∧ (∀ d ∈ x, d.isAlphanum = false) ∧
        Pattern.separators.width (c :: text) = x.length + 1) := by
  cases hc : c.isAlphanum with
  | true => exact .inl ⟨rfl, by simp [Pattern.separators, hc]⟩
  | false =>
    refine .inr ⟨rfl, text.takeWhile (!·.isAlphanum), text.dropWhile (!·.isAlphanum),
      (List.takeWhile_append_dropWhile ..).symm, ?_, ?_⟩
    · intro d hd
      have hsign := List.all_eq_true.1 List.all_takeWhile d hd
      simpa using hsign
    · simp [Pattern.separators, hc]

theorem head?_replaceAll_separators (text : List Char) :
    (Pattern.separators.replaceAll text).head?.any Char.isAlphanum =
      text.head?.any Char.isAlphanum := by
  cases text with
  | nil => rw [Pattern.replaceAll]
  | cons c text =>
    have hmark : border.isAlphanum = false := by decide
    rcases width_separators c text with ⟨-, hwidth⟩ | ⟨hc, x, y, -, -, hwidth⟩
    · rw [Pattern.replaceAll_of_width_eq_zero hwidth]
      rfl
    · rw [Pattern.replaceAll_of_width_eq_succ hwidth]
      simp [Pattern.separators, hc, hmark]

/-- Marks in the place of separators leave the runs as they are, and nothing else between them. -/
theorem replaceAll_separators (text : List Char) :
    runs (Pattern.separators.replaceAll text) = runs text ∧
      ∀ c ∈ Pattern.separators.replaceAll text, (c == border) = !c.isAlphanum := by
  have hmark : border.isAlphanum = false := by decide
  fun_induction Pattern.replaceAll Pattern.separators text with
  | case1 => simp
  | case2 c text hwidth ih =>
    obtain ⟨hruns, hsigns⟩ := ih
    rcases width_separators c text with ⟨hc, -⟩ | ⟨-, x, y, -, -, hmatch⟩
    · refine ⟨?_, List.forall_mem_cons.2 ⟨?_, hsigns⟩⟩
      · rw [runs_cons, runs_cons, head?_replaceAll_separators, hruns]
      · rw [hc]
        apply beq_eq_false_iff_ne.2
        rintro rfl
        exact absurd (hmark.symm.trans hc) Bool.false_ne_true
    · rw [hwidth] at hmatch
      cases hmatch
  | case3 c text n hwidth ih =>
    obtain ⟨hruns, hsigns⟩ := ih
    rcases width_separators c text with ⟨-, hmatch⟩ | ⟨hc, x, y, rfl, hx, hmatch⟩
    · rw [hwidth] at hmatch
      cases hmatch
    · obtain rfl : n = x.length := Nat.succ.inj (hwidth.symm.trans hmatch)
      rw [List.drop_left] at hruns hsigns ⊢
      refine ⟨?_, List.forall_mem_cons.2 ⟨by simp [hmark], hsigns⟩⟩
      calc runs (border :: Pattern.separators.replaceAll y)
          = runs (Pattern.separators.replaceAll y) := runs_append (x := [border]) (by simp [hmark])
        _ = runs y := hruns
        _ = runs (c :: (x ++ y)) := (runs_append (List.forall_mem_cons.2 ⟨hc, hx⟩)).symm

theorem words_eq_markedWords (text : List Char) : words text = markedWords text := by
  obtain ⟨hruns, hsigns⟩ := replaceAll_separators (markTitles (markCapitals text))
  rw [words, ← hruns, runs_eq_splitOnP hsigns, markCapitals_eq, markTitles_eq]
  rfl

/-! ## Where a run is cut -/

theorem cut_cons (c : Char) (run : List Char) :
    cut (c :: run) = if isBorder c run then [c] :: cut run else prepend [c] (cut run) := by
  rw [cut]

theorem exists_cut_cons (c : Char) (run : List Char) : ∃ w ws, cut (c :: run) = (c :: w) :: ws := by
  rw [cut_cons]
  split
  · exact ⟨[], cut run, rfl⟩
  · cases cut run with
    | nil => exact ⟨[], [], rfl⟩
    | cons w ws => exact ⟨w, ws, rfl⟩

theorem flatten_prepend (x : List Char) (ws : List (List Char)) :
    (prepend x ws).flatten = x ++ ws.flatten := by
  cases ws <;> simp [prepend]

theorem flatten_cut (run : List Char) : (cut run).flatten = run := by
  induction run with
  | nil => rfl
  | cons c run ih =>
    rw [cut_cons]
    split
    · rw [List.flatten_cons, ih]
      rfl
    · rw [flatten_prepend, ih]
      rfl

theorem nil_not_mem_cut (run : List Char) : [] ∉ cut run := by
  induction run with
  | nil => exact List.not_mem_nil
  | cons c run ih =>
    rw [cut_cons]
    split
    · simp [ih]
    · cases hcut : cut run with
      | nil => simp [prepend]
      | cons w ws =>
        rw [hcut] at ih
        simp only [List.mem_cons, not_or] at ih
        simp [prepend, ih]

def BeginWith (ws : List (List Char)) (x : List Char) : Prop :=
  ∃ us vs, ws = us ++ vs ∧ us.flatten = x

theorem beginWith_cons_iff :
    BeginWith (w :: ws) (c :: x) ↔ ∃ y, c :: x = w ++ y ∧ BeginWith ws y := by
  constructor
  · rintro ⟨us, vs, hws, hflatten⟩
    cases us with
    | nil => cases hflatten
    | cons u us =>
      obtain ⟨rfl, rfl⟩ := List.cons.inj hws
      exact ⟨us.flatten, hflatten.symm, us, vs, rfl, rfl⟩
  · rintro ⟨y, hx, us, vs, rfl, rfl⟩
    exact ⟨w :: us, vs, rfl, hx.symm⟩

theorem beginWith_cut_singleton :
    BeginWith (cut (a :: b :: y)) [a] ↔ isBorder a (b :: y) = true := by
  obtain ⟨w, ws, hcut⟩ := exists_cut_cons b y
  rw [cut_cons, hcut]
  split
  · next hborder =>
    simp only [hborder, iff_true]
    exact beginWith_cons_iff.2 ⟨[], rfl, [], _, rfl, rfl⟩
  · next hborder =>
    simp only [hborder]
    rw [prepend, beginWith_cons_iff]
    simp

theorem beginWith_cut_cons : BeginWith (cut (c :: a :: run)) (c :: a :: x) ↔
    BeginWith (cut (a :: run)) (a :: x) := by
  obtain ⟨w, ws, hcut⟩ := exists_cut_cons a run
  rw [cut_cons]
  split
  · rw [beginWith_cons_iff]
    simp
  · rw [hcut, prepend, beginWith_cons_iff, beginWith_cons_iff]
    simp

/-- A run is cut exactly in front of the capitals behind a small letter or a digit, and of those
behind a capital and in front of a small letter. -/
theorem beginWith_cut_iff (x : List Char) (a b : Char) (y : List Char) :
    BeginWith (cut (x ++ a :: b :: y)) (x ++ [a]) ↔
      b.isUpper = true ∧
        (isLowerOrDigit a = true ∨ a.isUpper = true ∧ y.head?.any Char.isLower = true) := by
  induction x with
  | nil =>
    rw [List.nil_append, List.nil_append, beginWith_cut_singleton]
    simp [isBorder]
  | cons c x ih =>
    rw [← ih]
    cases x with
    | nil => exact beginWith_cut_cons
    | cons d x => exact beginWith_cut_cons

/-! ## Words are pieces of runs -/

theorem exists_runs_cons (h : c.isAlphanum = true) (text : List Char) :
    ∃ run rs, runs (c :: text) = (c :: run) :: rs ∧
      run.head?.any Char.isLower = text.head?.any Char.isLower := by
  rw [runs_cons, if_pos h]
  cases text with
  | nil => exact ⟨[], [], rfl, rfl⟩
  | cons d text =>
    by_cases hd : d.isAlphanum = true
    · obtain ⟨run, rs, hruns⟩ : ∃ run rs, runs (d :: text) = (d :: run) :: rs := by
        rw [runs_cons, if_pos hd]
        split
        · cases runs text with
          | nil => exact ⟨[], [], rfl⟩
          | cons run rs => exact ⟨run, rs, rfl⟩
        · exact ⟨[], runs text, rfl⟩
      refine ⟨d :: run, rs, ?_, rfl⟩
      simp [hd, hruns, prepend]
    · have hlower : d.isLower = false := by
        rw [← Bool.not_eq_true]
        intro hlower
        exact hd (isAlphanum_iff.2 (.inr (by simp [isLowerOrDigit, hlower])))
      exact ⟨[], runs (d :: text), by simp [hd], by simp [hlower]⟩

theorem words_eq_flatMap_runs (text : List Char) : words text = (runs text).flatMap cut := by
  induction text with
  | nil => rfl
  | cons c text ih =>
    rw [words_cons, runs_cons, ih]
    split
    · by_cases hnext : text.head?.any Char.isAlphanum = true
      · rw [if_pos hnext]
        cases text with
        | nil => cases hnext
        | cons d text =>
          obtain ⟨run, rs, hruns, hlower⟩ := exists_runs_cons hnext text
          have hborder : isBorder c (d :: text) = isBorder c (d :: run) := by
            simp [isBorder, hlower]
          obtain ⟨w, ws, hcut⟩ := exists_cut_cons d run
          rw [hruns, prepend, List.flatMap_cons, List.flatMap_cons, List.singleton_append,
            cut_cons c, hcut, goesOn, hnext, hborder]
          cases isBorder c (d :: run) <;> rfl
      · rw [if_neg hnext, goesOn, if_neg (by simp [hnext])]
        rfl
    · rfl

/-- No letter or digit is lost, and nothing else is kept. -/
theorem flatten_words (text : List Char) : (words text).flatten = text.filter Char.isAlphanum := by
  induction text with
  | nil => rfl
  | cons c text ih =>
    rw [words_cons, List.filter_cons]
    split
    · split
      · rw [flatten_prepend, ih]
        rfl
      · rw [List.flatten_cons, ih]
        rfl
    · exact ih

/-! ## The forms of words -/

theorem isWordForm_iff : IsWordForm w ↔ ∃ front rest, w = front ++ rest ∧
    (∀ c ∈ front, c.isUpper = true) ∧ (∀ c ∈ rest, isLowerOrDigit c = true) ∧
    (front.length ≤ 1 ∨ rest.head?.all Char.isDigit = true) := by
  constructor
  · intro h
    cases h with
    | titled hlength hfront hrest => exact ⟨_, _, rfl, hfront, hrest, .inl hlength⟩
    | capitals _ hfront hdigit hrest => exact ⟨_, _, rfl, hfront, hrest, .inr hdigit⟩
  · rintro ⟨front, rest, rfl, hfront, hrest, h⟩
    by_cases hlength : front.length ≤ 1
    · exact .titled hlength hfront hrest
    · exact .capitals (by omega) hfront (h.resolve_left hlength) hrest

theorem isWordForm_singleton (h : c.isAlphanum = true) : IsWordForm [c] := by
  rcases isAlphanum_iff.1 h with hc | hc
  · exact @IsWordForm.titled [c] [] (by simp) (by simpa using hc) (by simp)
  · exact @IsWordForm.titled [] [c] (by simp) (by simp) (by simpa using hc)

theorem isBorder_singleton (h : isBorder c (b :: text) = false) : isBorder c [b] = false := by
  simp only [isBorder, Bool.and_eq_false_iff, Bool.or_eq_false_iff] at h ⊢
  exact h.imp_right fun h => ⟨h.1, .inr rfl⟩

theorem IsWordForm.cons (hc : c.isAlphanum = true) (h : IsWordForm (b :: w))
    (hborder : isBorder c (b :: w) = false) : IsWordForm (c :: b :: w) := by
  obtain ⟨front, rest, hw, hfront, hrest, hform⟩ := isWordForm_iff.1 h
  rw [hw]
  cases front with
  | nil =>
    -- The word has no capitals so far; the one in front of it may be the first.
    rcases isAlphanum_iff.1 hc with hupper | hsmall
    · exact @IsWordForm.titled [c] rest (by simp) (by simpa using hupper) hrest
    · refine @IsWordForm.titled [] (c :: rest) (by simp) (by simp) ?_
      exact List.forall_mem_cons.2 ⟨hsmall, hrest⟩
  | cons d front =>
    obtain ⟨rfl, rfl⟩ : b = d ∧ w = front ++ rest := List.cons.inj hw
    obtain ⟨hb, -⟩ := List.forall_mem_cons.1 hfront
    have hsmall : ¬ isLowerOrDigit c = true := by
      intro hsmall
      simp [isBorder, hb, hsmall] at hborder
    have hupper : c.isUpper = true := (isAlphanum_iff.1 hc).resolve_right hsmall
    have hnext : (front ++ rest).head?.any Char.isLower = false := by
      simpa [isBorder, hb, hsmall, hupper] using hborder
    refine isWordForm_iff.2 ⟨c :: b :: front, rest, rfl,
      List.forall_mem_cons.2 ⟨hupper, hfront⟩, hrest, .inr ?_⟩
    cases front with
    | nil =>
      cases rest with
      | nil => rfl
      | cons e rest =>
        have he : e.isLower = false := by simpa using hnext
        have hsmall : isLowerOrDigit e = true := hrest e List.mem_cons_self
        simpa [isLowerOrDigit, he] using hsmall
    | cons e front => exact hform.resolve_left (by simp)

theorem exists_words_cons_prefix (hc : c.isAlphanum = true) (text : List Char) :
    ∃ w ws, words (c :: text) = (c :: w) :: ws ∧ w <+: text := by
  induction text generalizing c with
  | nil =>
    refine ⟨[], [], ?_, List.prefix_refl _⟩
    simp [words_cons, hc, goesOn]
  | cons d text ih =>
    rw [words_cons, if_pos hc]
    split
    · next hgoes =>
      have hd : d.isAlphanum = true := (Bool.and_eq_true _ _ ▸ hgoes).1
      obtain ⟨w, ws, hwords, hprefix⟩ := ih hd
      exact ⟨d :: w, ws, by rw [hwords]; rfl, List.cons_prefix_cons.2 ⟨rfl, hprefix⟩⟩
    · exact ⟨[], words (d :: text), rfl, List.nil_prefix⟩

theorem isWordForm_of_mem_words (h : w ∈ words text) : IsWordForm w := by
  induction text generalizing w with
  | nil => simp at h
  | cons c text ih =>
    rw [words_cons] at h
    split at h
    · next hc =>
      split at h
      · next hgoes =>
        cases text with
        | nil => simp [goesOn] at hgoes
        | cons d text =>
          obtain ⟨hd, hborder⟩ : d.isAlphanum = true ∧ isBorder c (d :: text) = false := by
            simpa [goesOn] using hgoes
          obtain ⟨v, vs, hwords, hprefix⟩ := exists_words_cons_prefix hd text
          rw [hwords, prepend] at h
          rcases List.mem_cons.1 h with rfl | h
          · -- A small letter behind the word's second character would be one of the word.
            refine IsWordForm.cons hc (ih (hwords ▸ List.mem_cons_self)) ?_
            obtain ⟨rest, rfl⟩ := hprefix
            cases v with
            | nil => exact isBorder_singleton hborder
            | cons e v => exact hborder
          · exact ih (hwords ▸ List.mem_cons_of_mem _ h)
      · rcases List.mem_cons.1 h with rfl | h
        · exact isWordForm_singleton hc
        · exact ih h
    · exact ih h

/-- The words of a text are what three replacements one after another leave between their marks.
They are also the pieces of the longest runs of letters and digits, each of which is cut exactly in
front of the capitals behind a small letter or a digit and of those between a capital and a small
letter. All letters and digits of the text are in its words and nothing else is, no word is empty,
and capitals stand at the head of a word only. -/
theorem words_eq_pieces (text : List Char) :
    words text = markedWords text ∧
    words text = (alphanumRuns text).flatMap cut ∧
    (∀ run, (cut run).flatten = run ∧ [] ∉ cut run) ∧
    (∀ (x : List Char) (a b : Char) (y : List Char),
      BeginWith (cut (x ++ a :: b :: y)) (x ++ [a]) ↔
        b.isUpper = true ∧
          (isLowerOrDigit a = true ∨ a.isUpper = true ∧ y.head?.any Char.isLower = true)) ∧
    (words text).flatten = text.filter Char.isAlphanum ∧
    ∀ w ∈ words text, w ≠ [] ∧ IsWordForm w := by
  refine ⟨words_eq_markedWords text, ?_, ?_, beginWith_cut_iff, flatten_words text, ?_⟩
  · rw [words_eq_flatMap_runs, runs_eq_alphanumRuns]
  · intro run
    exact ⟨flatten_cut run, nil_not_mem_cut run⟩
  · intro w hw
    exact ⟨(mem_words hw).1, isWordForm_of_mem_words hw⟩

theorem words_eq_pieces_acronym :
    words "aXMLHttpV2é\x00".toList = ["a".toList, "XML".toList, "Http".toList, "V2".toList] ∧
      IsWordForm "V2".toList := by
  have hwords : words "aXMLHttpV2é\x00".toList =
      ["a".toList, "XML".toList, "Http".toList, "V2".toList] := by decide
  have hmem : "V2".toList ∈ words "aXMLHttpV2é\x00".toList := by
    rw [hwords]
    decide
  exact ⟨hwords, ((words_eq_pieces _).2.2.2.2.2 _ hmem).2⟩

end Registrar.Naming
