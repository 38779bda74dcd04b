/-! # Paths

A path is the text that names a file. Parts of it are found without looking at any file: between
slashes stand segments, of which empty ones and single dots name nothing, but for a dot at the very
start.
-/

namespace Registrar.Files

structure FilePath where
  text : String
deriving DecidableEq, Repr

/-- The texts between slashes; `segment` is the one being read, latest character first. -/
def segmentsFrom (segment : List Char) : List Char → List (List Char)
  | [] => [segment.reverse]
  | c :: cs =>
    if c = '/' then segment.reverse :: segmentsFrom [] cs else segmentsFrom (c :: segment) cs

def segments (text : List Char) : List (List Char) := segmentsFrom [] text

def joinSegments : List (List Char) → List Char
  | [] => []
  | [s] => s
  | s :: ss => s ++ '/' :: joinSegments ss

theorem joinSegments_segmentsFrom (segment text : List Char) :
    joinSegments (segmentsFrom segment text) = segment.reverse ++ text := by
  have hne : ∀ text segment, segmentsFrom segment text ≠ [] := by
    intro text
    induction text with
    | nil => simp [segmentsFrom]
    | cons c cs ih => intro segment; unfold segmentsFrom; split <;> simp [ih]
  induction text generalizing segment with
  | nil => simp [segmentsFrom, joinSegments]
  | cons c cs ih =>
    unfold segmentsFrom
    split
    · next hc =>
      cases hs : segmentsFrom [] cs with
      | nil => exact absurd hs (hne _ _)
      | cons s ss =>
        have := ih []
        rw [hs] at this
        simp [joinSegments, this, hc]
    · rw [ih]; simp

theorem joinSegments_segments (text : List Char) : joinSegments (segments text) = text :=
  joinSegments_segmentsFrom [] text

theorem length_joinSegments_le (ss after : List (List Char)) :
    (joinSegments ss).length ≤ (joinSegments (ss ++ after)).length := by
  induction ss with
  | nil => simp [joinSegments]
  | cons t ts ih =>
    cases ts with
    | nil => cases after <;> simp [joinSegments]
    | cons u us => simpa [joinSegments] using ih

theorem length_joinSegments_lt {s : List Char} (h : s ≠ []) (ss after : List (List Char)) :
    (joinSegments ss).length < (joinSegments (ss ++ s :: after)).length := by
  induction ss with
  | nil =>
    have := List.length_pos_iff.2 h
    cases after with
    | nil => simpa [joinSegments] using this
    | cons next after =>
      have hle : s.length ≤ (joinSegments (s :: next :: after)).length := by simp [joinSegments]
      exact Nat.lt_of_lt_of_le this hle
  | cons t ts ih =>
    cases ts with
    | nil => simp [joinSegments]
    | cons u us => simpa [joinSegments] using ih

namespace FilePath

def isAbsolute (p : FilePath) : Bool := p.text.toList.head? = some '/'

/-- The path of `name` seen from `base`. -/
def join (base : FilePath) (name : String) : FilePath :=
  if (FilePath.mk name).isAbsolute then ⟨name⟩
  else if base.text.toList.getLast?.all (· = '/') then ⟨base.text ++ name⟩
  else ⟨base.text ++ "/" ++ name⟩

/-- Drop what names nothing from the end of a path whose segments are given last to first. -/
def dropNameless (absolute : Bool) : List (List Char) → List (List Char)
  | [] => []
  | s :: before =>
    if s = [] || (s = ['.'] && (absolute || !before.isEmpty)) then dropNameless absolute before
    else s :: before

theorem dropNameless_suffix (absolute : Bool) (ss : List (List Char)) :
    dropNameless absolute ss <:+ ss := by
  induction ss with
  | nil => exact List.suffix_refl _
  | cons s ss ih =>
    unfold dropNameless
    split
    · exact ih.trans (List.suffix_cons s ss)
    · exact List.suffix_refl _

theorem ne_nil_of_dropNameless {absolute : Bool} {ss before : List (List Char)} {s : List Char}
    (h : dropNameless absolute ss = s :: before) : s ≠ [] := by
  induction ss with
  | nil => cases h
  | cons t ts ih =>
    unfold dropNameless at h
    split at h
    · exact ih h
    · next hn =>
      cases h
      rintro rfl
      simp at hn

def named (p : FilePath) : List (List Char) :=
  if p.isAbsolute then dropNameless true (segments (p.text.toList.drop 1)).reverse
  else dropNameless false (segments p.text.toList).reverse

theorem length_of_dropNameless {absolute : Bool} {text s : List Char} {before : List (List Char)}
    (h : dropNameless absolute (segments text).reverse = s :: before) (outer : Bool) :
    (joinSegments (dropNameless outer before).reverse).length < text.length := by
  obtain ⟨dropped, hd⟩ := dropNameless_suffix absolute (segments text).reverse
  obtain ⟨dropped', hd'⟩ := dropNameless_suffix outer before
  have hs : s ≠ [] := ne_nil_of_dropNameless h
  have htext : joinSegments (((dropNameless outer before).reverse ++ dropped'.reverse) ++
      s :: dropped.reverse) = text := by
    have := congrArg List.reverse hd
    rw [h, ← hd', List.reverse_reverse] at this
    simpa [← this] using joinSegments_segments text
  rw [← htext]
  exact Nat.lt_of_le_of_lt (length_joinSegments_le _ _) (length_joinSegments_lt hs _ _)

/-- The path without its last name; none for the root and for the empty path. -/
def parent? (p : FilePath) : Option FilePath :=
  match p.named with
  | [] => none
  | _ :: before =>
    let text := joinSegments (dropNameless p.isAbsolute before).reverse
    some ⟨String.ofList (if p.isAbsolute then '/' :: text else text)⟩

theorem length_of_parent? {p q : FilePath} (h : p.parent? = some q) :
    q.text.toList.length < p.text.toList.length := by
  unfold parent? at h
  split at h
  · cases h
  · next s before hnamed =>
    cases h
    unfold named at hnamed
    split at hnamed
    · next habs =>
      obtain ⟨cs, hcs⟩ : ∃ cs, p.text.toList = '/' :: cs :=
        List.head?_eq_some_iff.1 (by simpa [isAbsolute] using habs)
      have := length_of_dropNameless (by simpa [hcs] using hnamed) p.isAbsolute
      simpa [habs, hcs] using this
    · next habs =>
      have := length_of_dropNameless hnamed p.isAbsolute
      simpa [habs] using this

def ancestors (p : FilePath) : List FilePath :=
  p :: match _ : p.parent? with
    | none => []
    | some q => q.ancestors
termination_by p.text.toList.length
decreasing_by exact length_of_parent? ‹_›

/-- The last name, unless it is made of dots that name a folder. -/
def fileName? (p : FilePath) : Option (List Char) :=
  match p.named with
  | [] => none
  | s :: _ => if s = ['.'] || s = ['.', '.'] then none else some s

end FilePath

/-- The parts of a file name in front of its last dot and behind it. A dot at the start is no such
dot. -/
def splitName (name : List Char) : List Char × Option (List Char) :=
  let behind := (name.reverse.takeWhile (· ≠ '.')).reverse
  let front := name.take (name.length - behind.length - 1)
  if front.isEmpty then (name, none) else (front, some behind)

namespace FilePath

def extension? (p : FilePath) : Option String :=
  (p.fileName?.bind fun name => (splitName name).2).map String.ofList

end FilePath

end Registrar.Files
