/-! # Glob patterns

A pattern is a sequence of parts that describe a path from its start to its end. `*` stands for any
text and `**` for any folders in front or any rest; neither slashes nor leading dots are special.
-/

namespace Registrar.Files

inductive Interval
  | single (c : Char)
  | range (first last : Char)
deriving DecidableEq, Repr

inductive Part
  | char (c : Char)
  | anyChar
  | anyText
  | anyFolders
  | within (intervals : List Interval)
  | except (intervals : List Interval)
deriving DecidableEq, Repr

structure Glob where
  parts : List Part
deriving DecidableEq, Repr

inductive Glob.Cause
  | wildcards
  | recursiveWildcards
  | invalidRange
deriving DecidableEq, Repr

def Glob.Cause.message : Glob.Cause → String
  | .wildcards => "wildcards are either regular `*` or recursive `**`"
  | .recursiveWildcards => "recursive wildcards must form a single path component"
  | .invalidRange => "invalid range pattern"

/-- A cause and the number of characters in front of the place to blame. -/
structure Glob.Fault where
  cause : Glob.Cause
  position : Nat
deriving DecidableEq, Repr

def Glob.Fault.message (fault : Glob.Fault) : String :=
  "Pattern syntax error near position " ++ toString fault.position ++ ": " ++ fault.cause.message

namespace Interval

def contains (c : Char) : Interval → Bool
  | .single x => c = x
  | .range first last => first ≤ c && c ≤ last

/-- The members of a class: ranges with a hyphen, and single characters. -/
def ofClass : List Char → List Interval
  | a :: '-' :: b :: cs => .range a b :: ofClass cs
  | c :: cs => .single c :: ofClass cs
  | [] => []

end Interval

def Part.holds (c : Char) : Part → Bool
  | .char x => c = x
  | .anyChar => true
  | .anyText => false
  | .anyFolders => false
  | .within intervals => intervals.any (·.contains c)
  | .except intervals => !intervals.any (·.contains c)

namespace Glob

/-- The members of a class and what follows it. The first member may be a closing bracket. -/
def class? : List Char → Option (List Char × List Char)
  | [] => none
  | c :: cs =>
    let rest := cs.dropWhile (· ≠ ']')
    if rest.isEmpty then none else some (c :: cs.takeWhile (· ≠ ']'), rest.drop 1)

def classPart? : List Char → Option (Part × List Char)
  | '!' :: cs => (class? cs).map fun (members, rest) => (.except (Interval.ofClass members), rest)
  | cs => (class? cs).map fun (members, rest) => (.within (Interval.ofClass members), rest)

theorem class?_length {text members rest : List Char} (h : class? text = some (members, rest)) :
    rest.length < text.length := by
  cases text with
  | nil => cases h
  | cons c cs =>
    simp only [class?] at h
    split at h
    · cases h
    · cases h
      have : (cs.dropWhile (· ≠ ']')).length ≤ cs.length :=
        (List.dropWhile_suffix _).length_le
      simp only [List.length_drop, List.length_cons]
      omega

theorem classPart?_length {text rest : List Char} {part : Part}
    (h : classPart? text = some (part, rest)) : rest.length < text.length := by
  unfold classPart? at h
  split at h
  · obtain ⟨⟨members, rest'⟩, hc, he⟩ := Option.map_eq_some_iff.1 h
    cases he
    have := class?_length hc
    simp only [List.length_cons]
    omega
  · obtain ⟨⟨members, rest'⟩, hc, he⟩ := Option.map_eq_some_iff.1 h
    cases he
    exact class?_length hc

/-- The parts of a pattern from `position` on, where `before` is the character in front. -/
def partsFrom (before : Option Char) (position : Nat) : List Char → Except Fault (List Part)
  | [] => .ok []
  | '*' :: '*' :: '*' :: _ => .error ⟨.wildcards, position + 2⟩
  | '*' :: '*' :: cs =>
    if before.all (· = '/') then
      match cs with
      | [] => .ok [.anyFolders]
      | '/' :: cs => (partsFrom (some '/') (position + 3) cs).map (.anyFolders :: ·)
      | _ => .error ⟨.recursiveWildcards, position + 2⟩
    else .error ⟨.recursiveWildcards, position - 1⟩
  | '*' :: cs => (partsFrom (some '*') (position + 1) cs).map (.anyText :: ·)
  | '?' :: cs => (partsFrom (some '?') (position + 1) cs).map (.anyChar :: ·)
  | '[' :: cs =>
    match h : classPart? cs with
    | none => .error ⟨.invalidRange, position⟩
    | some (part, rest) =>
      (partsFrom (some ']') (position + 1 + (cs.length - rest.length)) rest).map (part :: ·)
  | c :: cs => (partsFrom (some c) (position + 1) cs).map (.char c :: ·)
termination_by text => text.length
decreasing_by
  all_goals simp only [List.length_cons]
  all_goals first
    | omega
    | have := classPart?_length h
      omega

def ofText (text : String) : Except Fault Glob := (partsFrom none 0 text.toList).map Glob.mk

/-- The ends of a text, the whole text first and the empty one last. -/
def ends : List Char → List (List Char)
  | [] => [[]]
  | c :: cs => (c :: cs) :: ends cs

/-- The ends of a text that stand behind a slash. -/
def folderEnds : List Char → List (List Char)
  | [] => []
  | c :: cs => if c = '/' then cs :: folderEnds cs else folderEnds cs

def describesFrom : List Part → List Char → Bool
  | [], text => text.isEmpty
  | .anyText :: parts, text => (ends text).any (describesFrom parts)
  | .anyFolders :: parts, text =>
    describesFrom parts text || (folderEnds text).any (describesFrom parts) ||
      describesFrom parts []
  | part :: parts, text =>
    match text with
    | [] => false
    | c :: cs => part.holds c && describesFrom parts cs

/-! ## Matching

The answers for all ends of a text are found together, from the last part of the pattern to the
first, so that no part is tried twice in one place.
-/

/-- Whether an answer of the list or a later one is positive, for each place. -/
def orLater : List Bool → List Bool
  | [] => []
  | b :: bs =>
    let later := orLater bs
    (b || later.headD false) :: later

def behindFolders : List Char → List Bool → List Bool
  | c :: cs, _ :: bs =>
    let later := behindFolders cs bs
    ((c = '/' && bs.headD false) || later.headD false) :: later
  | _, bs => bs

def behindChar (part : Part) : List Char → List Bool → List Bool
  | c :: cs, _ :: bs => (part.holds c && bs.headD false) :: behindChar part cs bs
  | _, _ => [false]

/-- Whether the parts describe an end of the text, for each end. -/
def answers (text : List Char) : List Part → List Bool
  | [] => (ends text).map List.isEmpty
  | .anyText :: parts => orLater (answers text parts)
  | .anyFolders :: parts =>
    let later := answers text parts
    List.zipWith (· || ·) later (behindFolders text later)
  | part :: parts => behindChar part text (answers text parts)

def describes (glob : Glob) (text : String) : Bool :=
  (answers text.toList glob.parts).headD false

theorem ends_eq_cons (text : List Char) : ∃ es, ends text = text :: es := by
  cases text with
  | nil => exact ⟨[], rfl⟩
  | cons c cs => exact ⟨ends cs, rfl⟩

theorem orLater_map (f : List Char → Bool) (text : List Char) :
    orLater ((ends text).map f) = (ends text).map fun t => (ends t).any f := by
  induction text with
  | nil => simp [ends, orLater]
  | cons c cs ih =>
    obtain ⟨es, he⟩ := ends_eq_cons cs
    simp only [ends, List.map_cons, orLater, ih]
    simp [he]

theorem behindFolders_map (f : List Char → Bool) (text : List Char) :
    behindFolders text ((ends text).map f) =
      (ends text).map fun t => (folderEnds t).any f || f [] := by
  induction text with
  | nil => simp [ends, behindFolders, folderEnds]
  | cons c cs ih =>
    obtain ⟨es, he⟩ := ends_eq_cons cs
    simp only [ends, List.map_cons, behindFolders, ih]
    by_cases hc : c = '/' <;> simp [folderEnds, he, hc, Bool.or_assoc]

theorem behindChar_map (part : Part) (f : List Char → Bool) (text : List Char) :
    behindChar part text ((ends text).map f) =
      (ends text).map fun t => match t with
        | [] => false
        | c :: cs => part.holds c && f cs := by
  induction text with
  | nil => simp [ends, behindChar]
  | cons c cs ih =>
    obtain ⟨es, he⟩ := ends_eq_cons cs
    simp only [ends, List.map_cons, behindChar, ih]
    simp [he]

theorem answers_eq_map (text : List Char) (parts : List Part) :
    answers text parts = (ends text).map (describesFrom parts) := by
  induction parts with
  | nil => rfl
  | cons part parts ih =>
    cases part with
    | anyText => simp [answers, ih, orLater_map, describesFrom]
    | anyFolders =>
      simp only [answers, ih, behindFolders_map, List.zipWith_map, List.zipWith_self]
      simp [describesFrom, Bool.or_assoc]
    | char | anyChar | within | except =>
      simp only [answers, ih, behindChar_map]
      exact List.map_congr_left fun t _ => by cases t <;> rfl

/-- Matching agrees with the meaning of the parts. -/
theorem describes_eq (glob : Glob) (text : String) :
    describes glob text = describesFrom glob.parts text.toList := by
  obtain ⟨es, he⟩ := ends_eq_cons text.toList
  simp [describes, answers_eq_map, he]

end Glob

end Registrar.Files
