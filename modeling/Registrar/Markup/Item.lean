import Registrar.Except
import Registrar.Markup.Fault
import Registrar.Markup.Node
import Registrar.Text.Blank
import Registrar.Text.Cut

/-! # The items of markup

A source is a sequence of items: tags, comments, interpolations, declarations and text between
them. Reading an item gives the characters it is written with and the text after it; an item is
never empty.
-/

namespace Registrar.Markup

open Registrar.Text

inductive Item
  | text (content : String)
  | comment (content : String)
  | interpolation (content : String)
  | declaration
  | startTag (start : StartTag) (selfClosed : Bool)
  | endTag (name : String)
deriving Repr

/-- What was read, the characters it was written with, and what comes after them. -/
structure Reading (α : Type) where
  value : α
  lexeme : List Char
  rest : List Char

def isTagChar (c : Char) : Bool := !isBlank c && c ≠ '/' && c ≠ '>'

def isNameChar (c : Char) : Bool := !isBlank c && c ≠ '=' && c ≠ '>' && c ≠ '/'

/-- A character of an attribute value without quotes, and of the name in an end tag. -/
def isBareChar (c : Char) : Bool := !isBlank c && c ≠ '>'

def startsMarkup (c : Char) : Bool := c.isAlpha || c = '/' || c = '!' || c = '?'

/-- Whether text ends here. Interpolations end it only where they are compiled. -/
def endsText (interpolates : Bool) : List Char → Bool
  | [] => true
  | '<' :: c :: _ => startsMarkup c
  | '{' :: '{' :: _ => interpolates
  | _ => false

/-- A value in front of which the equals sign and the blanks are read; `none` when a quote is
missing. -/
def readValue : List Char → Option (Reading String)
  | '"' :: cs => (cutAt? ['"'] cs).map fun (value, rest) =>
      ⟨String.ofList value, '"' :: (value ++ ['"']), rest.drop 1⟩
  | '\'' :: cs => (cutAt? ['\''] cs).map fun (value, rest) =>
      ⟨String.ofList value, '\'' :: (value ++ ['\'']), rest.drop 1⟩
  | cs =>
    let value := cs.takeWhile isBareChar
    some ⟨String.ofList value, value, cs.dropWhile isBareChar⟩

def readAttribute (text : List Char) : Option (Reading Attribute) :=
  let name := text.takeWhile isNameChar
  let gap := (text.dropWhile isNameChar).takeWhile isBlank
  match (text.dropWhile isNameChar).dropWhile isBlank with
  | '=' :: cs =>
    (readValue (cs.dropWhile isBlank)).map fun r =>
      ⟨⟨String.ofList name, some r.value⟩,
        name ++ gap ++ '=' :: cs.takeWhile isBlank ++ r.lexeme, r.rest⟩
  | cs => some ⟨⟨String.ofList name, none⟩, name ++ gap, cs⟩

theorem readValue_append {text : List Char} {r : Reading String} (h : readValue text = some r) :
    r.lexeme ++ r.rest = text := by
  have quoted : ∀ (q : Char) (cs value rest : List Char), cutAt? [q] cs = some (value, rest) →
      (q :: (value ++ [q])) ++ rest.drop 1 = q :: cs := by
    intro q cs value rest hc
    have hs := stop_of_cut? hc
    have ha := append_of_cut? hc
    cases rest with
    | nil => simp [List.isPrefixOf] at hs
    | cons c rest =>
      simp only [List.isPrefixOf, Bool.and_true, beq_iff_eq] at hs
      subst hs
      simp [← ha]
  unfold readValue at h
  split at h
  · obtain ⟨⟨value, rest⟩, hc, rfl⟩ := Option.map_eq_some_iff.1 h
    exact quoted _ _ _ _ hc
  · obtain ⟨⟨value, rest⟩, hc, rfl⟩ := Option.map_eq_some_iff.1 h
    exact quoted _ _ _ _ hc
  · cases h
    exact List.takeWhile_append_dropWhile

theorem readAttribute_append {text : List Char} {r : Reading Attribute}
    (h : readAttribute text = some r) : r.lexeme ++ r.rest = text := by
  unfold readAttribute at h
  have hn : text.takeWhile isNameChar ++ text.dropWhile isNameChar = text :=
    List.takeWhile_append_dropWhile
  have hg : (text.dropWhile isNameChar).takeWhile isBlank ++
      (text.dropWhile isNameChar).dropWhile isBlank = text.dropWhile isNameChar :=
    List.takeWhile_append_dropWhile
  split at h
  · next cs he =>
    obtain ⟨v, hv, rfl⟩ := Option.map_eq_some_iff.1 h
    have hb : cs.takeWhile isBlank ++ cs.dropWhile isBlank = cs :=
      List.takeWhile_append_dropWhile
    have := readValue_append hv
    simp only [List.append_assoc, List.cons_append]
    rw [this, hb, ← he, hg, hn]
  · next cs he =>
    cases h
    simp only [List.append_assoc]
    rw [hg, hn]

theorem readAttribute_length {c : Char} {cs : List Char} {r : Reading Attribute}
    (hc : isNameChar c = true) (h : readAttribute (c :: cs) = some r) :
    r.rest.length < (c :: cs).length := by
  have ha := congrArg List.length (readAttribute_append h)
  have hl : 0 < r.lexeme.length := by
    unfold readAttribute at h
    split at h
    · obtain ⟨v, _, rfl⟩ := Option.map_eq_some_iff.1 h
      simp [hc]
    · cases h
      simp [hc]
  simp only [List.length_append] at ha
  omega

/-- The attributes of a start tag up to its end, and whether the tag closes itself. Blanks,
slashes and equals signs between attributes mean nothing. -/
def readAttributes (tag : String) :
    List Char → Except Cause (Reading (List Attribute × Bool))
  | [] => .error (.unclosedStartTag tag)
  | '>' :: cs => .ok ⟨([], false), ['>'], cs⟩
  | '/' :: '>' :: cs => .ok ⟨([], true), ['/', '>'], cs⟩
  | c :: cs =>
    if _ : isNameChar c = true then
      match _ : readAttribute (c :: cs) with
      | none => .error (.unterminatedValue tag)
      | some a =>
        (readAttributes tag a.rest).map fun r =>
          ⟨(a.value :: r.value.1, r.value.2), a.lexeme ++ r.lexeme, r.rest⟩
    else
      (readAttributes tag cs).map fun r => ⟨r.value, c :: r.lexeme, r.rest⟩
termination_by text => text.length
decreasing_by
  · exact readAttribute_length ‹_› ‹_›
  · exact Nat.lt_succ_self _

def readStartTag (text : List Char) : Except Cause (Reading Item) :=
  let tag := text.takeWhile isTagChar
  (readAttributes (String.ofList tag) (text.dropWhile isTagChar)).map fun r =>
    ⟨.startTag ⟨String.ofList tag, r.value.1⟩ r.value.2, '<' :: tag ++ r.lexeme, r.rest⟩

/-- An end tag behind its `</`. What stands between the name and the `>` means nothing. -/
def readEndTag (text : List Char) : Except Cause (Reading Item) :=
  match text.takeWhile isBareChar with
  | [] => .error .missingEndTagName
  | c :: cs =>
    match cutAt? ['>'] (text.dropWhile isBareChar) with
    | none => .error (.unclosedEndTag (String.ofList (c :: cs)))
    | some (gap, rest) =>
      .ok ⟨.endTag (String.ofList (c :: cs)), '<' :: '/' :: c :: cs ++ gap ++ ['>'], rest.drop 1⟩

def readEnclosed (opener closer : List Char) (item : List Char → Item) (cause : Cause)
    (text : List Char) : Except Cause (Reading Item) :=
  match cutAt? closer text with
  | none => .error cause
  | some (content, rest) =>
    .ok ⟨item content, opener ++ content ++ closer, rest.drop closer.length⟩

/-- Text, which holds its first character whatever that is. -/
def readText (interpolates : Bool) : List Char → Reading Item
  | [] => ⟨.text "", [], []⟩
  | c :: cs =>
    match cut? (endsText interpolates) cs with
    | none => ⟨.text (String.ofList (c :: cs)), c :: cs, []⟩
    | some (content, rest) => ⟨.text (String.ofList (c :: content)), c :: content, rest⟩

theorem readAttributes_append {tag : String} {text : List Char}
    {r : Reading (List Attribute × Bool)} (h : readAttributes tag text = .ok r) :
    r.lexeme ++ r.rest = text := by
  fun_induction readAttributes tag text generalizing r with
  | case1 => cases h
  | case2 => cases h; rfl
  | case3 => cases h; rfl
  | case4 => cases h
  | case5 c cs _ _ _ a ha ih =>
    obtain ⟨r', hr, rfl⟩ := map_eq_ok_iff.1 h
    simpa [ih hr] using readAttribute_append ha
  | case6 c cs _ _ _ ih =>
    obtain ⟨r', hr, rfl⟩ := map_eq_ok_iff.1 h
    simp [ih hr]

theorem readStartTag_append {text : List Char} {r : Reading Item}
    (h : readStartTag text = .ok r) : r.lexeme ++ r.rest = '<' :: text := by
  obtain ⟨a, ha, rfl⟩ := map_eq_ok_iff.1 h
  simp [readAttributes_append ha]

theorem drop_of_cutAt? {mark text a b : List Char} (h : cutAt? mark text = some (a, b)) :
    a ++ (mark ++ b.drop mark.length) = text := by
  obtain ⟨t, rfl⟩ := List.isPrefixOf_iff_prefix.1 (stop_of_cut? h)
  simpa using append_of_cut? h

theorem readEndTag_append {text : List Char} {r : Reading Item} (h : readEndTag text = .ok r) :
    r.lexeme ++ r.rest = '<' :: '/' :: text := by
  unfold readEndTag at h
  split at h
  · cases h
  · next c cs hname =>
    split at h
    · cases h
    · next gap rest hc =>
      cases h
      have := drop_of_cutAt? hc
      have hsplit : text.takeWhile isBareChar ++ text.dropWhile isBareChar = text :=
        List.takeWhile_append_dropWhile
      rw [hname] at hsplit
      simp only [List.length_singleton] at this
      rw [← this] at hsplit
      simpa using hsplit

theorem readEnclosed_append {opener closer text : List Char} {item : List Char → Item}
    {cause : Cause} {r : Reading Item} (h : readEnclosed opener closer item cause text = .ok r) :
    r.lexeme ++ r.rest = opener ++ text := by
  unfold readEnclosed at h
  split at h
  · cases h
  · next content rest hc =>
    cases h
    simp [drop_of_cutAt? hc]

theorem readText_append (interpolates : Bool) (text : List Char) :
    (readText interpolates text).lexeme ++ (readText interpolates text).rest = text := by
  cases text with
  | nil => rfl
  | cons c cs =>
    simp only [readText]
    split
    · simp
    · next hc => simpa using append_of_cut? hc

def readItem (interpolates : Bool) : List Char → Except Cause (Reading Item)
  | '<' :: '!' :: '-' :: '-' :: cs =>
    readEnclosed ['<', '!', '-', '-'] ['-', '-', '>'] (fun c => .comment (String.ofList c))
      .unterminatedComment cs
  | '<' :: '/' :: cs => readEndTag cs
  | '<' :: '!' :: cs =>
    readEnclosed ['<', '!'] ['>'] (fun _ => .declaration) .unterminatedDeclaration cs
  | '<' :: '?' :: cs =>
    readEnclosed ['<', '?'] ['>'] (fun _ => .declaration) .unterminatedDeclaration cs
  | '<' :: c :: cs =>
    if c.isAlpha then readStartTag (c :: cs) else .ok (readText interpolates ('<' :: c :: cs))
  | '{' :: '{' :: cs =>
    if interpolates then
      readEnclosed ['{', '{'] ['}', '}'] (fun c => .interpolation (String.ofList (trim c)))
        .unterminatedInterpolation cs
    else .ok (readText interpolates ('{' :: '{' :: cs))
  | text => .ok (readText interpolates text)

theorem readItem_append {interpolates : Bool} {text : List Char} {r : Reading Item}
    (h : readItem interpolates text = .ok r) : r.lexeme ++ r.rest = text := by
  unfold readItem at h
  split at h
  · simpa using readEnclosed_append h
  · exact readEndTag_append h
  · simpa using readEnclosed_append h
  · simpa using readEnclosed_append h
  · split at h
    · exact readStartTag_append h
    · cases h; exact readText_append _ _
  · split at h
    · simpa using readEnclosed_append h
    · cases h; exact readText_append _ _
  · cases h; exact readText_append _ _

theorem lexeme_ne_nil {interpolates : Bool} {text : List Char} {r : Reading Item}
    (hne : text ≠ []) (h : readItem interpolates text = .ok r) : r.lexeme ≠ [] := by
  have htext : ∀ text, text ≠ [] → (readText interpolates text).lexeme ≠ [] := by
    intro text hne
    cases text with
    | nil => exact absurd rfl hne
    | cons c cs => simp only [readText]; split <;> simp
  have henclosed : ∀ (c : Char) (opener closer : List Char) item cause (cs : List Char),
      readEnclosed (c :: opener) closer item cause cs = .ok r → r.lexeme ≠ [] := by
    intro c opener closer item cause cs h
    unfold readEnclosed at h
    split at h <;> cases h
    simp
  unfold readItem at h
  split at h
  · exact henclosed _ _ _ _ _ _ h
  · unfold readEndTag at h
    split at h
    · cases h
    · split at h <;> cases h
      simp
  · exact henclosed _ _ _ _ _ _ h
  · exact henclosed _ _ _ _ _ _ h
  · split at h
    · obtain ⟨a, _, rfl⟩ := map_eq_ok_iff.1 h
      simp
    · cases h; exact htext _ (by simp)
  · split at h
    · exact henclosed _ _ _ _ _ _ h
    · cases h; exact htext _ (by simp)
  · cases h; exact htext _ hne

theorem readItem_length {interpolates : Bool} {text : List Char} {r : Reading Item}
    (hne : text ≠ []) (h : readItem interpolates text = .ok r) : r.rest.length < text.length := by
  have hl := List.length_pos_iff.2 (lexeme_ne_nil hne h)
  have ha := congrArg List.length (readItem_append h)
  simp only [List.length_append] at ha
  omega

end Registrar.Markup
