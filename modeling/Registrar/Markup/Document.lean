import Registrar.Markup.Item
import Registrar.Markup.Vocabulary

/-! # Reading a document

The items of a source build the tree from the outside in: a start tag opens an element, an end tag
closes the innermost open one, and every other item is a node of the innermost open element.
-/

namespace Registrar.Markup

open Registrar.Text

/-- What the text inside an element is read as: markup whose interpolations are compiled, markup
that is shown as it is written, or raw text. The top level is read like the second. -/
inductive Content
  | compiled
  | verbatim
  | raw
deriving DecidableEq, Repr

/-- An element that waits for its end tag, and the finished nodes in front of it, latest first. -/
structure Frame where
  start : StartTag
  offset : Nat
  content : Content
  before : List Node

/-- The open elements, innermost first, and the finished nodes inside the innermost, latest
first. -/
structure Progress where
  frames : List Frame
  nodes : List Node

namespace Progress

def empty : Progress := ⟨[], []⟩

def content (p : Progress) : Content :=
  match p.frames with
  | [] => .verbatim
  | f :: _ => f.content

/-- What the text inside a new element is read as. A block at the top level is raw unless it is the
template. -/
def contentOf (p : Progress) (start : StartTag) : Content :=
  match p.frames with
  | [] =>
    if start.tag ≠ templateTag then .raw
    else if start.has verbatimAttribute then .verbatim else .compiled
  | f :: _ =>
    if isRawText start.tag then .raw
    else if f.content = .verbatim || start.has verbatimAttribute then .verbatim else .compiled

def push (p : Progress) (node : Node) : Progress := { p with nodes := node :: p.nodes }

def openElement (p : Progress) (start : StartTag) (offset : Nat) : Progress :=
  ⟨⟨start, offset, p.contentOf start, p.nodes⟩ :: p.frames, []⟩

def close (f : Frame) (outer : List Frame) (nodes : List Node) : Progress :=
  ⟨outer, .element f.start f.offset nodes.reverse :: f.before⟩

end Progress

/-- Whether the end tag of an element of raw text stands here. -/
def endsElement (tag : List Char) : List Char → Bool
  | '<' :: '/' :: cs =>
    lowerName (cs.take tag.length) = lowerName tag &&
      match cs.drop tag.length with
      | [] => true
      | c :: _ => isBlank c || c = '>' || c = '/'
  | _ => false

namespace Progress

/-- The next item. Raw text runs up to the end tag of its element. -/
def read (p : Progress) (offset : Nat) (text : List Char) : Except Fault (Reading Item) :=
  match p.frames with
  | f :: _ =>
    if f.content = .raw then
      match cut? (endsElement f.start.tag.toList) text with
      | none => .error ⟨.missingEndTag f.start.tag, f.offset⟩
      | some ([], _) => (readItem false text).mapError (⟨·, offset⟩)
      | some (c :: cs, rest) => .ok ⟨.text (String.ofList (c :: cs)), c :: cs, rest⟩
    else (readItem (f.content = .compiled) text).mapError (⟨·, offset⟩)
  | [] => (readItem false text).mapError (⟨·, offset⟩)

/-- Put an item in its place. The end tag of raw text has been compared already. -/
def apply (p : Progress) (offset : Nat) : Item → Except Fault Progress
  | .text content => .ok (p.push (.text content))
  | .comment content => .ok (p.push (.comment content))
  | .interpolation content => .ok (p.push (.interpolation content))
  | .declaration => .ok p
  | .startTag start selfClosed =>
    if selfClosed || isVoid start.tag then .ok (p.push (.element start offset []))
    else .ok (p.openElement start offset)
  | .endTag name =>
    match p.frames with
    | [] => .error ⟨.unexpectedEndTag name, offset⟩
    | f :: outer =>
      if f.content = .raw || lowerName name.toList = lowerName f.start.tag.toList then
        .ok (close f outer p.nodes)
      else .error ⟨.mismatchedEndTag name f.start.tag, offset⟩

theorem read_append {p : Progress} {offset : Nat} {text : List Char} {r : Reading Item}
    (h : p.read offset text = .ok r) : r.lexeme ++ r.rest = text := by
  have hitem : ∀ b, (readItem b text).mapError (fun c => (⟨c, offset⟩ : Fault)) = .ok r →
      r.lexeme ++ r.rest = text := by
    intro b hb
    cases hr : readItem b text with
    | error e => rw [hr] at hb; cases hb
    | ok r' => rw [hr] at hb; cases hb; exact readItem_append hr
  unfold read at h
  split at h
  · split at h
    · split at h
      · cases h
      · exact hitem _ h
      · next hc => cases h; exact append_of_cut? hc
    · exact hitem _ h
  · exact hitem _ h

theorem read_length {p : Progress} {offset : Nat} {text : List Char} {r : Reading Item}
    (hne : text ≠ []) (h : p.read offset text = .ok r) : r.rest.length < text.length := by
  have hitem : ∀ b, (readItem b text).mapError (fun c => (⟨c, offset⟩ : Fault)) = .ok r →
      r.rest.length < text.length := by
    intro b hb
    cases hr : readItem b text with
    | error e => rw [hr] at hb; cases hb
    | ok r' => rw [hr] at hb; cases hb; exact readItem_length hne hr
  unfold read at h
  split at h
  · split at h
    · split at h
      · cases h
      · exact hitem _ h
      · next hc =>
        cases h
        have := length_of_cut? hc
        simp only [List.length_cons] at this ⊢
        omega
    · exact hitem _ h
  · exact hitem _ h

def run (p : Progress) (offset : Nat) (text : List Char) : Except Fault (List Node) :=
  if _ : text = [] then
    match p.frames with
    | [] => .ok p.nodes.reverse
    | f :: _ => .error ⟨.missingEndTag f.start.tag, f.offset⟩
  else
    match _ : p.read offset text with
    | .error fault => .error fault
    | .ok r =>
      match p.apply offset r.value with
      | .error fault => .error fault
      | .ok next => next.run (offset + byteCount r.lexeme) r.rest
termination_by text.length
decreasing_by exact read_length ‹_› ‹_›

end Progress

namespace Document

def read (source : String) : Except Fault Document :=
  (Progress.empty.run 0 source.toList).map Document.mk

end Document

/-- The first block of the top level that holds a template: its start tag, offset and content. -/
def Document.template? (document : Document) : Option (StartTag × Nat × List Node) :=
  document.nodes.findSome? fun
    | .element start offset children =>
      if start.tag = templateTag then some (start, offset, children) else none
    | _ => none

end Registrar.Markup
