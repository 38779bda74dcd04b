import Registrar.Proofs.Markup.Grammar

/-! # The normal form of trees

The trees that can be written so that they are read back. The conditions keep what is written for
one node from being read as part of another.
-/

namespace Registrar.Markup

open Registrar.Text

def OpensEndTag (tag text : List Char) : Prop :=
  ∃ name c rest, text = '<' :: '/' :: (name ++ c :: rest) ∧ lowerName name = lowerName tag ∧
    (isBlank c = true ∨ c = '/' ∨ c = '>')

def Attribute.IsNormal (a : Attribute) : Prop :=
  a.name ≠ "" ∧ (∀ c ∈ a.name.toList, isBlank c = false ∧ c ≠ '=' ∧ c ≠ '>' ∧ c ≠ '/') ∧
    ∀ v ∈ a.value, '"' ∉ v.toList ∨ '\'' ∉ v.toList

def StartTag.IsNormal (start : StartTag) : Prop :=
  (∃ c ∈ start.tag.toList.head?, c.isAlpha = true) ∧
    (∀ c ∈ start.tag.toList, isBlank c = false ∧ c ≠ '/' ∧ c ≠ '>') ∧
    ∀ a ∈ start.attributes, a.IsNormal

def IsPlainText (p : Place) (t : List Char) : Prop :=
  t ≠ [] ∧ (∀ c, startsMarkup c = true → ¬ ['<', c] <:+: t) ∧
    (p.interpolates = true → ¬ ['{', '{'] <:+: t)

/-- The children of an element of raw text: its end tag begins nowhere in the text, nor in the
text together with the end tag itself. -/
def AreRawContent (tag : String) : List Node → Prop
  | [] => True
  | [.text t] => t ≠ "" ∧ ∀ s, s <:+ t.toList → s ≠ [] →
      ¬ OpensEndTag tag.toList (s ++ ('<' :: '/' :: (tag.toList ++ ['>'])))
  | _ => False

def Node.MayPrecede : Node → Node → Prop
  | .text _, .text _ => False
  | .text t, .interpolation _ => t.toList.getLast? ≠ some '{'
  | _, _ => True

mutual

def Node.IsNormal (p : Place) : Node → Prop
  | .element start _ children =>
    start.IsNormal ∧
      if isVoid start.tag then children = []
      else if p.isRaw start then AreRawContent start.tag children
      else AreNormal (p.inside start) children
  | .text t => IsPlainText p t.toList
  | .comment c => ¬ ['-', '-', '>'] <:+: c.toList
  | .interpolation w =>
    p.interpolates = true ∧ trim w.toList = w.toList ∧ ¬ ['}', '}'] <:+: w.toList

def AreNormal (p : Place) : List Node → Prop
  | [] => True
  | node :: nodes =>
    node.IsNormal p ∧ (∀ next ∈ nodes.head?, node.MayPrecede next) ∧ AreNormal p nodes

end

end Registrar.Markup
