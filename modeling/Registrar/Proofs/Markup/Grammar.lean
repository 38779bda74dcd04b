import Registrar.Markup.Document
import Registrar.Proofs.Text.Mark

/-! # The grammar of markup

How the items of a source are written, and how a tree is written with them. A tree leaves open
how its tags are spaced, how values are quoted, which case end tags have and where declarations
stand; everything else in the text is in the tree.
-/

namespace Registrar.Markup

open Registrar.Text

/-- How a value is written in front of a text. Without quotes an empty value needs the end of the
start tag behind it. -/
inductive SpellsValue : String → List Char → List Char → Prop
  | quoted {q : Char} {v text : List Char} : q = '"' ∨ q = '\'' → q ∉ v →
      SpellsValue (String.ofList v) (q :: (v ++ [q])) text
  | bare {v text : List Char} : (∀ c ∈ v, isBareChar c = true) → '"' ∉ v.head? → '\'' ∉ v.head? →
      StopsAt isBareChar text → (v = [] → '>' ∈ text.head?) →
      SpellsValue (String.ofList v) v text

/-- How an attribute is written in front of a text. An equals sign behind a name brings a value. -/
inductive SpellsAttribute : Attribute → List Char → List Char → Prop
  | flag {name blanks text : List Char} :
      name ≠ [] → (∀ c ∈ name, isNameChar c = true) → (∀ c ∈ blanks, isBlank c = true) →
      StopsAt isNameChar (blanks ++ text) → StopsAt isBlank text → '=' ∉ text.head? →
      SpellsAttribute ⟨String.ofList name, none⟩ (name ++ blanks) text
  | valued {name blanks blanks' v text : List Char} {value : String} :
      name ≠ [] → (∀ c ∈ name, isNameChar c = true) → (∀ c ∈ blanks, isBlank c = true) →
      (∀ c ∈ blanks', isBlank c = true) → SpellsValue value v text →
      SpellsAttribute ⟨String.ofList name, some value⟩ (name ++ (blanks ++ '=' :: (blanks' ++ v)))
        text

/-- How the attributes and the end of a start tag are written; the flag tells whether the tag
closes itself. Blanks, slashes and equals signs may stand between attributes. -/
inductive SpellsAttributes : List Attribute → Bool → List Char → Prop
  | close : SpellsAttributes [] false ['>']
  | selfClose : SpellsAttributes [] true ['/', '>']
  | gap {as : List Attribute} {b : Bool} {c : Char} {text : List Char} :
      isBlank c = true ∨ c = '=' ∨ c = '/' ∧ '>' ∉ text.head? →
      SpellsAttributes as b text → SpellsAttributes as b (c :: text)
  | cons {as : List Attribute} {b : Bool} {a : Attribute} {s text : List Char} :
      SpellsAttribute a s text → SpellsAttributes as b text →
      SpellsAttributes (a :: as) b (s ++ text)

inductive SpellsStartTag : StartTag → Bool → List Char → Prop
  | mk {as : List Attribute} {b : Bool} {c : Char} {tag text : List Char} :
      c.isAlpha = true → (∀ d ∈ c :: tag, isTagChar d = true) → StopsAt isTagChar text →
      SpellsAttributes as b text →
      SpellsStartTag ⟨String.ofList (c :: tag), as⟩ b ('<' :: c :: (tag ++ text))

/-- How an item is written. Interpolations are told from text only where they are compiled. -/
inductive SpellsItem (interpolates : Bool) : Item → List Char → Prop
  | text {t : List Char} : t ≠ [] → SpellsItem interpolates (.text (String.ofList t)) t
  | comment {c : List Char} : ¬ ['-', '-', '>'] <:+: c →
      SpellsItem interpolates (.comment (String.ofList c))
        ('<' :: '!' :: '-' :: '-' :: (c ++ ['-', '-', '>']))
  | interpolation {w : List Char} : interpolates = true → ¬ ['}', '}'] <:+: w ++ ['}'] →
      SpellsItem interpolates (.interpolation (String.ofList (trim w)))
        ('{' :: '{' :: (w ++ ['}', '}']))
  | declaration {c : Char} {w : List Char} : c = '!' ∧ ¬ ['-', '-'] <+: w ∨ c = '?' → '>' ∉ w →
      SpellsItem interpolates .declaration ('<' :: c :: (w ++ ['>']))
  | startTag {start : StartTag} {b : Bool} {s : List Char} : SpellsStartTag start b s →
      SpellsItem interpolates (.startTag start b) s
  | endTag {name gap : List Char} : name ≠ [] → (∀ c ∈ name, isBareChar c = true) →
      StopsAt isBareChar (gap ++ ['>']) → '>' ∉ gap →
      SpellsItem interpolates (.endTag (String.ofList name))
        ('<' :: '/' :: (name ++ (gap ++ ['>'])))

/-- Where a node stands: at the top level, where interpolations are compiled, or below an element
that shows everything as it is written. -/
inductive Place
  | top
  | compiled
  | verbatim
deriving DecidableEq, Repr

namespace Place

def interpolates : Place → Bool
  | compiled => true
  | _ => false

def isRaw (p : Place) (start : StartTag) : Bool :=
  match p with
  | top => start.tag ≠ templateTag
  | _ => isRawText start.tag

def inside (p : Place) (start : StartTag) : Place :=
  if p = verbatim || start.has verbatimAttribute then verbatim else compiled

end Place

/-- Whether an end tag closes an element. In the end tag of raw text more may follow after a
slash. -/
def Closes (raw : Bool) (tag name : String) : Prop :=
  ∃ n m, name.toList = n ++ m ∧ lowerName n = lowerName tag.toList ∧
    (m = [] ∨ raw = true ∧ '/' ∈ m.head?)

def rawChildren (t : List Char) : List Node :=
  if t = [] then [] else [.text (String.ofList t)]

theorem reverse_rawChildren (t : List Char) : (rawChildren t).reverse = rawChildren t := by
  unfold rawChildren
  split <;> rfl

/-- How siblings at a place are written from a byte offset on. The flag tells whether a text ends
right in front: another text may not follow it. -/
inductive Spells : Place → Nat → Bool → List Node → List Char → Prop
  | nil {p : Place} {o : Nat} {b : Bool} : Spells p o b [] []
  | text {p : Place} {o : Nat} {t : String} {s text : List Char} {ns : List Node} :
      SpellsItem p.interpolates (.text t) s → Spells p (o + byteCount s) true ns text →
      Spells p o false (.text t :: ns) (s ++ text)
  | comment {p : Place} {o : Nat} {b : Bool} {c : String} {s text : List Char} {ns : List Node} :
      SpellsItem p.interpolates (.comment c) s → Spells p (o + byteCount s) false ns text →
      Spells p o b (.comment c :: ns) (s ++ text)
  | interpolation {p : Place} {o : Nat} {b : Bool} {w : String} {s text : List Char}
      {ns : List Node} :
      SpellsItem p.interpolates (.interpolation w) s → Spells p (o + byteCount s) false ns text →
      Spells p o b (.interpolation w :: ns) (s ++ text)
  | declaration {p : Place} {o : Nat} {b : Bool} {s text : List Char} {ns : List Node} :
      SpellsItem p.interpolates .declaration s → Spells p (o + byteCount s) false ns text →
      Spells p o b ns (s ++ text)
  | closed {p : Place} {o : Nat} {b selfClosed : Bool} {start : StartTag} {s text : List Char}
      {ns : List Node} :
      SpellsItem p.interpolates (.startTag start selfClosed) s →
      (selfClosed || isVoid start.tag) = true → Spells p (o + byteCount s) false ns text →
      Spells p o b (.element start o [] :: ns) (s ++ text)
  | raw {p : Place} {o : Nat} {b : Bool} {start : StartTag} {name : String}
      {s t e text : List Char} {ns : List Node} :
      SpellsItem p.interpolates (.startTag start false) s → isVoid start.tag = false →
      p.isRaw start = true → SpellsItem false (.endTag name) e → Closes true start.tag name →
      Spells p (o + byteCount s + byteCount t + byteCount e) false ns text →
      Spells p o b (.element start o (rawChildren t) :: ns) (s ++ (t ++ (e ++ text)))
  | element {p : Place} {o : Nat} {b : Bool} {start : StartTag} {name : String}
      {s t e text : List Char} {children ns : List Node} :
      SpellsItem p.interpolates (.startTag start false) s → isVoid start.tag = false →
      p.isRaw start = false → Spells (p.inside start) (o + byteCount s) false children t →
      SpellsItem (p.inside start).interpolates (.endTag name) e → Closes false start.tag name →
      Spells p (o + byteCount s + byteCount t + byteCount e) false ns text →
      Spells p o b (.element start o children :: ns) (s ++ (t ++ (e ++ text)))

end Registrar.Markup
