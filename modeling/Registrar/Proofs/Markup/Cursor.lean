import Registrar.Markup.Document
import Registrar.Proofs.Markup.Grammar
import Registrar.Proofs.Text.Slice

/-! # Reading by byte offsets

A reader whose state is a byte offset, which moves over the bytes of the source and takes slices of
the source. A slice that does not exist, a byte that is not there and a round of a loop that comes
no nearer to the end all stop it, apart from the faults of the source.
-/

namespace Registrar.Markup.Cursor

open Registrar.Text

/-- Why the reader stops early. Only a fault is the source's. -/
inductive Halt
  | fault (message : String)
  | outOfBounds
  | standstill
deriving DecidableEq, Repr

inductive Round (σ α : Type)
  | leave (result : α)
  | again (state : σ) (next : Nat)

variable {α σ : Type}

def checked : Option α → Except Halt α
  | some a => .ok a
  | none => .error .outOfBounds

def isBlankByte (b : UInt8) : Bool :=
  b = ' '.toUInt8 || b = '\t'.toUInt8 || b = '\n'.toUInt8 || b = '\r'.toUInt8 || b = '\x0c'.toUInt8

def isTagByte (b : UInt8) : Bool := !isBlankByte b && b ≠ '/'.toUInt8 && b ≠ '>'.toUInt8

def isNameByte (b : UInt8) : Bool :=
  !isBlankByte b && b ≠ '='.toUInt8 && b ≠ '>'.toUInt8 && b ≠ '/'.toUInt8

def isBareByte (b : UInt8) : Bool := !isBlankByte b && b ≠ '>'.toUInt8

section

variable (source : List Char)

def peek (pos : Nat) : Option UInt8 := (utf8 source)[pos]?

def byteAt (pos : Nat) : Except Halt UInt8 := checked (peek source pos)

def bytesFrom (pos : Nat) : Except Halt (List UInt8) := checked (bytesFrom? source pos)

def slice (start stop : Nat) : Except Halt (List Char) := checked (slice? source start stop)

def atEnd (pos : Nat) : Bool := byteCount source ≤ pos

def startsWith (pos : Nat) (pattern : List Char) : Except Halt Bool := do
  return (utf8 pattern).isPrefixOf (← bytesFrom source pos)

def fail (offset : Nat) (cause : Cause) : Except Halt α := do
  let (line, column) ← checked (lineColumn? source offset)
  throw (.fault (cause.message ++ " at " ++ (Position.mk line column).render))

def spanFrom (keep : UInt8 → Bool) (pos : Nat) : Nat :=
  (((utf8 source).drop pos).takeWhile keep).length

def takeWhile (keep : UInt8 → Bool) (pos : Nat) : Except Halt (String × Nat) := do
  let stop := pos + spanFrom source keep pos
  return (String.ofList (← slice source pos stop), stop)

def skipBlanks (pos : Nat) : Nat := pos + spanFrom source isBlankByte pos

def loop (round : σ → Nat → Except Halt (Round σ α)) (state : σ) (pos : Nat) : Except Halt α :=
  match round state pos with
  | .error halt => .error halt
  | .ok (.leave result) => .ok result
  | .ok (.again state next) =>
    if pos < next ∧ next ≤ byteCount source then loop round state next
    else .error .standstill
termination_by byteCount source - pos

def parseEndTag (pos : Nat) : Except Halt (String × Nat) := do
  let (name, stop) ← takeWhile source isBareByte (pos + 2)
  if name = "" then fail source pos .missingEndTagName
  else
    match (← bytesFrom source stop).findIdx? (· = '>'.toUInt8) with
    | some gap => return (name, stop + gap + 1)
    | none => fail source pos (.unclosedEndTag name)

def parseEnclosed (opener closer : List Char) (cause : Cause) (pos : Nat) :
    Except Halt (List Char × Nat) := do
  let start := pos + byteCount opener
  match cutAt? closer (← slice source start (byteCount source)) with
  | some (content, _) =>
    let stop := start + byteCount content
    return (← slice source start stop, stop + byteCount closer)
  | none => fail source pos cause

def parseDeclaration (pos : Nat) : Except Halt Nat := do
  match (← bytesFrom source pos).findIdx? (· = '>'.toUInt8) with
  | some gap => return pos + gap + 1
  | none => fail source pos .unterminatedDeclaration

def parseQuoted (offset : Nat) (tag : String) (quote : UInt8) (pos : Nat) :
    Except Halt (String × Nat) := do
  let start := pos + 1
  match (← bytesFrom source start).findIdx? (· = quote) with
  | some width => return (String.ofList (← slice source start (start + width)), start + width + 1)
  | none => fail source offset (.unterminatedValue tag)

def parseValue (offset : Nat) (tag : String) (pos : Nat) : Except Halt (String × Nat) :=
  match peek source pos with
  | some quote =>
    if quote = '"'.toUInt8 ∨ quote = '\''.toUInt8 then parseQuoted source offset tag quote pos
    else takeWhile source isBareByte pos
  | none => takeWhile source isBareByte pos

def parseAttribute (offset : Nat) (tag name : String) (pos : Nat) :
    Except Halt (Attribute × Nat) := do
  let gap := skipBlanks source pos
  if ← startsWith source gap ['='] then
    let (value, next) ← parseValue source offset tag (skipBlanks source (gap + 1))
    return (⟨name, some value⟩, next)
  else return (⟨name, none⟩, gap)

def attributesRound (offset : Nat) (tag : String) (attributes : List Attribute) (pos : Nat) :
    Except Halt (Round (List Attribute) ((List Attribute × Bool) × Nat)) := do
  let pos := skipBlanks source pos
  if atEnd source pos then fail source offset (.unclosedStartTag tag)
  else if ← startsWith source pos ['>'] then return .leave ((attributes, false), pos + 1)
  else if ← startsWith source pos ['/', '>'] then return .leave ((attributes, true), pos + 2)
  else if ← startsWith source pos ['/'] then return .again attributes (pos + 1)
  else
    let (name, stop) ← takeWhile source isNameByte pos
    if name = "" then return .again attributes (stop + 1)
    else
      let (found, next) ← parseAttribute source offset tag name stop
      return .again (attributes ++ [found]) next

def parseAttributes (offset : Nat) (tag : String) (pos : Nat) :
    Except Halt ((List Attribute × Bool) × Nat) :=
  loop source (attributesRound source offset tag) [] pos

def parseStartTag (pos : Nat) : Except Halt ((StartTag × Bool) × Nat) := do
  let (tag, next) ← takeWhile source isTagByte (pos + 1)
  let ((attributes, selfClosing), stop) ← parseAttributes source pos tag next
  return ((⟨tag, attributes⟩, selfClosing), stop)

/-- Whether the end tag of an element of raw text stands at an offset. -/
def isEndTagOf (tag : List Char) (pos : Nat) : Bool :=
  let name := pos + 2
  let stop := name + byteCount tag
  peek source (pos + 1) = some '/'.toUInt8 &&
    (stop ≤ byteCount source &&
      (((utf8 source).drop name).take (byteCount tag)).map lowerByte =
        (utf8 tag).map lowerByte) &&
    (peek source stop).all fun b => isBlankByte b || b = '>'.toUInt8 || b = '/'.toUInt8

/-- Go on to the next marked byte, and decide there whether to leave. -/
def searchRound (mark : UInt8 → Bool) (missing : Except Halt α)
    (found : Nat → Except Halt (Option α)) (_ : Unit) (pos : Nat) :
    Except Halt (Round Unit α) := do
  match (← bytesFrom source pos).findIdx? mark with
  | none => return .leave (← missing)
  | some gap =>
    match ← found (pos + gap) with
    | some result => return .leave result
    | none => return .again () (pos + gap + 1)

def rawTextAt (tag : String) (start pos : Nat) : Except Halt (Option (List Char × Nat)) := do
  if isEndTagOf source tag.toList pos then
    let text ← slice source start pos
    let (_, stop) ← parseEndTag source pos
    return some (text, stop)
  else return none

def parseRawText (tag : String) (offset pos : Nat) : Except Halt (List Char × Nat) :=
  let missing := fail source offset (.missingEndTag tag)
  loop source (searchRound source (· = '<'.toUInt8) missing (rawTextAt source tag pos)) () pos

def startsMarkupAt (pos : Nat) : Bool :=
  (peek source (pos + 1)).any fun b =>
    isAlphaByte b || b = '/'.toUInt8 || b = '!'.toUInt8 || b = '?'.toUInt8

def textEndAt (interpolates : Bool) (pos : Nat) : Except Halt (Option Nat) := do
  if (← byteAt source pos) = '<'.toUInt8 && startsMarkupAt source pos then return some pos
  else if interpolates then
    if ← startsWith source pos ['{', '{'] then return some pos else return none
  else return none

def isTextMark (b : UInt8) : Bool := b = '<'.toUInt8 || b = '{'.toUInt8

def textRound (interpolates : Bool) (_ : Unit) (pos : Nat) : Except Halt (Round Unit Nat) :=
  if byteCount source ≤ pos then .ok (.leave pos)
  else searchRound source isTextMark (.ok (byteCount source)) (textEndAt source interpolates) () pos

/-- Text, whose first byte is not looked at. The search may begin inside a character. -/
def parseText (interpolates : Bool) (pos : Nat) : Except Halt (String × Nat) := do
  let stop ← loop source (textRound source interpolates) () (pos + 1)
  return (String.ofList (← slice source pos stop), stop)

structure OpenElement where
  tag : String
  offset : Nat
  verbatim : Bool

/-- What the reader of nodes does next: leave, go on, or read an element first. -/
inductive Turn
  | leave (next : Nat)
  | again (nodes : List Node) (next : Nat)
  | element

def childrenTurn (parent : Option OpenElement) (nodes : List Node) (pos : Nat) :
    Except Halt Turn := do
  let interpolates := parent.any (!·.verbatim)
  if atEnd source pos then
    match parent with
    | some element => fail source element.offset (.missingEndTag element.tag)
    | none => return .leave pos
  else if ← startsWith source pos ['<', '!', '-', '-'] then
    let (content, next) ←
      parseEnclosed source ['<', '!', '-', '-'] ['-', '-', '>'] .unterminatedComment pos
    return .again (.comment (String.ofList content) :: nodes) next
  else if ← startsWith source pos ['<', '/'] then
    let (name, next) ← parseEndTag source pos
    match parent with
    | some element =>
      if lowerName name.toList = lowerName element.tag.toList then return .leave next
      else fail source pos (.mismatchedEndTag name element.tag)
    | none => fail source pos (.unexpectedEndTag name)
  else if (← startsWith source pos ['<', '!']) || (← startsWith source pos ['<', '?']) then
    return .again nodes (← parseDeclaration source pos)
  else if (← startsWith source pos ['<']) && (peek source (pos + 1)).any isAlphaByte then
    return .element
  else if (← startsWith source pos ['{', '{']) && interpolates then
    let (content, next) ←
      parseEnclosed source ['{', '{'] ['}', '}'] .unterminatedInterpolation pos
    return .again (.interpolation (String.ofList (trim content)) :: nodes) next
  else
    let (content, next) ← parseText source interpolates pos
    return .again (.text content :: nodes) next

mutual

/-- The nodes up to the end tag of the element around them; `nodes` are the ones read already,
latest first. -/
def parseChildren (parent : Option OpenElement) (nodes : List Node) (pos : Nat) :
    Except Halt (List Node × Nat) :=
  match childrenTurn source parent nodes pos with
  | .error halt => .error halt
  | .ok (.leave next) => .ok (nodes.reverse, next)
  | .ok (.again nodes next) =>
    if _ : pos < next ∧ next ≤ byteCount source then parseChildren parent nodes next
    else .error .standstill
  | .ok .element =>
    match parseElement parent.isNone (parent.any (·.verbatim)) pos with
    | .error halt => .error halt
    | .ok (element, next) =>
      if _ : pos < next ∧ next ≤ byteCount source then
        parseChildren parent (element :: nodes) next
      else .error .standstill
termination_by (byteCount source - pos, 1)

def parseElement (root verbatim : Bool) (pos : Nat) : Except Halt (Node × Nat) := do
  let ((start, selfClosing), next) ← parseStartTag source pos
  if selfClosing || isVoid start.tag then return (.element start pos [], next)
  else if if root then start.tag ≠ templateTag else isRawText start.tag then
    let (text, stop) ← parseRawText source start.tag pos next
    return (.element start pos (rawChildren text), stop)
  else if _ : pos < next ∧ next ≤ byteCount source then
    let element : OpenElement := ⟨start.tag, pos, verbatim || start.has verbatimAttribute⟩
    let (children, stop) ← parseChildren (some element) [] next
    return (.element start pos children, stop)
  else throw .standstill
termination_by (byteCount source - pos, 0)

end

end

def parse (source : String) : Except Halt Document := do
  let (nodes, _) ← parseChildren source.toList none [] 0
  return ⟨nodes⟩

end Registrar.Markup.Cursor
