/-! # Markup trees

Text, comments and interpolations are leaves that nothing looks into. An element knows the byte
offset of its start tag.
-/

namespace Registrar.Markup

structure Attribute where
  name : String
  value : Option String
deriving DecidableEq, Repr

structure StartTag where
  tag : String
  attributes : List Attribute
deriving DecidableEq, Repr

inductive Node
  | element (start : StartTag) (offset : Nat) (children : List Node)
  | text (content : String)
  | comment (content : String)
  | interpolation (content : String)
deriving Repr

structure Document where
  nodes : List Node
deriving Repr

def StartTag.attribute? (start : StartTag) (name : String) : Option Attribute :=
  start.attributes.find? (·.name = name)

def StartTag.has (start : StartTag) (name : String) : Bool :=
  (start.attribute? name).isSome

/-- Elements below an element with this attribute are shown as they are written. -/
def verbatimAttribute : String := "v-pre"

end Registrar.Markup
