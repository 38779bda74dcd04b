import Registrar.Markup.Document

/-! # What a template uses

The elements that are compiled are those with no verbatim attribute on themselves or around them.
Each may name a component and, by its attributes, directives.
-/

namespace Registrar.Markup

mutual

/-- The start tags of the compiled elements of a node, outer before inner. -/
def Node.compiled : Node → List StartTag
  | .element start _ children =>
    if start.has verbatimAttribute then [] else start :: compiledNodes children
  | .text _ => []
  | .comment _ => []
  | .interpolation _ => []

def compiledNodes : List Node → List StartTag
  | [] => []
  | node :: nodes => node.compiled ++ compiledNodes nodes

end

/-- Elements that stand for content from elsewhere, so that no component is looked up. -/
def placeholderTags : List String := ["slot", templateTag, "component"]

/-- The name in an `is` attribute that turns an element into a component. -/
def StartTag.vueIs? (start : StartTag) : Option String := do
  let value ← (← start.attribute? "is").value
  match value.toList with
  | 'v' :: 'u' :: 'e' :: ':' :: c :: cs => some (String.ofList (c :: cs))
  | _ => none

def namesComponent (tag : String) : Bool :=
  tag.toList.head?.any Char.isUpper || !isNative tag

def StartTag.component? (start : StartTag) : Option String :=
  if placeholderTags.contains start.tag || isBuiltinComponent start.tag then none
  else match start.vueIs? with
    | some name => some name
    | none => if namesComponent start.tag then some start.tag else none

/-- The name in a directive attribute, without argument and modifiers. -/
def directiveOf? (name : String) : Option String :=
  match name.toList with
  | 'v' :: '-' :: cs =>
    match cs.takeWhile fun c => c ≠ ':' && c ≠ '.' with
    | [] => none
    | directive => some (String.ofList directive)
  | _ => none

/-- An attribute that makes a `template` a wrapper without an element of its own. -/
def isFragmentAttribute (name : String) : Bool :=
  name.toList.head? = some '#' || (directiveOf? name).any isStructuralDirective

def StartTag.bearsDirectives (start : StartTag) : Bool :=
  if start.tag = "slot" then false
  else if start.tag = templateTag then !start.attributes.any (isFragmentAttribute ·.name)
  else true

/-- The directives of an element that are not compiled away. -/
def StartTag.directives (start : StartTag) : List String :=
  if start.bearsDirectives then
    start.attributes.filterMap fun a => (directiveOf? a.name).filter (!isBuiltinDirective ·)
  else []

/-- The names a template uses, each once, in the order in which they first appear. -/
structure TemplateUsage where
  components : List String
  directives : List String
deriving DecidableEq, Repr

namespace TemplateUsage

def empty : TemplateUsage := ⟨[], []⟩

def isEmpty (usage : TemplateUsage) : Bool :=
  usage.components.isEmpty && usage.directives.isEmpty

def ofStartTags (starts : List StartTag) : TemplateUsage :=
  ⟨(starts.filterMap StartTag.component?).eraseDups,
    (starts.flatMap StartTag.directives).eraseDups⟩

/-- What a document uses. The attributes of the template block itself are none of its directives. -/
def ofDocument (document : Document) : TemplateUsage :=
  match document.template? with
  | none => empty
  | some (start, _, children) =>
    if start.has verbatimAttribute then empty else ofStartTags (compiledNodes children)

def read (source : String) : Except Fault TemplateUsage :=
  (Document.read source).map ofDocument

end TemplateUsage

end Registrar.Markup
