import Registrar.Naming.Words

/-! # Names in capitals and names with hyphens

A template may write a component or a directive either way. The library exports a component in
capitalized words, and a directive in capitalized words behind a marker. A directive is registered
under its hyphenated name without the marker.
-/

namespace Registrar.Naming

def lower (word : List Char) : List Char := word.map Char.toLower

def capitalize : List Char → List Char
  | [] => []
  | c :: cs => c.toUpper :: lower cs

/-- A word behind another one. A digit at its head is set off, so that it does not join the word in
front. -/
def capitalizeInner : List Char → List Char
  | [] => []
  | c :: cs => if c.isDigit then '_' :: c :: lower cs else capitalize (c :: cs)

def joinCapitalized : List (List Char) → List Char
  | [] => []
  | w :: ws => capitalize w ++ ws.flatMap capitalizeInner

def joinHyphenated : List (List Char) → List Char
  | [] => []
  | w :: ws => lower w ++ ws.flatMap fun w => '-' :: lower w

/-- Capitalized words: `b-form-input` becomes `BFormInput`. -/
def pascalCase (text : List Char) : List Char := joinCapitalized (words text)

/-- Hyphenated words: `VBTooltip` becomes `vb-tooltip`. -/
def paramCase (text : List Char) : List Char := joinHyphenated (words text)

/-- A marker in lower case, as far as it can occur in a hyphenated name. Besides the capitals, the
Kelvin sign has an ASCII letter for its lower case. -/
def lowerMarker (marker : Char) : Char :=
  if marker = '\u212a' then 'k' else marker.toLower

def componentName (raw : String) : String := String.ofList (pascalCase raw.toList)

def directiveName (marker : Char) (raw : String) : String :=
  String.ofList (marker :: pascalCase raw.toList)

/-- A hyphenated name without the marker at its head and the hyphen behind it. -/
def dropMarker (marker : Char) : List Char → List Char
  | [] => []
  | c :: cs =>
    if c = lowerMarker marker then
      match cs with
      | '-' :: rest => rest
      | _ => cs
    else c :: cs

def registeredName (marker : Char) (exported : String) : String :=
  String.ofList (dropMarker marker (paramCase exported.toList))

end Registrar.Naming
