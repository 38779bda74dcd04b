/-! # The words of an identifier

An identifier such as `b-form-input` or `VBTooltip` is a sequence of words. Two kinds of borders
inside a run of letters and digits are marked first; then everything else separates words.
-/

namespace Registrar.Naming

/-- Put in at a border between two words; it separates words like any other sign. -/
def border : Char := '\x00'

def isLowerOrDigit (c : Char) : Bool := c.isLower || c.isDigit

/-- Mark the borders in front of a capital behind a small letter or a digit. -/
def markCapitals : List Char → List Char
  | a :: b :: cs =>
    if isLowerOrDigit a && b.isUpper then a :: border :: b :: markCapitals cs
    else a :: markCapitals (b :: cs)
  | cs => cs

/-- Mark the borders inside a run of capitals, in front of the last one if a small letter
follows. -/
def markTitles : List Char → List Char
  | a :: b :: c :: cs =>
    if a.isUpper && b.isUpper && c.isLower then a :: border :: b :: c :: markTitles cs
    else a :: markTitles (b :: c :: cs)
  | cs => cs

/-- The longest runs of letters and digits, in order. `word` is the run being read, latest
character first. -/
def runsFrom (word : List Char) : List Char → List (List Char)
  | [] => if word.isEmpty then [] else [word.reverse]
  | c :: cs =>
    if c.isAlphanum then runsFrom (c :: word) cs
    else if word.isEmpty then runsFrom [] cs
    else word.reverse :: runsFrom [] cs

def runs (text : List Char) : List (List Char) := runsFrom [] text

def words (text : List Char) : List (List Char) := runs (markTitles (markCapitals text))

end Registrar.Naming
