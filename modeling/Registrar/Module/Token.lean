import Registrar.Module.Escape
import Registrar.Module.Word
import Registrar.Text.Blank
import Registrar.Text.Identifier

/-! # Tokens of modules

Words, literals and signs. What a slash or a closing brace means depends on the grammar, so regular
expressions and the later pieces of templates are scanned where the grammar asks for them. A scan
that fails gives back the text behind the place of the fault.
-/

namespace Registrar.Module

open Registrar.Text

inductive Token
  /-- A name without a meaning. -/
  | name (name : String)
  /-- A word with a meaning, and its spelling in the source. -/
  | word (word spelling : String)
  | privateName
  /-- A string literal; `none` if its value is not a text, for want of half a surrogate pair. -/
  | literal (value : Option String)
  | number
  /-- The first piece of a template: whether an expression follows, and whether all escapes of the
  piece stand for something. -/
  | template (isOpen valid : Bool)
  | sign (sign : String)
  | finish
  | invalid
deriving DecidableEq, Repr

/-- What is left of the text, after a fault or behind what was found. -/
abbrev Scan (α : Type) := Except (List Char) (α × List Char)

/-! ## Blanks -/

def isSpace (c : Char) : Bool :=
  (isWhiteSpace c || c = '\u180e' || c = '\u200b' || c = '\ufeff') && !isLineEnd c

def dropLine (text : List Char) : List Char := text.dropWhile fun c => !isLineEnd c

theorem length_dropLine_le (text : List Char) : (dropLine text).length ≤ text.length :=
  length_dropWhile_le _ text

/-- Whether a line of this text marks two versions of what follows. -/
def isConflictMark (text : List Char) : Bool :=
  [['<', '<', '<', '<', '<', '<', '<', ' '], ['=', '=', '=', '=', '=', '=', '='],
    ['>', '>', '>', '>', '>', '>', '>', ' ']].any (·.isPrefixOf text)

/-- Drop white space and comments, and tell whether a line ended. A comment may run on to the end.
Two marks of markup comments begin a comment as well, one of them only behind a line break, where
the marks of a conflict do so too. -/
def skipBlanks (broken : Bool) : List Char → Bool × List Char
  | [] => (broken, [])
  | '/' :: '/' :: cs => skipBlanks broken (dropLine cs)
  | '/' :: '*' :: cs =>
    match _ : cutAt? ['*', '/'] cs with
    | none => (broken || cs.any isLineEnd, [])
    | some (comment, rest) => skipBlanks (broken || comment.any isLineEnd) (rest.drop 2)
  | '<' :: '!' :: '-' :: '-' :: cs => skipBlanks broken (dropLine cs)
  | '-' :: '-' :: '>' :: cs =>
    if broken then skipBlanks broken (dropLine cs) else (broken, '-' :: '-' :: '>' :: cs)
  | c :: cs =>
    if isLineEnd c then skipBlanks true cs
    else if isSpace c then skipBlanks broken cs
    else if broken && isConflictMark (c :: cs) then skipBlanks broken (dropLine cs)
    else (broken, c :: cs)
termination_by text => text.length
decreasing_by
  all_goals simp only [List.length_cons, List.length_drop]
  · have := length_dropLine_le cs
    omega
  · have := length_of_cut? ‹_›
    omega
  · have := length_dropLine_le cs
    omega
  · have := length_dropLine_le cs
    omega
  · omega
  · omega
  · have := length_dropLine_le cs
    omega

/-! ## Words -/

def isWordStart (c : Char) : Bool := isIdStart c || c = '$' || c = '_'

def isWordChar (c : Char) : Bool :=
  isIdContinue c || c = '$' || c = '\u200c' || c = '\u200d'

/-- What an escape adds to a word, latest character first: any character at all. Half of a surrogate
pair stays an escape. -/
def escapedCharacters (points : List Nat) : List Char :=
  match joinSurrogates points.reverse with
  | some characters => characters.reverse
  | none => points.flatMap fun n => (Nat.toDigits 16 n).reverse.map Char.toUpper ++ ['u', '\\']

/-- The characters of a word and of its spelling, latest first. -/
def scanWord (name spelling : List Char) : List Char → Scan (List Char × List Char)
  | [] => .ok ((name, spelling), [])
  | '\\' :: 'u' :: cs =>
    match unicodeEscape? cs with
    | none => .error cs
    | some (points, width) =>
      scanWord (escapedCharacters points ++ name)
        ((cs.take width).reverseAux ('u' :: '\\' :: spelling)) (cs.drop width)
  | '\\' :: cs => .error cs
  | c :: cs =>
    if isWordChar c then scanWord (c :: name) (c :: spelling) cs
    else .ok ((name, spelling), c :: cs)
termination_by text => text.length
decreasing_by
  all_goals simp only [List.length_cons, List.length_drop]; omega

/-- The token of a word that is spelled like this. A word that begins with an escape has no meaning.
Other words keep theirs in spite of escapes, unless they are kept from names: these may not have
escapes, but for a strict word that comes `first` in a source. -/
def wordToken (first : Bool) (spelling name : String) : Token :=
  let escaped := spelling ≠ name
  if spelling.startsWith "\\" then .name name
  else if keywords.contains name then if escaped then .invalid else .word name spelling
  else if strictWords.contains name then
    if escaped && !first then .invalid else .word name spelling
  else if contextualWords.contains name then .word name spelling
  else .name name

/-! ## Numbers -/

def dropDigits (isDigit : Char → Bool) (text : List Char) : List Char :=
  text.dropWhile fun c => isDigit c || c = '_'

/-- Whether there is a digit in front of what is neither digit nor underscore. -/
def hasDigits (isDigit : Char → Bool) (text : List Char) : Bool :=
  startsWith isDigit (text.dropWhile (· = '_'))

/-- Whether a character that sticks to a number or a regular expression begins a word. Of the
letters only those of ASCII do. -/
def isPlainWordStart (c : Char) : Bool := c.isAlpha || c = '$' || c = '_'

/-- A number does not run into a word. -/
def scanNumberEnd (rest : List Char) : Scan Unit :=
  if startsWith isPlainWordStart rest then .error rest else .ok ((), rest)

def scanRadix (isDigit : Char → Bool) (text : List Char) : Scan Unit :=
  if hasDigits isDigit text then
    match dropDigits isDigit text with
    | 'n' :: rest => .ok ((), rest)
    | rest => scanNumberEnd rest
  else .error (dropDigits isDigit text)

def scanExponent : List Char → Scan Unit
  | c :: cs =>
    if c = 'e' || c = 'E' then
      let digits := match cs with
        | '+' :: ds => ds
        | '-' :: ds => ds
        | ds => ds
      if hasDigits Char.isDigit digits then scanNumberEnd (dropDigits Char.isDigit digits)
      else .error (dropDigits Char.isDigit digits)
    else scanNumberEnd (c :: cs)
  | [] => .ok ((), [])

/-- Whether these digits in front of a point are an octal number in the old style, which has
neither a fraction nor an exponent. -/
def isOldOctal (digits : List Char) : Bool :=
  startsWith (· = '0') digits && digits.length ≠ 1 && !digits.any fun c => c = '8' || c = '9'

def scanNumber (text : List Char) : Scan Unit :=
  match text with
  | '0' :: 'x' :: cs | '0' :: 'X' :: cs => scanRadix (fun c => (hexValue? c).isSome) cs
  | '0' :: 'b' :: cs | '0' :: 'B' :: cs => scanRadix (fun c => c = '0' || c = '1') cs
  | '0' :: 'o' :: cs | '0' :: 'O' :: cs => scanRadix isOctalDigit cs
  | _ =>
    let digits := text.takeWhile fun c => c.isDigit || c = '_'
    let rest := dropDigits Char.isDigit text
    if isOldOctal digits then scanNumberEnd rest
    else match rest with
      | '.' :: cs => scanExponent (dropDigits Char.isDigit cs)
      | 'n' :: cs =>
        if startsWith (· = '0') digits && digits.length ≠ 1 then .error rest else .ok ((), cs)
      | _ => scanExponent rest

/-! ## String literals, templates and regular expressions -/

/-- The code points of a string literal, latest first; `recent` ones stand behind the last escape.
A literal without its second quote ends with its line and has only the recent ones. -/
def scanLiteral (quote : Char) (before recent : List Nat) : List Char → Scan (List Nat)
  | [] => .ok (recent, [])
  | c :: cs =>
    if c = quote then .ok (recent ++ before, cs)
    else if c = '\n' || c = '\r' then .ok (recent, c :: cs)
    else if c = '\\' then
      match escape? cs with
      | none => .error cs
      | some (points, width) =>
        scanLiteral quote (points ++ (recent ++ before)) [] (cs.drop width)
    else scanLiteral quote before (c.toNat :: recent) cs
termination_by text => text.length
decreasing_by
  all_goals simp only [List.length_cons, List.length_drop]; omega

/-- A piece of a template: whether an expression follows, and whether its escapes are valid. -/
def scanTemplate (valid : Bool) : List Char → Scan (Bool × Bool)
  | [] => .error []
  | '`' :: cs => .ok ((false, valid), cs)
  | '$' :: '\x7b' :: cs => .ok ((true, valid), cs)
  | '\\' :: c :: cs => scanTemplate (valid && isTemplateEscape (c :: cs)) cs
  | _ :: cs => scanTemplate valid cs

def scanFlags (text : List Char) : Scan Unit :=
  if startsWith isPlainWordStart text then (scanWord [] [] text).map fun (_, rest) => ((), rest)
  else .ok ((), text)

def scanRegex (inClass : Bool) : List Char → Scan Unit
  | [] => .error []
  | '\\' :: c :: cs => if isLineEnd c then .error (c :: cs) else scanRegex inClass cs
  | c :: cs =>
    if isLineEnd c then .error (c :: cs)
    else if c = '/' && !inClass then scanFlags cs
    else scanRegex (if c = '[' then true else if c = ']' then false else inClass) cs

/-! ## Tokens -/

def signs : List String :=
  [">>>=", "...", "**=", "<<=", ">>=", ">>>", "&&=", "||=", "??=", "===", "!==",
    "=>", "==", "!=", "<=", ">=", "&&", "||", "??", "++", "--", "+=", "-=", "*=", "/=", "%=",
    "&=", "|=", "^=", "<<", ">>", "**", "?.",
    "\x7b", "\x7d", "(", ")", "[", "]", ";", ",", "<", ">", "+", "-", "*", "/", "%", "&", "|",
    "^", "!", "~", "?", ":", "=", ".", "#", "@"]

def signCharacters : List (String × List Char) := signs.map fun s => (s, s.toList)

/-- The longest sign that begins here. A question mark in front of a fraction is no part of an
optional chain. -/
def scanSign (text : List Char) : Option (String × List Char) :=
  match text with
  | '?' :: '.' :: d :: cs =>
    if d.isDigit then some ("?", '.' :: d :: cs) else some ("?.", d :: cs)
  | _ =>
    (signCharacters.find? (·.2.isPrefixOf text)).map fun (s, characters) =>
      (s, text.drop characters.length)

def Scan.token {α : Type} (scan : Scan α) (f : α → Token) : Token × List Char :=
  match scan with
  | .ok (a, rest) => (f a, rest)
  | .error rest => (.invalid, rest)

/-- The token that begins at the first character; `first` if it comes first in a source. -/
def scanToken (first : Bool) : List Char → Token × List Char
  | [] => (.finish, [])
  | c :: cs =>
    let text := c :: cs
    let word (text : List Char) : Token × List Char :=
      (scanWord [] [] text).token fun (name, spelling) =>
        wordToken first (String.ofList spelling.reverse) (String.ofList name.reverse)
    if isWordStart c || c = '\\' then word text
    else if c.isDigit || (c = '.' && startsWith Char.isDigit cs) then
      (scanNumber text).token fun _ => .number
    else if c = '"' || c = '\'' then
      (scanLiteral c [] [] cs).token fun codes =>
        .literal ((joinSurrogates codes.reverse).map String.ofList)
    else if c = '`' then (scanTemplate true cs).token fun piece => .template piece.1 piece.2
    else if c = '#' && startsWith (fun c => isWordStart c || c = '\\') cs then
      let (name, rest) := word cs
      (if name = .invalid then .invalid else .privateName, rest)
    else match scanSign text with
      | none => (.invalid, cs)
      | some (s, rest) => (.sign s, rest)

/-- The name that a word stands for where any word is a name. -/
def Token.spelling? : Token → Option String
  | .name n => some n
  | .word _ spelling => some spelling
  | _ => none

def Token.isReference : Token → Bool
  | .name _ => true
  | .word w _ => isReferenceWord w
  | _ => false

def Token.isWord (word : String) : Token → Bool
  | .word w _ => w = word
  | _ => false

end Registrar.Module
