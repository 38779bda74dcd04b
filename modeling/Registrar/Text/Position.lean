/-! # Places in a text

A place is a byte offset in the UTF-8 form. Readers are told the line and the column of it, both
from 1, the column in characters.
-/

namespace Registrar.Text

def byteCount (text : List Char) : Nat :=
  text.foldl (fun n c => n + c.utf8Size) 0

structure Position where
  line : Nat
  column : Nat
deriving DecidableEq, Repr

namespace Position

def advance (p : Position) (c : Char) : Position :=
  if c = '\n' then ⟨p.line + 1, 1⟩ else ⟨p.line, p.column + 1⟩

def after (p : Position) : Nat → List Char → Position
  | 0, _ => p
  | _ + 1, [] => p
  | offset + 1, c :: cs => after (p.advance c) (offset + 1 - c.utf8Size) cs

def ofOffset (text : List Char) (offset : Nat) : Position :=
  after ⟨1, 1⟩ offset text

def render (p : Position) : String :=
  toString p.line ++ ":" ++ toString p.column

end Position

end Registrar.Text
