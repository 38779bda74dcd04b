/-! # Places in a JSON text

A place is a line, counted from 1, and the bytes that have been passed on it.
-/

namespace Registrar.Json

structure Place where
  line : Nat
  column : Nat
deriving DecidableEq, Repr

namespace Place

def start : Place := ⟨1, 0⟩

def advance (p : Place) (c : Char) : Place :=
  if c = '\n' then ⟨p.line + 1, 0⟩ else ⟨p.line, p.column + c.utf8Size⟩

/-- The place some bytes further on. They may end inside a character. -/
def after (p : Place) : Nat → List Char → Place
  | 0, _ => p
  | _ + 1, [] => p
  | n + 1, c :: cs =>
    if c.utf8Size ≤ n + 1 then after (p.advance c) (n + 1 - c.utf8Size) cs
    else ⟨p.line, p.column + (n + 1)⟩

end Place

structure Cursor where
  place : Place
  rest : List Char

namespace Cursor

def ofText (text : List Char) : Cursor := ⟨.start, text⟩

def peekPlace (c : Cursor) : Place := c.place.after 1 c.rest

def skip (c : Cursor) : Nat → Cursor
  | 0 => c
  | n + 1 =>
    match c.rest with
    | [] => c
    | x :: xs => skip ⟨c.place.advance x, xs⟩ n

end Cursor

end Registrar.Json
