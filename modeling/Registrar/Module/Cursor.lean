import Registrar.Module.Token

/-! # Moving over tokens

A cursor stands on a token. Reading moves the cursor and may fail. A failure leaves the cursor at
the fault, so that a rule which lets faults through goes on from there. No loop runs longer than
there are characters, so a bound on the rounds is known from the start.
-/

namespace Registrar.Module

structure Cursor where
  token : Token
  /-- Whether a line break stands in front of the token. -/
  broken : Bool
  /-- The text from the token on. -/
  start : List Char
  /-- The text behind the token. -/
  rest : List Char

def Cursor.ofText (first broken : Bool) (text : List Char) : Cursor :=
  let (broken, start) := skipBlanks broken text
  let (token, rest) := scanToken first start
  ⟨token, broken, start, rest⟩

def Cursor.next (c : Cursor) : Cursor := .ofText false false c.rest

def Cursor.isEnd (c : Cursor) : Bool :=
  c.broken || [.sign ";", .sign "\x7d", .finish].contains c.token

abbrev Reader := OptionT (StateM Cursor)

namespace Reader

/-! ## Loops and faults -/

/-- Take rounds from a state until one gives a result, but no more than `bound`. -/
def iterate {σ α : Type} (round : σ → Reader (σ ⊕ α)) :
    Nat → σ → Cursor → Option α × Cursor
  | 0, _, c => (none, c)
  | bound + 1, s, c =>
    match round s c with
    | (none, c) => (none, c)
    | (some (.inl s), c) => iterate round bound s c
    | (some (.inr a), c) => (some a, c)

def repeatWhile (bound : Nat) (round : Reader Bool) : Reader Unit :=
  iterate (fun _ => do if ← round then return .inl () else return .inr ()) bound ()

def attempt {α : Type} (read : Reader α) : Reader (Option α) := OptionT.mk (some <$> read.run)

def advance : Reader Unit := modify Cursor.next

def passInvalid : Reader Unit := do if (← get).token = .invalid then advance

/-- Fail. A token that is none is left behind. -/
def refuse {α : Type} : Reader α := do
  passInvalid
  failure

def require (condition : Bool) : Reader Unit := if condition then pure () else refuse

/-! ## Single tokens -/

def isSign (s : String) : Reader Bool := return (← get).token = .sign s

def isWord (w : String) : Reader Bool := return (← get).token.isWord w

def isBroken : Reader Bool := return (← get).broken

/-- Whether the sign stands here; if so it is passed. -/
def takeSign (s : String) : Reader Bool := do
  if ← isSign s then advance; return true else return false

def takeWord (w : String) : Reader Bool := do
  if ← isWord w then advance; return true else return false

def expectSign (s : String) : Reader Unit := do require (← takeSign s)

def expectWord (w : String) : Reader Unit := do require (← takeWord w)

def takeEnd : Reader Bool := do
  if ← takeSign ";" then return true else return (← get).isEnd

def endStatement : Reader Unit := do require (← takeEnd)

def bindingName : Reader String := do
  match (← get).token with
  | .name name => do advance; return name
  | .word word spelling => do
    require (isBindingWord word)
    advance
    return spelling
  | _ => refuse

/-- The name of a function or class that may be left out. -/
def optionalName : Reader Unit := do
  if (← get).token.isReference then discard bindingName

/-- Elements with commas between them, and perhaps one behind them, up to a closing sign; the latest
comes first. -/
def commaList {α : Type} (bound : Nat) (close : String) (element : Reader α) : Reader (List α) :=
  iterate (fun elements => do
    if ← takeSign close then return .inr elements
    let elements := (← element) :: elements
    if ← takeSign "," then return .inl elements
    expectSign close
    return .inr elements) bound []

end Reader

end Registrar.Module
