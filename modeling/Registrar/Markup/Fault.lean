import Registrar.Text.Position

/-! # Faults of markup

A fault is a cause and the byte offset of the construct to blame. It is shown with line and column.
-/

namespace Registrar.Markup

inductive Cause
  | missingEndTag (tag : String)
  | unclosedStartTag (tag : String)
  | unterminatedValue (tag : String)
  | unexpectedEndTag (name : String)
  | mismatchedEndTag (name expected : String)
  | missingEndTagName
  | unclosedEndTag (name : String)
  | unterminatedComment
  | unterminatedDeclaration
  | unterminatedInterpolation
deriving DecidableEq, Repr

def Cause.message : Cause → String
  | .missingEndTag tag => "Element <" ++ tag ++ "> is missing end tag"
  | .unclosedStartTag tag => "Start tag <" ++ tag ++ "> is not closed"
  | .unterminatedValue tag => "Unterminated attribute value in <" ++ tag ++ ">"
  | .unexpectedEndTag name => "Unexpected end tag </" ++ name ++ ">"
  | .mismatchedEndTag name expected =>
    "Unexpected end tag </" ++ name ++ ">, expected </" ++ expected ++ ">"
  | .missingEndTagName => "Missing end tag name"
  | .unclosedEndTag name => "End tag </" ++ name ++ "> is not closed"
  | .unterminatedComment => "Unterminated comment"
  | .unterminatedDeclaration => "Unterminated declaration"
  | .unterminatedInterpolation => "Interpolation is missing closing \"\x7d\x7d\""

structure Fault where
  cause : Cause
  offset : Nat
deriving DecidableEq, Repr

def Fault.message (fault : Fault) (source : String) : String :=
  fault.cause.message ++ " at " ++
    (Text.Position.ofOffset source.toList fault.offset).render

end Registrar.Markup
