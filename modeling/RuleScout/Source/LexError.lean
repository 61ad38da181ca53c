/-!
# Lexical errors

Why a text cannot be cut into tokens, and the byte offset of the character that the message
points at.
-/

set_option autoImplicit false

namespace RuleScout

inductive LexFault where
  | unterminatedComment
  | unterminatedString
  | unterminatedRegex
  | unterminatedTemplate
  | unterminatedSubstitution
  | unexpected (c : Char)
  deriving DecidableEq, Repr

def LexFault.message : LexFault → String
  | .unterminatedComment => "Unterminated block comment"
  | .unterminatedString => "Unterminated string literal"
  | .unterminatedRegex => "Unterminated regular expression"
  | .unterminatedTemplate => "Unterminated template literal"
  | .unterminatedSubstitution => "Unterminated template substitution"
  | .unexpected c => "Unexpected character '" ++ c.toString ++ "'"

structure LexError where
  fault : LexFault
  offset : Nat
  deriving DecidableEq, Repr

end RuleScout
