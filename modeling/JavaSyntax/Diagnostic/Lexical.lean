import JavaSyntax.Span

/-!
# Lexical errors

The ways in which a stretch of text fails to be a token. Splitting a source
text into tokens stops at the first such error.
-/

namespace JavaSyntax

/-- Why the text at some place starts no token. -/
inductive LexicalFault where
  | openComment
  | badString
  | badCharacter
  | badNumber
  | strayCharacter
  deriving DecidableEq, Repr, Inhabited

/-- The wording of a fault. -/
def LexicalFault.describe : LexicalFault → String
  | .openComment => "unterminated block comment"
  | .badString => "invalid or unterminated string literal"
  | .badCharacter => "invalid or unterminated character literal"
  | .badNumber => "invalid numeric literal"
  | .strayCharacter => "unexpected character"

/-- A lexical fault and the text it covers. -/
structure LexicalError where
  fault : LexicalFault
  span : Span
  deriving DecidableEq, Repr, Inhabited

namespace LexicalError

/-- The name under which lexical errors are reported. -/
def code : String := "jcst::lex"

/-- The full message of an error. -/
def message (error : LexicalError) : String :=
  "lex error: " ++ error.fault.describe

end LexicalError

end JavaSyntax
