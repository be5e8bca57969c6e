import JavaSyntax.Span
import JavaSyntax.Token.Kind

/-!
# Tokens

A token is a kind, the text it was written as, and where that text stands.
-/

namespace JavaSyntax

/-- A token with its text and place in the source. -/
structure Token where
  kind : TokenKind
  text : String
  span : Span
  deriving DecidableEq, Repr, Inhabited

namespace Token

/-- The offset of the first byte. -/
def start (token : Token) : Nat :=
  token.span.offset

/-- The offset just past the last byte. -/
def stop (token : Token) : Nat :=
  token.span.stop

/-- A token whose span is as long as its text. -/
def written (kind : TokenKind) (text : String) (offset : Nat) : Token :=
  ⟨kind, text, ⟨offset, text.utf8ByteSize⟩⟩

/-- The mark that ends a token list, standing at `offset`. -/
def endMark (offset : Nat) : Token :=
  ⟨.eof, "", .point offset⟩

end Token

end JavaSyntax
