import JavaSyntax.Text.Letter
import JavaSyntax.Text.Digit
import JavaSyntax.Lexeme.Raw

/-!
# Words

Identifiers and keywords. A word is read as far as it goes; it is a keyword
exactly when all of it spells one.
-/

namespace JavaSyntax.Lexeme.Word

/-- Whether a word may start with `character`. -/
def isStart (character : Char) : Bool :=
  Text.isLetter character || character == '_' || character == '$'

/-- Whether a word may go on with `character`. -/
def isPart (character : Char) : Bool :=
  isStart character || Text.isDecimalDigit character

/-- The length of the run of word characters at the front. -/
def length (text : List Char) : Nat :=
  (text.takeWhile isPart).length

/-- What a word is recognized as: the keyword with its text, or else a name. -/
def raw (word : String) : RawToken :=
  ((RawToken.keywords.find? fun pattern => pattern.1 == word).map (·.2)).getD .identifier

end JavaSyntax.Lexeme.Word
