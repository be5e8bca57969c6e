/-!
# Trivia

Text between tokens: blanks, line comments and block comments. Lengths count
characters.
-/

namespace JavaSyntax.Lexeme

/-- Space, tab, carriage return, line feed and form feed. -/
def isBlank (character : Char) : Bool :=
  character == ' ' || character == '\t' || character == '\r' || character == '\n' ||
    character == '\x0c'

/-- The characters that end a line comment. -/
def endsLine (character : Char) : Bool :=
  character == '\r' || character == '\n'

/-- The length of the run of blanks at the front. -/
def blankLength (text : List Char) : Nat :=
  (text.takeWhile isBlank).length

/-- The length of the rest of the line, its end not included. -/
def lineLength (text : List Char) : Nat :=
  (text.takeWhile fun character => !endsLine character).length

/-- The length of a block comment's inside and its closing `*/`, counting on from
`before`; nothing when the comment is never closed. -/
def commentLength? (before : Nat) : List Char → Option Nat
  | '*' :: '/' :: _ => some (before + 2)
  | _ :: rest => commentLength? (before + 1) rest
  | [] => none

end JavaSyntax.Lexeme
