import JavaSyntax.Diagnostic.Lexical
import JavaSyntax.Lexeme.Quoted
import JavaSyntax.Lexeme.Symbol
import JavaSyntax.Lexeme.Trivia
import JavaSyntax.Lexeme.Word

/-!
# The lexeme at the front of a text

The first characters decide which class of lexeme is read, and each class is
read as far as it goes.
-/

namespace JavaSyntax

/-- What stands at the front of a text, with the number of its characters. -/
inductive Lexeme where
  | trivia (length : Nat)
  | token (kind : TokenKind) (length : Nat)
  | fault (fault : LexicalFault) (length : Nat)
  deriving DecidableEq, Repr, Inhabited

namespace Lexeme

/-- What a raw token of some length stands for: a token of its kind, or trivia. -/
def ofRaw (raw : RawToken) (length : Nat) : Lexeme :=
  match raw.kind? with
  | some kind => .token kind length
  | none => .trivia length

/-- The block comment at the front, whose opening `/*` is already seen. -/
def comment (inside : List Char) : Lexeme :=
  match commentLength? 2 inside with
  | some length => ofRaw .blockComment length
  | none => .fault .openComment (inside.length + 2)

/-- The number at the front. -/
def number (text : List Char) : Lexeme :=
  match Number.scan? text with
  | some (found, literal) => ofRaw (.number found) literal.length
  | none => .fault .badNumber (Number.malformedLength text)

/-- The string literal at the front, whose opening quote is already seen. -/
def string (inside : List Char) : Lexeme :=
  match Quoted.stringLength? 1 inside with
  | some length => ofRaw .stringLiteral length
  | none => .fault .badString 1

/-- The character literal at the front, whose opening quote is already seen. -/
def character (inside : List Char) : Lexeme :=
  match Quoted.characterLength? inside with
  | some length => ofRaw .characterLiteral (length + 1)
  | none => .fault .badCharacter 1

/-- The word at the front. -/
def word (text : List Char) : Lexeme :=
  let length := Word.length text
  ofRaw (Word.raw (String.ofList (text.take length))) length

/-- The symbol at the front. -/
def symbol (text : List Char) : Lexeme :=
  match Symbol.scan? text with
  | some (raw, length) => ofRaw raw length
  | none => .fault .strayCharacter 1

/-- Whether a number starts here: a digit, or a point before a digit. -/
def startsNumber : List Char → Bool
  | '.' :: next :: _ => next.isDigit
  | first :: _ => first.isDigit
  | [] => false

/-- The lexeme at the front of `text`, which is not empty. -/
def scan (text : List Char) : Lexeme :=
  match text with
  | [] => .trivia 0
  | '/' :: '/' :: rest => .trivia (lineLength rest + 2)
  | '/' :: '*' :: rest => comment rest
  | '"' :: rest => string rest
  | '\'' :: rest => character rest
  | first :: _ =>
      if isBlank first then .trivia (blankLength text)
      else if Word.isStart first then word text
      else if startsNumber text then number text
      else symbol text

end Lexeme

end JavaSyntax
