import JavaSyntax.Lexeme.Scan
import JavaSyntax.Token.Basic

/-!
# Splitting source text into tokens

The source is read lexeme by lexeme from the front. Trivia is dropped, the
first fault ends the reading, and a complete reading is closed by an end mark
at the length of the source.
-/

namespace JavaSyntax.Token

/-- The number of bytes of some text in UTF-8. -/
def byteLength (text : List Char) : Nat :=
  text.foldl (fun total character => total + character.utf8Size) 0

/-- Read on from `offset`, where `text` remains; `before` holds the tokens read so
far, latest first. -/
def lexFrom (before : List Token) (offset : Nat) (text : List Char) :
    Except LexicalError (List Token) :=
  match text with
  | [] => .ok (endMark offset :: before).reverse
  | first :: rest =>
      match Lexeme.scan (first :: rest) with
      | .trivia length =>
          lexFrom before (offset + byteLength (first :: rest.take (length - 1)))
            (rest.drop (length - 1))
      | .token kind length =>
          let token := written kind (String.ofList (first :: rest.take (length - 1))) offset
          lexFrom (token :: before) token.stop (rest.drop (length - 1))
      | .fault fault length =>
          .error ⟨fault, ⟨offset, byteLength (first :: rest.take (length - 1))⟩⟩
termination_by text.length
decreasing_by
  all_goals
    simp only [List.length_drop, List.length_cons]
    omega

/-- The tokens of a source text, closed by an end mark. -/
def lex (source : String) : Except LexicalError (List Token) :=
  lexFrom [] 0 source.toList

end JavaSyntax.Token
