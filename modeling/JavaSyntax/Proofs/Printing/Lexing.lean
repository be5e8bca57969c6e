import Mathlib
import JavaSyntax.Proofs.Lexing.Splitting
import JavaSyntax.Proofs.Printing.Expression

/-!
# Lexing printed text

A space ends every token: what stands after the space has no influence on how the token
is read. So the tokens of a printed text are the pieces it was printed from.
-/

namespace JavaSyntax

namespace Lexeme

/-- A token that is a whole text is the same before a space. -/
theorem scan_append_space {text : List Char} {kind : TokenKind}
    (scanned : scan text = .token kind text.length) (rest : List Char) :
    scan (text ++ ' ' :: rest) = .token kind text.length := by
  obtain ⟨piece, after, same, sized, told⟩ := exists_told scanned
  obtain rfl : after = [] := by
    rw [same, List.length_append] at sized
    exact List.length_eq_zero_iff.mp (by omega)
  obtain rfl : text = piece := by simpa using same
  exact told.again (.here rfl)

end Lexeme

/-! ## Printed pieces -/

namespace Piece

/-- A piece that a space ends and that lexes to its own token. -/
structure Solid (piece : Piece) : Prop where
  scanned : Lexeme.scan piece.text.toList = .token piece.kind piece.text.length
  noString : piece.kind ≠ .stringLiteral
  noCharacter : piece.kind ≠ .characterLiteral
  spaced : piece.glued = false

/-- Pieces that lex to their own tokens: solid ones and the angle brackets of shifts. -/
inductive Printable : List Piece → Prop where
  | nil : Printable []
  | cons {piece : Piece} {rest : List Piece} :
      piece.Solid → Printable rest → Printable (piece :: rest)
  | shiftLeft {rest : List Piece} :
      Printable rest → Printable (touching .lt :: symbol .lt :: rest)
  | shiftRight {rest : List Piece} :
      Printable rest → Printable (touching .gt :: symbol .gt :: rest)
  | unsignedShiftRight {rest : List Piece} :
      Printable rest → Printable (touching .gt :: touching .gt :: symbol .gt :: rest)

theorem Printable.append {first second : List Piece} (left : Printable first)
    (right : Printable second) : Printable (first ++ second) := by
  induction left with
  | nil => exact right
  | cons solid _ ih => exact .cons solid ih
  | shiftLeft _ ih => exact .shiftLeft ih
  | shiftRight _ ih => exact .shiftRight ih
  | unsignedShiftRight _ ih => exact .unsignedShiftRight ih

/-- The text after a piece that is not glued to the next one. -/
def afterwards : List Piece → String
  | [] => ""
  | rest => " " ++ print rest

theorem print_cons {piece : Piece} (spaced : piece.glued = false) (rest : List Piece) :
    print (piece :: rest) = piece.text ++ afterwards rest := by
  cases rest <;> simp [print, afterwards, spaced, String.append_assoc]

theorem print_glued {piece : Piece} (glued : piece.glued = true) (rest : List Piece) :
    print (piece :: rest) = piece.text ++ print rest := by
  cases rest <;> simp [print, glued]

/-- A solid piece is read as its token, whatever is printed after it. -/
theorem Solid.scan_append {piece : Piece} (solid : piece.Solid) (rest : List Piece) :
    Lexeme.scan (piece.text.toList ++ (afterwards rest).toList) =
      .token piece.kind piece.text.toList.length := by
  rw [String.length_toList]
  cases rest with
  | nil => simpa [afterwards] using solid.scanned
  | cons next rest =>
      have spaced : (afterwards (next :: rest)).toList = ' ' :: (print (next :: rest)).toList := by
        simp [afterwards]
      rw [spaced, ← String.length_toList]
      exact Lexeme.scan_append_space (by rw [String.length_toList]; exact solid.scanned) _

theorem Solid.ne_nil {piece : Piece} (solid : piece.Solid) : piece.text.toList ≠ [] := by
  intro empty
  have scanned := solid.scanned
  rw [empty] at scanned
  cases scanned

/-- The text printed from some pieces lexes to their tokens, wherever it stands. -/
def Lexes (pieces : List Piece) : Prop :=
  ∀ (before : List Token) (start : Nat),
    Token.lexFrom before start (print pieces).toList =
      .ok (before.reverse ++ tokens start pieces ++
        [.endMark (start + (print pieces).utf8ByteSize)])

theorem Lexes.afterwards {rest : List Piece} (lexes : Lexes rest)
    (before : List Token) (offset : Nat) :
    Token.lexFrom before offset (afterwards rest).toList =
      .ok (before.reverse ++ tokens (offset + 1) rest ++
        [.endMark (offset + (Piece.afterwards rest).utf8ByteSize)]) := by
  cases rest with
  | nil => simp [Piece.afterwards, Token.lexFrom, tokens]
  | cons next rest =>
      have spaced :
          (Piece.afterwards (next :: rest)).toList = ' ' :: (print (next :: rest)).toList := by
        simp [Piece.afterwards]
      have size : (Piece.afterwards (next :: rest)).utf8ByteSize =
          1 + (print (next :: rest)).utf8ByteSize :=
        String.utf8ByteSize_append
      rw [spaced, Token.lexFrom_blank rfl, lexes, size, Nat.add_assoc]

theorem Lexes.solid {piece : Piece} {rest : List Piece} (lexes : Lexes rest)
    (solid : piece.Solid) : Lexes (piece :: rest) := by
  intro before start
  rw [print_cons solid.spaced, String.toList_append,
    Token.lexFrom_token solid.ne_nil (solid.scan_append rest), Token.byteLength_eq,
    String.ofList_toList, lexes.afterwards, String.utf8ByteSize_append]
  simp [tokens, token, extent, solid.spaced, Nat.add_assoc]

/-- A piece that the next one touches is read as its token if it is one before that text. -/
theorem Lexes.glued {piece : Piece} {rest : List Piece} (lexes : Lexes rest)
    (glued : piece.glued = true) (filled : piece.text.toList ≠ [])
    (scanned : Lexeme.scan (piece.text.toList ++ (print rest).toList) =
      .token piece.kind piece.text.toList.length) :
    Lexes (piece :: rest) := by
  intro before start
  rw [print_glued glued, String.toList_append, Token.lexFrom_token filled scanned,
    Token.byteLength_eq, String.ofList_toList, lexes, String.utf8ByteSize_append]
  simp [tokens, token, extent, glued, Nat.add_assoc]

/-- Symbols with a space after them lex to their own tokens. -/
theorem solid_symbol {kind : TokenKind} (isSymbol : kind ∈ TokenKind.symbols) :
    (symbol kind).Solid := by
  have table : ∀ kind ∈ TokenKind.symbols,
      Lexeme.scan kind.describe.toList = .token kind kind.describe.length ∧
        kind ≠ .stringLiteral ∧ kind ≠ .characterLiteral := by
    decide
  obtain ⟨scanned, noString, noCharacter⟩ := table kind isSymbol
  exact ⟨scanned, noString, noCharacter, rfl⟩

theorem afterwards_cases (rest : List Piece) :
    (afterwards rest).toList = [] ∨ ∃ text, (afterwards rest).toList = ' ' :: text := by
  cases rest with
  | nil => exact .inl rfl
  | cons next rest => exact .inr ⟨_, String.toList_append⟩

/-- An angle bracket is a token of its own before another one. -/
theorem scan_doubled {kind : TokenKind} (angle : kind = .lt ∨ kind = .gt) (rest : List Piece) :
    Lexeme.scan (kind.describe.toList ++ (print (symbol kind :: rest)).toList) =
      .token kind kind.describe.toList.length := by
  rw [print_cons rfl, String.toList_append]
  obtain rfl | rfl := angle <;> obtain ended | ⟨text, ended⟩ := afterwards_cases rest <;>
    rw [ended] <;> rfl

theorem scan_tripled (rest : List Piece) :
    Lexeme.scan (TokenKind.gt.describe.toList ++
        (print (Piece.touching .gt :: symbol .gt :: rest)).toList) =
      .token .gt TokenKind.gt.describe.toList.length := by
  rw [print_glued rfl, print_cons rfl, String.toList_append, String.toList_append]
  obtain ended | ⟨text, ended⟩ := afterwards_cases rest <;> rw [ended] <;> rfl

theorem Printable.lexes {pieces : List Piece} (printable : Printable pieces) : Lexes pieces := by
  induction printable with
  | nil =>
      intro before start
      simp [print, Token.lexFrom, tokens]
  | cons solid _ ih => exact ih.solid solid
  | shiftLeft _ ih =>
      exact (ih.solid (solid_symbol (by decide))).glued rfl (by decide)
        (scan_doubled (.inl rfl) _)
  | shiftRight _ ih =>
      exact (ih.solid (solid_symbol (by decide))).glued rfl (by decide)
        (scan_doubled (.inr rfl) _)
  | unsignedShiftRight _ ih =>
      exact ((ih.solid (solid_symbol (by decide))).glued rfl (by decide)
        (scan_doubled (.inr rfl) _)).glued rfl (by decide) (scan_tripled _)

end Piece

theorem Spelling.solid_identifier (spelling : Spelling .identifier) : spelling.piece.Solid :=
  ⟨spelling.scanned, TokenKind.noConfusion, TokenKind.noConfusion, rfl⟩

theorem Spelling.solid_integer (spelling : Spelling .integerLiteral) : spelling.piece.Solid :=
  ⟨spelling.scanned, TokenKind.noConfusion, TokenKind.noConfusion, rfl⟩

theorem BinaryOperator.printable (operator : BinaryOperator) : Piece.Printable operator.pieces := by
  cases operator with
  | shiftLeft => exact .shiftLeft .nil
  | shiftRight => exact .shiftRight .nil
  | unsignedShiftRight => exact .unsignedShiftRight .nil
  | _ => exact .cons (Piece.solid_symbol (by decide)) .nil

namespace Expression

open Piece

mutual

/-- Every piece of a printed expression lexes to its own token. -/
theorem printable : (expression : Expression) → Printable expression.pieces
  | .literal value => .cons value.solid_integer .nil
  | .name text => .cons text.solid_identifier .nil
  | .parenthesized inner =>
      .cons (solid_symbol (by decide))
        (inner.printable.append (.cons (solid_symbol (by decide)) .nil))
  | .binary operator left right =>
      (left.printable.append operator.printable).append right.printable
  | .prefixed operator operand =>
      .cons (solid_symbol (by cases operator <;> decide)) operand.printable
  | .postfixed operand operator =>
      operand.printable.append (.cons (solid_symbol (by cases operator <;> decide)) .nil)
  | .field object member =>
      object.printable.append
        (.cons (solid_symbol (by decide)) (.cons member.solid_identifier .nil))
  | .element array index =>
      (array.printable.append (.cons (solid_symbol (by decide)) index.printable)).append
        (.cons (solid_symbol (by decide)) .nil)
  | .call method arguments => .cons method.solid_identifier (printable_arguments arguments)
  | .invoke object method arguments =>
      object.printable.append (.cons (solid_symbol (by decide))
        (.cons method.solid_identifier (printable_arguments arguments)))
  | .conditional condition yes no =>
      (condition.printable.append (.cons (solid_symbol (by decide)) yes.printable)).append
        (.cons (solid_symbol (by decide)) no.printable)
  | .assign target operator value =>
      target.printable.append
        (.cons (solid_symbol (by cases operator <;> decide)) value.printable)

theorem printable_arguments : (arguments : List Expression) → Printable (argumentPieces arguments)
  | [] => .cons (solid_symbol (by decide)) (.cons (solid_symbol (by decide)) .nil)
  | first :: rest =>
      (Printable.cons (solid_symbol (by decide))
        (first.printable.append (printable_further rest))).append
          (.cons (solid_symbol (by decide)) .nil)

theorem printable_further : (arguments : List Expression) → Printable (furtherPieces arguments)
  | [] => .nil
  | next :: rest =>
      .cons (solid_symbol (by decide)) (next.printable.append (printable_further rest))

end

/-- The text of an expression lexes to the tokens of its pieces. -/
theorem lex_print (expression : Expression) :
    Token.lex expression.print =
      .ok (expression.tokens 0 ++ [.endMark expression.print.utf8ByteSize]) := by
  have lexed := expression.printable.lexes [] 0
  simpa [Token.lex, print, tokens] using lexed

end Expression

end JavaSyntax
