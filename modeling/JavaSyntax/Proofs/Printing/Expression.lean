import JavaSyntax.Proofs.Precedence
import JavaSyntax.Source

/-!
# Printed expressions

Expressions over names and integer literals, built with operators, suffixes, calls,
conditionals and assignments; the text each of them is printed as; and the tree this
text stands for.

An expression is printed token by token, with one space between two tokens. Only the
angle brackets of a shift operator are glued together, since apart they would be
comparisons.
-/

namespace JavaSyntax

/-- A text that is one token of a kind, all of it. -/
structure Spelling (kind : TokenKind) where
  text : String
  scanned : Lexeme.scan text.toList = .token kind text.length

/-! ## Operators -/

/-- The operators between two operands. -/
inductive BinaryOperator where
  | or | and | bitOr | bitXor | bitAnd | equal | unequal | less | greater | atMost | atLeast
  | shiftLeft | shiftRight | unsignedShiftRight | plus | minus | times | divide | remainder
  deriving DecidableEq, Repr

/-- The operators before an operand. -/
inductive PrefixOperator where
  | plus | minus | not | complement | increment | decrement
  deriving DecidableEq, Repr

/-- The operators after an operand. -/
inductive PostfixOperator where
  | increment | decrement
  deriving DecidableEq, Repr

/-- The operators between a target and the value assigned to it. -/
inductive AssignmentOperator where
  | assign | plus | minus | times | divide | remainder | bitAnd | bitOr | bitXor | shiftLeft
  | shiftRight | unsignedShiftRight
  deriving DecidableEq, Repr

/-- One token of a printed text. A space follows it unless it is glued to the next. -/
structure Piece where
  kind : TokenKind
  text : String
  glued : Bool := false
  deriving DecidableEq, Repr

namespace Piece

/-- A symbol with a space after it. -/
def symbol (kind : TokenKind) : Piece :=
  ⟨kind, kind.describe, false⟩

/-- A symbol that the next piece touches. -/
def touching (kind : TokenKind) : Piece :=
  ⟨kind, kind.describe, true⟩

/-- The bytes from the start of a piece to the start of the next. -/
def extent (piece : Piece) : Nat :=
  piece.text.utf8ByteSize + if piece.glued then 0 else 1

/-- The token of a piece printed at an offset. -/
def token (piece : Piece) (start : Nat) : Token :=
  .written piece.kind piece.text start

@[simp] theorem kind_token (piece : Piece) (start : Nat) : (piece.token start).kind = piece.kind :=
  rfl

@[simp] theorem kind_symbol (kind : TokenKind) : (symbol kind).kind = kind := rfl

@[simp] theorem kind_touching (kind : TokenKind) : (touching kind).kind = kind := rfl

/-- The tokens of pieces printed from an offset on. -/
def tokens (start : Nat) : List Piece → List Token
  | [] => []
  | piece :: rest => piece.token start :: tokens (start + piece.extent) rest

/-- The bytes from the start of some pieces to the start of what follows them. -/
def breadth : List Piece → Nat
  | [] => 0
  | piece :: rest => piece.extent + breadth rest

/-- The text of some pieces. -/
def print : List Piece → String
  | [] => ""
  | [piece] => piece.text
  | piece :: next :: rest => piece.text ++ (if piece.glued then "" else " ") ++ print (next :: rest)

end Piece

/-- A word or number with a space after it. -/
def Spelling.piece {kind : TokenKind} (spelling : Spelling kind) : Piece :=
  ⟨kind, spelling.text, false⟩

@[simp] theorem Spelling.kind_piece {kind : TokenKind} (spelling : Spelling kind) :
    spelling.piece.kind = kind := rfl

namespace BinaryOperator

/-- How tightly an operator binds. -/
def level : BinaryOperator → Level
  | or => .or
  | and => .and
  | bitOr => .bitOr
  | bitXor => .bitXor
  | bitAnd => .bitAnd
  | equal | unequal => .equality
  | less | greater | atMost | atLeast => .relational
  | shiftLeft | shiftRight | unsignedShiftRight => .shift
  | plus | minus => .additive
  | times | divide | remainder => .multiplicative

/-- What an operator is printed as. -/
def pieces : BinaryOperator → List Piece
  | or => [.symbol .orOr]
  | and => [.symbol .andAnd]
  | bitOr => [.symbol .pipe]
  | bitXor => [.symbol .caret]
  | bitAnd => [.symbol .amp]
  | equal => [.symbol .eqEq]
  | unequal => [.symbol .ne]
  | less => [.symbol .lt]
  | greater => [.symbol .gt]
  | atMost => [.symbol .le]
  | atLeast => [.symbol .ge]
  | shiftLeft => [.touching .lt, .symbol .lt]
  | shiftRight => [.touching .gt, .symbol .gt]
  | unsignedShiftRight => [.touching .gt, .touching .gt, .symbol .gt]
  | plus => [.symbol .plus]
  | minus => [.symbol .minus]
  | times => [.symbol .star]
  | divide => [.symbol .slash]
  | remainder => [.symbol .percent]

end BinaryOperator

namespace PrefixOperator

/-- The token of an operator. -/
def kind : PrefixOperator → TokenKind
  | plus => .plus
  | minus => .minus
  | not => .bang
  | complement => .tilde
  | increment => .plusPlus
  | decrement => .minusMinus

/-- The node of an operator and its operand. -/
def nodeKind : PrefixOperator → NodeKind
  | increment => .preIncrementExpression
  | decrement => .preDecrementExpression
  | _ => .unaryExpression

end PrefixOperator

namespace PostfixOperator

/-- The token of an operator. -/
def kind : PostfixOperator → TokenKind
  | increment => .plusPlus
  | decrement => .minusMinus

/-- The node of an operator and its operand. -/
def nodeKind : PostfixOperator → NodeKind
  | increment => .postIncrementExpression
  | decrement => .postDecrementExpression

end PostfixOperator

/-- The token of an assignment operator. -/
def AssignmentOperator.kind : AssignmentOperator → TokenKind
  | assign => .assign
  | plus => .plusAssign
  | minus => .minusAssign
  | times => .starAssign
  | divide => .slashAssign
  | remainder => .percentAssign
  | bitAnd => .ampAssign
  | bitOr => .pipeAssign
  | bitXor => .caretAssign
  | shiftLeft => .shlAssign
  | shiftRight => .shrAssign
  | unsignedShiftRight => .ushrAssign

/-! ## Expressions -/

/-- An expression, before it is printed. -/
inductive Expression where
  | literal (value : Spelling .integerLiteral)
  | name (text : Spelling .identifier)
  | parenthesized (inner : Expression)
  | binary (operator : BinaryOperator) (left right : Expression)
  | prefixed (operator : PrefixOperator) (operand : Expression)
  | postfixed (operand : Expression) (operator : PostfixOperator)
  | field (object : Expression) (member : Spelling .identifier)
  | element (array index : Expression)
  | call (method : Spelling .identifier) (arguments : List Expression)
  | invoke (object : Expression) (method : Spelling .identifier) (arguments : List Expression)
  | conditional (condition yes no : Expression)
  | assign (target : Expression) (operator : AssignmentOperator) (value : Expression)

namespace Expression

/-- How tightly an expression binds. -/
def precedence : Expression → Precedence
  | .assign .. => .assignment
  | .conditional .. => .conditional
  | .binary operator _ _ => .binary operator.level
  | .prefixed .. => .prefixed
  | .postfixed .. => .postfixed
  | _ => .primary

/-- The place of an expression in the order of precedence. -/
def rank (expression : Expression) : Nat :=
  expression.precedence.rank

mutual

/-- Whether every operand binds as tightly as its position requires. Operators of one
level group to the left; assignments and conditionals group to the right. -/
def fits : Expression → Bool
  | .literal _ | .name _ => true
  | .parenthesized inner => inner.fits
  | .binary operator left right =>
      decide (operator.level.rank + 2 ≤ left.rank) &&
        decide (operator.level.rank + 2 < right.rank) &&
        left.fits && right.fits
  | .prefixed _ operand => decide (Precedence.prefixed.rank ≤ operand.rank) && operand.fits
  | .postfixed operand _ => decide (Precedence.postfixed.rank ≤ operand.rank) && operand.fits
  | .field object _ => decide (Precedence.primary.rank ≤ object.rank) && object.fits
  | .element array index =>
      decide (Precedence.primary.rank ≤ array.rank) && array.fits && index.fits
  | .call _ arguments => fitAll arguments
  | .invoke object _ arguments =>
      decide (Precedence.primary.rank ≤ object.rank) && object.fits && fitAll arguments
  | .conditional condition yes no =>
      decide (Precedence.conditional.rank < condition.rank) &&
        decide (Precedence.conditional.rank ≤ no.rank) && condition.fits && yes.fits && no.fits
  | .assign target _ value =>
      decide (Precedence.conditional.rank ≤ target.rank) && target.fits && value.fits

/-- Whether the operands fit in each of some expressions. -/
def fitAll : List Expression → Bool
  | [] => true
  | first :: rest => first.fits && fitAll rest

end

mutual

/-- What an expression is printed as. -/
def pieces : Expression → List Piece
  | .literal value => [value.piece]
  | .name text => [text.piece]
  | .parenthesized inner => .symbol .lParen :: inner.pieces ++ [.symbol .rParen]
  | .binary operator left right => left.pieces ++ operator.pieces ++ right.pieces
  | .prefixed operator operand => .symbol operator.kind :: operand.pieces
  | .postfixed operand operator => operand.pieces ++ [.symbol operator.kind]
  | .field object member => object.pieces ++ [.symbol .dot, member.piece]
  | .element array index =>
      array.pieces ++ .symbol .lBracket :: index.pieces ++ [.symbol .rBracket]
  | .call method arguments => method.piece :: argumentPieces arguments
  | .invoke object method arguments =>
      object.pieces ++ .symbol .dot :: method.piece :: argumentPieces arguments
  | .conditional condition yes no =>
      condition.pieces ++ .symbol .question :: yes.pieces ++ .symbol .colon :: no.pieces
  | .assign target operator value => target.pieces ++ .symbol operator.kind :: value.pieces

/-- What the arguments of a call are printed as, their parentheses included. -/
def argumentPieces : List Expression → List Piece
  | [] => [.symbol .lParen, .symbol .rParen]
  | first :: rest => .symbol .lParen :: first.pieces ++ furtherPieces rest ++ [.symbol .rParen]

/-- What the arguments after the first are printed as, each with a comma before it. -/
def furtherPieces : List Expression → List Piece
  | [] => []
  | next :: rest => .symbol .comma :: next.pieces ++ furtherPieces rest

end

/-- The text of an expression. -/
def print (expression : Expression) : String :=
  Piece.print expression.pieces

/-- How many tokens an expression is printed as. -/
def size (expression : Expression) : Nat :=
  expression.pieces.length

/-- The bytes from the start of an expression to the start of what follows it. -/
def breadth (expression : Expression) : Nat :=
  Piece.breadth expression.pieces

/-- The tokens of an expression printed at an offset. -/
def tokens (expression : Expression) (start : Nat) : List Token :=
  Piece.tokens start expression.pieces

end Expression

/-! ## The tree of a printed expression -/

/-- A node that covers exactly its slots. -/
def Element.over (kind : NodeKind) (children : List Element) : Element :=
  (Node.spanning kind children default).toElement

/-- A piece printed at an offset, as the slot of a node. -/
def Piece.slot (piece : Piece) (start : Nat) : Element :=
  .token (piece.token start)

namespace Expression

/-- Whether an expression ends in a suffix. A call of a name and an indexed name are
heads, to which suffixes are added. -/
def isChain : Expression → Bool
  | .field .. | .invoke .. => true
  | .element (.name _) _ => false
  | .element .. => true
  | _ => false

/-- A chain of suffixes stands inside one `primary` node. -/
def enclose (expression : Expression) (bare : Element) : Element :=
  if expression.isChain then .over .primary [bare] else bare

mutual

/-- The tree of an expression printed at an offset, where a chain of suffixes may go on:
its last suffix is the top node. -/
def bareTree (start : Nat) : Expression → Element
  | .literal value => .over .literal [value.piece.slot start]
  | .name text => .over .expressionName [text.piece.slot start]
  | .parenthesized inner =>
      .over .parenthesizedExpression
        [Piece.slot (.symbol .lParen) start,
         inner.enclose (inner.bareTree (start + 2)),
         Piece.slot (.symbol .rParen) (start + 2 + inner.breadth)]
  | .binary operator left right =>
      .over operator.level.nodeKind
        (left.enclose (left.bareTree start) ::
          ((Piece.tokens (start + left.breadth) operator.pieces).map Element.token ++
            [right.enclose
              (right.bareTree (start + left.breadth + Piece.breadth operator.pieces))]))
  | .prefixed operator operand =>
      .over operator.nodeKind
        [Piece.slot (.symbol operator.kind) start,
         operand.enclose (operand.bareTree (start + Piece.extent (.symbol operator.kind)))]
  | .postfixed operand operator =>
      .over operator.nodeKind
        [operand.enclose (operand.bareTree start),
         Piece.slot (.symbol operator.kind) (start + operand.breadth)]
  | .field object member =>
      .over .fieldAccess
        [object.bareTree start,
         Piece.slot (.symbol .dot) (start + object.breadth),
         member.piece.slot (start + object.breadth + 2)]
  | .element array index =>
      .over .arrayAccess
        [array.bareTree start,
         Piece.slot (.symbol .lBracket) (start + array.breadth),
         index.enclose (index.bareTree (start + array.breadth + 2)),
         Piece.slot (.symbol .rBracket) (start + array.breadth + 2 + index.breadth)]
  | .call method arguments =>
      .over .methodInvocation
        [method.piece.slot start, argumentsTree (start + method.piece.extent) arguments]
  | .invoke object method arguments =>
      .over .methodInvocation
        [object.bareTree start,
         Piece.slot (.symbol .dot) (start + object.breadth),
         .absent,
         method.piece.slot (start + object.breadth + 2),
         argumentsTree (start + object.breadth + 2 + method.piece.extent) arguments]
  | .conditional condition yes no =>
      let second := start + condition.breadth + 2
      let third := second + yes.breadth + 2
      .over .conditionalExpression
        [condition.enclose (condition.bareTree start),
         Piece.slot (.symbol .question) (start + condition.breadth),
         yes.enclose (yes.bareTree second),
         Piece.slot (.symbol .colon) (second + yes.breadth),
         no.enclose (no.bareTree third)]
  | .assign target operator value =>
      .over .assignment
        [target.enclose (target.bareTree start),
         Piece.slot (.symbol operator.kind) (start + target.breadth),
         value.enclose (value.bareTree
           (start + target.breadth + Piece.extent (.symbol operator.kind)))]

/-- The tree of arguments in parentheses. -/
def argumentsTree (start : Nat) : List Expression → Element
  | [] =>
      .over .arguments
        [Piece.slot (.symbol .lParen) start, .absent, Piece.slot (.symbol .rParen) (start + 2)]
  | first :: rest =>
      .over .arguments
        [Piece.slot (.symbol .lParen) start,
         .over .argumentList
           (first.enclose (first.bareTree (start + 2)) ::
             furtherSlots (start + 2 + first.breadth) rest),
         Piece.slot (.symbol .rParen)
           (start + 2 + first.breadth + Piece.breadth (furtherPieces rest))]

/-- The slots of the arguments after the first and of the commas before them. -/
def furtherSlots (start : Nat) : List Expression → List Element
  | [] => []
  | next :: rest =>
      Piece.slot (.symbol .comma) start :: next.enclose (next.bareTree (start + 2)) ::
        furtherSlots (start + 2 + next.breadth) rest

end

/-- The tree of an expression printed at an offset. -/
def tree (expression : Expression) (start : Nat) : Element :=
  expression.enclose (expression.bareTree start)

/-- The tree of a text that is one expression. -/
def root (expression : Expression) : Node :=
  .spanning .expressionRoot
    [expression.tree 0, .token (.endMark expression.print.utf8ByteSize)] default

end Expression

end JavaSyntax
