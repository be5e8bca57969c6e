import JavaSyntax.Proofs.Printing.FailingTrials

/-!
# Operands in printed text

What is known of the tokens of an expression before it is read: what it starts with,
and which tokens may stand behind it. An expression goes on as long as the next token
binds tightly enough; a phrase for operands of some rank stops before a token that
binds less tightly than that.
-/

namespace JavaSyntax

open JavaSyntax.Language

/-! ## The tokens of an expression -/

namespace Piece

theorem tokens_append (start : Nat) (front rest : List Piece) :
    tokens start (front ++ rest) = tokens start front ++ tokens (start + breadth front) rest := by
  induction front generalizing start with
  | nil => rfl
  | cons piece front ih => simp [tokens, breadth, ih, Nat.add_assoc]

end Piece

namespace Expression

theorem length_tokens (expression : Expression) (start : Nat) :
    (expression.tokens start).length = expression.size :=
  Piece.length_tokens start expression.pieces

variable (start : Nat) (rest : List Token)

theorem tokens_parenthesized (inner : Expression) :
    (parenthesized inner).tokens start ++ rest =
      Piece.token (.symbol .lParen) start :: (inner.tokens (start + 2) ++
        Piece.token (.symbol .rParen) (start + 2 + inner.breadth) :: rest) := by
  simp only [tokens, pieces, Piece.tokens, Piece.tokens_append, breadth, List.cons_append,
    List.append_assoc, List.nil_append]
  rfl

theorem tokens_binary (operator : BinaryOperator) (left right : Expression) :
    (binary operator left right).tokens start ++ rest =
      left.tokens start ++ (Piece.tokens (start + left.breadth) operator.pieces ++
        (right.tokens (start + left.breadth + Piece.breadth operator.pieces) ++ rest)) := by
  simp only [tokens, pieces, Piece.tokens_append, breadth, List.append_assoc]

theorem tokens_prefixed (operator : PrefixOperator) (operand : Expression) :
    (prefixed operator operand).tokens start ++ rest =
      Piece.token (.symbol operator.kind) start ::
        (operand.tokens (start + Piece.extent (.symbol operator.kind)) ++ rest) := by
  simp only [tokens, pieces, Piece.tokens, List.cons_append]

theorem tokens_postfixed (operand : Expression) (operator : PostfixOperator) :
    (postfixed operand operator).tokens start ++ rest =
      operand.tokens start ++
        Piece.token (.symbol operator.kind) (start + operand.breadth) :: rest := by
  simp only [tokens, pieces, Piece.tokens, Piece.tokens_append, breadth, List.cons_append,
    List.append_assoc, List.nil_append]

theorem tokens_field (object : Expression) (member : Spelling .identifier) :
    (field object member).tokens start ++ rest =
      object.tokens start ++ Piece.token (.symbol .dot) (start + object.breadth) ::
        member.piece.token (start + object.breadth + 2) :: rest := by
  simp only [tokens, pieces, Piece.tokens, Piece.tokens_append, breadth, List.cons_append,
    List.append_assoc, List.nil_append]
  rfl

theorem tokens_element (array index : Expression) :
    (element array index).tokens start ++ rest =
      array.tokens start ++ Piece.token (.symbol .lBracket) (start + array.breadth) ::
        (index.tokens (start + array.breadth + 2) ++
          Piece.token (.symbol .rBracket) (start + array.breadth + 2 + index.breadth) :: rest) := by
  simp only [tokens, pieces, Piece.tokens, Piece.tokens_append, breadth, List.cons_append,
    List.append_assoc, List.nil_append]
  rfl

theorem tokens_call (method : Spelling .identifier) (arguments : List Expression) :
    (call method arguments).tokens start ++ rest =
      method.piece.token start ::
        (Piece.tokens (start + method.piece.extent) (argumentPieces arguments) ++ rest) := by
  simp only [tokens, pieces, Piece.tokens, List.cons_append]

theorem tokens_invoke (object : Expression) (method : Spelling .identifier)
    (arguments : List Expression) :
    (invoke object method arguments).tokens start ++ rest =
      object.tokens start ++ Piece.token (.symbol .dot) (start + object.breadth) ::
        method.piece.token (start + object.breadth + 2) ::
          (Piece.tokens (start + object.breadth + 2 + method.piece.extent)
            (argumentPieces arguments) ++ rest) := by
  simp only [tokens, pieces, Piece.tokens, Piece.tokens_append, breadth, List.cons_append,
    List.append_assoc]
  rfl

theorem tokens_conditional (condition yes no : Expression) :
    (conditional condition yes no).tokens start ++ rest =
      condition.tokens start ++
        Piece.token (.symbol .question) (start + condition.breadth) ::
          (yes.tokens (start + condition.breadth + 2) ++
            Piece.token (.symbol .colon) (start + condition.breadth + 2 + yes.breadth) ::
              (no.tokens (start + condition.breadth + 2 + yes.breadth + 2) ++ rest)) := by
  simp only [tokens, pieces, Piece.tokens, Piece.tokens_append, breadth, List.cons_append,
    List.append_assoc]
  rfl

theorem tokens_assign (target : Expression) (operator : AssignmentOperator) (value : Expression) :
    (assign target operator value).tokens start ++ rest =
      target.tokens start ++ Piece.token (.symbol operator.kind) (start + target.breadth) ::
        (value.tokens (start + target.breadth + Piece.extent (.symbol operator.kind)) ++ rest) := by
  simp only [tokens, pieces, Piece.tokens, Piece.tokens_append, breadth, List.cons_append,
    List.append_assoc]

theorem tokens_arguments_nil :
    Piece.tokens start (argumentPieces []) ++ rest =
      Piece.token (.symbol .lParen) start :: Piece.token (.symbol .rParen) (start + 2) :: rest :=
  rfl

theorem tokens_arguments_cons (first : Expression) (others : List Expression) :
    Piece.tokens start (argumentPieces (first :: others)) ++ rest =
      Piece.token (.symbol .lParen) start :: (first.tokens (start + 2) ++
        (Piece.tokens (start + 2 + first.breadth) (furtherPieces others) ++
          Piece.token (.symbol .rParen)
            (start + 2 + first.breadth + Piece.breadth (furtherPieces others)) :: rest)) := by
  simp only [tokens, argumentPieces, Piece.tokens, Piece.tokens_append, breadth, List.cons_append,
    List.append_assoc, List.nil_append]
  rfl

theorem tokens_further_cons (next : Expression) (others : List Expression) :
    Piece.tokens start (furtherPieces (next :: others)) ++ rest =
      Piece.token (.symbol .comma) start :: (next.tokens (start + 2) ++
        (Piece.tokens (start + 2 + next.breadth) (furtherPieces others) ++ rest)) := by
  simp only [tokens, furtherPieces, Piece.tokens, Piece.tokens_append, breadth, List.cons_append,
    List.append_assoc]
  rfl

end Expression

/-! ## Expressions by rank -/

namespace Expression

variable {expression : Expression}

/-- An expression that is no assignment is at least a conditional. -/
theorem conditional_or_assign (expression : Expression) :
    Precedence.conditional.rank ≤ expression.rank ∨
      ∃ target operator value, expression = .assign target operator value := by
  cases expression with
  | assign target operator value => exact .inr ⟨target, operator, value, rfl⟩
  | _ => exact .inl (by simp [rank, precedence, Precedence.rank])

theorem binary_or_conditional (binds : Precedence.conditional.rank ≤ expression.rank) :
    Precedence.conditional.rank < expression.rank ∨
      ∃ condition yes no, expression = .conditional condition yes no := by
  cases expression with
  | conditional condition yes no => exact .inr ⟨condition, yes, no, rfl⟩
  | assign => simp [rank, precedence, Precedence.rank] at binds
  | _ => exact .inl (by simp [rank, precedence, Precedence.rank])

theorem unary_or_binary (binds : Precedence.conditional.rank < expression.rank) :
    Precedence.prefixed.rank ≤ expression.rank ∨
      ∃ operator left right, expression = .binary operator left right := by
  cases expression with
  | binary operator left right => exact .inr ⟨operator, left, right, rfl⟩
  | assign | conditional => simp [rank, precedence, Precedence.rank] at binds
  | _ => exact .inl (by simp [rank, precedence, Precedence.rank])

theorem unsigned_or_prefixed (binds : Precedence.prefixed.rank ≤ expression.rank) :
    Precedence.postfixed.rank ≤ expression.rank ∨
      ∃ operator operand, expression = .prefixed operator operand := by
  cases expression with
  | prefixed operator operand => exact .inr ⟨operator, operand, rfl⟩
  | binary operator =>
      have below := operator.level.rank_le
      simp only [rank, precedence, Precedence.rank] at binds
      omega
  | assign | conditional => simp [rank, precedence, Precedence.rank] at binds
  | _ => exact .inl (by simp [rank, precedence, Precedence.rank])

theorem primary_or_postfixed (binds : Precedence.postfixed.rank ≤ expression.rank) :
    Precedence.primary.rank ≤ expression.rank ∨
      ∃ operand operator, expression = .postfixed operand operator := by
  cases expression with
  | postfixed operand operator => exact .inr ⟨operand, operator, rfl⟩
  | binary operator =>
      have below := operator.level.rank_le
      simp only [rank, precedence, Precedence.rank] at binds
      omega
  | assign | conditional | prefixed => simp [rank, precedence, Precedence.rank] at binds
  | _ => exact .inl (by simp [rank, precedence, Precedence.rank])

end Expression

/-! ## What an expression starts with -/

namespace Piece

/-- The first piece is of an accepted kind. -/
def Starts (accepts : TokenKind → Bool) (pieces : List Piece) : Prop :=
  ∃ first more, pieces = first :: more ∧ accepts first.kind = true

variable {accepts : TokenKind → Bool} {front : List Piece}

theorem Starts.append (starts : Starts accepts front) (rest : List Piece) :
    Starts accepts (front ++ rest) := by
  obtain ⟨first, more, rfl, accepted⟩ := starts
  exact ⟨first, more ++ rest, rfl, accepted⟩

theorem Starts.shown (starts : Starts accepts front) {context : Context} {position start : Nat}
    {rest : List Token} (shows : context.Shows position (tokens start front ++ rest)) :
    ∃ token more, context.Shows position (token :: more) ∧ accepts token.kind = true := by
  obtain ⟨first, more, rfl, accepted⟩ := starts
  exact ⟨first.token start, _, shows, accepted⟩

end Piece

namespace Expression

open Piece (Starts)

/-- Every expression starts with a token that starts expressions. -/
theorem starts : (expression : Expression) →
    Starts expressionStart.contains expression.pieces
  | .literal value =>
      ⟨value.piece, [], rfl, show expressionStart.contains .integerLiteral = true by decide⟩
  | .name text | .call text _ =>
      ⟨text.piece, _, rfl, show expressionStart.contains .identifier = true by decide⟩
  | .parenthesized inner => ⟨_, _, rfl, show expressionStart.contains .lParen = true by decide⟩
  | .prefixed operator operand => ⟨_, _, rfl, by cases operator <;> decide⟩
  | .binary _ left _ => (left.starts.append _).append _
  | .postfixed operand _ => operand.starts.append _
  | .field object _ => object.starts.append _
  | .element array _ => (array.starts.append _).append _
  | .invoke object _ _ => object.starts.append _
  | .conditional condition _ _ => (condition.starts.append _).append _
  | .assign target _ _ => target.starts.append _

/-- The tokens that start an operand without prefixes. -/
def startsUnsigned (kind : TokenKind) : Bool :=
  kind ∈ [.integerLiteral, .identifier, .lParen]

/-- An operand without prefixes starts with a literal, a name or a parenthesis. -/
theorem starts_unsigned : (expression : Expression) → expression.fits = true →
    Precedence.postfixed.rank ≤ expression.rank → Starts startsUnsigned expression.pieces
  | .literal value, _, _ => ⟨value.piece, [], rfl, rfl⟩
  | .name text, _, _ | .call text _, _, _ => ⟨text.piece, _, rfl, rfl⟩
  | .parenthesized inner, _, _ => ⟨_, _, rfl, rfl⟩
  | .postfixed operand _, fits, _ => by
      simp only [Expression.fits, Bool.and_eq_true, decide_eq_true_eq] at fits
      exact (operand.starts_unsigned fits.2 fits.1).append _
  | .field object _, fits, _ => by
      simp only [Expression.fits, Bool.and_eq_true, decide_eq_true_eq] at fits
      exact (object.starts_unsigned fits.2 (Nat.le_trans (by decide) fits.1)).append _
  | .element array _, fits, _ => by
      simp only [Expression.fits, Bool.and_eq_true, decide_eq_true_eq] at fits
      exact ((array.starts_unsigned fits.1.2 (Nat.le_trans (by decide) fits.1.1)).append _).append
        _
  | .invoke object _ _, fits, _ => by
      simp only [Expression.fits, Bool.and_eq_true, decide_eq_true_eq] at fits
      exact (object.starts_unsigned fits.1.2 (Nat.le_trans (by decide) fits.1.1)).append _
  | .binary operator _ _, _, above => by
      have below := operator.level.rank_le
      simp only [rank, precedence, Precedence.rank] at above
      omega
  | .prefixed _ _, _, above | .conditional .., _, above | .assign .., _, above => by
      simp [rank, precedence, Precedence.rank] at above

end Expression

/-! ## What may stand behind an expression -/

namespace TokenKind

/-- With which precedence an expression goes on, if this token stands behind it. -/
def continues? : TokenKind → Option Precedence
  | .dot | .lBracket | .lParen | .colonColon => some .primary
  | .plusPlus | .minusMinus => some .postfixed
  | .question => some .conditional
  | kind =>
      if assignmentOperators.contains kind then some .assignment
      else (Level.ofKind? kind).map .binary

/-- Whether an expression of at least this rank ends before this token. -/
def stops (rank : Nat) (kind : TokenKind) : Bool :=
  kind.continues?.all (·.rank < rank)

theorem stops_mono {low high : Nat} (lower : low ≤ high) {kind : TokenKind}
    (ends : kind.stops low = true) : kind.stops high = true := by
  cases found : kind.continues? with
  | none => simp [stops, found]
  | some precedence =>
      simp only [stops, found, Option.all_some, decide_eq_true_eq] at ends ⊢
      omega

end TokenKind

/-! ## Reading an expression -/

/-- A step that, in front of the tokens of an expression, reads it as its tree. What
comes behind has to end expressions of some rank. -/
def ReadsAs (context : Context) (step : Step) (rank : Nat) (expression : Expression) : Prop :=
  ∀ (start position : Nat) (errors : List SyntaxError) (slots : List Element) (next : Token)
    (more : List Token),
    context.Shows position (expression.tokens start ++ next :: more) →
    next.kind.stops rank = true →
      step ⟨position, errors, slots⟩ =
        .ok ⟨position + expression.size, errors, expression.tree start :: slots⟩

/-- The rules read every fitting expression of up to so many tokens. -/
structure Understands (rules : Rule → Context → Step) (context : Context) (bound : Nat) : Prop where
  expression : ∀ expression : Expression, expression.fits = true → expression.size ≤ bound →
    ReadsAs context (rules .expression context) Precedence.assignment.rank expression
  conditional : ∀ expression : Expression, expression.fits = true →
    Precedence.conditional.rank ≤ expression.rank → expression.size ≤ bound →
    ReadsAs context (rules .conditional context) Precedence.conditional.rank expression
  names : NamesTypes rules context

theorem Expression.placed_bareTree (expression : Expression) (start : Nat) :
    (expression.bareTree start).Placed := by
  cases expression <;> rfl

theorem Expression.placed_tree (expression : Expression) (start : Nat) :
    (expression.tree start).Placed := by
  unfold Expression.tree Expression.enclose
  split
  · rfl
  · exact expression.placed_bareTree start

end JavaSyntax
