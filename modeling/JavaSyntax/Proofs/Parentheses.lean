import JavaSyntax.Proofs.ErrorOrder
import JavaSyntax.Proofs.Printing.RoundTrip

/-!
# Nested parentheses

An expression takes one level of nesting, and so does each pair of parentheses around it.
The trials at a parenthesis, for a lambda and for a cast, take levels of their own, but they
come to nothing, whether the text does not fit or no level is left for them.  So a number in
parentheses is read if more levels are left than there are pairs, and otherwise given up at
the first token for which none is left.
-/

namespace JavaSyntax

open JavaSyntax.Language Phrase State

/-- The number one in so many pairs of parentheses. -/
def parenthesizedOne (pairs : Nat) : String :=
  String.ofList (List.replicate pairs '(' ++ '1' :: List.replicate pairs ')')

namespace Piece

/-- The pieces of the number one in so many pairs of parentheses. -/
def parenthesizedOne : Nat → List Piece
  | 0 => [⟨.integerLiteral, "1", true⟩]
  | pairs + 1 => touching .lParen :: (parenthesizedOne pairs ++ [touching .rParen])

theorem length_parenthesizedOne (pairs : Nat) :
    (parenthesizedOne pairs).length = 2 * pairs + 1 := by
  induction pairs with
  | zero => rfl
  | succ pairs ih =>
      simp only [parenthesizedOne, List.length_cons, List.length_append, List.length_nil, ih]
      omega

theorem calm_parenthesizedOne (pairs : Nat) : calm (parenthesizedOne pairs) = true := by
  induction pairs with
  | zero => decide
  | succ pairs ih =>
      exact calm_cons (by decide) (by decide) (calm_append ih (by decide) (by decide))

/-! ## The text of the pieces -/

theorem toList_print_parenthesizedOne (pairs : Nat) (rest : List Piece) :
    (print (parenthesizedOne pairs ++ rest)).toList =
      List.replicate pairs '(' ++ '1' :: (List.replicate pairs ')' ++ (print rest).toList) := by
  induction pairs generalizing rest with
  | zero => simp [parenthesizedOne, print_glued]
  | succ pairs ih =>
      have opening : (touching .lParen).text.toList = ['('] := rfl
      have closing : (touching .rParen).text.toList = [')'] := rfl
      have closers : List.replicate (pairs + 1) ')' = List.replicate pairs ')' ++ [')'] :=
        List.replicate_succ'
      simp only [parenthesizedOne, List.cons_append, List.append_assoc, List.nil_append]
      rw [print_glued rfl, String.toList_append, opening, ih, print_glued rfl,
        String.toList_append, closing, closers, List.replicate_succ]
      simp

theorem print_parenthesizedOne (pairs : Nat) :
    print (parenthesizedOne pairs) = JavaSyntax.parenthesizedOne pairs := by
  have printed := toList_print_parenthesizedOne pairs []
  rw [List.append_nil] at printed
  rw [← String.toList_inj, printed]
  simp [JavaSyntax.parenthesizedOne, print]

/-- By induction on the pairs, with the closing parentheses of the outer ones behind them. -/
theorem lexes_parenthesizedOne (pairs : Nat) {rest : List Piece} (lexes : Lexes rest)
    (closing : rest = [] ∨ ∃ more, rest = touching .rParen :: more) :
    Lexes (parenthesizedOne pairs ++ rest) := by
  induction pairs generalizing rest with
  | zero =>
      refine lexes.glued rfl (by decide) ?_
      obtain rfl | ⟨more, rfl⟩ := closing
      · rfl
      · rw [print_glued rfl, String.toList_append]
        rfl
  | succ pairs ih =>
      have closed : Lexes (touching .rParen :: rest) := lexes.glued rfl (by decide) rfl
      have inner := ih closed (.inr ⟨rest, rfl⟩)
      simp only [parenthesizedOne, List.cons_append, List.append_assoc, List.nil_append]
      exact inner.glued rfl (by decide) rfl

end Piece

/-! ## Reading an operand that nothing follows -/

section Operand

variable {rules : Rule → Context → Step} {context : Context} {position stop : Nat}
  {errors : List SyntaxError} {token next : Token} {rest more : List Token}
  (calm : context.Calm) (names : NamesTypes rules context)
  (shows : context.Shows position (token :: rest))
  (starts : Expression.startsUnsigned token.kind = true)

include calm names shows starts

theorem run_unary (slots : List Element) :
    unary.run rules context ⟨position, errors, slots⟩ =
      inFrame ⟨position, errors, slots⟩ 0 (postfixed.run rules context) := by
  have operand : Expression.prefixOperand.run rules context ⟨position, errors, []⟩ =
      postfixed.run rules context ⟨position, errors, []⟩ := by
    simp only [Phrase.run, Condition.holds_and, calm.startsLambda_fails, Bool.and_false,
      Bool.false_eq_true, if_false]
  refine (Expression.prefixed_unsigned calm names shows starts _ _ _).trans ?_
  simp only [closePrefixes, inFrame, List.take_zero, operand]

/-- A head before a token that ends every expression is a whole expression. -/
theorem run_expression_of_head {operand : Element} (placed : operand.Placed)
    (read : ∀ slots, primaryHead.run rules context ⟨position, errors, slots⟩ =
      .ok ⟨stop, errors, operand :: slots⟩)
    (behind : context.Shows stop (next :: more)) (ends : next.kind.stops 0 = true)
    (slots : List Element) :
    expression.run rules context ⟨position, errors, slots⟩ =
      .ok ⟨stop, errors, operand :: slots⟩ := by
  have room := behind.room
  have noIncrement : next.kind ≠ .plusPlus := ne_of_stops ends (by decide)
  have noDecrement : next.kind ≠ .minusMinus := ne_of_stops ends (by decide)
  have noChoice : next.kind ≠ .question := ne_of_stops ends (by decide)
  have readPrimary : primary.run rules context ⟨position, errors, []⟩ =
      .ok ⟨stop, errors, [operand]⟩ :=
    (ReadsChain.head read).primary placed (Expression.startsPrimary_holds shows starts)
      (run_noSuffix calm behind (TokenKind.stops_mono (Nat.zero_le _) ends)) (by omega)
  have readPostfixed : postfixed.run rules context ⟨position, errors, []⟩ =
      .ok ⟨stop, errors, [operand]⟩ := by
    refine run_seq readPrimary (iterate_idle ?_ _)
    exact run_no (by simp [kindAt_zero behind, noIncrement.symm])
      (run_no (by simp [kindAt_zero behind, noDecrement.symm]) rfl)
  have readUnary : collect ⟨position, errors, slots⟩ (unary.run rules context) =
      .ok ([operand], ⟨stop, errors, slots⟩) := by
    refine collect_eq_ok.mpr ⟨⟨stop, errors, [operand]⟩, ?_, rfl, rfl⟩
    rw [run_unary calm names shows starts]
    exact inFrame_eq_ok.mpr ⟨_, readPostfixed, rfl⟩
  have readBinary : Language.binary.run rules context ⟨position, errors, slots⟩ =
      .ok ⟨stop, errors, operand :: slots⟩ := by
    have noOperator : operator? context ⟨stop, errors, slots⟩ = none :=
      Expression.operator?_none behind (TokenKind.stops_mono (Nat.zero_le _) ends)
    simp only [Language.binary, Phrase.run, State.operators, readUnary, bind, Except.bind]
    cases remaining context ⟨stop, errors, slots⟩ with
    | zero => rfl
    | succ rounds =>
        simp only [climb, noOperator]
        rfl
  have readConditional : conditional.run rules context ⟨position, errors, slots⟩ =
      .ok ⟨stop, errors, operand :: slots⟩ :=
    run_seq readBinary (run_no (by simp [kindAt_zero behind, noChoice.symm]) rfl)
  refine run_no (calm.startsLambda_fails _) (run_seq readConditional (run_no ?_ rfl))
  rw [holds_among, kindAt_zero behind]
  exact noAssignment_of_stops ends

/-- A head that is given up gives up the whole expression. -/
theorem run_expression_error {error : SyntaxError}
    (failed : ∀ slots, primaryHead.run rules context ⟨position, errors, slots⟩ = .error error)
    (slots : List Element) :
    expression.run rules context ⟨position, errors, slots⟩ = .error error := by
  have failedPostfixed : postfixed.run rules context ⟨position, errors, []⟩ = .error error := by
    have primaryStarts : startsPrimary.holds rules context ⟨position, errors, []⟩ = true :=
      Expression.startsPrimary_holds shows starts
    simp only [postfixed, primary, run_append, Phrase.run, primaryStarts, if_true, failed,
      Except.bind]
  have failedUnary : unary.run rules context ⟨position, errors, []⟩ = .error error := by
    simp only [run_unary calm names shows starts, inFrame, List.take_nil, failedPostfixed, bind,
      Except.bind]
  have failedBinary : Language.binary.run rules context ⟨position, errors, slots⟩ =
      .error error := by
    simp only [Language.binary, Phrase.run, State.operators, collect, failedUnary, bind,
      Except.bind]
  have noLambda : startsLambda.holds rules context ⟨position, errors, slots⟩ = false :=
    calm.startsLambda_fails _
  simp only [expression, assignment, conditional, run_append, Phrase.run, noLambda,
    Bool.false_eq_true, if_false, failedBinary, Except.bind]

omit calm names starts in
theorem run_parentheses_error {error : SyntaxError} {slots : List Element}
    (opens : token.kind = .lParen)
    (failed : rules .expression context ⟨position + 1, errors, [.token token]⟩ = .error error) :
    primaryHead.run rules context ⟨position, errors, slots⟩ = .error error := by
  have noLiteral : literals.contains .lParen = false := by decide
  have kind : kindAt context ⟨position, errors, slots⟩ 0 = .lParen := by
    rw [kindAt_zero shows, opens]
  have taken : take context ⟨position, errors, []⟩ = ⟨position + 1, errors, [.token token]⟩ :=
    take_eq shows (by simp [opens])
  simp only [primaryHead, node, Phrase.run, run_append, holds_among, Condition.holds_is, kind,
    noLiteral, inFrame, List.take_zero, taken, failed, Except.bind, bind]
  rfl

end Operand

/-! ## Reading parentheses level by level -/

section Levels

variable {context : Context} {position start : Nat} {errors : List SyntaxError}
  {next : Token} {rest more : List Token}

/-- The number in the innermost pair. -/
def Spelling.one : Spelling .integerLiteral :=
  ⟨"1", by decide⟩

theorem tokens_parenthesizedOne_succ (start pairs : Nat) (rest : List Token) :
    Piece.tokens start (Piece.parenthesizedOne (pairs + 1)) ++ rest =
      Piece.token (.touching .lParen) start ::
        (Piece.tokens (start + 1) (Piece.parenthesizedOne pairs) ++
          Piece.token (.touching .rParen)
            (start + 1 + Piece.breadth (Piece.parenthesizedOne pairs)) :: rest) := by
  simp only [Piece.parenthesizedOne, Piece.tokens, Piece.tokens_append, List.cons_append,
    List.append_assoc, List.nil_append]
  rfl

/-- By induction on the pairs: the number is a head, and so is a pair around what is read
with one level less. -/
theorem exists_read_parenthesizedOne (calm : context.Calm) {levels pairs : Nat}
    (enough : pairs < levels)
    (shows : context.Shows position
      (Piece.tokens start (Piece.parenthesizedOne pairs) ++ next :: more))
    (ends : next.kind.stops 0 = true) :
    ∃ tree : Element, tree.Placed ∧ ∀ slots,
      readRule grammar levels .expression context ⟨position, errors, slots⟩ =
        .ok ⟨position + (2 * pairs + 1), errors, tree :: slots⟩ := by
  induction pairs generalizing levels position start next more with
  | zero =>
      obtain ⟨levels, rfl⟩ := Nat.exists_eq_add_of_lt enough
      rw [Nat.zero_add]
      have names := (understands_grammar calm levels).names
      have shown : context.Shows position
        ((Expression.literal .one).tokens start ++ next :: more) := shows
      exact ⟨_, (Expression.literal .one).placed_bareTree start,
        run_expression_of_head calm names shows rfl
          ((Expression.literal .one).placed_bareTree start)
          (fun _ => Expression.run_literal .one shown) shows.next ends⟩
  | succ pairs ih =>
      obtain ⟨levels, rfl⟩ : ∃ fewer, levels = fewer + 1 := ⟨levels - 1, by omega⟩
      have names := (understands_grammar calm levels).names
      rw [tokens_parenthesizedOne_succ] at shows
      have behind := shows.next.skip
      rw [Piece.length_tokens, Piece.length_parenthesizedOne] at behind
      obtain ⟨inside, -, read⟩ := ih (show pairs < levels by omega) shows.next
        (show TokenKind.stops 0 .rParen = true by decide)
      have stop : position + (2 * (pairs + 1) + 1) = position + 1 + (2 * pairs + 1) + 1 := by omega
      rw [stop]
      have placed (closing : Token) : (Element.over .parenthesizedExpression
          [Piece.slot (.touching .lParen) start, inside, .token closing]).Placed := rfl
      exact ⟨_, placed _, run_expression_of_head calm names shows rfl (placed _)
        (fun _ => run_parentheses shows rfl (read _) behind rfl) behind.next ends⟩

/-- By induction on the levels: without any the expression is given up at its first token,
and what gives up the inside of a pair gives up the pair. -/
theorem read_parenthesizedOne_error (calm : context.Calm) {levels pairs : Nat}
    (few : levels ≤ pairs)
    (shows : context.Shows position
      (Piece.tokens start (Piece.parenthesizedOne pairs) ++ rest)) (slots : List Element) :
    readRule grammar levels .expression context ⟨position, errors, slots⟩ =
      .error ⟨.tooDeeplyNested context.limit, ⟨start + levels, 1⟩⟩ := by
  induction levels generalizing pairs position start rest slots with
  | zero =>
      have first : (context.get position).span = ⟨start, 1⟩ := by
        cases pairs <;> exact congrArg Token.span (shows.get 0)
      simp only [readRule, tooDeep, State.current, first, Nat.add_zero]
  | succ levels ih =>
      obtain ⟨pairs, rfl⟩ : ∃ fewer, pairs = fewer + 1 := ⟨pairs - 1, by omega⟩
      rw [tokens_parenthesizedOne_succ] at shows
      have names := (understands_grammar calm levels).names
      have inside := ih (show levels ≤ pairs by omega) shows.next
      have place : start + (levels + 1) = start + 1 + levels := by omega
      rw [place]
      refine run_expression_error calm names shows rfl (fun _ => ?_) slots
      exact run_parentheses_error shows rfl (inside _)

end Levels

/-! ## The limit for pairs of parentheses -/

/-- The tokens of the number one in so many pairs of parentheses. -/
theorem lex_parenthesizedOne (pairs : Nat) :
    Token.lex (parenthesizedOne pairs) =
      .ok (Piece.tokens 0 (Piece.parenthesizedOne pairs) ++
        [.endMark (parenthesizedOne pairs).utf8ByteSize]) := by
  have lexed := Piece.lexes_parenthesizedOne pairs Piece.Printable.nil.lexes (.inl rfl) [] 0
  rw [List.append_nil, Piece.print_parenthesizedOne] at lexed
  simpa [Token.lex] using lexed

/-- The number one in parentheses is parsed without an error exactly if the nesting limit is
larger than the number of pairs.  Otherwise the one error is that the limit is exceeded, and
it points at the first token that lies too deep. -/
theorem parentheses_within_limit (pairs : Nat) (config : Config) :
    ∃ parse, parseExpression (parenthesizedOne pairs) config = .ok parse ∧
      (parse.errors = [] ↔ pairs < config.maxDepth) ∧
      (config.maxDepth ≤ pairs →
        parse.errors = [⟨.tooDeeplyNested config.maxDepth, ⟨config.maxDepth, 1⟩⟩]) := by
  refine ⟨_, parseExpression_of_lex (lex_parenthesizedOne pairs) config, ?_⟩
  let context := Context.ofTokens (Piece.tokens 0 (Piece.parenthesizedOne pairs) ++
    [.endMark (parenthesizedOne pairs).utf8ByteSize]) config
  have calm : context.Calm := Context.calm_ofTokens (Piece.calm_parenthesizedOne pairs) 0 _ config
  have shows : context.Shows 0 (Piece.tokens 0 (Piece.parenthesizedOne pairs) ++
    [.endMark (parenthesizedOne pairs).utf8ByteSize]) := rfl
  change ((readExpression context ⟨0, [], []⟩).errors.reverse = [] ↔ _) ∧
    (_ → (readExpression context ⟨0, [], []⟩).errors.reverse = _)
  obtain enough | few := Nat.lt_or_ge pairs config.maxDepth
  · obtain ⟨tree, -, read⟩ := exists_read_parenthesizedOne calm enough shows
      (show TokenKind.stops 0 .eof = true by decide)
    have behind := shows.skip
    rw [Piece.length_tokens, Piece.length_parenthesizedOne] at behind
    have ended : State.atEnd context ⟨0 + (2 * pairs + 1), [], [tree]⟩ = true := by
      rw [State.atEnd, kindAt_zero behind]
      rfl
    have whole : Language.read (.call .expression) context ⟨0, [], []⟩ = _ := read []
    simp only [readExpression, whole, ended, if_true, List.reverse_nil, enough, iff_self, true_and]
    omega
  · have whole : Language.read (.call .expression) context ⟨0, [], []⟩ = _ :=
      read_parenthesizedOne_error calm few shows []
    have errors : (readExpression context ⟨0, [], []⟩).errors =
        [⟨.tooDeeplyNested config.maxDepth, ⟨config.maxDepth, 1⟩⟩] := by
      rw [readExpression, whole, Nat.zero_add]
      exact errors_abandon _ _
    simp [errors, few]

end JavaSyntax
