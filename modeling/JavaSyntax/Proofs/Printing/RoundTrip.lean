import JavaSyntax.Proofs.Printing.Lexing
import JavaSyntax.Proofs.Printing.Operators

/-!
# Printing and parsing

Conditionals and assignments are read over operands that are known already, each part of
them one nesting level deeper. By induction on the levels that are left, the rules read
every fitting expression that has no more tokens than there are levels. So the text of an
expression is parsed, without an error, as the tree that the expression stands for.
-/

namespace JavaSyntax

open JavaSyntax.Language Phrase State

variable {rules : Rule → Context → Step} {context : Context} {bound : Nat}

namespace AssignmentOperator

theorem mem_assignmentOperators (operator : AssignmentOperator) :
    assignmentOperators.contains operator.kind = true := by
  cases operator <;> decide

theorem stops (operator : AssignmentOperator) :
    operator.kind.stops Precedence.conditional.rank = true := by
  cases operator <;> decide

theorem kind_ne_eof (operator : AssignmentOperator) : operator.kind ≠ .eof := by
  cases operator <;> decide

end AssignmentOperator

theorem noAssignment_of_stops {kind : TokenKind} (ends : kind.stops 0 = true) :
    assignmentOperators.contains kind = false := by
  revert ends
  cases kind <;> decide

namespace Expression

theorem readsAs_conditional (calm : context.Calm) (known : Understands rules context bound)
    (expression : Expression) (fits : expression.fits = true)
    (binds : Precedence.conditional.rank ≤ expression.rank) (small : expression.size ≤ bound + 1) :
    ReadsAs context (Language.conditional.run rules context) Precedence.conditional.rank
      expression := by
  intro start position errors slots next more shows ends
  obtain above | ⟨condition, yes, no, rfl⟩ := binary_or_conditional binds
  · have after := shows.skip
    rw [length_tokens] at after
    have noChoice : next.kind ≠ .question := ne_of_stops ends (by decide)
    refine run_seq (expression.readsAs_binary calm known fits above small _ _ _ _ _ _ shows
      (TokenKind.stops_mono (by decide) ends)) (run_no ?_ rfl)
    rw [Condition.holds_is, kindAt_zero after]
    exact decide_eq_false (Ne.symm noChoice)
  · simp only [Expression.fits, Bool.and_eq_true, decide_eq_true_eq] at fits
    obtain ⟨⟨⟨⟨above, least⟩, fitsCondition⟩, fitsYes⟩, fitsNo⟩ := fits
    have size : (Expression.conditional condition yes no).size =
        condition.size + 1 + yes.size + 1 + no.size := by
      simp [size, pieces]
      omega
    rw [tokens_conditional] at shows
    have atQuestion := shows.skip
    rw [length_tokens] at atQuestion
    have atYes := atQuestion.next
    have atColon := atYes.skip
    rw [length_tokens] at atColon
    have atNo := atColon.next
    have readCondition := condition.readsAs_binary calm known fitsCondition above (by omega)
      _ _ errors slots _ _ shows (show TokenKind.stops 2 .question = true by decide)
    have readYes : (Phrase.call .expression).run rules context _ = _ :=
      known.expression yes fitsYes (by omega) _ _ errors
        [Piece.slot (.symbol .question) (start + condition.breadth), condition.tree start] _ _
        atYes (show TokenKind.stops 0 .colon = true by decide)
    have readNo : (Phrase.call .conditional).run rules context _ = _ :=
      known.conditional no fitsNo least (by omega) _ _ errors
        [Piece.slot (.symbol .colon) (start + condition.breadth + 2 + yes.breadth),
          yes.tree (start + condition.breadth + 2),
          Piece.slot (.symbol .question) (start + condition.breadth), condition.tree start] _ _
        atNo ends
    have readElse : (Phrase.choose startsLambda (.call .lambda) (.call .conditional)).run rules
        context _ = _ := run_no (calm.startsLambda_fails _) readNo
    have readBranches := run_seq (run_seq (run_seq (run_take atQuestion TokenKind.noConfusion)
      readYes) (run_expect atColon rfl TokenKind.noConfusion)) readElse
    rw [size, ← Nat.add_assoc, ← Nat.add_assoc, ← Nat.add_assoc, ← Nat.add_assoc]
    refine run_seq readCondition
      (run_yes ?_ (run_around readBranches (.here (no.placed_tree _)) rfl))
    rw [Condition.holds_is, kindAt_zero atQuestion]
    rfl

theorem readsAs_assignment (calm : context.Calm) (known : Understands rules context bound)
    (expression : Expression) (fits : expression.fits = true)
    (small : expression.size ≤ bound + 1) :
    ReadsAs context (Language.assignment.run rules context) Precedence.assignment.rank
      expression := by
  intro start position errors slots next more shows ends
  obtain binds | ⟨target, operator, value, rfl⟩ := expression.conditional_or_assign
  · have after := shows.skip
    rw [length_tokens] at after
    refine run_seq (expression.readsAs_conditional calm known fits binds small _ _ _ _ _ _ shows
      (TokenKind.stops_mono (by decide) ends)) (run_no ?_ rfl)
    rw [holds_among, kindAt_zero after]
    exact noAssignment_of_stops ends
  · simp only [Expression.fits, Bool.and_eq_true, decide_eq_true_eq] at fits
    obtain ⟨⟨binds, fitsTarget⟩, fitsValue⟩ := fits
    have size : (assign target operator value).size = target.size + 1 + value.size := by
      simp [size, pieces]
      omega
    rw [tokens_assign] at shows
    have atOperator := shows.skip
    rw [length_tokens] at atOperator
    have atValue := atOperator.next
    have readTarget := target.readsAs_conditional calm known fitsTarget binds (by omega)
      _ _ errors slots _ _ shows operator.stops
    have readValue : (Phrase.call .expression).run rules context _ = _ :=
      known.expression value fitsValue (by omega) _ _ errors
        [Piece.slot (.symbol operator.kind) (start + target.breadth), target.tree start] _ _
        atValue ends
    rw [size, ← Nat.add_assoc, ← Nat.add_assoc]
    have readRest := run_seq (run_take atOperator operator.kind_ne_eof) readValue
    refine run_seq readTarget (run_yes ?_ (run_around readRest (.here (value.placed_tree _)) rfl))
    rw [holds_among, kindAt_zero atOperator]
    exact operator.mem_assignmentOperators

theorem readsAs_expression (calm : context.Calm) (known : Understands rules context bound)
    (expression : Expression) (fits : expression.fits = true)
    (small : expression.size ≤ bound + 1) :
    ReadsAs context (Language.expression.run rules context) Precedence.assignment.rank
      expression := by
  intro start position errors slots next more shows ends
  exact run_no (calm.startsLambda_fails _)
    (expression.readsAs_assignment calm known fits small _ _ _ _ _ _ shows ends)

theorem size_pos (expression : Expression) : 0 < expression.size := by
  obtain ⟨first, others, same, -⟩ := expression.starts
  rw [size, same, List.length_cons]
  exact Nat.succ_pos _

end Expression

/-- In a calm context the rules of the language read all fitting expressions that have no
more tokens than nesting levels are left. -/
theorem understands_grammar (calm : context.Calm) (levels : Nat) :
    Understands (readRule grammar levels) context levels := by
  induction levels with
  | zero =>
      exact
        { expression := fun expression _ small => absurd expression.size_pos (by omega)
          conditional := fun expression _ _ small => absurd expression.size_pos (by omega)
          names := fun _ _ _ _ read => nomatch read }
  | succ levels known =>
      exact
        { expression := fun expression fits small =>
            expression.readsAs_expression calm known fits small
          conditional := fun expression fits binds small =>
            expression.readsAs_conditional calm known fits binds small
          names := fun _ _ _ _ read => calm.namedOn_typeRest read }

namespace Expression

/-- The context in which the tokens of a printed expression are read. -/
abbrev printedContext (expression : Expression) (config : Config) : Context :=
  .ofTokens (expression.tokens 0 ++ [.endMark expression.print.utf8ByteSize]) config

/-- Reading a printed expression leads to its tree. -/
theorem read_tokens (expression : Expression) (fits : expression.fits = true) {config : Config}
    (deep : expression.size ≤ config.maxDepth) :
    Language.read (.call .expression) (expression.printedContext config) ⟨0, [], []⟩ =
      .ok ⟨expression.size, [], [expression.tree 0]⟩ := by
  have calm : (expression.printedContext config).Calm :=
    Context.calm_ofTokens expression.calm_pieces 0 _ config
  have read := (understands_grammar calm config.maxDepth).expression expression fits deep 0 0 [] []
    (.endMark expression.print.utf8ByteSize) [] rfl (show TokenKind.stops 0 .eof = true by decide)
  rwa [Nat.zero_add] at read

/-- Behind the tokens of a printed expression stands the end mark. -/
theorem get_size (expression : Expression) (config : Config) :
    (expression.printedContext config).get expression.size =
      .endMark expression.print.utf8ByteSize := by
  have shows : (expression.printedContext config).Shows 0
      (expression.tokens 0 ++ [.endMark expression.print.utf8ByteSize]) := rfl
  have behind := shows.skip
  rw [length_tokens, Nat.zero_add] at behind
  exact behind.get 0

end Expression

/-- Parsing inverts printing: the text of an expression whose operands fit is parsed without
an error, and the tree is the one the expression stands for, when the nesting limit exceeds
the number of its tokens. -/
theorem parseExpression_print (expression : Expression) (fits : expression.fits = true)
    (config : Config) (deep : expression.size + 1 ≤ config.maxDepth) :
    parseExpression expression.print config = .ok ⟨expression.root, []⟩ := by
  have read := expression.read_tokens fits (Nat.le_of_succ_le deep)
  have atMark := expression.get_size config
  have ended : State.atEnd (expression.printedContext config)
      ⟨expression.size, [], [expression.tree 0]⟩ = true := by
    simp [State.atEnd, State.kindAt, atMark, Token.endMark]
  have stopped : readExpression (expression.printedContext config) ⟨0, [], []⟩ =
      ⟨expression.size, [], [expression.tree 0]⟩ := by
    simp only [readExpression, read, ended, if_true]
  have finished : finishParse (expression.printedContext config) .expressionRoot
      ⟨expression.size, [], [expression.tree 0]⟩ = ⟨expression.root, []⟩ := by
    have placed : Element.AnyPlaced
        [expression.tree 0, .token (.endMark expression.print.utf8ByteSize)] :=
      .here (expression.placed_tree 0)
    have spanned := Node.spanning_of_placed .expressionRoot placed
    simp only [finishParse, takeAny, State.current, atMark, State.gathered, List.reverse_cons,
      List.reverse_nil, List.nil_append, List.cons_append, spanned]
    rfl
  have parsed : parseExpression expression.print config =
      .ok (finishParse (expression.printedContext config) .expressionRoot
        (readExpression (expression.printedContext config) ⟨0, [], []⟩)) := by
    simp only [parseExpression, expression.lex_print, bind, Except.bind]
    rfl
  rw [parsed, stopped, finished]

/-- An expression whose start might be a cast and whose arguments might be those of a type. -/
def comparingCall : Expression :=
  .binary .minus (.parenthesized (.name ⟨"a", by decide⟩))
    (.call ⟨"f", by decide⟩
      [.binary .less (.name ⟨"b", by decide⟩) (.name ⟨"c", by decide⟩),
       .binary .greater (.name ⟨"d", by decide⟩) (.literal ⟨"10", by decide⟩)])

theorem parseExpression_print_comparingCall :
    comparingCall.fits = true ∧ comparingCall.size + 1 ≤ Config.maxDepth {} ∧
      parseExpression "( a ) - f ( b < c , d > 10 )" {} = .ok ⟨comparingCall.root, []⟩ := by
  have fits : comparingCall.fits = true := by decide
  have deep : comparingCall.size + 1 ≤ Config.maxDepth {} := by decide
  exact ⟨fits, deep, parseExpression_print comparingCall fits {} deep⟩

end JavaSyntax
