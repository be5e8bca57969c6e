import JavaSyntax.Proofs.Printing.Suffixes

/-!
# Reading operators

Prefix operators are read in a loop that keeps them aside, and binary operators in one
over a stack of operands that wait for their right side. Both build the nodes of an
expression only when they know where it ends, so what is kept aside is described first:
after an expression was read, its right spine waits on the stack, and giving the last
operand to it builds the tree of the expression.
-/

namespace JavaSyntax

open JavaSyntax.Language Phrase State

variable {rules : Rule → Context → Step} {context : Context} {bound : Nat}
  {position start : Nat} {errors : List SyntaxError} {slots : List Element}
  {next : Token} {more rest : List Token}

/-! ## Prefix operators -/

/-- The nodes of prefix operators, innermost first, around an operand. -/
def nestPrefixes (operators : List Token) (operand : Element) : Element :=
  operators.foldl (fun below operator =>
    .over (prefixKind [.token operator]) [.token operator, below]) operand

theorem nestRight_eq (state : State) (operators : List Token) (operand : Element) :
    state.nestRight context prefixKind (operators.map fun operator => [.token operator]) operand =
      nestPrefixes operators operand := by
  induction operators generalizing operand with
  | nil => rfl
  | cons operator operators ih =>
      have built : state.finish context (prefixKind [.token operator])
          ([.token operator] ++ [operand]) =
            .over (prefixKind [.token operator]) [.token operator, operand] :=
        finish_eq _ _ (.here rfl)
      simp only [State.nestRight, List.map_cons, List.foldl_cons] at ih ⊢
      rw [built, ih]
      rfl

theorem prefixKind_eq (operator : PrefixOperator) {token : Token}
    (kind : token.kind = operator.kind) : prefixKind [.token token] = operator.nodeKind := by
  have found : ([Element.token token].head?.bind Element.tokenKind?) = some token.kind := rfl
  rw [prefixKind, found, kind]
  cases operator <;> rfl

theorem run_prefixLink (operator : PrefixOperator) {token : Token}
    (shows : context.Shows position (token :: rest)) (kind : token.kind = operator.kind) :
    prefixLink.run rules context ⟨position, errors, []⟩ =
      .ok ⟨position + 1, errors, [.token token]⟩ := by
  refine run_yes ?_ (run_take shows ?_)
  · simp only [Condition.isOneOf, Condition.holds, kindAt_zero shows, kind,
      TokenSet.contains_ofList]
    cases operator <;> rfl
  · rw [kind]
    cases operator <;> decide

namespace Expression

/-- The operand at the end of prefix operators. -/
abbrev prefixOperand : Phrase :=
  .choose (.shape .endsInClosing &&& startsLambda) (.call .lambda) Language.postfixed

theorem run_prefixOperand (calm : context.Calm) (known : Understands rules context bound)
    (expression : Expression) (fits : expression.fits = true)
    (binds : Precedence.postfixed.rank ≤ expression.rank) (small : expression.size ≤ bound + 1)
    (shows : context.Shows position (expression.tokens start ++ next :: more))
    (ends : next.kind.stops Precedence.postfixed.rank = true) :
    prefixOperand.run rules context ⟨position, errors, slots⟩ =
      .ok ⟨position + expression.size, errors, expression.tree start :: slots⟩ :=
  run_no (by rw [Condition.holds_and, calm.startsLambda_fails, Bool.and_false])
    (expression.readsAs_postfixed calm known fits binds small _ _ _ _ _ _ shows ends)

/-- At a name, a literal or a parenthesis no prefix is read: what is read is the operand. -/
theorem prefixed_unsigned (calm : context.Calm) (names : NamesTypes rules context) {token : Token}
    (shows : context.Shows position (token :: rest)) (starts : startsUnsigned token.kind = true)
    (last : Step) (rounds : Nat) (operators : List (List Element)) :
    State.prefixed context (prefixLink.run rules context) last rounds operators
        ⟨position, errors, slots⟩ =
      closePrefixes context last operators ⟨position, errors, slots⟩ := by
  have declined : collect ⟨position, errors, slots⟩ (prefixLink.run rules context) =
      .ok ([], ⟨position, errors, slots⟩) :=
    collect_eq_ok.mpr
      ⟨_, calm.prefixLink_declines names shows (of_decide_eq_true starts), rfl, rfl⟩
  cases rounds with
  | zero => rfl
  | succ rounds =>
      simp only [State.prefixed, declined, bind, Except.bind, Nat.lt_irrefl, if_false]

theorem closePrefixes_eq {last : Step} (expression : Expression)
    (read : ∀ slots, last ⟨position, errors, slots⟩ =
      .ok ⟨position + expression.size, errors, expression.tree start :: slots⟩)
    (operators : List Token) :
    closePrefixes context last (operators.map fun operator => [.token operator])
        ⟨position, errors, slots⟩ =
      .ok ⟨position + expression.size, errors,
        nestPrefixes operators (expression.tree start) :: slots⟩ := by
  cases operators with
  | nil => exact inFrame_eq_ok.mpr ⟨_, read [], rfl⟩
  | cons operator operators =>
      have built : State.finish context
          ⟨position + expression.size, errors, [expression.tree start, .token operator]⟩
          (prefixKind [.token operator]) [.token operator, expression.tree start] = _ :=
        finish_eq _ _ (.here rfl)
      have inmost := read [.token operator]
      simp only [closePrefixes, List.map_cons, inmost, bind, Except.bind, pure, Except.pure,
        State.gathered, List.reverse_cons, List.reverse_nil, List.nil_append, List.cons_append,
        built, nestRight_eq]
      rfl

/-- Prefix operators are kept aside, the operand is read, and their nodes are built
around it. -/
theorem prefixed_eq (calm : context.Calm) (known : Understands rules context bound)
    (expression : Expression) (fits : expression.fits = true)
    (binds : Precedence.prefixed.rank ≤ expression.rank) (small : expression.size ≤ bound + 1)
    {position start : Nat}
    (shows : context.Shows position (expression.tokens start ++ next :: more))
    (ends : next.kind.stops Precedence.prefixed.rank = true) {rounds : Nat}
    (enough : expression.size ≤ rounds) (operators : List Token) :
    State.prefixed context (prefixLink.run rules context) (prefixOperand.run rules context) rounds
        (operators.map fun operator => [.token operator]) ⟨position, errors, slots⟩ =
      .ok ⟨position + expression.size, errors,
        nestPrefixes operators (expression.tree start) :: slots⟩ := by
  obtain ⟨rounds, rfl⟩ : ∃ fewer, rounds = fewer + 1 := by
    obtain ⟨first, others, same, -⟩ := expression.starts
    exact ⟨rounds - 1, by rw [Expression.size, same, List.length_cons] at enough; omega⟩
  obtain unsigned | ⟨operator, operand, rfl⟩ := unsigned_or_prefixed binds
  · obtain ⟨token, others, shown, starts⟩ := (expression.starts_unsigned fits unsigned).shown shows
    rw [prefixed_unsigned calm known.names shown starts]
    exact closePrefixes_eq expression (fun slots => run_prefixOperand calm known expression fits
      unsigned small shows (TokenKind.stops_mono (by decide) ends)) operators
  · simp only [Expression.fits, Bool.and_eq_true, decide_eq_true_eq] at fits
    have size : (prefixed operator operand).size = 1 + operand.size := by
      simp [size, pieces, Nat.add_comm 1]
    rw [tokens_prefixed] at shows
    have taken : collect ⟨position, errors, slots⟩ (prefixLink.run rules context) =
        .ok ([.token (Piece.token (.symbol operator.kind) start)],
          ⟨position + 1, errors, slots⟩) :=
      collect_eq_ok.mpr ⟨_, run_prefixLink operator shows rfl, rfl, rfl⟩
    have inner := operand.prefixed_eq calm known fits.2 fits.1 (by omega) shows.next ends
      (show operand.size ≤ rounds by omega) (Piece.token (.symbol operator.kind) start :: operators)
    have further : position < position + 1 := Nat.lt_succ_self position
    simp only [State.prefixed, taken, bind, Except.bind, further, if_true]
    rw [size, ← Nat.add_assoc]
    refine inner.trans ?_
    have outer : (prefixed operator operand).tree start =
        .over (prefixKind [.token (Piece.token (.symbol operator.kind) start)])
          [.token (Piece.token (.symbol operator.kind) start),
            operand.tree (start + Piece.extent (.symbol operator.kind))] := by
      rw [prefixKind_eq operator rfl]
      rfl
    rw [outer]
    rfl

theorem readsAs_unary (calm : context.Calm) (known : Understands rules context bound)
    (expression : Expression) (fits : expression.fits = true)
    (binds : Precedence.prefixed.rank ≤ expression.rank) (small : expression.size ≤ bound + 1) :
    ReadsAs context (unary.run rules context) Precedence.prefixed.rank expression := by
  intro start position errors slots next more shows ends
  have after := shows.skip
  rw [length_tokens] at after
  have room := after.room
  exact expression.prefixed_eq calm known fits binds small shows ends
    (by simp only [State.remaining]; omega) []

end Expression

/-! ## Binary operators -/

/-- Operators take the tokens they are made of. -/
theorem takeMany_eq {tokens : List Token} (shows : context.Shows position (tokens ++ rest))
    (some : ∀ token ∈ tokens, token.kind ≠ .eof) :
    takeMany context tokens.length ⟨position, errors, slots⟩ =
      ⟨position + tokens.length, errors, (tokens.map Element.token).reverse ++ slots⟩ := by
  induction tokens generalizing position slots with
  | nil => rfl
  | cons token tokens ih =>
      rw [List.length_cons, takeMany, take_eq shows (some token List.mem_cons_self),
        ih shows.next fun other member => some other (.tail _ member)]
      simp [Nat.add_assoc, Nat.add_comm 1]

/-- A token before one that is no angle bracket is an operator by itself. -/
theorem operator?_single {first second : Token}
    (shows : context.Shows position (first :: second :: rest))
    (noLess : second.kind ≠ .lt) (noGreater : second.kind ≠ .gt) :
    operator? context ⟨position, errors, slots⟩ = (Level.ofKind? first.kind).map (·, 1) := by
  simp [operator?, doubled, kindAt_zero shows, kindAt_one shows, noLess, noGreater]

/-- Angle brackets printed without a space between them touch. -/
theorem doubled_of_touching {kind : TokenKind} {distance : Nat} {first second : Token}
    (get : context.get (position + distance) = first)
    (get' : context.get (position + distance + 1) = second) (isFirst : first.kind = kind)
    (isSecond : second.kind = kind) (touch : first.stop = second.start) :
    doubled context ⟨position, errors, slots⟩ kind distance = true := by
  simp [doubled, kindAt, State.touching, ← Nat.add_assoc, get, get', isFirst, isSecond, touch]

namespace BinaryOperator

/-- At the tokens of an operator, before an operand, that operator is found. -/
theorem operator?_eq (operator : BinaryOperator) {token : Token}
    (shows : context.Shows position (Piece.tokens start operator.pieces ++ token :: rest))
    (noLess : token.kind ≠ .lt) (noGreater : token.kind ≠ .gt) :
    operator? context ⟨position, errors, slots⟩ =
      some (operator.level, operator.pieces.length) := by
  cases operator with
  | shiftLeft =>
      have twice : doubled context ⟨position, errors, slots⟩ .lt 0 = true :=
        doubled_of_touching (shows.get 0) (shows.get 1) rfl rfl rfl
      rw [operator?, twice]
      rfl
  | shiftRight =>
      have twice : doubled context ⟨position, errors, slots⟩ .gt 0 = true :=
        doubled_of_touching (shows.get 0) (shows.get 1) rfl rfl rfl
      have shown : context.Shows position (Piece.token (.touching .gt) start ::
        Piece.token (.symbol .gt) (start + 1) :: token :: rest) := shows
      have noLess : doubled context ⟨position, errors, slots⟩ .lt 0 = false := by
        simp [doubled, kindAt_zero shown]
      have noThird : doubled context ⟨position, errors, slots⟩ .gt 1 = false := by
        simp [doubled, kindAt_two shown, noGreater]
      rw [operator?, noLess, twice, noThird]
      rfl
  | unsignedShiftRight =>
      have twice : doubled context ⟨position, errors, slots⟩ .gt 0 = true :=
        doubled_of_touching (shows.get 0) (shows.get 1) rfl rfl rfl
      have thrice : doubled context ⟨position, errors, slots⟩ .gt 1 = true :=
        doubled_of_touching (shows.get 1) (shows.get 2) rfl rfl rfl
      have noLess : doubled context ⟨position, errors, slots⟩ .lt 0 = false := by
        have shown : context.Shows position (Piece.token (.touching .gt) start :: _) := shows
        simp [doubled, kindAt_zero shown]
      rw [operator?, noLess, twice, thrice]
      rfl
  | _ => exact operator?_single shows noLess noGreater

end BinaryOperator

/-- An operator starts with no type test and holds no end mark. -/
theorem BinaryOperator.starts (operator : BinaryOperator) :
    Piece.Starts (· != .kwInstanceof) operator.pieces := by
  cases operator <;> exact ⟨_, _, rfl, rfl⟩

theorem BinaryOperator.kind_ne_eof (operator : BinaryOperator) (start : Nat) :
    ∀ token ∈ Piece.tokens start operator.pieces, token.kind ≠ .eof := by
  cases operator <;> simp [pieces, Piece.tokens]

/-- An operator ends the operand before it. -/
theorem BinaryOperator.starts_stopping (operator : BinaryOperator) :
    Piece.Starts (TokenKind.stops Precedence.prefixed.rank) operator.pieces := by
  cases operator <;> exact ⟨_, _, rfl, by decide⟩

/-- The slots of a printed operator. -/
def BinaryOperator.elements (operator : BinaryOperator) (start : Nat) : List Element :=
  (Piece.tokens start operator.pieces).map Element.token

namespace Expression

/-- What waits on the stack, and the operand at hand, after an expression was read: the
operators on its right spine and its last operand. -/
def waiting (start : Nat) (stack : List Pending) : Expression → List Pending × List Element
  | .binary operator left right =>
      right.waiting (start + left.breadth + Piece.breadth operator.pieces)
        (⟨[left.tree start], operator.level, operator.elements (start + left.breadth)⟩ :: stack)
  | expression => (stack, [expression.tree start])

theorem waiting_of_unary {expression : Expression}
    (binds : Precedence.prefixed.rank ≤ expression.rank) (start : Nat) (stack : List Pending) :
    expression.waiting start stack = (stack, [expression.tree start]) := by
  cases expression with
  | binary operator =>
      have below := operator.level.rank_le
      simp only [rank, precedence, Precedence.rank] at binds
      omega
  | _ => rfl

/-- An operator that binds no more tightly than an expression gives the last operand to
all operators of the expression, and so its tree is built. -/
theorem reduce_waiting (state : State) {floor : Level} (expression : Expression)
    (fits : expression.fits = true) (binds : floor.rank + 2 ≤ expression.rank) (start : Nat)
    (stack : List Pending) :
    state.reduce context floor (expression.waiting start stack).1
        (expression.waiting start stack).2 =
      state.reduce context floor stack [expression.tree start] := by
  have above : Precedence.conditional.rank < expression.rank := by
    simp only [Precedence.rank]
    omega
  obtain unary | ⟨operator, left, right, rfl⟩ := unary_or_binary above
  · rw [waiting_of_unary unary]
  · simp only [Expression.fits, Bool.and_eq_true, decide_eq_true_eq] at fits
    obtain ⟨⟨⟨-, tighter⟩, -⟩, fitsRight⟩ := fits
    have level : floor.rank ≤ operator.level.rank := by
      simp only [rank, precedence, Precedence.rank] at binds
      omega
    have built : state.finish context operator.level.nodeKind
        ([left.tree start] ++ operator.elements (start + left.breadth) ++
          [right.tree (start + left.breadth + Piece.breadth operator.pieces)]) =
        (binary operator left right).tree start := by
      rw [finish_eq _ _ ⟨left.tree start, by simp, left.placed_tree start⟩]
      simp only [List.cons_append, List.nil_append]
      rfl
    rw [waiting, right.reduce_waiting state fitsRight (by omega), State.reduce, if_pos level, built]

theorem reduce_below (state : State) {floor : Level} {stack : List Pending} (right : List Element)
    (below : ∀ top ∈ stack.head?, top.level.rank < floor.rank) :
    state.reduce context floor stack right = (stack, right) := by
  cases stack with
  | nil => rfl
  | cons top stack =>
      have below := below top rfl
      rw [State.reduce, if_neg (by omega)]

/-- The first operand of an expression is read, and from there, on any stack of looser
operators, the loop over operators comes to where the whole expression waits. -/
def Climbs (context : Context) (operand type : Step) (errors : List SyntaxError)
    (slots : List Element) (position start : Nat) (expression : Expression) : Prop :=
  ∃ left after rounds,
    collect ⟨position, errors, slots⟩ operand = .ok (left, after) ∧
    position ≤ after.position ∧ after.position + rounds ≤ position + expression.size ∧
    ∀ stack further, (∀ top ∈ stack.head?, top.level.rank + 2 < expression.rank) →
      climb context operand type (further + rounds) stack left after =
        climb context operand type further (expression.waiting start stack).1
          (expression.waiting start stack).2 ⟨position + expression.size, errors, slots⟩

/-- One round of the loop reads an operator and the first operand behind it. -/
theorem climb_round {operand type : Step} (operator : BinaryOperator) {token : Token}
    (shows : context.Shows position (Piece.tokens start operator.pieces ++ token :: rest))
    (starts : expressionStart.contains token.kind = true) {stack : List Pending}
    {left right : List Element} {after : State} {reduced : List Pending × List Element}
    (given : State.reduce context ⟨position, errors, slots⟩ operator.level stack left = reduced)
    (read : collect ⟨position + operator.pieces.length, errors, slots⟩ operand =
      .ok (right, after)) (rounds : Nat) :
    climb context operand type (rounds + 1) stack left ⟨position, errors, slots⟩ =
      climb context operand type rounds
        (⟨reduced.2, operator.level, operator.elements start⟩ :: reduced.1) right after := by
  have noAngle {kind : TokenKind} (angle : expressionStart.contains kind = false) :
      token.kind ≠ kind := by
    rintro rfl
    rw [angle] at starts
    cases starts
  have found : operator? context ⟨position, errors, slots⟩ = _ :=
    operator.operator?_eq shows (noAngle (by decide)) (noAngle (by decide))
  have noTest : kindAt context ⟨position, errors, slots⟩ 0 ≠ .kwInstanceof := by
    obtain ⟨first, others, shown, other⟩ := operator.starts.shown shows
    rw [kindAt_zero shown]
    simpa using other
  have taken : collect ⟨position, errors, slots⟩
        (fun inner => .ok (inner.takeMany context operator.pieces.length)) =
      .ok (operator.elements start, ⟨position + operator.pieces.length, errors, slots⟩) := by
    have many : takeMany context _ ⟨position, errors, []⟩ = _ :=
      takeMany_eq shows (operator.kind_ne_eof start)
    rw [Piece.length_tokens] at many
    exact collect_eq_ok.mpr
      ⟨_, congrArg Except.ok many, by simp [gathered, BinaryOperator.elements], rfl⟩
  simp only [climb, found, given, noTest, if_false, taken, read, bind, Except.bind]

/-- By induction on the expression: its left operand waits where the loop meets the operator,
which gives it the whole of that operand, and then the right operand is read. -/
theorem climbs {operand type : Step}
    (reads : ∀ expression : Expression, expression.fits = true →
      Precedence.prefixed.rank ≤ expression.rank → expression.size ≤ bound →
        ReadsAs context operand Precedence.prefixed.rank expression)
    (expression : Expression) (fits : expression.fits = true)
    (binds : Precedence.conditional.rank < expression.rank) (small : expression.size ≤ bound)
    {position start : Nat} {next : Token} {more : List Token}
    (shows : context.Shows position (expression.tokens start ++ next :: more))
    (ends : next.kind.stops Precedence.prefixed.rank = true) :
    Climbs context operand type errors slots position start expression := by
  obtain unary | ⟨operator, left, right, rfl⟩ := unary_or_binary binds
  · refine ⟨[expression.tree start], ⟨position + expression.size, errors, slots⟩, 0, ?_, by simp,
      by simp, ?_⟩
    · exact collect_eq_ok.mpr
        ⟨_, reads expression fits unary small _ _ _ _ _ _ shows ends, rfl, rfl⟩
    · intro stack further _
      rw [waiting_of_unary unary, Nat.add_zero]
  · simp only [Expression.fits, Bool.and_eq_true, decide_eq_true_eq] at fits
    obtain ⟨⟨⟨looser, tighter⟩, fitsLeft⟩, fitsRight⟩ := fits
    have size : (binary operator left right).size =
        left.size + operator.pieces.length + right.size := by
      simp [size, pieces, Nat.add_assoc]
    rw [tokens_binary] at shows
    have above {operand : Expression} (tight : operator.level.rank + 2 ≤ operand.rank) :
        Precedence.conditional.rank < operand.rank := by
      simp only [Precedence.rank]
      omega
    have atOperator := shows.skip
    rw [length_tokens] at atOperator
    obtain ⟨first, others, firstShown, stopsLeft⟩ := operator.starts_stopping.shown atOperator
    obtain ⟨head, headed, rounds, readHead, forward, within, climbLeft⟩ :
        Climbs context operand type errors slots position start left :=
      left.climbs reads fitsLeft (above looser) (by omega)
        (atOperator.symm.trans firstShown ▸ shows) stopsLeft
    have atRight := atOperator.skip
    rw [Piece.length_tokens] at atRight
    obtain ⟨operandHead, further, moreRounds, readRight, onward, beyond, climbRight⟩ :
        Climbs context operand type errors slots (position + left.size + operator.pieces.length)
          (start + left.breadth + Piece.breadth operator.pieces) right :=
      right.climbs reads fitsRight (above (Nat.le_of_lt tighter)) (by omega) atRight ends
    obtain ⟨token, rest, shown, starts⟩ := right.starts.shown atRight
    have behindOperator : context.Shows (position + left.size)
        (Piece.tokens (start + left.breadth) operator.pieces ++ token :: rest) := by
      have same : right.tokens (start + left.breadth + Piece.breadth operator.pieces) ++
          next :: more = token :: rest := atRight.symm.trans shown
      exact same ▸ atOperator
    refine ⟨head, headed, moreRounds + 1 + rounds, readHead, forward, ?_, ?_⟩
    · have some : 0 < operator.pieces.length := by cases operator <;> decide
      omega
    intro stack extra below
    have below (top : Pending) (member : top ∈ stack.head?) :
        top.level.rank < operator.level.rank := by
      have := below top member
      simp only [rank, precedence, Precedence.rank] at this
      omega
    have given : State.reduce context ⟨position + left.size, errors, slots⟩ operator.level
        (left.waiting start stack).1 (left.waiting start stack).2 = (stack, [left.tree start]) :=
      (left.reduce_waiting _ fitsLeft looser start stack).trans (reduce_below _ _ below)
    calc climb context operand type (extra + (moreRounds + 1 + rounds)) stack head headed
      _ = climb context operand type (extra + moreRounds + 1 + rounds) stack head headed := by
          rw [show extra + (moreRounds + 1 + rounds) = extra + moreRounds + 1 + rounds by omega]
      _ = climb context operand type (extra + moreRounds + 1) (left.waiting start stack).1
            (left.waiting start stack).2 ⟨position + left.size, errors, slots⟩ :=
          climbLeft stack _ fun top member => by
            have := below top member
            omega
      _ = climb context operand type (extra + moreRounds)
            (⟨[left.tree start], operator.level, operator.elements (start + left.breadth)⟩ :: stack)
            operandHead further :=
          climb_round operator behindOperator starts given readRight _
      _ = climb context operand type extra _ _
            ⟨position + left.size + operator.pieces.length + right.size, errors, slots⟩ :=
          climbRight _ _ fun top member => by
            obtain rfl := Option.some.inj member
            exact tighter
      _ = _ := by rw [size, waiting, ← Nat.add_assoc, ← Nat.add_assoc]

theorem ofKind?_of_stops {kind : TokenKind} (ends : kind.stops 2 = true) :
    Level.ofKind? kind = none := by
  revert ends
  cases kind <;> decide

/-- A token that no operand goes on with is no operator. -/
theorem operator?_none (shows : context.Shows position (next :: more))
    (ends : next.kind.stops 2 = true) :
    operator? context ⟨position, errors, slots⟩ = none := by
  have noLess : next.kind ≠ .lt := ne_of_stops ends (by decide)
  have noGreater : next.kind ≠ .gt := ne_of_stops ends (by decide)
  simp [operator?, doubled, kindAt_zero shows, noLess, noGreater, ofKind?_of_stops ends]

theorem readsAs_binary (calm : context.Calm) (known : Understands rules context bound)
    (expression : Expression) (fits : expression.fits = true)
    (binds : Precedence.conditional.rank < expression.rank) (small : expression.size ≤ bound + 1) :
    ReadsAs context (Language.binary.run rules context) 2 expression := by
  intro start position errors slots next more shows ends
  obtain ⟨head, headed, rounds, readHead, forward, within, climbAll⟩ :
      Climbs context (unary.run rules context) (Language.type.run rules context) errors slots
        position start expression :=
    expression.climbs
      (fun operand fits binds small => operand.readsAs_unary calm known fits binds small) fits binds
      small shows (TokenKind.stops_mono (by decide) ends)
  have after := shows.skip
  rw [length_tokens] at after
  have room := after.room
  obtain ⟨further, enough⟩ : ∃ further, headed.remaining context = further + rounds :=
    ⟨headed.remaining context - rounds, by unfold State.remaining; omega⟩
  have closed : closeOperators context ⟨position + expression.size, errors, slots⟩
      (expression.waiting start []).1 (expression.waiting start []).2 =
        ⟨position + expression.size, errors, expression.tree start :: slots⟩ := by
    have above : Level.or.rank + 2 ≤ expression.rank := binds
    have reduced : State.reduce context ⟨position + expression.size, errors, slots⟩ .or _ _ = _ :=
      expression.reduce_waiting _ fits above start []
    rw [closeOperators, reduced]
    rfl
  have ended : climb context (unary.run rules context) (Language.type.run rules context) further
      (expression.waiting start []).1 (expression.waiting start []).2
      ⟨position + expression.size, errors, slots⟩ =
        .ok ⟨position + expression.size, errors, expression.tree start :: slots⟩ := by
    cases further with
    | zero => rw [climb, closed]
    | succ further => simp only [climb, operator?_none after ends, closed]
  simp only [Language.binary, Phrase.run, State.operators, readHead, bind, Except.bind]
  rw [enough, climbAll [] further (by simp), ended]

end Expression

end JavaSyntax
