import JavaSyntax.Proofs.Printing.Operands

/-!
# Reading primaries

A printed primary is read as its head and a chain of suffixes, and what follows it as
postfix operators. Each loop comes, suffix by suffix or operator by operator, to the
tree of the whole expression.
-/

namespace JavaSyntax

open JavaSyntax.Language Phrase State

variable {rules : Rule → Context → Step} {context : Context} {bound : Nat}
  {position start : Nat} {errors : List SyntaxError} {slots : List Element}
  {next : Token} {more rest : List Token}

/-! ## Arguments -/

namespace Expression

/-- One round of the loop over arguments: a comma and an argument, if there is a comma. -/
abbrev furtherArgument : Phrase :=
  .onlyIf (.is .comma) (.take ++ .call .expression)

/-- An argument ends before a comma or before what ends all of them. -/
theorem exists_next_further (arguments : List Expression) (start : Nat)
    (ends : next.kind.stops 0 = true) :
    ∃ token others, Piece.tokens start (furtherPieces arguments) ++ next :: more = token :: others ∧
      token.kind.stops 0 = true := by
  cases arguments with
  | nil => exact ⟨next, more, rfl, ends⟩
  | cons argument arguments => exact ⟨_, _, rfl, show TokenKind.stops 0 .comma = true by decide⟩

theorem loops_further (known : Understands rules context bound) (arguments : List Expression)
    (fits : fitAll arguments = true) (small : (furtherPieces arguments).length ≤ bound)
    (shows : context.Shows position (Piece.tokens start (furtherPieces arguments) ++ next :: more))
    (ends : next.kind.stops 0 = true) :
    Loops (furtherArgument.run rules context) ⟨position, errors, slots⟩
      ⟨position + (furtherPieces arguments).length, errors,
        (furtherSlots start arguments).reverse ++ slots⟩ := by
  induction arguments generalizing start position slots with
  | nil => exact .refl _ _
  | cons argument arguments ih =>
      simp only [fitAll, Bool.and_eq_true] at fits
      have length : (furtherPieces (argument :: arguments)).length =
          1 + argument.size + (furtherPieces arguments).length := by
        simp [furtherPieces, size, Nat.add_assoc, Nat.add_comm 1]
      rw [tokens_further_cons] at shows
      obtain ⟨token, others, following, stops⟩ :=
        @exists_next_further next more arguments (start + 2 + argument.breadth) ends
      have shows' := shows.next
      have after := shows'.skip
      rw [length_tokens] at after
      rw [following] at shows'
      have round : (furtherArgument.run rules context) ⟨position, errors, slots⟩ =
          .ok ⟨position + 1 + argument.size, errors,
            argument.tree (start + 2) :: Piece.slot (.symbol .comma) start :: slots⟩ :=
        run_yes (by simp [kindAt_zero shows]) (run_seq (run_take shows (by simp))
          (known.expression argument fits.1 (by omega) _ _ _ _ _ _ shows' stops))
      refine (Loops.single round (by simp; omega)).trans ?_
      have reached : (furtherSlots start (argument :: arguments)).reverse ++ slots =
          (furtherSlots (start + 2 + argument.breadth) arguments).reverse ++
            argument.tree (start + 2) :: Piece.slot (.symbol .comma) start :: slots := by
        simp [furtherSlots, tree]
      rw [reached, length, ← Nat.add_assoc, ← Nat.add_assoc]
      exact ih fits.2 (by omega) after

/-- Arguments with commas between them are read one by one, up to a parenthesis. -/
theorem run_separated (known : Understands rules context bound) (first : Expression)
    (others : List Expression) (fits : first.fits = true) (fitOthers : fitAll others = true)
    (small : first.size + (furtherPieces others).length ≤ bound)
    (shows : context.Shows position (first.tokens start ++
      (Piece.tokens (start + first.breadth) (furtherPieces others) ++ next :: more)))
    (closing : next.kind = .rParen) :
    (separated .comma (.call .expression)).run rules context ⟨position, errors, slots⟩ =
      .ok ⟨position + first.size + (furtherPieces others).length, errors,
        (furtherSlots (start + first.breadth) others).reverse ++ first.tree start :: slots⟩ := by
  have ends : next.kind.stops 0 = true := by
    rw [closing]
    decide
  have after := shows.skip
  rw [length_tokens] at after
  have closed := after.skip
  rw [Piece.length_tokens] at closed
  obtain ⟨token, following, same, stops⟩ :=
    @exists_next_further next more others (start + first.breadth) ends
  rw [same] at shows
  refine run_seq (known.expression first fits (by omega) _ _ _ _ _ _ shows stops) ?_
  refine (loops_further known others fitOthers (by omega) after ends).ends (run_no ?_ rfl) ?_
  · simp [kindAt_zero closed, closing]
  · have room := closed.room
    simp only
    omega

/-- The arguments of a call are read as their tree. -/
theorem run_arguments (known : Understands rules context bound) (arguments : List Expression)
    (fits : fitAll arguments = true) (small : (argumentPieces arguments).length ≤ bound)
    (shows : context.Shows position (Piece.tokens start (argumentPieces arguments) ++ rest)) :
    Language.arguments.run rules context ⟨position, errors, slots⟩ =
      .ok ⟨position + (argumentPieces arguments).length, errors,
        argumentsTree start arguments :: slots⟩ := by
  rw [Language.arguments]
  cases arguments with
  | nil =>
      rw [tokens_arguments_nil] at shows
      have none : expressionStart.contains .rParen = false := by decide
      exact run_node (run_seq (run_seq (run_expect shows rfl (by simp))
        (run_no (by simp [kindAt_zero shows.next, none]) rfl))
          (run_expect shows.next rfl (by simp))) (.here rfl) rfl
  | cons first others =>
      simp only [fitAll, Bool.and_eq_true] at fits
      have length : (argumentPieces (first :: others)).length =
          1 + first.size + (furtherPieces others).length + 1 := by
        simp [argumentPieces, size, Nat.add_assoc, Nat.add_comm 1]
      rw [tokens_arguments_cons] at shows
      have inside := shows.next
      have after := inside.skip
      rw [length_tokens] at after
      have closing := after.skip
      rw [Piece.length_tokens] at closing
      obtain ⟨token, more, shown, starts⟩ := first.starts.shown inside
      rw [length, ← Nat.add_assoc, ← Nat.add_assoc, ← Nat.add_assoc]
      have list : (node .argumentList (separated .comma (.call .expression))).run rules context
          ⟨position + 1, errors, [.token (Piece.token (.symbol .lParen) start)]⟩ =
            .ok ⟨position + 1 + first.size + (furtherPieces others).length, errors, _⟩ :=
        run_node (run_separated known first others fits.1 fits.2 (by omega) inside rfl)
          ⟨first.tree (start + 2), by simp, first.placed_tree _⟩ rfl
      refine run_node (run_seq (run_seq (run_expect shows rfl (by simp))
        (run_yes (by simp [kindAt_zero shown, starts]) list))
          (run_expect closing rfl (by simp))) (.here rfl) ?_
      simp [argumentsTree, tree, Piece.slot]

end Expression

/-! ## Heads -/

/-- Parentheses are read as a head when what they hold is read by the rule for expressions. -/
theorem run_parentheses {opening closing : Token} {inside : Element} {stop : Nat}
    (shows : context.Shows position (opening :: rest)) (opens : opening.kind = .lParen)
    (read : rules .expression context ⟨position + 1, errors, [.token opening]⟩ =
      .ok ⟨stop, errors, [inside, .token opening]⟩)
    (behind : context.Shows stop (closing :: more)) (closes : closing.kind = .rParen) :
    primaryHead.run rules context ⟨position, errors, slots⟩ =
      .ok ⟨stop + 1, errors,
        .over .parenthesizedExpression [.token opening, inside, .token closing] :: slots⟩ := by
  have noLiteral : literals.contains .lParen = false := by decide
  exact run_no (by simp [kindAt_zero shows, opens, noLiteral])
    (run_no (by simp [kindAt_zero shows, opens]) (run_yes (by simp [kindAt_zero shows, opens])
      (run_node (run_seq (run_seq (run_take shows (by simp [opens])) read)
        (run_expect behind closes (by simp))) (.here rfl) rfl)))

theorem run_named_of_identifier {token : Token} {after : State}
    (shows : context.Shows position (token :: rest)) (kind : token.kind = .identifier)
    (read : namedHead.run rules context ⟨position, errors, slots⟩ = .ok after) :
    primaryHead.run rules context ⟨position, errors, slots⟩ = .ok after := by
  have noLiteral : literals.contains .identifier = false := by decide
  exact run_no (by simp [kindAt_zero shows, kind, noLiteral])
    (run_no (by simp [kindAt_zero shows, kind]) (run_no (by simp [kindAt_zero shows, kind])
      (run_yes (by simp [kindAt_zero shows, kind]) read)))

namespace Expression

theorem run_literal (value : Spelling .integerLiteral)
    (shows : context.Shows position ((literal value).tokens start ++ rest)) :
    primaryHead.run rules context ⟨position, errors, slots⟩ =
      .ok ⟨position + 1, errors, (literal value).bareTree start :: slots⟩ := by
  have shows : context.Shows position (value.piece.token start :: rest) := shows
  have isLiteral : literals.contains .integerLiteral = true := by decide
  exact run_yes (by simp [kindAt_zero shows, isLiteral])
    (run_node (run_take shows (by simp)) (.here rfl) rfl)

theorem run_name (text : Spelling .identifier)
    (shows : context.Shows position ((name text).tokens start ++ next :: more))
    (noCall : next.kind ≠ .lParen) (noIndex : next.kind ≠ .lBracket) :
    primaryHead.run rules context ⟨position, errors, slots⟩ =
      .ok ⟨position + 1, errors, (name text).bareTree start :: slots⟩ := by
  have shows : context.Shows position (text.piece.token start :: next :: more) := shows
  exact run_named_of_identifier shows rfl
    (run_no (by simp [kindAt_one shows, noCall.symm])
      (run_no (by simp [kindAt_one shows, noIndex.symm])
        (run_node (run_take shows (by simp)) (.here rfl) rfl)))

theorem run_parenthesized (known : Understands rules context bound) (inner : Expression)
    (fits : inner.fits = true) (small : inner.size ≤ bound)
    (shows : context.Shows position ((parenthesized inner).tokens start ++ rest)) :
    primaryHead.run rules context ⟨position, errors, slots⟩ =
      .ok ⟨position + (parenthesized inner).size, errors,
        (parenthesized inner).bareTree start :: slots⟩ := by
  have size : (parenthesized inner).size = 1 + inner.size + 1 := by
    simp [size, pieces, Nat.add_comm 1]
  have ends : TokenKind.stops 0 .rParen = true := by decide
  rw [tokens_parenthesized] at shows
  have closing := shows.next.skip
  rw [length_tokens] at closing
  rw [size, ← Nat.add_assoc, ← Nat.add_assoc]
  exact run_parentheses shows rfl (known.expression inner fits small _ _ _ _ _ _ shows.next ends)
    closing rfl

theorem exists_opening (arguments : List Expression) (start : Nat) (rest : List Token) :
    ∃ others, Piece.tokens start (argumentPieces arguments) ++ rest =
      Piece.token (.symbol .lParen) start :: others := by
  cases arguments <;> exact ⟨_, rfl⟩

theorem placed_arguments (start : Nat) (arguments : List Expression) :
    (argumentsTree start arguments).Placed := by
  cases arguments <;> rfl

theorem run_call (known : Understands rules context bound) (method : Spelling .identifier)
    (arguments : List Expression) (fits : fitAll arguments = true)
    (small : (call method arguments).size ≤ bound + 1)
    (shows : context.Shows position ((call method arguments).tokens start ++ rest)) :
    primaryHead.run rules context ⟨position, errors, slots⟩ =
      .ok ⟨position + (call method arguments).size, errors,
        (call method arguments).bareTree start :: slots⟩ := by
  have size : (call method arguments).size = 1 + (argumentPieces arguments).length := by
    simp [size, pieces, Nat.add_comm 1]
  rw [tokens_call] at shows
  rw [size, ← Nat.add_assoc]
  obtain ⟨others, opening⟩ := exists_opening arguments (start + method.piece.extent) rest
  have shown := shows
  rw [opening] at shown
  exact run_named_of_identifier shows rfl (run_yes (by simp [kindAt_one shown])
    (run_node (run_seq (run_take shows (by simp))
      (run_arguments known arguments fits (by omega) shows.next))
        (.here (placed_arguments _ _)) rfl))

/-- An index starts with no closing bracket. -/
theorem kind_index_ne (index : Expression)
    (shows : context.Shows position (index.tokens start ++ rest)) :
    (context.get position).kind ≠ .rBracket := by
  obtain ⟨token, more, shown, starts⟩ := index.starts.shown shows
  rw [show context.get position = token from shown.get 0]
  intro closing
  rw [closing] at starts
  cases starts

theorem run_namedElement (known : Understands rules context bound) (text : Spelling .identifier)
    (index : Expression) (fits : index.fits = true) (small : index.size ≤ bound)
    (shows : context.Shows position ((element (.name text) index).tokens start ++ rest)) :
    primaryHead.run rules context ⟨position, errors, slots⟩ =
      .ok ⟨position + (element (.name text) index).size, errors,
        (element (.name text) index).bareTree start :: slots⟩ := by
  have size : (element (.name text) index).size = 1 + 1 + index.size + 1 := by
    simp only [size, pieces, List.length_append, List.length_cons, List.length_nil]
    omega
  have ends : TokenKind.stops 0 .rBracket = true := by decide
  rw [tokens_element] at shows
  have shows : context.Shows position (text.piece.token start ::
    Piece.token (.symbol .lBracket) (start + (name text).breadth) :: _) := shows
  have closing := shows.next.next.skip
  rw [length_tokens] at closing
  rw [size, ← Nat.add_assoc, ← Nat.add_assoc, ← Nat.add_assoc]
  have opens : kindAt context ⟨position, errors, slots⟩ 2 ≠ .rBracket :=
    kind_index_ne index shows.next.next
  exact run_named_of_identifier shows rfl
    (run_no (by simp [kindAt_one shows])
      (run_yes (by simp [kindAt_one shows, Condition.holds, opens.symm])
        (run_node (run_seq (run_seq (run_seq
          (run_node (run_take shows (by simp)) (.here rfl) rfl)
          (run_take shows.next (by simp)))
          (known.expression index fits small _ _ _ _ _ _ shows.next.next ends))
          (run_expect closing rfl (by simp))) (.here rfl) rfl)))

end Expression

/-! ## Suffixes -/

variable {inner : Element} {point member : Token}

theorem run_fieldSuffix (shows : context.Shows position (point :: member :: next :: more))
    (isPoint : point.kind = .dot) (isName : member.kind = .identifier)
    (noCall : next.kind ≠ .lParen) :
    suffix.run rules context ⟨position, errors, inner :: slots⟩ =
      .ok ⟨position + 2, errors,
        .over .fieldAccess [inner, .token point, .token member] :: slots⟩ :=
  run_yes (by simp [kindAt_zero shows, isPoint])
    (run_yes (by simp [kindAt_one shows, isName])
      (run_no (by simp [kindAt_two shows, noCall.symm])
        (run_around (run_seq (run_seq (run_take shows (by simp [isPoint]))
          (run_no (by simp [kindAt_zero shows.next, isName]) rfl))
          (run_expect shows.next isName (by simp))) (.here rfl) rfl)))

namespace Expression

theorem run_callSuffix (known : Understands rules context bound) (arguments : List Expression)
    (fits : fitAll arguments = true) (small : (argumentPieces arguments).length ≤ bound)
    (shows : context.Shows position (point :: member ::
      (Piece.tokens start (argumentPieces arguments) ++ rest)))
    (isPoint : point.kind = .dot) (isName : member.kind = .identifier) :
    suffix.run rules context ⟨position, errors, inner :: slots⟩ =
      .ok ⟨position + 2 + (argumentPieces arguments).length, errors,
        .over .methodInvocation [inner, .token point, .absent, .token member,
          argumentsTree start arguments] :: slots⟩ := by
  obtain ⟨others, opening⟩ := exists_opening arguments start rest
  have shown := shows
  rw [opening] at shown
  have call : qualifiedCall.run rules context ⟨position + 1, errors, [.token point, inner]⟩ =
      .ok ⟨position + 2 + (argumentPieces arguments).length, errors,
        [argumentsTree start arguments, .token member, .absent, .token point, inner]⟩ :=
    run_seq (run_seq (run_no (by simp [kindAt_zero shows.next, isName]) rfl)
      (run_expect shows.next isName (by simp)))
      (run_arguments known arguments fits small shows.next.next)
  exact run_yes (by simp [kindAt_zero shows, isPoint])
    (run_yes (by simp [kindAt_one shows, isName])
      (run_yes (by simp [kindAt_two shown])
        (run_around (run_seq (run_seq (run_take shows (by simp [isPoint]))
          (run_no (by simp [kindAt_zero shows.next, isName]) rfl)) call)
          (.here (placed_arguments _ _)) rfl)))

theorem run_elementSuffix (known : Understands rules context bound) (index : Expression)
    (fits : index.fits = true) (small : index.size ≤ bound) {opening closing : Token}
    (shows : context.Shows position (opening :: (index.tokens start ++ closing :: rest)))
    (opens : opening.kind = .lBracket) (closes : closing.kind = .rBracket) :
    suffix.run rules context ⟨position, errors, inner :: slots⟩ =
      .ok ⟨position + 1 + index.size + 1, errors,
        .over .arrayAccess [inner, .token opening, index.tree start, .token closing] :: slots⟩ := by
  have ends : closing.kind.stops 0 = true := by
    rw [closes]
    decide
  have last := shows.next.skip
  rw [length_tokens] at last
  have noDims : kindAt context ⟨position, errors, inner :: slots⟩ 1 ≠ .rBracket :=
    kind_index_ne index shows.next
  exact run_no (by simp [kindAt_zero shows, opens])
    (run_yes (by simp [kindAt_zero shows, opens])
      (run_no (by simp [noDims.symm])
        (run_around (run_seq (run_seq (run_take shows (by simp [opens]))
          (known.expression index fits small _ _ _ _ _ _ shows.next ends))
          (run_expect last closes (by simp))) (.here rfl) rfl)))

end Expression

theorem ne_of_stops {rank : Nat} {kind other : TokenKind} (stops : kind.stops rank = true)
    (goesOn : other.stops rank = false) : kind ≠ other := by
  rintro rfl
  rw [goesOn] at stops
  cases stops

/-- A chain ends before a token that adds no suffix. -/
theorem run_noSuffix (calm : context.Calm) (shows : context.Shows position (next :: more))
    (ends : next.kind.stops Precedence.primary.rank = true) :
    suffix.run rules context ⟨position, errors, slots⟩ = .ok ⟨position, errors, slots⟩ := by
  have noPoint : next.kind ≠ .dot := ne_of_stops ends (by decide)
  have noBracket : next.kind ≠ .lBracket := ne_of_stops ends (by decide)
  have noReference : next.kind ≠ .colonColon := ne_of_stops ends (by decide)
  have noCall : next.kind ≠ .lParen := ne_of_stops ends (by decide)
  refine run_no (by simp [kindAt_zero shows, noPoint.symm])
    (run_no (by simp [kindAt_zero shows, noBracket.symm])
      (run_no (by simp [kindAt_zero shows, noReference.symm]) ?_))
  cases angle : (Condition.is .lt &&& .shape .endsInName).holds rules context
      ⟨position, errors, slots⟩ with
  | true => exact run_yes angle (run_no (calm.leadsToGenericReference_fails _) rfl)
  | false => exact run_no angle (run_no (by simp [kindAt_zero shows, noCall.symm]) rfl)

/-! ## Chains -/

/-- From a position on, a head is read, and then a loop over suffixes comes to `stop`. -/
def ReadsChain (rules : Rule → Context → Step) (context : Context) (errors : List SyntaxError)
    (position stop : Nat) (chained : Bool) (bare : Element) : Prop :=
  ∃ middle head,
    (∀ slots, primaryHead.run rules context ⟨position, errors, slots⟩ =
      .ok ⟨middle, errors, head :: slots⟩) ∧
    Loops (suffix.run rules context) ⟨middle, errors, [head]⟩ ⟨stop, errors, [bare]⟩ ∧
    (middle < stop ↔ chained = true)

namespace ReadsChain

variable {stop middle : Nat} {chained : Bool} {bare : Element}

theorem head (read : ∀ slots, primaryHead.run rules context ⟨position, errors, slots⟩ =
      .ok ⟨stop, errors, bare :: slots⟩) :
    ReadsChain rules context errors position stop false bare :=
  ⟨stop, bare, read, .refl _ _, by simp⟩

theorem suffix (chain : ReadsChain rules context errors position middle chained inner)
    (read : Language.suffix.run rules context ⟨middle, errors, [inner]⟩ =
      .ok ⟨stop, errors, [bare]⟩) (further : middle < stop) :
    ReadsChain rules context errors position stop true bare := by
  obtain ⟨first, head, headRead, loops, -⟩ := chain
  have within : first ≤ middle := loops.position_le
  exact ⟨first, head, headRead, loops.trans (.single read further), by simp; omega⟩

/-- A chain is read as a primary, its suffixes inside one node. -/
theorem primary (chain : ReadsChain rules context errors position stop chained bare)
    (placed : bare.Placed) (starts : startsPrimary.holds rules context
      ⟨position, errors, slots⟩ = true)
    (idle : Language.suffix.run rules context ⟨stop, errors, [bare]⟩ = .ok ⟨stop, errors, [bare]⟩)
    (room : stop ≤ context.tokens.size) :
    Language.primary.run rules context ⟨position, errors, slots⟩ =
      .ok ⟨stop, errors, (if chained then .over .primary [bare] else bare) :: slots⟩ := by
  obtain ⟨middle, head, headRead, loops, advanced⟩ := chain
  have looped : (Phrase.many Language.suffix).run rules context ⟨middle, errors, [head]⟩ =
      .ok ⟨stop, errors, [bare]⟩ := loops.ends idle room
  refine run_yes starts (run_seq (headRead slots) (inFrame_eq_ok.mpr
    ⟨⟨stop, errors, [if chained then .over .primary [bare] else bare]⟩, ?_, rfl⟩))
  cases chained with
  | true => exact run_advanced looped (advanced.mpr rfl) (run_close (.here placed))
  | false => exact run_unadvanced looped (by simpa using advanced)

end ReadsChain

namespace Expression

theorem isChain_element {array : Expression} (index : Expression)
    (noName : ∀ text, array ≠ .name text) : (element array index).isChain = true := by
  cases array with
  | name text => exact absurd rfl (noName text)
  | _ => rfl

/-- Every primary is read as its head and its suffixes. A parenthesis must not follow
it, nor a bracket if it is a name: they would belong to its head. -/
theorem readsChain (known : Understands rules context bound) : (expression : Expression) →
    expression.fits = true → Precedence.primary.rank ≤ expression.rank →
    expression.size ≤ bound + 1 → (start position : Nat) → (next : Token) → (more : List Token) →
    context.Shows position (expression.tokens start ++ next :: more) →
    next.kind ≠ .lParen → (∀ text, expression = .name text → next.kind ≠ .lBracket) →
    ReadsChain rules context errors position (position + expression.size) expression.isChain
      (expression.bareTree start)
  | .literal value, _, _, _, start, position, next, more, shows, _, _ =>
      .head fun _ => run_literal value shows
  | .name text, _, _, _, start, position, next, more, shows, noCall, noIndex =>
      .head fun _ => run_name text shows noCall (noIndex text rfl)
  | .parenthesized inner, fits, _, small, start, position, next, more, shows, _, _ => by
      have size : (parenthesized inner).size = inner.size + 2 := by simp [size, pieces]
      exact .head fun _ => run_parenthesized known inner fits (by omega) shows
  | .call method arguments, fits, _, small, start, position, next, more, shows, _, _ =>
      .head fun _ => run_call known method arguments fits small shows
  | .field object member, fits, _, small, start, position, next, more, shows, noCall, _ => by
      simp only [Expression.fits, Bool.and_eq_true, decide_eq_true_eq] at fits
      have size : (field object member).size = object.size + 2 := by simp [size, pieces]
      rw [tokens_field] at shows
      have after := shows.skip
      rw [length_tokens] at after
      rw [size, ← Nat.add_assoc]
      exact (object.readsChain known fits.2 fits.1 (by omega) _ _ _ _ shows (by simp)
        (fun _ _ => by simp)).suffix (run_fieldSuffix after rfl rfl noCall) (by omega)
  | .invoke object method arguments, fits, _, small, start, position, next, more, shows, noCall,
      _ => by
      simp only [Expression.fits, Bool.and_eq_true, decide_eq_true_eq] at fits
      have size : (invoke object method arguments).size =
          object.size + (2 + (argumentPieces arguments).length) := by
        simp only [size, pieces, List.length_append, List.length_cons]
        omega
      rw [tokens_invoke] at shows
      have after := shows.skip
      rw [length_tokens] at after
      rw [size, ← Nat.add_assoc, ← Nat.add_assoc]
      exact (object.readsChain known fits.1.2 fits.1.1 (by omega) _ _ _ _ shows (by simp)
        (fun _ _ => by simp)).suffix
          (run_callSuffix known arguments fits.2 (by omega) after rfl rfl) (by omega)
  | .element array index, fits, _, small, start, position, next, more, shows, _, _ => by
      simp only [Expression.fits, Bool.and_eq_true, decide_eq_true_eq] at fits
      have size : (element array index).size = array.size + (1 + index.size + 1) := by
        simp only [size, pieces, List.length_append, List.length_cons, List.length_nil]
        omega
      by_cases named : ∃ text, array = .name text
      · obtain ⟨text, rfl⟩ := named
        exact .head fun _ => run_namedElement known text index fits.2 (by omega) shows
      · have noName : ∀ text, array ≠ .name text := fun text same => named ⟨text, same⟩
        rw [tokens_element] at shows
        have after := shows.skip
        rw [length_tokens] at after
        rw [size, isChain_element index noName, ← Nat.add_assoc, ← Nat.add_assoc, ← Nat.add_assoc]
        exact (array.readsChain known fits.1.2 fits.1.1 (by omega) _ _ _ _ shows (by simp)
          (fun text same => absurd same (noName text))).suffix
            (run_elementSuffix known index fits.2 (by omega) after rfl rfl) (by omega)
  | .binary operator _ _, _, above, _, _, _, _, _, _, _, _ => by
      have below := operator.level.rank_le
      simp only [rank, precedence, Precedence.rank] at above
      omega
  | .prefixed .., _, above, _, _, _, _, _, _, _, _ | .postfixed .., _, above, _, _, _, _, _, _, _, _
  | .conditional .., _, above, _, _, _, _, _, _, _, _
  | .assign .., _, above, _, _, _, _, _, _, _, _ => by
      simp [rank, precedence, Precedence.rank] at above

theorem startsPrimary_holds {token : Token} (shows : context.Shows position (token :: rest))
    (starts : startsUnsigned token.kind = true) :
    startsPrimary.holds rules context ⟨position, errors, slots⟩ = true := by
  have listed : (literals ∪ primitiveTypes ∪ .ofList [.kwThis, .lParen, .identifier, .kwNew,
      .kwVoid]).contains token.kind = true := by
    simp only [startsUnsigned, List.mem_cons, List.not_mem_nil, or_false, decide_eq_true_eq]
      at starts
    obtain same | same | same := starts <;> rw [same] <;> decide
  rw [startsPrimary, Condition.holds_or, holds_among, kindAt_zero shows, listed, Bool.true_or]

/-- Printed primaries are read by the phrase for primaries. -/
theorem readsAs_primary (calm : context.Calm) (known : Understands rules context bound)
    (expression : Expression) (fits : expression.fits = true)
    (binds : Precedence.primary.rank ≤ expression.rank) (small : expression.size ≤ bound + 1) :
    ReadsAs context (primary.run rules context) Precedence.primary.rank expression := by
  intro start position errors slots next more shows ends
  have noCall : next.kind ≠ .lParen := ne_of_stops ends (by decide)
  have noIndex : next.kind ≠ .lBracket := ne_of_stops ends (by decide)
  have after := shows.skip
  rw [length_tokens] at after
  have room := after.room
  obtain ⟨token, others, shown, starts⟩ :=
    (expression.starts_unsigned fits (Nat.le_trans (by decide) binds)).shown shows
  exact (expression.readsChain known fits binds small _ _ _ _ shows noCall
    fun _ _ => noIndex).primary (expression.placed_bareTree start)
      (startsPrimary_holds shown starts) (run_noSuffix calm after ends) (by omega)

/-! ## Postfix operators -/

/-- One round of the loop over postfix operators. -/
abbrev postfixRound : Phrase :=
  .choose (.is .plusPlus) (around 1 .postIncrementExpression .take)
    (.onlyIf (.is .minusMinus) (around 1 .postDecrementExpression .take))

theorem run_postfixRound (operator : PostfixOperator) {token : Token} {operand : Element}
    (shows : context.Shows position (token :: rest)) (kind : token.kind = operator.kind) :
    postfixRound.run rules context ⟨position, errors, operand :: slots⟩ =
      .ok ⟨position + 1, errors, .over operator.nodeKind [operand, .token token] :: slots⟩ := by
  cases operator with
  | increment =>
      have kind : token.kind = .plusPlus := kind
      exact run_yes (by simp [kindAt_zero shows, kind])
        (run_around (run_take shows (by simp [kind])) (.here rfl) rfl)
  | decrement =>
      have kind : token.kind = .minusMinus := kind
      exact run_no (by simp [kindAt_zero shows, kind]) (run_yes (by simp [kindAt_zero shows, kind])
        (run_around (run_take shows (by simp [kind])) (.here rfl) rfl))

/-- From a primary on, the loop over postfix operators comes to the whole expression. -/
theorem loops_postfixed (calm : context.Calm) (known : Understands rules context bound)
    (expression : Expression) (fits : expression.fits = true)
    (binds : Precedence.postfixed.rank ≤ expression.rank) (small : expression.size ≤ bound + 1)
    {next : Token} {more : List Token}
    (shows : context.Shows position (expression.tokens start ++ next :: more))
    (ends : next.kind.stops Precedence.primary.rank = true) :
    ∃ middle, primary.run rules context ⟨position, errors, slots⟩ = .ok middle ∧
      Loops (postfixRound.run rules context) middle
        ⟨position + expression.size, errors, expression.tree start :: slots⟩ := by
  obtain isPrimary | ⟨operand, operator, rfl⟩ := primary_or_postfixed binds
  · exact ⟨_, expression.readsAs_primary calm known fits isPrimary small _ _ _ _ _ _ shows ends,
      .refl _ _⟩
  · simp only [Expression.fits, Bool.and_eq_true, decide_eq_true_eq] at fits
    have size : (postfixed operand operator).size = operand.size + 1 := by simp [size, pieces]
    have stops : operator.kind.stops Precedence.primary.rank = true := by
      cases operator <;> decide
    rw [tokens_postfixed] at shows
    have after := shows.skip
    rw [length_tokens] at after
    obtain ⟨middle, read, loops⟩ :=
      operand.loops_postfixed calm known fits.2 fits.1 (by omega) shows stops
    refine ⟨middle, read, loops.trans (.single ?_ ?_)⟩
    · rw [size, ← Nat.add_assoc]
      exact run_postfixRound operator after rfl
    · simp only
      omega

/-- Operands without prefixes are read as primaries with their postfix operators. -/
theorem readsAs_postfixed (calm : context.Calm) (known : Understands rules context bound)
    (expression : Expression) (fits : expression.fits = true)
    (binds : Precedence.postfixed.rank ≤ expression.rank) (small : expression.size ≤ bound + 1) :
    ReadsAs context (Language.postfixed.run rules context) Precedence.postfixed.rank
      expression := by
  intro start position errors slots next more shows ends
  have after := shows.skip
  rw [length_tokens] at after
  have room := after.room
  have noIncrement : next.kind ≠ .plusPlus := ne_of_stops ends (by decide)
  have noDecrement : next.kind ≠ .minusMinus := ne_of_stops ends (by decide)
  obtain ⟨middle, read, loops⟩ := expression.loops_postfixed calm known fits binds small shows
    (TokenKind.stops_mono (by decide) ends)
  refine run_seq read (loops.ends ?_ ?_)
  · exact run_no (by simp [kindAt_zero after, noIncrement.symm])
      (run_no (by simp [kindAt_zero after, noDecrement.symm]) rfl)
  · simp only
    omega

end Expression

end JavaSyntax
