import JavaSyntax.Proofs.Locality.SharedPrefix

/-!
# Statements before a seam

Whatever a block holds before a seam is read alike in both token lists.  Simple statements and
declarations end with a `;` and bodies with a `}`, which are walls for what stands before them.
Where a statement ends with another one, the nesting is one deeper, so the induction is over
the nesting that is left.
-/

namespace JavaSyntax.Seam

open JavaSyntax.Language Phrase Condition

variable {seam : Seam} {depth : Nat} {view : View}

theorem carries_noViable (construct : Construct) :
    seam.Carries depth view (.noViable construct) := by
  intro state state' _ _ after read _
  simp only [Phrase.run, State.noViable, State.report_of_strict seam.sealed.strict] at read
  cases read

/-- Alternatives that are told apart by the current token. -/
theorem keeps_alternatives {others : Phrase} {state state' : State} (twins : Twins 0 state state')
    (before : state.position < seam.place)
    (rest : seam.Keeps (others.run (readRule grammar depth) seam.left state)
      (others.run (readRule grammar depth) seam.right state'))
    (alternatives : List (TokenKind × Phrase))
    (carries : ∀ alternative ∈ alternatives,
      seam.Carries depth [.singleton alternative.1] alternative.2) :
    let whole := alternatives.foldr
      (fun (kind, body) others => .choose (is kind) body others) others
    seam.Keeps (whole.run (readRule grammar depth) seam.left state)
      (whole.run (readRule grammar depth) seam.right state') := by
  induction alternatives with
  | nil => exact rest
  | cons alternative alternatives ih =>
      obtain ⟨first, later⟩ := List.forall_mem_cons.mp carries
      exact Keeps.choose (seam.holds_next twins before _)
        (fun holds => first state state' twins (fits_of_is holds)) (ih later)

/-! ## Simple statements -/

theorem carries_parenthesizedCondition : seam.Carries depth view parenthesizedCondition :=
  carries_assoc (carries_seq (carries_expect .lParen)
    (carries_walled itemWalls (by decide) (by decide)))

theorem carries_assert : seam.Carries depth [.singleton .kwAssert] assertStatement :=
  carries_node _ (carries_walled itemWalls (by decide) (by decide))

theorem carries_jump {kind : NodeKind} {keyword : TokenKind}
    (known : keyword = .kwBreak ∨ keyword = .kwContinue) :
    seam.Carries depth [.singleton keyword] (jumpStatement kind) := by
  rcases known with rfl | rfl <;>
    exact carries_node _ (carries_walled itemWalls (by decide) (by decide))

theorem carries_return : seam.Carries depth [.singleton .kwReturn] returnStatement :=
  carries_node _ (carries_walled itemWalls (by decide) (by decide))

theorem carries_throw : seam.Carries depth [.singleton .kwThrow] throwStatement :=
  carries_node _ (carries_walled itemWalls (by decide) (by decide))

theorem carries_expressionStatement : seam.Carries depth view expressionStatement :=
  carries_unseen (carries_node _ (carries_walled itemWalls (by decide) (by decide)))

theorem carries_switch : seam.Carries depth view switchStatement :=
  carries_node _ (carries_seq (carries_seq carries_take carries_parenthesizedCondition)
    (carries_braced braced_switchBlock _))

theorem carries_synchronized : seam.Carries depth view synchronizedStatement :=
  carries_node _ (carries_seq (carries_seq carries_take carries_parenthesizedCondition)
    (carries_braced braced_block _))

/-! ## Handlers -/

theorem carries_catchClause : seam.Carries depth [.singleton .kwCatch] catchClause :=
  carries_node _ (carries_headed braced_block (by decide))

theorem carries_handlers : seam.Carries depth view handlers := by
  refine carries_seq (carries_frame 0 (carries_seq (carries_many ?_) ?_)) ?_
  · exact carries_dangling (by decide) carries_catchClause (fun _ _ twins _ => .ok twins)
  · exact carries_shape carries_absent (carries_close _)
  · exact carries_dangling (by decide)
      (carries_node _ (carries_seq carries_take (carries_braced braced_block _))) carries_absent

/-- A `try` is followed by more than one token, so the choice between its two kinds is made
before the seam. -/
theorem carries_try : seam.Carries depth [.singleton .kwTry] tryStatement := by
  intro state state' twins fits after read within
  have further := second_lt_place (by decide) (by decide) fits read within
  have same : (nextIs 1 .lParen).holds (readRule grammar depth) seam.right state' =
      (nextIs 1 .lParen).holds (readRule grammar depth) seam.left state := by
    rw [holds_nextIs, holds_nextIs, seam.kindAt twins 1 further]
  refine Keeps.choose same (fun parenthesis => ?_) ?_ after read within
  · have ahead : View.Fits seam.left [.singleton .kwTry, .singleton .lParen] state := by
      refine .cons fits.first (.cons ?_ (View.fits_nil _ _))
      exact parenthesis
    exact carries_node _ (carries_seq (carries_headed braced_block (by decide))
      carries_handlers) state state' twins ahead
  · exact carries_node _ (carries_seq (carries_seq (carries_seq carries_take
      (carries_braced braced_block _)) carries_handlers) (carries_require _))
      state state' twins fits

/-! ## Statements that end with a statement -/

theorem endsStatement_statement : endsStatement [] statement = true := by
  have checked := confined_grammar .statement (by decide)
  rw [confinedRule, grammar] at checked
  rw [endsStatement]
  exact checked

section Nested

variable (inner : seam.Carries depth [] (.call .statement))

include inner

theorem carries_labeled : seam.Carries depth view labeledStatement :=
  carries_node _ (carries_seq (carries_seq carries_take carries_take) inner)

theorem carries_while : seam.Carries depth view whileStatement :=
  carries_node _ (carries_seq (carries_seq (carries_expect _) carries_parenthesizedCondition) inner)

theorem carries_do : seam.Carries depth view doStatement :=
  carries_node _ (carries_seq (carries_seq (carries_seq (carries_seq (carries_expect _) inner)
    (carries_expect _)) carries_parenthesizedCondition) (carries_expect _))

omit inner in
/-- The head of a `for` is blocked by its closing parenthesis. -/
theorem exists_blocked_of_loop {body : Phrase} {kind : NodeKind} {state after : State}
    (kept : keepsTo .empty [] body = true)
    (read : (body ++ .expect .rParen ++ .call .statement ++ .close kind).run
      (readRule grammar depth) seam.left state = .ok after)
    (within : after.position ≤ seam.place) :
    ∃ high < seam.place, Blocked .empty seam.left [] state.position high := by
  obtain ⟨ended, whole, closed⟩ := bind_eq_ok.mp read
  obtain ⟨middle, head, rest⟩ := bind_eq_ok.mp whole
  have onward := Nat.le_trans (Language.forward rest) (Language.forward closed)
  exact exists_blocked kept (by decide) (View.fits_nil _ _) head (Nat.le_trans onward within)

/-- Which kind of loop it is can be told before the closing parenthesis. -/
theorem carries_for : seam.Carries depth view forStatement := by
  refine carries_frame 0 (carries_seq (carries_seq (carries_expect _) (carries_expect _)) ?_)
  intro state state' twins fits after read within
  have blocked : ∃ high < seam.place, Blocked .empty seam.left [] state.position high := by
    simp only [Phrase.run] at read
    split at read
    · exact exists_blocked_of_loop (by decide) read within
    · exact exists_blocked_of_loop (by decide) read within
  obtain ⟨high, before, blocked⟩ := blocked
  have same := (startsEnhancedFor.holds_of_bounded (guards_grammar (seam.fence before) depth)).alike
    (by decide) ⟨twins, Nat.zero_le _, blocked, fits⟩
  refine Keeps.choose same (fun _ => ?_) ?_ after read within
  · exact carries_seq (carries_seq (carries_walled .empty (by decide) (by decide)) inner)
      (carries_close _) state state' twins fits
  · exact carries_seq (carries_seq (carries_walled .empty (by decide) (by decide)) inner)
      (carries_close _) state state' twins fits

/-- An `else` is followed by a statement, so whether another `if` comes next is told before
the seam. -/
theorem carries_if : seam.Carries depth view ifStatement := by
  intro state state' twins _ after read within
  have inside := Nat.le_trans (Language.forward read) within
  have size := seam.size
  have size' := seam.size'
  have same := twins.position
  have link : seam.Carries depth []
      (.expect .kwIf ++ parenthesizedCondition ++ .call .statement) :=
    carries_seq (carries_seq (carries_expect _) carries_parenthesizedCondition) inner
  have last : seam.Carries depth [] (.choose (is .kwElse) (.take ++ .call .statement)
      (.absent ++ .absent)) :=
    carries_dangling (by decide) (carries_seq carries_take inner)
      (carries_seq carries_absent carries_absent)
  have moves (state after : State)
      (read : (Phrase.expect .kwIf ++ parenthesizedCondition ++ .call .statement).run
        (readRule grammar depth) seam.left state = .ok after)
      (within : after.position ≤ seam.place) : state.position < after.position := by
    have inside := Nat.lt_of_le_of_lt (Nat.le_trans (Language.forward read) within) size
    exact (seam.sealed.passes_statement (View.fits_nil _ _) inside read (by decide)).2.1
  refine chain_keeps (Language.moving _ depth _) (Language.moving _ depth _)
    (fun state state' twins => link state state' twins (View.fits_nil _ _))
    (fun state state' twins => last state state' twins (View.fits_nil _ _)) moves ?_ ?_
    _ _ twins rfl ?_ ?_ after read within
  · intro state state' next after twins more there read within
    rw [holds_and, holds_is, holds_nextIs, Bool.and_eq_true, decide_eq_true_eq,
      decide_eq_true_eq] at more ⊢
    have taken : (state.take seam.left).position = state.position + 1 :=
      position_take fun ended => nomatch more.1.trans ended
    have ahead : next.position < seam.place :=
      Nat.lt_of_lt_of_le (moves next after read within) within
    rw [there, taken] at ahead
    rw [seam.kindAt twins 0 (by omega), seam.kindAt twins 1 ahead]
    exact more
  · intro state state' after twins stops read within
    have inside := Nat.le_trans (Language.forward read) within
    rw [holds_and, holds_nextIs, seam.holds_dangling twins inside (by decide)]
    rw [holds_and, holds_nextIs] at stops
    cases goesOn : (is .kwElse).holds (readRule grammar depth) seam.left state with
    | false => rfl
    | true =>
        have further :=
          second_lt_place (by decide) (by decide) (fits_of_is goesOn) read within
        rwa [seam.kindAt twins 1 further, ← goesOn]
  · rw [State.remaining]
    omega
  · rw [State.remaining]
    omega

theorem carries_keywordStatement {alternative : TokenKind × Phrase}
    (member : alternative ∈ keywordStatements) :
    seam.Carries depth [.singleton alternative.1] alternative.2 := by
  simp only [keywordStatements, List.mem_cons, List.not_mem_nil, or_false] at member
  rcases member with rfl | rfl | rfl | rfl | rfl | rfl | rfl | rfl | rfl | rfl | rfl | rfl | rfl |
    rfl
  · exact carries_braced braced_block _
  · exact carries_node _ carries_take
  · exact carries_if inner
  · exact carries_assert
  · exact carries_switch
  · exact carries_while inner
  · exact carries_do inner
  · exact carries_for inner
  · exact carries_jump (.inl rfl)
  · exact carries_jump (.inr rfl)
  · exact carries_return
  · exact carries_throw
  · exact carries_synchronized
  · exact carries_try

theorem carries_statement : seam.Carries depth [] statement := by
  intro state state' twins fits after read within
  have inside : state.position < seam.left.tokens.size :=
    Nat.lt_of_le_of_lt (Nat.le_trans (Language.forward read) within) seam.size
  obtain ⟨-, moved, last⟩ :=
    seam.sealed.passes_statement fits inside read endsStatement_statement
  have before : state.position < seam.place := Nat.lt_of_lt_of_le moved within
  have labels : (is .identifier &&& nextIs 1 .colon).holds (readRule grammar depth) seam.right
      state' = (is .identifier &&& nextIs 1 .colon).holds (readRule grammar depth) seam.left
      state := by
    rw [holds_and, holds_and, holds_is, holds_is, holds_nextIs, holds_nextIs,
      seam.kindAt twins 0 before]
    by_cases named : .identifier = state.kindAt seam.left 0
    · have further : state.position + 1 < seam.place := by
        refine Nat.lt_of_lt_of_le (Nat.lt_of_le_of_ne moved fun same => ?_) within
        rw [← same, Nat.succ_sub_one] at last
        rcases last with last | last <;> cases named.trans last
      rw [seam.kindAt twins 1 further]
    · rw [decide_eq_false named, Bool.false_and, Bool.false_and]
  refine keeps_alternatives twins before ?_ keywordStatements
    (fun _ member => carries_keywordStatement inner member) after read within
  refine Keeps.choose labels (fun _ => carries_labeled inner state state' twins fits) ?_
  refine Keeps.choose (seam.holds_next twins before _)
    (fun _ => carries_expressionStatement state state' twins fits) ?_
  exact carries_noViable .statement state state' twins fits

end Nested

theorem carries_call_statement : seam.Carries depth [] (.call .statement) := by
  induction depth with
  | zero => exact fun _ _ _ _ _ read => nomatch read
  | succ depth ih => exact carries_statement ih

end JavaSyntax.Seam
