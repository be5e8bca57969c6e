import JavaSyntax.Proofs.Fuel.Reading
import JavaSyntax.Proofs.Idle.Loops

/-!
# When fuel is enough

Fuel is used up by calls and by rounds of loops.  Each round of a loop reads a
token, so there are no more rounds than tokens.  Where calls follow one another
without a token between them, each of the rules called ranks below the one that
calls it; so only so many calls follow one another in one place.  Both are checked
on the phrases of a grammar, and then a reading on fuel comes to what the reading
without fuel comes to.
-/

namespace JavaSyntax

namespace Phrase

/-- Whether a phrase is sure to decline. -/
def rests : Phrase → View → Bool
  | .nothing, _ => true
  | .choose condition yes no, view =>
      (condition.glimpse true view).all yes.rests && (condition.glimpse false view).all no.rests
  | _, _ => false

theorem declines_of_rests {rules : Rule → Context → Step} {context : Context} {state : State} :
    (phrase : Phrase) → ∀ {view : View}, phrase.rests view = true → view.Fits context state →
      phrase.declines rules context state = true
  | .nothing, _, _, _ => rfl
  | .choose condition yes no, view, checked, fits => by
      simp only [rests, Bool.and_eq_true] at checked
      simp only [declines]
      split
      · rename_i holds
        obtain ⟨view, fits, rests⟩ := (fits.glimpse holds).all checked.1
        exact declines_of_rests yes rests fits
      · rename_i fails
        obtain ⟨view, fits, rests⟩ :=
          (fits.glimpse (Bool.eq_false_iff.mpr fails)).all checked.2
        exact declines_of_rests no rests fits
  | .absent, _, checked, _ | .absentFirst, _, checked, _ | .dropAbsent, _, checked, _
  | .take, _, checked, _ | .expect _, _, checked, _ | .noViable _, _, checked, _
  | .require _, _, checked, _ | .call _, _, checked, _ | .seq _ _, _, checked, _
  | .frame _ _, _, checked, _ | .close _, _, checked, _ | .many _, _, checked, _
  | .whenAdvanced _ _, _, checked, _ | .progress _, _, checked, _
  | .attempt _ _ _ _, _, checked, _ | .operators _ _, _, checked, _
  | .prefixed _ _, _, checked, _ | .chain _ _ _ _, _, checked, _ => by cases checked

end Phrase

/-- The view of a state at the end. -/
def View.ended : View :=
  [.singleton .eof]

theorem View.fits_ended {context : Context} {state : State} (ended : state.atEnd context = true) :
    View.ended.Fits context state :=
  View.fits_singleton (by simp [State.atEnd_iff.mp ended])

mutual

/-- Whether every loop of a phrase reads a token in each round. -/
def Phrase.paced (reads : Rule → TokenSet) : Phrase → Bool
  | .seq first second | .whenAdvanced first second | .operators first second =>
      first.paced reads && second.paced reads
  | .choose condition yes no => condition.paced reads && yes.paced reads && no.paced reads
  | .frame _ body | .progress body => body.paced reads
  | .many body => (body.stirs reads []).isNone && body.paced reads
  | .attempt trial accept yes no =>
      trial.paced reads && accept.paced reads && yes.paced reads && no.paced reads
  | .prefixed link last =>
      (link.stirs reads []).isNone && link.rests .ended && link.paced reads && last.paced reads
  | .chain _ link more last =>
      (more.glimpse true .ended).isNone && link.paced reads && more.paced reads &&
        last.paced reads
  | .nothing | .absent | .absentFirst | .dropAbsent | .take | .expect _ | .noViable _
  | .require _ | .call _ | .close _ => true

/-- Whether every loop in the trials of a condition reads a token in each round. -/
def Condition.paced (reads : Rule → TokenSet) : Condition → Bool
  | .next _ _ | .shape _ => true
  | .not condition => condition.paced reads
  | .and left right | .or left right => left.paced reads && right.paced reads
  | .ahead trial afterwards => trial.paced reads && afterwards.paced reads

end

mutual

/-- Whether the rules that a phrase calls where it starts rank below a bound, which
depends on the current token. -/
def Phrase.callsBelow (reads : Rule → TokenSet) (rank : Rule → TokenKind → Nat)
    (bound : TokenKind → Nat) : Phrase → View → Bool
  | .call rule, view =>
      TokenKind.all.all fun kind =>
        !view.first.contains kind || decide (rank rule kind < bound kind)
  | .seq first second, view =>
      first.callsBelow reads rank bound view &&
        (first.stays reads false view).all (second.callsBelow reads rank bound)
  | .choose condition yes no, view =>
      condition.callsBelow reads rank bound view &&
        (condition.glimpse true view).all (yes.callsBelow reads rank bound) &&
        (condition.glimpse false view).all (no.callsBelow reads rank bound)
  | .frame _ body, view | .many body, view | .progress body, view
  | .whenAdvanced body _, view | .operators body _, view => body.callsBelow reads rank bound view
  | .attempt trial accept yes no, view =>
      trial.callsBelow reads rank bound view &&
        (trial.stays reads false view).all (fun view =>
          accept.callsBelow reads rank bound view &&
            (accept.glimpse true view).all (yes.callsBelow reads rank bound)) &&
        no.callsBelow reads rank bound view
  | .prefixed link last, view =>
      link.callsBelow reads rank bound view && last.callsBelow reads rank bound view
  | .chain _ link more last, view =>
      link.callsBelow reads rank bound view &&
        (link.stays reads false view).all (fun view =>
          more.callsBelow reads rank bound view && last.callsBelow reads rank bound view)
  | .nothing, _ | .absent, _ | .absentFirst, _ | .dropAbsent, _ | .take, _ | .expect _, _
  | .noViable _, _ | .require _, _ | .close _, _ => true

/-- Whether the rules that the trials of a condition call where they start rank below a
bound. -/
def Condition.callsBelow (reads : Rule → TokenSet) (rank : Rule → TokenKind → Nat)
    (bound : TokenKind → Nat) : Condition → View → Bool
  | .next _ _, _ | .shape _, _ => true
  | .not condition, view => condition.callsBelow reads rank bound view
  | .and left right, view =>
      left.callsBelow reads rank bound view &&
        (left.glimpse true view).all (right.callsBelow reads rank bound)
  | .or left right, view =>
      left.callsBelow reads rank bound view &&
        (left.glimpse false view).all (right.callsBelow reads rank bound)
  | .ahead trial afterwards, view =>
      trial.callsBelow reads rank bound view &&
        (trial.stays reads false view).all (afterwards.callsBelow reads rank bound)

end

/-- A state beyond the token at `origin`. -/
def Beyond (context : Context) (origin : Nat) (state : State) : Prop :=
  origin < context.tokens.size ∧ origin < state.position

/-- A state beyond the token at `origin`, or at that place with a view that passes a
check. -/
def Reached (context : Context) (origin : Nat) (check : View → Bool) (state : State) : Prop :=
  Beyond context origin state ∨
    state.position = origin ∧ ∃ view : View, view.Fits context state ∧ check view = true

theorem State.lt_size_of_advance {context : Context} {before after : State}
    (kept : Lossless context before after) (moved : before.position < after.position) :
    before.position < context.tokens.size :=
  Context.lt_size_of_kind_ne (kept.inside before.position (Nat.le_refl _) moved)

namespace Reached

variable {context : Context} {origin : Nat} {check check' : View → Bool} {state after : State}

theorem start (reached : Reached context origin check state) : origin ≤ state.position := by
  rcases reached with beyond | ⟨same, _⟩
  · exact Nat.le_of_lt beyond.2
  · exact Nat.le_of_eq same.symm

theorem imp (reached : Reached context origin check state)
    (weaker : ∀ view, check view = true → check' view = true) :
    Reached context origin check' state := by
  rcases reached with beyond | ⟨same, view, fits, checked⟩
  · exact .inl beyond
  · exact .inr ⟨same, view, fits, weaker view checked⟩

theorem trial_iff :
    Reached context.trial origin check state ↔ Reached context origin check state :=
  Iff.rfl

/-- Two checks in one. -/
theorem both (reached : Reached context origin (fun view => check view && check' view) state) :
    Reached context origin check state ∧ Reached context origin check' state :=
  ⟨reached.imp fun _ checked => (Bool.and_eq_true_iff.mp checked).1,
    reached.imp fun _ checked => (Bool.and_eq_true_iff.mp checked).2⟩

theorem atPosition (reached : Reached context origin check state)
    (same : after.position = state.position) : Reached context origin check after := by
  rcases reached with beyond | ⟨here, view, fits, checked⟩
  · exact .inl ⟨beyond.1, same ▸ beyond.2⟩
  · exact .inr ⟨same.trans here, view, fits.atPosition same, checked⟩

/-- Where a token is read, nothing is left to check. -/
theorem onward (reached : Reached context origin check state)
    (inside : state.position < context.tokens.size) (moved : state.position < after.position) :
    Reached context origin check' after :=
  .inl ⟨Nat.lt_of_le_of_lt reached.start inside, Nat.lt_of_le_of_lt reached.start moved⟩

theorem glimpse {rules : Rule → Context → Step} {condition : Condition} {decided : Bool}
    (reached : Reached context origin
      (fun view => (condition.glimpse decided view).all check) state)
    (holds : condition.holds rules context state = decided) :
    Reached context origin check state := by
  rcases reached with beyond | ⟨here, view, fits, checked⟩
  · exact .inl beyond
  · exact .inr ⟨here, (fits.glimpse holds).all checked⟩

theorem next {reads : Rule → TokenSet} {rules : Rule → Context → Step}
    (steady : Steady reads rules) {phrase : Phrase}
    (reached : Reached context origin (fun view => (phrase.stays reads false view).all check) state)
    (read : phrase.run rules context state = .ok after) : Reached context origin check after := by
  have kept := steady.lossless phrase read
  have forward := kept.forward
  by_cases still : after.position = state.position
  · rcases reached with beyond | ⟨here, view, fits, checked⟩
    · exact .inl ⟨beyond.1, still ▸ beyond.2⟩
    · have stays := steady.stays_of_run false phrase read
        ⟨still, (absurd · Bool.false_ne_true)⟩ fits
      exact .inr ⟨still.trans here, stays.all checked⟩
  · have moved : state.position < after.position := by omega
    exact reached.onward (State.lt_size_of_advance kept moved) moved

end Reached

/-! ## Frames and loops on fuel -/

theorem State.remaining_lt {context : Context} {before after : State}
    (kept : Lossless context before after) (moved : before.position < after.position) :
    after.remaining context < before.remaining context := by
  have inside := State.lt_size_of_advance kept moved
  simp only [State.remaining]
  omega

/-- At an operator there is a token to read. -/
theorem State.operator?_eq_some {context : Context} {state : State} {level : Level} {width : Nat}
    (found : state.operator? context = some (level, width)) :
    state.atEnd context = false ∧ 0 < width := by
  cases ended : state.atEnd context with
  | true =>
      have isEnd := State.atEnd_iff.mp ended
      simp [State.operator?, State.doubled, isEnd, Level.ofKind?] at found
  | false =>
      refine ⟨rfl, ?_⟩
      unfold State.operator? at found
      split at found
      · cases found
        decide
      · split at found
        · obtain ⟨rfl, rfl⟩ := Prod.mk.inj (Option.some.inj found)
          split <;> decide
        · obtain ⟨level, _, same⟩ := Option.map_eq_some_iff.mp found
          cases same
          decide

theorem State.position_lt_take {context : Context} {state : State}
    (more : state.atEnd context = false) : state.position < (state.take context).position := by
  have taken : state.take context = state.takeAny context := by simp [State.take, more]
  rw [taken, State.position_takeAny more]
  omega

theorem State.position_lt_takeMany {context : Context} {state : State} {count : Nat}
    (more : state.atEnd context = false) (some : 0 < count) :
    state.position < (state.takeMany context count).position := by
  cases count with
  | zero => cases some
  | succ count =>
      have rest : Moves context .any (state.take context) _ := Moves.takeMany context count _
      exact Nat.lt_of_lt_of_le (State.position_lt_take more) rest.forward_any

namespace Fueled

/-- Readings on fuel compose: if the first one comes to a result, and so does what
follows a success of it, then both together do. -/
theorem bind_eq {α β : Type} {first : Fueled α} {result : Except SyntaxError α}
    {next : α → Fueled β} {next' : α → Except SyntaxError β} (finished : first = some result)
    (onward : ∀ value, result = .ok value → next value = some (next' value)) :
    (first >>= next) = some (result >>= next') := by
  subst finished
  cases result with
  | error error => rfl
  | ok value => exact onward value rfl

/-- A condition that is decided on fuel selects what follows. -/
theorem decided_eq {β : Type} {decision : Option Bool} {decided : Bool} {next : Bool → Fueled β}
    (finished : decision = some decided) :
    ((liftM decision : Fueled Bool) >>= next) = next decided := by
  subst finished
  rfl

theorem inFrame_eq {state : State} {lead : Nat} {step : FueledStep} {step' : Step}
    (finished : step { state with slots := state.slots.take lead } =
      some (step' { state with slots := state.slots.take lead })) :
    inFrame state lead step = some (state.inFrame lead step') :=
  bind_eq finished fun _ _ => rfl

theorem collect_eq {state : State} {step : FueledStep} {step' : Step}
    (finished : step { state with slots := [] } = some (step' { state with slots := [] })) :
    collect state step = some (state.collect step') :=
  bind_eq finished fun _ _ => rfl

theorem progress_eq {context : Context} {state : State} {step : FueledStep} {step' : Step}
    (finished : step { state with slots := [] } = some (step' { state with slots := [] })) :
    progress context state step = some (state.progress context step') := by
  refine inFrame_eq (bind_eq finished ?_)
  intro result _
  split <;> rfl

section Loops

variable {reads : Rule → TokenSet} {rules : Rule → Context → Step} (steady : Steady reads rules)
  {context : Context} {origin : Nat} {check : View → Bool}

include steady

theorem loop_eq {body : Phrase} {declines : State → Option Bool} {step : FueledStep}
    (checked : (body.stirs reads []).isNone = true)
    (decides : ∀ state, Reached context origin check state →
      declines state = some (body.declines rules context state))
    (steps : ∀ state, Reached context origin check state →
      step state = some (body.run rules context state)) (rounds enough : Nat) (state : State)
    (reached : Reached context origin check state) (covered : state.remaining context ≤ enough)
    (fueled : state.remaining context < rounds) :
    loop declines step rounds state =
      some (State.iterate (body.run rules context) enough state) := by
  induction rounds generalizing enough state with
  | zero => cases fueled
  | succ rounds ih =>
      rw [loop, decided_eq (decides state reached)]
      cases declined : body.declines rules context state with
      | true =>
          have stays := body.run_of_declines declined
          cases enough with
          | zero => exact congrArg some stays.symm
          | succ enough =>
              have once :
                  State.iterate (body.run rules context) (enough + 1) state = .ok state := by
                simp [State.iterate, stays, bind, Except.bind, pure, Except.pure]
              exact congrArg some once.symm
      | false =>
          have stepped := steps state reached
          cases read : body.run rules context state with
          | error error =>
              have failed : State.iterate (body.run rules context) enough state = .error error := by
                cases enough <;> simp [State.iterate, read, bind, Except.bind]
              rw [failed]
              rw [read] at stepped
              simp only [stepped]
              rfl
          | ok next =>
              have moved : state.position < next.position :=
                (steady.advances_or_declines checked read).resolve_right (by simp [declined])
              have kept := steady.lossless body read
              have inside := State.lt_size_of_advance kept moved
              have fewer := State.remaining_lt kept moved
              cases enough with
              | zero => omega
              | succ enough =>
                  have again : State.iterate (body.run rules context) (enough + 1) state =
                      State.iterate (body.run rules context) enough next := by
                    simp [State.iterate, read, bind, Except.bind, moved]
                  rw [again, ← ih enough next (reached.onward inside moved) (by omega) (by omega)]
                  rw [read] at stepped
                  simp only [stepped]
                  rfl

/-- The loop over operators.  Behind an operator a token has been read. -/
theorem climb_eq {operand type : Phrase} {operand' type' : FueledStep}
    (operands : ∀ state : State, Beyond context origin state →
      operand' state = some (operand.run rules context state))
    (types : ∀ state : State, Beyond context origin state →
      type' state = some (type.run rules context state)) (rounds enough : Nat)
    (stack : List Pending) (left : List Element) (state : State) (start : origin ≤ state.position)
    (covered : state.remaining context ≤ enough) (fueled : state.remaining context < rounds) :
    climb context operand' type' rounds stack left state =
      some (state.climb context (operand.run rules context) (type.run rules context) enough
        stack left) := by
  induction rounds generalizing enough stack left state with
  | zero => cases fueled
  | succ rounds ih =>
      rw [climb]
      cases found : state.operator? context with
      | none =>
          have closed : state.climb context (operand.run rules context) (type.run rules context)
              enough stack left = .ok (state.closeOperators context stack left) := by
            cases enough <;> simp [State.climb, found]
          rw [closed]
          rfl
      | some operator =>
          obtain ⟨level, width⟩ := operator
          obtain ⟨more, wide⟩ := State.operator?_eq_some found
          have inside := Context.lt_size_of_kind_ne (State.current_kind_ne more)
          have within : origin < context.tokens.size := Nat.lt_of_le_of_lt start inside
          cases enough with
          | zero =>
              simp only [State.remaining] at covered
              omega
          | succ enough =>
              have again (stack : List Pending) (left : List Element) (after : State)
                  (moved : state.position < after.position) :=
                ih enough stack left after (by omega)
                  (by simp only [State.remaining] at covered ⊢; omega)
                  (by simp only [State.remaining] at fueled ⊢; omega)
              have open_ : ({ state with slots := [] } : State).atEnd context = false := more
              simp only [State.climb, found]
              split
              · have passed := State.position_lt_take open_
                refine bind_eq (collect_eq (types _ ⟨within, Nat.lt_of_le_of_lt start passed⟩)) ?_
                rintro ⟨right, after⟩ read
                obtain ⟨inner, stepped, rfl, rfl⟩ := State.collect_eq_ok.mp read
                have forward := steady.forward type stepped
                exact again _ _ _ (Nat.lt_of_lt_of_le passed forward)
              · have passed := State.position_lt_takeMany open_ wide
                refine bind_eq (collect_eq rfl) ?_
                rintro ⟨taken, before⟩ reading
                obtain ⟨inner, stepped, rfl, rfl⟩ := State.collect_eq_ok.mp reading
                cases stepped
                refine bind_eq
                  (collect_eq (operands _ ⟨within, Nat.lt_of_le_of_lt start passed⟩)) ?_
                rintro ⟨right, after⟩ read
                obtain ⟨inner, stepped, rfl, rfl⟩ := State.collect_eq_ok.mp read
                have forward := steady.forward operand stepped
                exact again _ _ _ (Nat.lt_of_lt_of_le passed forward)

omit steady in
theorem closePrefixes_eq {last : Phrase} {last' : FueledStep}
    (lasts : ∀ state, Reached context origin check state →
      last' state = some (last.run rules context state)) (prefixes : List (List Element))
    (state : State) (reached : Reached context origin check state) :
    closePrefixes context last' prefixes state =
      some (state.closePrefixes context (last.run rules context) prefixes) := by
  cases prefixes with
  | nil => exact inFrame_eq (lasts _ (reached.atPosition rfl))
  | cons inmost outer => exact bind_eq (lasts _ (reached.atPosition rfl)) fun _ _ => rfl

/-- The loop over prefixes.  At the end there is none. -/
theorem prefixed_eq {link last : Phrase} {declines : State → Option Bool}
    {link' last' : FueledStep} (checked : (link.stirs reads []).isNone = true)
    (rests : link.rests .ended = true)
    (decides : ∀ state, Reached context origin check state →
      declines state = some (link.declines rules context state))
    (links : ∀ state, Reached context origin check state →
      link' state = some (link.run rules context state))
    (lasts : ∀ state, Reached context origin check state →
      last' state = some (last.run rules context state)) (rounds enough : Nat)
    (prefixes : List (List Element)) (state : State) (reached : Reached context origin check state)
    (covered : state.remaining context ≤ enough) (fueled : state.remaining context < rounds) :
    prefixed context declines link' last' rounds prefixes state =
      some (State.prefixed context (link.run rules context) (last.run rules context) enough
        prefixes state) := by
  induction rounds generalizing enough prefixes state with
  | zero => cases fueled
  | succ rounds ih =>
      have bare : Reached context origin check { state with slots := [] } :=
        reached.atPosition rfl
      have closed := closePrefixes_eq lasts prefixes state reached
      rw [prefixed, decided_eq (decides _ bare)]
      cases declined : link.declines rules context { state with slots := [] } with
      | true =>
          have nothing : state.collect (link.run rules context) = .ok ([], state) :=
            State.collect_eq_ok.mpr ⟨_, link.run_of_declines declined, rfl, rfl⟩
          cases enough with
          | zero => exact closed
          | succ enough =>
              have last : State.prefixed context (link.run rules context) (last.run rules context)
                  (enough + 1) prefixes state =
                    state.closePrefixes context (last.run rules context) prefixes := by
                simp [State.prefixed, nothing, bind, Except.bind]
              rw [last]
              exact closed
      | false =>
          cases enough with
          | zero =>
              have ended : ({ state with slots := [] } : State).atEnd context = true := by
                refine State.atEnd_of_size_le ?_
                simp only [State.remaining] at covered ⊢
                omega
              rw [link.declines_of_rests rests (View.fits_ended ended)] at declined
              cases declined
          | succ enough =>
              refine bind_eq (collect_eq (links _ bare)) ?_
              rintro ⟨slots, after⟩ read
              obtain ⟨inner, stepped, rfl, rfl⟩ := State.collect_eq_ok.mp read
              have moved : state.position < inner.position :=
                (steady.advances_or_declines checked stepped).resolve_right (by simp [declined])
              have kept := steady.lossless link stepped
              have inside := State.lt_size_of_advance kept moved
              have fewer := State.remaining_lt kept moved
              simp only [if_pos moved]
              exact ih enough _ _ (reached.onward inside moved)
                (by simp only [State.remaining] at covered fewer ⊢; omega)
                (by simp only [State.remaining] at fueled fewer ⊢; omega)

/-- The loop over links.  At the end no link follows. -/
theorem chain_eq {kind : NodeKind} {link last : Phrase} {more : Condition} {check' : View → Bool}
    {link' last' : FueledStep} {more' : State → Option Bool}
    (ends : (more.glimpse true .ended).isNone = true)
    (links : ∀ state, Reached context origin check state →
      link' state = some (link.run rules context state))
    (follows : ∀ state after, Reached context origin check state →
      link.run rules context state = .ok after → Reached context origin check' after)
    (decides : ∀ state, Reached context origin check' state →
      more' state = some (more.holds rules context state))
    (lasts : ∀ state, Reached context origin check' state →
      last' state = some (last.run rules context state)) (rounds enough : Nat)
    (outer : List (List Element)) (state : State) (reached : Reached context origin check state)
    (covered : state.remaining context ≤ enough) (fueled : state.remaining context < rounds) :
    chain context kind link' more' last' rounds outer state =
      some (State.chain context kind (link.run rules context) (more.holds rules context)
        (last.run rules context) enough outer state) := by
  have endless {state : State} (holds : more.holds rules context state = true) :
      state.atEnd context = false := by
    rw [Bool.eq_false_iff]
    intro ended
    have possible := (View.fits_ended ended).glimpse holds
    rw [Option.isNone_iff_eq_none.mp ends] at possible
    exact View.not_possible_none possible
  have closed (outer : List (List Element)) (base : List Element) (inner : State)
      (reached : Reached context origin check' inner) :
      closeChain context kind last' outer base inner =
        some (State.closeChain context kind (last.run rules context) outer base inner) :=
    bind_eq (lasts inner reached) fun _ _ => rfl
  induction rounds generalizing enough outer state with
  | zero => cases fueled
  | succ rounds ih =>
      have bare : Reached context origin check { state with slots := [] } :=
        reached.atPosition rfl
      cases enough with
      | zero =>
          refine bind_eq (links _ bare) ?_
          intro inner linked
          have beyond := follows _ _ bare linked
          have forward := steady.forward link linked
          have stops : more.holds rules context inner = false := by
            rw [Bool.eq_false_iff]
            intro holds
            have inside := Context.lt_size_of_kind_ne (State.current_kind_ne (endless holds))
            simp only [State.remaining] at covered forward
            omega
          rw [decided_eq (decides inner beyond), stops]
          exact closed outer state.slots inner beyond
      | succ enough =>
          refine bind_eq (links _ bare) ?_
          intro inner linked
          have beyond := follows _ _ bare linked
          have forward := steady.forward link linked
          rw [decided_eq (decides inner beyond)]
          cases holds : more.holds rules context inner with
          | false => exact closed outer state.slots inner beyond
          | true =>
              have joined := State.position_lt_take (endless holds)
              have moved : state.position < (inner.take context).position :=
                Nat.lt_of_le_of_lt forward joined
              have inside := Context.lt_size_of_kind_ne (State.current_kind_ne (endless holds))
              exact ih enough _ _ (reached.onward (Nat.lt_of_le_of_lt forward inside) moved)
                (by simp only [State.remaining] at covered forward ⊢; omega)
                (by simp only [State.remaining] at fueled forward ⊢; omega)

end Loops

end Fueled

/-! ## Phrases on fuel -/

/-- Where rules on fuel are to come to a result: beyond the token at `origin`, or there if
they rank below a bound. -/
def Callable (rank : Rule → TokenKind → Nat) (bound : TokenKind → Nat) (origin : Nat)
    (context : Context) (rule : Rule) (state : State) : Prop :=
  Beyond context origin state ∨ state.position = origin ∧
    rank rule (state.kindAt context 0) < bound (state.kindAt context 0)

/-- The rules on fuel come to what the rules come to, in trials as well, and there is
fuel for every loop. -/
structure Supplied (rank : Rule → TokenKind → Nat) (bound : TokenKind → Nat) (origin : Nat)
    (rules : Rule → Context → Step) (within : Rule → Context → FueledStep) (fuel : Nat)
    (context : Context) : Prop where
  plain : ∀ rule state, Callable rank bound origin context rule state →
    within rule context state = some (rules rule context state)
  trial : ∀ rule state, Callable rank bound origin context rule state →
    within rule context.trial state = some (rules rule context.trial state)
  enough : context.tokens.size - origin < fuel

section Phrases

variable {reads : Rule → TokenSet} {rank : Rule → TokenKind → Nat} {bound : TokenKind → Nat}
  {origin fuel : Nat} {rules : Rule → Context → Step} {within : Rule → Context → FueledStep}

theorem Supplied.ofTrial {context : Context}
    (supplied : Supplied rank bound origin rules within fuel context) :
    Supplied rank bound origin rules within fuel context.trial :=
  ⟨supplied.trial, supplied.trial, supplied.enough⟩

/-- There is fuel for a loop wherever it starts. -/
theorem Supplied.covers {context : Context}
    (supplied : Supplied rank bound origin rules within fuel context) {check : View → Bool}
    {state : State} (reached : Reached context origin check state) :
    state.remaining context < fuel := by
  have enough := supplied.enough
  have start := reached.start
  simp only [State.remaining]
  omega

theorem Reached.callable {context : Context} {rule : Rule} {state : State}
    (reached : Reached context origin
      ((Phrase.call rule).callsBelow reads rank bound) state) :
    Callable rank bound origin context rule state := by
  rcases reached with beyond | ⟨same, view, fits, checked⟩
  · exact .inl beyond
  · have below := List.all_eq_true.mp checked _ (TokenKind.mem_all (state.kindAt context 0))
    rw [fits.first] at below
    exact .inr ⟨same, by simpa using below⟩

variable (steady : Steady reads rules)

include steady

mutual

/-- A phrase on fuel comes to what the phrase comes to. -/
theorem Phrase.runWithin_eq : (phrase : Phrase) → phrase.paced reads = true →
    ∀ {context : Context}, Supplied rank bound origin rules within fuel context →
      ∀ state, Reached context origin (phrase.callsBelow reads rank bound) state →
        phrase.runWithin within fuel context state = some (phrase.run rules context state)
  | .nothing, _, _, _, _, _ | .absent, _, _, _, _, _ | .absentFirst, _, _, _, _, _
  | .dropAbsent, _, _, _, _, _ | .take, _, _, _, _, _ | .expect _, _, _, _, _, _
  | .noViable _, _, _, _, _, _ | .close _, _, _, _, _, _ => rfl
  | .require requirement, _, _, _, state, _ => by
      simp only [Phrase.runWithin, Phrase.run]
      cases requirement.violation? state.slots <;> rfl
  | .call rule, _, _, supplied, state, reached => supplied.plain rule state reached.callable
  | .seq first second, paced, context, supplied, state, reached => by
      simp only [Phrase.paced, Bool.and_eq_true] at paced
      simp only [Phrase.callsBelow] at reached
      obtain ⟨one, two⟩ := reached.both
      exact Fueled.bind_eq (Phrase.runWithin_eq first paced.1 supplied state one)
        fun after read => Phrase.runWithin_eq second paced.2 supplied after (two.next steady read)
  | .choose condition yes no, paced, context, supplied, state, reached => by
      simp only [Phrase.paced, Bool.and_eq_true] at paced
      simp only [Phrase.callsBelow] at reached
      obtain ⟨reached, whenFalse⟩ := reached.both
      obtain ⟨first, whenTrue⟩ := reached.both
      simp only [Phrase.runWithin, Phrase.run]
      rw [Fueled.decided_eq (Condition.holdsWithin_eq condition paced.1.1 supplied state first)]
      split
      · rename_i holds
        exact Phrase.runWithin_eq yes paced.1.2 supplied state (whenTrue.glimpse holds)
      · rename_i fails
        exact Phrase.runWithin_eq no paced.2 supplied state
          (whenFalse.glimpse (Bool.eq_false_iff.mpr fails))
  | .frame lead body, paced, context, supplied, state, reached =>
      Fueled.inFrame_eq (Phrase.runWithin_eq body paced supplied _ (reached.atPosition rfl))
  | .many body, paced, context, supplied, state, reached => by
      simp only [Phrase.paced, Bool.and_eq_true] at paced
      exact Fueled.loop_eq steady paced.1 (Phrase.declinesWithin_eq body paced.2 supplied)
        (Phrase.runWithin_eq body paced.2 supplied) _ _ state reached (Nat.le_refl _)
        (supplied.covers reached)
  | .whenAdvanced body next, paced, context, supplied, state, reached => by
      simp only [Phrase.paced, Bool.and_eq_true] at paced
      refine Fueled.bind_eq (Phrase.runWithin_eq body paced.1 supplied state reached) ?_
      intro after read
      split
      · rename_i moved
        have inside := State.lt_size_of_advance (steady.lossless body read) moved
        exact Phrase.runWithin_eq next paced.2 supplied after (reached.onward inside moved)
      · rfl
  | .progress body, paced, context, supplied, state, reached =>
      Fueled.progress_eq (Phrase.runWithin_eq body paced supplied _ (reached.atPosition rfl))
  | .attempt trial accept yes no, paced, context, supplied, state, reached => by
      simp only [Phrase.paced, Bool.and_eq_true] at paced
      simp only [Phrase.callsBelow] at reached
      obtain ⟨reached, otherwise⟩ := reached.both
      obtain ⟨first, second⟩ := reached.both
      have tried := Phrase.runWithin_eq trial paced.1.1.1 supplied.ofTrial state first
      have skipped := Phrase.runWithin_eq no paced.2 supplied state otherwise
      simp only [Phrase.runWithin, Phrase.run, tried]
      cases read : trial.run rules context.trial state with
      | error error => exact skipped
      | ok after =>
          have follows := Reached.trial_iff.mp ((Reached.trial_iff.mpr second).next steady read)
          obtain ⟨asked, taken⟩ := follows.both
          dsimp only
          rw [Fueled.decided_eq
            (Condition.holdsWithin_eq accept paced.1.1.2 supplied after asked)]
          split
          · rename_i holds
            exact Phrase.runWithin_eq yes paced.1.2 supplied after (taken.glimpse holds)
          · exact skipped
  | .operators operand type, paced, context, supplied, state, reached => by
      simp only [Phrase.paced, Bool.and_eq_true] at paced
      have first := Phrase.runWithin_eq operand paced.1 supplied { state with slots := [] }
        (reached.atPosition rfl)
      refine Fueled.bind_eq (Fueled.collect_eq first) ?_
      rintro ⟨left, after⟩ read
      obtain ⟨inner, stepped, rfl, rfl⟩ := State.collect_eq_ok.mp read
      have forward := steady.forward operand stepped
      have start : origin ≤ inner.position := Nat.le_trans reached.start forward
      have enough := supplied.enough
      exact Fueled.climb_eq steady
        (fun state beyond => Phrase.runWithin_eq operand paced.1 supplied state (.inl beyond))
        (fun state beyond => Phrase.runWithin_eq type paced.2 supplied state (.inl beyond))
        _ _ _ _ _ start (Nat.le_refl _) (by simp only [State.remaining]; omega)
  | .prefixed link last, paced, context, supplied, state, reached => by
      simp only [Phrase.paced, Bool.and_eq_true] at paced
      simp only [Phrase.callsBelow] at reached
      exact Fueled.prefixed_eq steady paced.1.1.1 paced.1.1.2
        (fun state reached => Phrase.declinesWithin_eq link paced.1.2 supplied state reached.both.1)
        (fun state reached => Phrase.runWithin_eq link paced.1.2 supplied state reached.both.1)
        (fun state reached => Phrase.runWithin_eq last paced.2 supplied state reached.both.2)
        _ _ _ state reached (Nat.le_refl _) (supplied.covers reached)
  | .chain kind link more last, paced, context, supplied, state, reached => by
      simp only [Phrase.paced, Bool.and_eq_true] at paced
      simp only [Phrase.callsBelow] at reached
      exact Fueled.chain_eq steady paced.1.1.1
        (fun state reached => Phrase.runWithin_eq link paced.1.1.2 supplied state reached.both.1)
        (fun state after reached read => reached.both.2.next steady read)
        (fun state reached => Condition.holdsWithin_eq more paced.1.2 supplied state reached.both.1)
        (fun state reached => Phrase.runWithin_eq last paced.2 supplied state reached.both.2)
        _ _ _ state reached (Nat.le_refl _) (supplied.covers reached)

theorem Phrase.declinesWithin_eq : (phrase : Phrase) → phrase.paced reads = true →
    ∀ {context : Context}, Supplied rank bound origin rules within fuel context →
      ∀ state, Reached context origin (phrase.callsBelow reads rank bound) state →
        phrase.declinesWithin within fuel context state =
          some (phrase.declines rules context state)
  | .nothing, _, _, _, _, _ | .absent, _, _, _, _, _ | .absentFirst, _, _, _, _, _
  | .dropAbsent, _, _, _, _, _ | .take, _, _, _, _, _ | .expect _, _, _, _, _, _
  | .noViable _, _, _, _, _, _ | .close _, _, _, _, _, _ | .require _, _, _, _, _, _
  | .call _, _, _, _, _, _ | .seq _ _, _, _, _, _, _ | .frame _ _, _, _, _, _, _
  | .many _, _, _, _, _, _ | .whenAdvanced _ _, _, _, _, _, _ | .progress _, _, _, _, _, _
  | .operators _ _, _, _, _, _, _ | .prefixed _ _, _, _, _, _, _
  | .chain _ _ _ _, _, _, _, _, _ => rfl
  | .choose condition yes no, paced, context, supplied, state, reached => by
      simp only [Phrase.paced, Bool.and_eq_true] at paced
      simp only [Phrase.callsBelow] at reached
      obtain ⟨reached, whenFalse⟩ := reached.both
      obtain ⟨first, whenTrue⟩ := reached.both
      simp only [Phrase.declinesWithin, Phrase.declines,
        Condition.holdsWithin_eq condition paced.1.1 supplied state first, Option.bind_eq_bind,
        Option.bind_some]
      split
      · rename_i holds
        exact Phrase.declinesWithin_eq yes paced.1.2 supplied state (whenTrue.glimpse holds)
      · rename_i fails
        exact Phrase.declinesWithin_eq no paced.2 supplied state
          (whenFalse.glimpse (Bool.eq_false_iff.mpr fails))
  | .attempt trial accept yes no, paced, context, supplied, state, reached => by
      simp only [Phrase.paced, Bool.and_eq_true] at paced
      simp only [Phrase.callsBelow] at reached
      obtain ⟨reached, otherwise⟩ := reached.both
      obtain ⟨first, second⟩ := reached.both
      have tried := Phrase.runWithin_eq trial paced.1.1.1 supplied.ofTrial state first
      have skipped := Phrase.declinesWithin_eq no paced.2 supplied state otherwise
      simp only [Phrase.declinesWithin, Phrase.declines, tried]
      cases read : trial.run rules context.trial state with
      | error error => exact skipped
      | ok after =>
          have follows := Reached.trial_iff.mp ((Reached.trial_iff.mpr second).next steady read)
          simp only [Condition.holdsWithin_eq accept paced.1.1.2 supplied after follows.both.1,
            Option.bind_eq_bind, Option.bind_some]
          cases accept.holds rules context after with
          | true => rfl
          | false => simpa using skipped

/-- A condition is decided on fuel as it is decided without. -/
theorem Condition.holdsWithin_eq : (condition : Condition) → condition.paced reads = true →
    ∀ {context : Context}, Supplied rank bound origin rules within fuel context →
      ∀ state, Reached context origin (condition.callsBelow reads rank bound) state →
        condition.holdsWithin within fuel context state =
          some (condition.holds rules context state)
  | .next _ _, _, _, _, _, _ | .shape _, _, _, _, _, _ => rfl
  | .not condition, paced, context, supplied, state, reached => by
      simp only [Condition.holdsWithin,
        Condition.holdsWithin_eq condition paced supplied state reached]
      rfl
  | .and left right, paced, context, supplied, state, reached => by
      simp only [Condition.paced, Bool.and_eq_true] at paced
      simp only [Condition.callsBelow] at reached
      obtain ⟨first, second⟩ := reached.both
      simp only [Condition.holdsWithin, Condition.holds,
        Condition.holdsWithin_eq left paced.1 supplied state first, Option.bind_eq_bind,
        Option.bind_some]
      cases holds : left.holds rules context state with
      | false => rfl
      | true => exact Condition.holdsWithin_eq right paced.2 supplied state (second.glimpse holds)
  | .or left right, paced, context, supplied, state, reached => by
      simp only [Condition.paced, Bool.and_eq_true] at paced
      simp only [Condition.callsBelow] at reached
      obtain ⟨first, second⟩ := reached.both
      simp only [Condition.holdsWithin, Condition.holds,
        Condition.holdsWithin_eq left paced.1 supplied state first, Option.bind_eq_bind,
        Option.bind_some]
      cases holds : left.holds rules context state with
      | true => rfl
      | false => exact Condition.holdsWithin_eq right paced.2 supplied state (second.glimpse holds)
  | .ahead trial afterwards, paced, context, supplied, state, reached => by
      simp only [Condition.paced, Bool.and_eq_true] at paced
      simp only [Condition.callsBelow] at reached
      obtain ⟨first, second⟩ := reached.both
      have tried := Phrase.runWithin_eq trial paced.1 supplied.ofTrial state first
      simp only [Condition.holdsWithin, Condition.holds, tried]
      cases read : trial.run rules context.trial state with
      | error error => rfl
      | ok after =>
          exact Condition.holdsWithin_eq afterwards paced.2 supplied.ofTrial after
            (second.next steady read)

end

end Phrases

end JavaSyntax
