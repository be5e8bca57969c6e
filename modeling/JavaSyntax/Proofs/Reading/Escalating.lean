import JavaSyntax.Proofs.Reading.Limit

/-!
# Trials that meet the limit

A trial that nests too deeply is refused like any other that does not fit, and the reading
goes on without a trace of it.  Here is the same reading with the trace: when a trial meets
the limit, or a trial inside it does, the whole reading is given up.

So a reading that is not given up here met the limit nowhere, neither in a trial nor in what
is read for good.  Then it is the same with more levels.
-/

namespace JavaSyntax

/-- Go on after a trial by whether it fits; one that nests too deeply ends the reading. -/
def afterTrial {α β : Type} (trial : Except SyntaxError α) (fits : α → Except SyntaxError β)
    (otherwise : Except SyntaxError β) : Except SyntaxError β :=
  match trial with
  | .ok result => fits result
  | .error error => if error.isFatal then .error error else otherwise

/-- Read links, each inside the one before, until `more` does not hold, where finding that
out may end the reading. -/
def State.chainDeciding (context : Context) (kind : NodeKind) (link : Step)
    (more : State → Except SyntaxError Bool) (last : Step) : Nat → List (List Element) → Step
  | 0, outer, state => do
      closeChain context kind last outer state.slots (← link { state with slots := [] })
  | rounds + 1, outer, state => do
      let inner ← link { state with slots := [] }
      if ← more inner then
        let joined := inner.take context
        chainDeciding context kind link more last rounds (joined.gathered :: outer)
          { joined with slots := state.slots }
      else closeChain context kind last outer state.slots inner

mutual

/-- Read a phrase; a trial that nests too deeply ends the reading. -/
def Phrase.runEscalating (rules : Rule → Context → Step) : Phrase → Context → Step
  | .seq first second => fun context state => do
      second.runEscalating rules context (← first.runEscalating rules context state)
  | .choose condition yes no => fun context state => do
      if ← condition.decideEscalating rules context state then
        yes.runEscalating rules context state
      else no.runEscalating rules context state
  | .frame lead body => fun context state =>
      state.inFrame lead (body.runEscalating rules context)
  | .many body => fun context state =>
      State.iterate (body.runEscalating rules context) (state.remaining context) state
  | .whenAdvanced body next => fun context state => do
      let after ← body.runEscalating rules context state
      if state.position < after.position then next.runEscalating rules context after
      else return after
  | .progress body => fun context state =>
      state.progress context (body.runEscalating rules context)
  | .attempt trial accept yes no => fun context state =>
      let skipped := no.runEscalating rules context state
      afterTrial (trial.runEscalating rules context.trial state)
        (fun after => do
          if ← accept.decideEscalating rules context after then
            yes.runEscalating rules context after
          else skipped)
        skipped
  | .operators operand type => fun context =>
      State.operators context (operand.runEscalating rules context)
        (type.runEscalating rules context)
  | .prefixed link last => fun context state =>
      state.prefixed context (link.runEscalating rules context)
        (last.runEscalating rules context) (state.remaining context) []
  | .chain kind link more last => fun context state =>
      state.chainDeciding context kind (link.runEscalating rules context)
        (more.decideEscalating rules context) (last.runEscalating rules context)
        (state.remaining context) []
  | phrase => phrase.run rules

/-- Whether a condition holds; a trial that nests too deeply ends the reading. -/
def Condition.decideEscalating (rules : Rule → Context → Step) :
    Condition → Context → State → Except SyntaxError Bool
  | .not condition => fun context state => do
      if ← condition.decideEscalating rules context state then return false
      else return true
  | .and left right => fun context state => do
      if ← left.decideEscalating rules context state then
        right.decideEscalating rules context state
      else return false
  | .or left right => fun context state => do
      if ← left.decideEscalating rules context state then return true
      else right.decideEscalating rules context state
  | .ahead trial afterwards => fun context state =>
      afterTrial (trial.runEscalating rules context.trial state)
        (afterwards.decideEscalating rules context.trial) (.ok false)
  | condition => fun context state => .ok (condition.holds rules context state)

end

/-- Read a rule of a grammar with so many nesting levels left, where the reading is given up
as soon as a trial has none left. -/
def readRuleEscalating (grammar : Rule → Phrase) : Nat → Rule → Context → Step
  | 0, _ => fun context state => .error (state.tooDeep context)
  | depth + 1, rule => (grammar rule).runEscalating (readRuleEscalating grammar depth)

/-! ## More levels -/

theorem settled (decided : Bool) : Retained (.ok decided) (.ok decided) :=
  fun _ => rfl

/-- What is read after a decision is kept, if the decision is. -/
theorem retained_decide {α : Type} {decided : Bool} {deciding : Except SyntaxError Bool}
    {yes yes' no no' : Except SyntaxError α} (decides : Retained (.ok decided) deciding)
    (whenTrue : Retained yes yes') (whenFalse : Retained no no') :
    Retained (if decided then yes else no) (do if ← deciding then yes' else no') := by
  intro kept
  cases deciding with
  | error error => cases decides kept
  | ok found =>
      obtain rfl := Except.ok.inj (decides rfl)
      cases decided with
      | true => exact whenTrue kept
      | false => exact whenFalse kept

/-- What is read after a trial is kept, if the trial is. -/
theorem retained_afterTrial {α β : Type} {more fewer : Except SyntaxError α}
    {fits fits' : α → Except SyntaxError β} {otherwise otherwise' : Except SyntaxError β} :
    Retained more fewer → (∀ result, Retained (fits result) (fits' result)) →
    Retained otherwise otherwise' →
    Retained
      (match more with
        | .ok result => fits result
        | .error _ => otherwise)
      (afterTrial fewer fits' otherwise') := by
  intro trial whenFits whenNot kept
  cases fewer with
  | ok result =>
      rw [trial rfl]
      exact whenFits result kept
  | error error =>
      cases fatal : error.isFatal with
      | true =>
          simp only [afterTrial, fatal, if_true, givenUp] at kept
          cases kept
      | false =>
          simp only [afterTrial, fatal, Bool.false_eq_true, if_false] at kept ⊢
          rw [trial fatal]
          exact whenNot kept

/-- A chain is the same with more levels: whether it goes on is found out alike. -/
theorem chainDeciding_keeps (context : Context) (larger : Nat) (kind : NodeKind)
    {leftLink rightLink left right : Step} {more : State → Bool}
    {more' : State → Except SyntaxError Bool}
    (links : keeping.Relates leftLink rightLink)
    (decides : ∀ state, Retained (.ok (more state)) (more' state))
    (lasts : keeping.Relates left right) (rounds : Nat) (outer : List (List Element)) :
    keeping.Relates
      (State.chain (context.held larger) kind leftLink more left rounds outer)
      (State.chainDeciding context kind rightLink more' right rounds outer) := by
  have ends (outer : List (List Element)) (base : List Element) :=
    keeping.closeChain context larger context.recovery kind lasts outer base
  induction rounds generalizing outer with
  | zero =>
      intro state
      exact keeping.bind (links { state with slots := [] }) fun inner =>
        ends outer state.slots inner
  | succ rounds ih =>
      intro state
      refine keeping.bind (links { state with slots := [] }) fun inner => ?_
      exact retained_decide (decides inner)
        (ih _ { inner.take context with slots := state.slots }) (ends outer state.slots inner)

/-- Rules whose readings are kept, in trials as well as outside of them. -/
def RulesKept (larger : Nat) (rules rules' : Rule → Context → Step) : Prop :=
  ∀ rule context, keeping.Relates (rules rule (context.held larger)) (rules' rule context)

section Rules

variable {rules rules' : Rule → Context → Step} {larger : Nat}

mutual

/-- A reading that is not given up, be it because of a trial, is the same with more levels for
the rules that it calls. -/
theorem Phrase.runEscalating_keeps (keeps : RulesKept larger rules rules') :
    (phrase : Phrase) → (context : Context) →
    keeping.Relates (phrase.run rules (context.held larger)) (phrase.runEscalating rules' context)
  | .nothing, _ | .absent, _ | .absentFirst, _ | .dropAbsent, _ | .take, _ | .expect _, _
  | .noViable _, _ | .require _, _ | .close _, _ => fun _ _ => rfl
  | .call rule, context => keeps rule context
  | .seq first second, context => fun state =>
      keeping.bind (first.runEscalating_keeps keeps context state)
        (second.runEscalating_keeps keeps context)
  | .choose condition yes no, context => fun state =>
      retained_decide (condition.decideEscalating_keeps keeps context state)
        (yes.runEscalating_keeps keeps context state) (no.runEscalating_keeps keeps context state)
  | .frame lead body, context => keeping.inFrame lead (body.runEscalating_keeps keeps context)
  | .many body, context => fun state =>
      keeping.iterate (body.runEscalating_keeps keeps context) _ state
  | .whenAdvanced body next, context => fun state =>
      keeping.bind (body.runEscalating_keeps keeps context state) fun after =>
        keeping.ite Iff.rfl (fun _ => next.runEscalating_keeps keeps context after) (fun _ _ => rfl)
  | .progress body, context =>
      keeping.progress context larger context.recovery (body.runEscalating_keeps keeps context)
  | .attempt trial accept yes no, context => fun state => by
      have tried := trial.runEscalating_keeps keeps context.trial state
      have skipped := no.runEscalating_keeps keeps context state
      have trials : (context.held larger).trial = context.trial.held larger := rfl
      simp only [Phrase.run, Phrase.runEscalating, trials]
      generalize trial.run rules (context.trial.held larger) state = more at tried ⊢
      cases more <;>
        exact retained_afterTrial tried (fun after =>
          retained_decide (accept.decideEscalating_keeps keeps context after)
            (yes.runEscalating_keeps keeps context after) skipped) skipped
  | .operators operand type, context =>
      keeping.operators context larger context.recovery (operand.runEscalating_keeps keeps context)
        (type.runEscalating_keeps keeps context)
  | .prefixed link last, context => fun state =>
      keeping.prefixed context larger context.recovery (link.runEscalating_keeps keeps context)
        (last.runEscalating_keeps keeps context) _ _ state
  | .chain kind link more last, context => fun state =>
      chainDeciding_keeps context larger kind (link.runEscalating_keeps keeps context)
        (more.decideEscalating_keeps keeps context) (last.runEscalating_keeps keeps context)
        _ _ state

theorem Condition.decideEscalating_keeps (keeps : RulesKept larger rules rules') :
    (condition : Condition) → (context : Context) → (state : State) →
    Retained (.ok (condition.holds rules (context.held larger) state))
      (condition.decideEscalating rules' context state)
  | .next _ _, _, _ | .shape _, _, _ => fun _ => rfl
  | .not condition, context, state => by
      have decides := condition.decideEscalating_keeps keeps context state
      simp only [Condition.holds]
      generalize condition.holds rules (context.held larger) state = decided at decides ⊢
      cases decided <;> exact retained_decide decides (settled false) (settled true)
  | .and left right, context, state => by
      have decides := left.decideEscalating_keeps keeps context state
      have further := right.decideEscalating_keeps keeps context state
      simp only [Condition.holds]
      generalize left.holds rules (context.held larger) state = decided at decides ⊢
      cases decided <;> exact retained_decide decides further (settled false)
  | .or left right, context, state => by
      have decides := left.decideEscalating_keeps keeps context state
      have further := right.decideEscalating_keeps keeps context state
      simp only [Condition.holds]
      generalize left.holds rules (context.held larger) state = decided at decides ⊢
      cases decided <;> exact retained_decide decides (settled true) further
  | .ahead trial afterwards, context, state => by
      have tried := trial.runEscalating_keeps keeps context.trial state
      have trials : (context.held larger).trial = context.trial.held larger := rfl
      simp only [Condition.holds, trials]
      generalize trial.run rules (context.trial.held larger) state = more at tried ⊢
      cases more <;>
        exact retained_afterTrial tried (afterwards.decideEscalating_keeps keeps context.trial)
          (settled false)

end

end Rules

/-- A rule that is not given up is read alike with more levels. -/
theorem readRuleEscalating_keeps (grammar : Rule → Phrase) (larger extra depth : Nat) :
    RulesKept larger (readRule grammar (depth + extra)) (readRuleEscalating grammar depth) := by
  induction depth with
  | zero =>
      intro rule context state kept
      cases kept
  | succ depth ih =>
      intro rule context
      rw [Nat.add_right_comm]
      exact (grammar rule).runEscalating_keeps ih context

end JavaSyntax
