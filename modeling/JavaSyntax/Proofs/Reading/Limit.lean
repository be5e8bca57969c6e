import JavaSyntax.Proofs.Reading.Compare

/-!
# Committed readings and their trials

The nesting limit holds for two things: for what is read for good, and for the trials
that tell what to read.  Here the two are taken apart: trials are held to a limit of
their own, which may be smaller than that of the reading they decide for.

A larger limit for what is read for good changes nothing, as long as the trials are held
to the smaller one: a reading that was not given up is kept as it is.
-/

namespace JavaSyntax

/-- The context of trials that are held to a limit. -/
def Context.held (context : Context) (limit : Nat) : Context :=
  context.under limit context.recovery

/-- Read a phrase whose trials are held to a limit.  The rules called in trials are read by
`trials`, those called outside them by `rules`. -/
def Phrase.runHeld (limit : Nat) (trials rules : Rule → Context → Step) :
    Phrase → Context → Step
  | .seq first second => fun context state => do
      second.runHeld limit trials rules context
        (← first.runHeld limit trials rules context state)
  | .choose condition yes no => fun context state =>
      if condition.holds trials (context.held limit) state then
        yes.runHeld limit trials rules context state
      else no.runHeld limit trials rules context state
  | .frame lead body => fun context state =>
      state.inFrame lead (body.runHeld limit trials rules context)
  | .many body => fun context state =>
      State.iterate (body.runHeld limit trials rules context) (state.remaining context) state
  | .whenAdvanced body next => fun context state => do
      let after ← body.runHeld limit trials rules context state
      if state.position < after.position then next.runHeld limit trials rules context after
      else return after
  | .progress body => fun context state =>
      state.progress context (body.runHeld limit trials rules context)
  | .attempt trial accept yes no => fun context state =>
      match trial.run trials (context.held limit).trial state with
      | .ok after =>
          if accept.holds trials (context.held limit) after then
            yes.runHeld limit trials rules context after
          else no.runHeld limit trials rules context state
      | .error _ => no.runHeld limit trials rules context state
  | .operators operand type => fun context =>
      State.operators context (operand.runHeld limit trials rules context)
        (type.runHeld limit trials rules context)
  | .prefixed link last => fun context state =>
      state.prefixed context (link.runHeld limit trials rules context)
        (last.runHeld limit trials rules context) (state.remaining context) []
  | .chain kind link more last => fun context state =>
      state.chain context kind (link.runHeld limit trials rules context)
        (more.holds trials (context.held limit)) (last.runHeld limit trials rules context)
        (state.remaining context) []
  | phrase => phrase.run rules

/-- Read a rule of a grammar with so many nesting levels left, and `fewer` levels less in
trials, which are held to a limit. -/
def readRuleHeld (grammar : Rule → Phrase) (limit fewer : Nat) : Nat → Rule → Context → Step
  | 0, _ => fun context state => .error (state.tooDeep context)
  | depth + 1, rule =>
      (grammar rule).runHeld limit (readRule grammar (depth - fewer))
        (readRuleHeld grammar limit fewer depth)

/-- Whether a reading was given up because it nests too deeply. -/
def givenUp {α : Type} : Except SyntaxError α → Bool
  | .ok _ => false
  | .error error => error.isFatal

/-- With more levels, a reading that was not given up comes to the same. -/
abbrev Retained {α : Type} (more fewer : Except SyntaxError α) : Prop :=
  givenUp fewer = false → more = fewer

/-- Readings are retained along their steps. -/
@[reducible] def keeping : Comparison where
  Holds _ _ more fewer := Retained more fewer
  ok _ _ := rfl
  bind := by
    intro _ _ _ _ _ more fewer _ _ head tail kept
    cases fewer with
    | error error =>
        rw [head kept]
        rfl
    | ok value =>
        rw [head rfl]
        exact tail value kept

section Held

variable {trials rules : Rule → Context → Step} {context : Context} {larger : Nat}
  (keeps : ∀ rule,
    keeping.Relates (rules rule (context.held larger)) (trials rule context))

include keeps

/-- A larger limit for the rules that a phrase calls outside its trials keeps its reading:
held to the smaller limit, the trials come to the same decisions. -/
theorem Phrase.runHeld_keeps : (phrase : Phrase) →
    keeping.Relates (phrase.runHeld context.limit trials rules (context.held larger))
      (phrase.run trials context)
  | .nothing => fun _ _ => rfl
  | .absent => fun _ _ => rfl
  | .absentFirst => fun _ _ => rfl
  | .dropAbsent => fun _ _ => rfl
  | .take => fun _ _ => rfl
  | .expect _ => fun _ _ => rfl
  | .noViable _ => fun _ _ => rfl
  | .require _ => fun _ _ => rfl
  | .close _ => fun _ _ => rfl
  | .call rule => keeps rule
  | .seq first second => fun state =>
      keeping.bind (first.runHeld_keeps state) second.runHeld_keeps
  | .choose condition yes no => fun state =>
      keeping.ite Iff.rfl (fun _ => yes.runHeld_keeps state) (fun _ => no.runHeld_keeps state)
  | .frame lead body => keeping.inFrame lead body.runHeld_keeps
  | .many body => fun state => keeping.iterate body.runHeld_keeps _ state
  | .whenAdvanced body next => fun state =>
      keeping.bind (body.runHeld_keeps state) fun after =>
        keeping.ite Iff.rfl (fun _ => next.runHeld_keeps after) (fun _ _ => rfl)
  | .progress body => keeping.progress context larger context.recovery body.runHeld_keeps
  | .attempt trial accept yes no => fun state => by
      have same : (context.held larger).held context.limit = context := rfl
      simp only [Phrase.run, Phrase.runHeld, same]
      cases trial.run trials context.trial state with
      | error _ => exact no.runHeld_keeps state
      | ok after =>
          exact keeping.ite Iff.rfl (fun _ => yes.runHeld_keeps after)
            (fun _ => no.runHeld_keeps state)
  | .operators operand type =>
      keeping.operators context larger context.recovery operand.runHeld_keeps type.runHeld_keeps
  | .prefixed link last => fun state =>
      keeping.prefixed context larger context.recovery link.runHeld_keeps last.runHeld_keeps
        _ _ state
  | .chain kind link more last => fun state =>
      keeping.chain context larger context.recovery kind (more.holds trials context)
        link.runHeld_keeps last.runHeld_keeps _ _ state

end Held

/-- A rule that is not given up is read alike with more levels, when trials are held to the
smaller limit. -/
theorem readRuleHeld_keeps (grammar : Rule → Phrase) (context : Context) (larger extra : Nat)
    (depth : Nat) (rule : Rule) :
    keeping.Relates
      (readRuleHeld grammar context.limit extra (depth + extra) rule (context.held larger))
      (readRule grammar depth rule context) := by
  induction depth generalizing rule with
  | zero =>
      intro state kept
      cases kept
  | succ depth ih =>
      rw [Nat.add_right_comm, readRuleHeld, Nat.add_sub_cancel]
      exact (grammar rule).runHeld_keeps ih

end JavaSyntax
