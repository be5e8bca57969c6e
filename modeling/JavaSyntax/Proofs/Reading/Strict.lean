import JavaSyntax.Proofs.Lists
import JavaSyntax.Proofs.Reading.Compare
import JavaSyntax.Proofs.Reading.Moves

/-!
# Reading with and without recovery

A phrase can be read with recovery or as a trial, which ends at its first error.
The two readings share every step up to that error: where the trial succeeds the
other reading does the same, and where it fails the other reading either has
recorded the same error first, or is given up because it nests too deeply.

The comparison is one of results, so that it composes along the steps of a
reading: `Shadow` relates what a trial and a reading with recovery return.
-/

namespace JavaSyntax

/-- The result of a trial and the result of the same reading with recovery, which start
with the errors `start`. -/
structure Shadow {α : Type} (errors : α → List SyntaxError) (start : List SyntaxError)
    (strict lenient : Except SyntaxError α) : Prop where
  agrees : ∀ result, strict = .ok result → lenient = .ok result
  quiet : ∀ result, strict = .ok result → errors result = start
  grows : ∀ result, lenient = .ok result → start <:+ errors result
  fatal : ∀ error, lenient = .error error → error.isFatal = true
  first : ∀ error result, start = [] → strict = .error error → lenient = .ok result →
    (errors result).getLast? = some error

namespace Shadow

variable {α β : Type} {errors : α → List SyntaxError} {errors' : β → List SyntaxError}
  {start : List SyntaxError}

/-- A success that records nothing is the same in both readings. -/
theorem ok {result : α} (same : errors result = start) :
    Shadow errors start (.ok result) (.ok result) where
  agrees := fun _ success => success
  quiet := by
    intro _ success
    cases success
    exact same
  grows := by
    intro _ success
    cases success
    exact ⟨[], same.symm⟩
  fatal := by
    intro _ failure
    cases failure
  first := by
    intro _ _ _ failure _
    cases failure

/-- A fatal error ends both readings. -/
theorem error {error : SyntaxError} (fatal : error.isFatal = true) :
    Shadow errors start (.error error) (.error error) where
  agrees := by
    intro _ success
    cases success
  quiet := by
    intro _ success
    cases success
  grows := by
    intro _ success
    cases success
  fatal := by
    intro _ failure
    cases failure
    exact fatal
  first := by
    intro _ _ _ _ success
    cases success

/-- Shadows compose: after the first error of the trial, the other reading can only
record more errors or be given up. -/
theorem bind {strict lenient : Except SyntaxError α} {next next' : α → Except SyntaxError β}
    (head : Shadow errors start strict lenient)
    (tail : ∀ value, Shadow errors' (errors value) (next value) (next' value)) :
    Shadow errors' start (strict >>= next) (lenient >>= next') where
  agrees := by
    intro result success
    obtain ⟨value, started, ended⟩ := bind_eq_ok.mp success
    exact bind_eq_ok.mpr ⟨value, head.agrees _ started, (tail value).agrees _ ended⟩
  quiet := by
    intro result success
    obtain ⟨value, started, ended⟩ := bind_eq_ok.mp success
    exact ((tail value).quiet _ ended).trans (head.quiet _ started)
  grows := by
    intro result success
    obtain ⟨value, started, ended⟩ := bind_eq_ok.mp success
    exact (head.grows _ started).trans ((tail value).grows _ ended)
  fatal := by
    intro error failure
    cases started : lenient with
    | error earlier =>
        rw [started] at failure
        cases failure
        exact head.fatal _ started
    | ok value =>
        rw [started] at failure
        exact (tail value).fatal _ failure
  first := by
    intro error result none failure success
    obtain ⟨value, started, ended⟩ := bind_eq_ok.mp success
    cases tried : strict with
    | error earlier =>
        rw [tried] at failure
        cases failure
        exact getLast?_of_suffix ((tail value).grows _ ended) (head.first _ _ none tried started)
    | ok other =>
        rw [tried] at failure
        obtain rfl : value = other := by
          have same := (head.agrees _ tried).symm.trans started
          cases same
          rfl
        exact (tail value).first _ _ ((head.quiet _ tried).trans none) failure ended

end Shadow

/-- Shadows are a comparison of results. -/
@[reducible] def shadowing : Comparison where
  Holds := Shadow
  ok := Shadow.ok
  bind := Shadow.bind

/-- Two steps that are shadows of each other from every state. -/
abbrev Shadowed (strict lenient : Step) : Prop :=
  shadowing.Relates strict lenient

namespace State

section Recovery

variable {context : Context} (recovers : context.recovery = true)

include recovers

/-- A trial hands the error back; with recovery it is recorded, unless it follows from
one that is. -/
theorem report_shadowed (error : SyntaxError) :
    Shadowed (fun state => state.report context.trial error)
      (fun state => state.report context error) := by
  intro state
  change Shadow errors state.errors (state.report context.trial error)
    (state.report context error)
  have tried : state.report context.trial error = .error error := by
    simp [report, Context.trial]
  rw [tried]
  cases recorded : state.report context error with
  | error other =>
      simp only [report, recovers, if_true] at recorded
      split at recorded
      · split at recorded <;> cases recorded
      · cases recorded
  | ok after =>
      constructor
      case agrees | quiet =>
        intro result success
        cases success
      case fatal =>
        intro other failure
        cases failure
      case grows =>
        intro result success
        cases success
        simp only [report, recovers, if_true] at recorded
        split at recorded
        · split at recorded
          · cases recorded
            exact List.suffix_refl _
          · cases recorded
            exact List.suffix_cons _ _
        · rename_i none
          cases recorded
          rw [none]
          exact List.nil_suffix
      case first =>
        intro first result none failure success
        cases failure
        cases success
        simp only [report, recovers, if_true, none] at recorded
        cases recorded
        rfl

theorem expect_shadowed (kind : TokenKind) :
    Shadowed (fun state => state.expect context.trial kind)
      (fun state => state.expect context kind) := by
  intro state
  simp only [expect]
  refine shadowing.ite Iff.rfl ?_ ?_
  · intro _
    exact .ok (errors_take context state)
  · intro _
    refine shadowing.bind (report_shadowed recovers _ state) ?_
    intro reported
    refine shadowing.ite Iff.rfl ?_ ?_
    · intro _
      exact .ok (by simp)
    · intro _
      exact .ok rfl

theorem noViable_shadowed (construct : Construct) :
    Shadowed (fun state => state.noViable context.trial construct)
      (fun state => state.noViable context construct) := by
  intro state
  have same : state.current context.trial = state.current context := rfl
  simp only [noViable, same]
  refine shadowing.bind (report_shadowed recovers _ state) ?_
  intro reported
  refine shadowing.inFrame 0 ?_ reported
  intro inner
  refine shadowing.ite Iff.rfl ?_ ?_
  · intro _
    exact .ok rfl
  · intro _
    exact .ok (errors_take context inner)

end Recovery

end State

/-- A condition is told by the tokens and slots, and by trials, so it holds in a trial
just as it does outside. -/
theorem Condition.holds_trial (rules : Rule → Context → Step) (condition : Condition)
    (context : Context) (state : State) :
    condition.holds rules context.trial state = condition.holds rules context state := by
  cases condition with
  | next distance kinds => rfl
  | shape shape => rfl
  | not condition => exact congrArg (!·) (condition.holds_trial rules context state)
  | and left right =>
      simp only [holds, left.holds_trial rules context state,
        right.holds_trial rules context state]
  | or left right =>
      simp only [holds, left.holds_trial rules context state,
        right.holds_trial rules context state]
  | ahead trial afterwards => rfl

/-- A trial of a phrase shadows its reading with recovery, if the rules it calls do. -/
theorem Phrase.run_shadowed {rules : Rule → Context → Step} {context : Context}
    (recovers : context.recovery = true)
    (rulesShadow : ∀ rule, Shadowed (rules rule context.trial) (rules rule context)) :
    (phrase : Phrase) → Shadowed (phrase.run rules context.trial) (phrase.run rules context)
  | .nothing => fun _ => .ok rfl
  | .absent => fun _ => .ok rfl
  | .absentFirst => fun _ => .ok rfl
  | .dropAbsent => fun state => .ok (by
      unfold State.dropAbsent
      split <;> rfl)
  | .take => fun state => .ok (State.errors_take context state)
  | .expect kind => State.expect_shadowed recovers kind
  | .noViable construct => State.noViable_shadowed recovers construct
  | .require requirement => fun state => by
      simp only [Phrase.run]
      split
      · exact State.report_shadowed recovers _ state
      · exact .ok rfl
  | .call rule => rulesShadow rule
  | .seq first second => fun state =>
      shadowing.bind (first.run_shadowed recovers rulesShadow state)
        (second.run_shadowed recovers rulesShadow)
  | .choose condition yes no => fun state => by
      refine shadowing.ite ?_ (fun _ => yes.run_shadowed recovers rulesShadow state)
        (fun _ => no.run_shadowed recovers rulesShadow state)
      rw [Condition.holds_trial]
  | .frame lead body => shadowing.inFrame lead (body.run_shadowed recovers rulesShadow)
  | .close kind => fun _ => .ok rfl
  | .many body => fun state =>
      shadowing.iterate (body.run_shadowed recovers rulesShadow) _ state
  | .whenAdvanced body next => fun state =>
      shadowing.bind (body.run_shadowed recovers rulesShadow state) fun after =>
        shadowing.ite Iff.rfl (fun _ => next.run_shadowed recovers rulesShadow after)
          (fun _ => .ok rfl)
  | .progress body =>
      shadowing.progress context context.limit false (body.run_shadowed recovers rulesShadow)
  | .attempt trial accept yes no => fun state => by
      have skipped := no.run_shadowed recovers rulesShadow state
      simp only [Phrase.run, show context.trial.trial = context.trial from rfl,
        Condition.holds_trial]
      cases tried : trial.run rules context.trial state with
      | error _ => exact skipped
      | ok after =>
          have quiet := (trial.run_shadowed recovers rulesShadow state).quiet after tried
          have taken := yes.run_shadowed recovers rulesShadow after
          rw [quiet] at taken
          exact shadowing.ite Iff.rfl (fun _ => taken) (fun _ => skipped)
  | .operators operand type =>
      shadowing.operators context context.limit false
        (operand.run_shadowed recovers rulesShadow) (type.run_shadowed recovers rulesShadow)
  | .prefixed link last => fun state =>
      shadowing.prefixed context context.limit false (link.run_shadowed recovers rulesShadow)
        (last.run_shadowed recovers rulesShadow) _ _ state
  | .chain kind link more last => fun state => by
      simp only [Phrase.run, funext (more.holds_trial rules context)]
      exact shadowing.chain context context.limit false kind _
        (link.run_shadowed recovers rulesShadow) (last.run_shadowed recovers rulesShadow) _ _ state

theorem readRule_shadowed (grammar : Rule → Phrase) {context : Context}
    (recovers : context.recovery = true) (depth : Nat) (rule : Rule) :
    Shadowed (readRule grammar depth rule context.trial) (readRule grammar depth rule context) := by
  induction depth generalizing rule with
  | zero => exact fun _ => .error rfl
  | succ depth ih => exact (grammar rule).run_shadowed recovers ih

end JavaSyntax
