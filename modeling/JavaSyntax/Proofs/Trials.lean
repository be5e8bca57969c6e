import JavaSyntax.Proofs.Machine.Calls

/-!
# Trials

Whether an alternative fits is often found out by reading it, and then all of it is read over.
So a trial must change nothing that is seen later, and what it finds must be what the second
reading finds.  Both are said here of the machine, where the cursor, the errors and the two
counters are changed in place and put back by hand.
-/

namespace JavaSyntax

open Machine

theorem Machine.Mirrors.refl (machine : Machine) (slots : List Element) :
    Mirrors machine.trials machine.depth slots machine (machine.toState slots) :=
  ⟨rfl, rfl, rfl, rfl, fun _ => rfl⟩

/-- On any machine a phrase of the language keeps track of what is read with the nesting that
is left. -/
theorem Machine.drive_tracks (phrase : Phrase) (context : Context) (slots : List Element)
    (machine : Machine) :
    Tracks (Mirrors machine.trials machine.depth) machine
      (exec (Language.drive phrase context slots) machine)
      (phrase.run (readRule Language.grammar (context.limit - machine.depth))
        (context.during machine.trials) (machine.toState slots)) :=
  Language.drive_follows phrase context machine.trials machine.depth slots machine _
    (.refl machine slots)

/-- No error is recorded without recovery. -/
theorem Phrase.errors_of_run_trial {context : Context} {phrase : Phrase} {depth : Nat}
    {state after : State}
    (ran : phrase.run (readRule Language.grammar depth) context.trial state = .ok after) :
    after.errors = state.errors :=
  (phrase.run_shadowed context.recovery_recovering
    (readRule_shadowed Language.grammar context.recovery_recovering depth) state).quiet after ran

/-- A machine reads a phrase as the phrase is read with the nesting that is left, and with
recovery only outside of trials. -/
theorem Machine.exec_drive (phrase : Phrase) (context : Context) (slots : List Element)
    (machine : Machine) :
    let outcome := exec (Language.drive phrase context slots) machine
    phrase.run (readRule Language.grammar (context.limit - machine.depth))
      (context.during machine.trials) (machine.toState slots) =
        outcome.1.map outcome.2.toState := by
  obtain ⟨read, after, state, ran, came, kept, later⟩ | ⟨error, after, ran, came, kept⟩ :=
    (drive_tracks phrase context slots machine).cases
  · rw [ran, came]
    have errors : state.errors = after.errors := by
      cases trials : machine.trials with
      | zero => exact later.errors trials
      | succ trials =>
          rw [trials, Context.during_succ] at came
          exact (Phrase.errors_of_run_trial came).trans (kept.quiet (by omega)).symm
    exact congrArg Except.ok (later.state_eq.trans (by rw [errors]; rfl))
  · rw [ran, came]
    rfl

/-- Trials leave no trace.  Whatever becomes of a phrase, the counters are as before it, and in
a trial the errors are; a trial that fails changes nothing, one that fits only moves the cursor,
and looking ahead changes nothing.  After any calls of a session the counters are zero and no
errors are left, and the next call gives what it gives without a machine. -/
theorem Machine.traceless :
    (∀ (context : Context) (phrase : Phrase) (slots : List Element) (machine : Machine),
      let after := (exec (Language.drive phrase context slots) machine).2
      after.depth = machine.depth ∧ after.trials = machine.trials ∧
        (machine.trials = 0 ∨ after.errors = machine.errors)) ∧
    (∀ (context : Context) (trial : Phrase) (slots : List Element) (machine : Machine),
      match (speculate (Language.drive trial context slots)).run machine with
      | (none, after) => after = machine
      | (some _, after) => after = { machine with position := after.position }) ∧
    (∀ (context : Context) (trial : Phrase) (afterwards : Condition) (slots : List Element)
        (machine : Machine),
      let rules := driveRule Language.grammar context.limit
      let ahead := lookahead do
        let read ← Language.drive trial context slots
        afterwards.check rules context read
      (ahead.run machine).2 = machine) ∧
    ∀ (tokens : List Token) (config : Config) (calls : List Entry),
      let context := Context.ofTokens tokens config
      let session := (Session.start tokens config).after calls
      after context start calls = ⟨session.position, [], 0, 0⟩ ∧
        ∀ entry, ((parse context entry).run (after context start calls)).1 =
          (session.call entry).1 := by
  refine ⟨fun context phrase slots machine => ?_, fun context trial slots machine => ?_,
    fun context trial afterwards slots machine => ?_, fun tokens config calls => ?_⟩
  · have kept := (drive_tracks phrase context slots machine).1
    exact ⟨kept.depth, kept.trials, (Nat.eq_zero_or_pos _).imp_right kept.quiet⟩
  · obtain ⟨value, position, value', ran, -, -⟩ | ⟨error, ran, -⟩ :=
      speculate_run (drive_tracks trial context slots { machine with trials := machine.trials + 1 })
    · rw [ran]
    · rw [ran]
  · exact congrArg Prod.snd ((Condition.ahead trial afterwards).check_eq
      (driveRule_follows Language.grammar context (Nat.le_add_right _ _)) _ (.refl machine slots))
  · have ended := after_eq (Session.start tokens config) calls
    obtain ⟨same, -⟩ := (Session.start tokens config).after_within calls (Nat.zero_le _)
    refine ⟨ended, fun entry => ?_⟩
    have parsed := parse_run ((Session.start tokens config).after calls) entry
    rw [same, ← ended] at parsed
    exact congrArg Prod.fst parsed

/-- A trial that fits is what is read outside of it, with and without recovery, and no error is
recorded then.  When it fails, so does the reading without recovery, with the same error.  Which
errors are recorded before does not matter to either. -/
theorem Machine.committed_as_tried (context : Context) (recovery : Bool) (phrase : Phrase)
    (slots : List Element) (position depth trials : Nat) (errors errors' : List SyntaxError) :
    match exec (Language.drive phrase context slots) ⟨position, errors, depth, trials + 1⟩ with
    | (.ok read, after) =>
        exec (Language.drive phrase { context with recovery := recovery } slots)
          ⟨position, errors', depth, 0⟩ = (.ok read, ⟨after.position, errors', depth, 0⟩)
    | (.error error, _) =>
        (exec (Language.drive phrase context.trial slots) ⟨position, errors', depth, 0⟩).1 =
          .error error := by
  have mirrors : Mirrors (trials + 1) depth slots ⟨position, errors, depth, trials + 1⟩
      ⟨position, errors', slots⟩ :=
    ⟨rfl, rfl, rfl, rfl, fun never => absurd never (Nat.succ_ne_zero trials)⟩
  have tried := Language.drive_follows phrase context (trials + 1) depth slots _ _ mirrors
  obtain ⟨read, after, state, ran, came, -, later⟩ | ⟨error, after, ran, came, -⟩ := tried.cases
  · have again : phrase.run (readRule Language.grammar (context.limit - depth))
        { context with recovery := recovery } ⟨position, errors', slots⟩ = .ok state := by
      cases recovery with
      | false => exact came
      | true =>
          exact (phrase.run_shadowed context.recovery_recovering
            (readRule_shadowed Language.grammar context.recovery_recovering _) _).agrees state came
    have quiet : state.errors = errors' := Phrase.errors_of_run_trial came
    have whole := exec_drive phrase { context with recovery := recovery } slots
      ⟨position, errors', depth, 0⟩
    have kept := (drive_tracks phrase { context with recovery := recovery } slots
      ⟨position, errors', depth, 0⟩).1
    rw [ran]
    generalize exec (Language.drive phrase { context with recovery := recovery } slots)
      ⟨position, errors', depth, 0⟩ = outcome at whole kept ⊢
    obtain ⟨result, final⟩ := outcome
    cases result with
    | error error => exact nomatch again.symm.trans whole
    | ok read' =>
        obtain rfl : state = final.toState read' := Except.ok.inj (again.symm.trans whole)
        obtain ⟨place, recorded, level, opened⟩ := final
        obtain rfl : place = after.position := later.position
        obtain rfl : read' = read := later.slots
        obtain rfl : level = depth := kept.depth
        obtain rfl : opened = 0 := kept.trials
        obtain rfl : recorded = errors' := quiet
        rfl
  · have whole := exec_drive phrase context.trial slots ⟨position, errors', depth, 0⟩
    rw [ran]
    generalize exec (Language.drive phrase context.trial slots) ⟨position, errors', depth, 0⟩ =
      outcome at whole ⊢
    obtain ⟨result, final⟩ := outcome
    have failed : result.map final.toState = .error error := whole.symm.trans came
    cases result with
    | error other => exact congrArg Except.error (Except.error.inj failed)
    | ok read => cases failed

end JavaSyntax
