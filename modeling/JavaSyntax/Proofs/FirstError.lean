import JavaSyntax.Proofs.Reading.Items
import JavaSyntax.Proofs.Reading.Strict

/-!
# Strict and recovering parses agree

A parse without recovery ends at its first error.  It finds an error exactly when
the parse with recovery does, and the same one first; without errors both give
the same tree.  The one exception is an item that is given up because it nests
too deeply: then that error takes the place of those recorded before it.
-/

namespace JavaSyntax

/-- What a parse without recovery and the one with recovery have in common. -/
structure Parse.Agrees (strict lenient : Parse) : Prop where
  atMostOne : strict.errors.length ≤ 1
  cleanTogether : strict.errors = [] ↔ lenient.errors = []
  sameRoot : strict.errors = [] → strict.root = lenient.root
  sameFirst : ∀ error, strict.errors.head? = some error →
    ∃ first, lenient.errors.head? = some first ∧ (first = error ∨ first.isFatal = true)

namespace State

/-- A state in which a strict reading has failed, and one that a reading with recovery
has come to. -/
def FailedAlike (strict lenient : State) : Prop :=
  ∃ error first, strict.errors = [error] ∧ lenient.errors.getLast? = some first ∧
    (first = error ∨ first.isFatal = true)

/-- Later errors do not change how a reading has failed. -/
theorem FailedAlike.grows {strict lenient later : State} (failed : FailedAlike strict lenient)
    (suffix : lenient.errors <:+ later.errors) : FailedAlike strict later := by
  obtain ⟨error, first, one, found, alike⟩ := failed
  exact ⟨error, first, one, getLast?_of_suffix suffix found, alike⟩

/-- The outcomes of reading items: both readings are at the same place without an error,
or the strict one has stopped at its error. -/
def OutcomesAgree (strict lenient : State × Bool) : Prop :=
  (lenient = strict ∧ strict.2 = true ∧ strict.1.errors = []) ∨
    (strict.2 = false ∧ FailedAlike strict.1 lenient.1)

/-- Outcomes agree stage by stage.  Once the strict reading is over, the other may go on
and record more. -/
theorem OutcomesAgree.followedBy {strict lenient : State × Bool}
    {next next' : State → State × Bool} (stage : OutcomesAgree strict lenient)
    (agree : ∀ state, state.errors = [] → OutcomesAgree (next state) (next' state))
    (grows : ∀ state, state.errors <:+ (next' state).1.errors) :
    OutcomesAgree (followedBy strict next) (followedBy lenient next') := by
  obtain ⟨strictState, strictGoes⟩ := strict
  obtain ⟨lenientState, lenientGoes⟩ := lenient
  rcases stage with ⟨same, goes, clean⟩ | ⟨stops, failed⟩
  · cases same
    cases goes
    exact agree strictState clean
  · right
    cases stops
    refine ⟨rfl, ?_⟩
    cases lenientGoes with
    | false => exact failed
    | true => exact failed.grows (grows lenientState)

/-- Whole readings agree when they end in the same state without errors, or have failed
alike. -/
def StatesAgree (strict lenient : State) : Prop :=
  (lenient = strict ∧ strict.errors = []) ∨ FailedAlike strict lenient

variable {context : Context}

section Recovery

variable (recovers : context.recovery = true)

include recovers

/-- A phrase of the language is read alike with and without recovery up to the first
error. -/
theorem read_shadowed (phrase : Phrase) :
    Shadowed (Language.read phrase context.trial) (Language.read phrase context) :=
  phrase.run_shadowed recovers (readRule_shadowed _ recovers _)

theorem readItem_grows (item : Phrase) (state : State) :
    state.errors <:+ (state.readItem context item).1.errors := by
  unfold readItem
  split
  · rename_i after read
    exact (read_shadowed recovers item state).grows after read
  · rw [errors_abandon]
    exact List.suffix_cons _ _

theorem readItems_grows (continues : TokenKind → Bool) (item : Phrase) (rounds : Nat)
    (state : State) :
    state.errors <:+ (state.readItems context continues item rounds).1.errors := by
  induction rounds generalizing state with
  | zero => exact List.suffix_refl _
  | succ rounds ih =>
      rw [readItems_succ]
      split
      · have first := readItem_grows recovers item state
        generalize state.readItem context item = outcome at first
        obtain ⟨after, goes⟩ := outcome
        cases goes with
        | true => exact first.trans (ih after)
        | false => exact first
      · exact List.suffix_refl _

/-- From a state without errors, an item is read alike or fails alike. -/
theorem readItem_agree (item : Phrase) (state : State) (clean : state.errors = []) :
    OutcomesAgree (state.readItem context.trial item) (state.readItem context item) := by
  have shadow := read_shadowed recovers item state
  unfold readItem
  cases tried : Language.read item context.trial state with
  | ok after =>
      left
      rw [shadow.agrees after tried]
      exact ⟨rfl, rfl, (shadow.quiet after tried).trans clean⟩
  | error error =>
      right
      refine ⟨rfl, ?_⟩
      cases read : Language.read item context state with
      | ok after =>
          exact ⟨error, error, by simp [clean], shadow.first _ _ clean tried read, .inl rfl⟩
      | error fatal =>
          exact ⟨error, fatal, by simp [clean], by simp [clean], .inr (shadow.fatal _ read)⟩

theorem readItems_agree (continues : TokenKind → Bool) (item : Phrase) (rounds : Nat)
    (state : State) (clean : state.errors = []) :
    OutcomesAgree (state.readItems context.trial continues item rounds)
      (state.readItems context continues item rounds) := by
  induction rounds generalizing state with
  | zero => exact .inl ⟨rfl, rfl, clean⟩
  | succ rounds ih =>
      have alike : state.kindAt context.trial 0 = state.kindAt context 0 := rfl
      rw [readItems_succ, readItems_succ, alike]
      split
      · exact (readItem_agree recovers item state clean).followedBy ih
          (readItems_grows recovers continues item rounds)
      · exact .inl ⟨rfl, rfl, clean⟩

theorem readUnit_agree (state : State) (clean : state.errors = []) :
    StatesAgree (state.readUnit context.trial) (state.readUnit context) := by
  rw [readUnit_eq, readUnit_eq]
  have package := readItem_agree recovers Language.packageDeclaration state clean
  have imports := package.followedBy
    (fun packaged clean => readItems_agree recovers (· == .kwImport) Language.importDeclaration
      (packaged.remaining context) packaged clean)
    (fun packaged => readItems_grows recovers _ _ _ packaged)
  have types := imports.followedBy
    (fun imported clean => readItems_agree recovers (· != .eof)
      (.progress Language.typeDeclaration) (imported.remaining context) imported clean)
    (fun imported => readItems_grows recovers _ _ _ imported)
  rcases types with ⟨same, _, clean⟩ | ⟨_, failed⟩
  · exact .inl ⟨congrArg Prod.fst same, clean⟩
  · exact .inr failed

theorem readExpression_agree (state : State) (clean : state.errors = []) :
    StatesAgree (state.readExpression context.trial) (state.readExpression context) := by
  have shadow := read_shadowed recovers (.call .expression) state
  unfold readExpression
  cases tried : Language.read (.call .expression) context.trial state with
  | ok after =>
      rw [shadow.agrees after tried]
      have clean := (shadow.quiet after tried).trans clean
      by_cases ended : after.atEnd context = true
      · have ended' : after.atEnd context.trial = true := ended
        simp only [ended, ended', if_true]
        exact .inl ⟨rfl, clean⟩
      · have ended' : ¬after.atEnd context.trial = true := ended
        simp only [ended, ended']
        right
        let trailing : SyntaxError :=
          ⟨.unexpectedToken .eof (after.current context).kind, (after.current context).span⟩
        have strict : after.report context.trial trailing = .error trailing := rfl
        have lenient : after.report context trailing = .ok { after with errors := [trailing] } := by
          simp [report, recovers, clean]
        refine ⟨trailing, trailing, ?_, ?_, .inl rfl⟩
        · have same : after.current context.trial = after.current context := rfl
          simp only [same, trailing] at strict ⊢
          simp [strict, clean]
        · simp only [trailing] at lenient ⊢
          simp [lenient]
  | error error =>
      right
      cases read : Language.read (.call .expression) context state with
      | error fatal =>
          exact ⟨error, fatal, by simp, by simp, .inr (shadow.fatal _ read)⟩
      | ok after =>
          have first := shadow.first _ _ clean tried read
          refine ⟨error, error, by simp, ?_, .inl rfl⟩
          by_cases ended : after.atEnd context = true
          · simp only [ended, if_true]
            exact first
          · simp only [if_neg ended, errors_sweep]
            split
            · rename_i reported recorded
              exact getLast?_of_suffix ((report_shadowed recovers _ after).grows _ recorded) first
            · exact getLast?_of_suffix (List.suffix_cons _ _) first

end Recovery

end State

/-- Readings that agree make parses that agree. -/
theorem State.StatesAgree.finishParse {strict lenient : State}
    (agree : StatesAgree strict lenient) (context : Context) (kind : NodeKind) :
    (strict.finishParse context.trial kind).Agrees (lenient.finishParse context kind) := by
  rcases agree with ⟨rfl, clean⟩ | ⟨error, first, one, found, alike⟩
  · have none : (lenient.finishParse context kind).errors = [] := by
      simp [State.finishParse, State.takeAny, clean]
    have none' : (lenient.finishParse context.trial kind).errors = [] := none
    exact ⟨by simp [none'], by simp [none, none'], fun _ => rfl, by simp [none']⟩
  · have one' : (strict.finishParse context.trial kind).errors = [error] := by
      simp [State.finishParse, State.takeAny, one]
    have found' : (lenient.finishParse context kind).errors.head? = some first := by
      simpa [State.finishParse, State.takeAny] using found
    refine ⟨by simp [one'], ?_, by simp [one'], ?_⟩
    · constructor
      · intro none
        simp [one'] at none
      · intro none
        simp [none] at found'
    · intro other head
      obtain rfl : error = other := by simpa [one'] using head
      exact ⟨first, found', alike⟩

/-- Whatever the tokens and the limit, a parse without recovery agrees with the one with
recovery, for source files and for expressions. -/
theorem strict_agrees_with_recovery (tokens : List Token) (maxDepth : Nat) :
    Parse.Agrees (Session.start tokens ⟨maxDepth, false⟩).parseUnit.1
        (Session.start tokens ⟨maxDepth, true⟩).parseUnit.1 ∧
      Parse.Agrees (Session.start tokens ⟨maxDepth, false⟩).parseExpression.1
        (Session.start tokens ⟨maxDepth, true⟩).parseExpression.1 := by
  let context := Context.ofTokens tokens ⟨maxDepth, true⟩
  have recovers : context.recovery = true := rfl
  constructor
  · exact (State.readUnit_agree recovers ⟨0, [], []⟩ rfl).finishParse context .compilationUnit
  · exact (State.readExpression_agree recovers ⟨0, [], []⟩ rfl).finishParse context .expressionRoot

end JavaSyntax
