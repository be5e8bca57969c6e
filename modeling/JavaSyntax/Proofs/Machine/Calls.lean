import JavaSyntax.Proofs.Machine.Tracking

/-!
# The machine between calls

The rules of a grammar count themselves on the machine, and find the limit reached exactly
when no nesting is left.  So the machine reads what the grammar reads.  Items and whole parses
are put together from such readings; a machine at rest, with no rule and no trial open and no
error recorded, comes to rest again after each of them.
-/

namespace JavaSyntax

namespace Machine

section Rules

variable {context : Context} {trials depth : Nat} {act : Act} {inner : Step}

/-- What is read one rule deeper is read, as long as the limit allows for it. -/
theorem nested_follows (allowed : depth < context.limit)
    (follows : Follows trials (depth + 1) act inner) :
    Follows trials depth (nested context act) inner := by
  intro slots machine state mirrors
  have unfolded : exec (nested context act slots) machine =
      let outcome := exec (act slots) { machine with depth := machine.depth + 1 }
      (outcome.1, { outcome.2 with depth := outcome.2.depth - 1 }) := by
    have allows : ¬context.limit ≤ machine.depth := mirrors.level ▸ Nat.not_le_of_lt allowed
    simp only [exec, nested, ExceptT.run_mk, StateT.run_bind, StateT.run_get, pure_bind,
      if_neg allows, StateT.run_modify]
    rfl
  have deeper := follows slots { machine with depth := machine.depth + 1 } state
    { mirrors with level := congrArg (· + 1) mirrors.level }
  rw [unfolded]
  obtain ⟨read, after, state', ran, came, kept, later⟩ | ⟨error, after, ran, came, kept⟩ :=
    deeper.cases
  · rw [ran, came]
    refine .ok ⟨?_, kept.trials, kept.grows, kept.quiet⟩ { later with level := ?_ }
    · exact congrArg (· - 1) kept.depth
    · exact congrArg (· - 1) later.level
  · rw [ran, came]
    exact .error ⟨congrArg (· - 1) kept.depth, kept.trials, kept.grows, kept.quiet⟩

/-- At the limit no rule is opened. -/
theorem nested_follows_tooDeep (reached : context.limit ≤ depth) :
    Follows trials depth (nested context act) fun state =>
      .error (state.tooDeep (context.during trials)) := by
  intro slots machine state mirrors
  have unfolded : exec (nested context act slots) machine =
      (.error ((machine.toState slots).tooDeep context), machine) := by
    have reaches : context.limit ≤ machine.depth := mirrors.level ▸ reached
    simp only [exec, nested, ExceptT.run_mk, StateT.run_bind, StateT.run_get, pure_bind,
      if_pos reaches]
    rfl
  have same : (machine.toState slots).tooDeep context = state.tooDeep (context.during trials) := by
    rw [mirrors.state_eq]
    rfl
  rw [unfolded, same]
  exact .error (.refl machine)

end Rules

end Machine

open Machine

/-- With some rules open, a rule on the machine reads what it reads with the rest of the
nesting. -/
theorem driveRule_follows (grammar : Rule → Phrase) (context : Context) {fuel depth : Nat}
    (enough : context.limit ≤ fuel + depth) :
    RulesFollow context depth (driveRule grammar fuel)
      (readRule grammar (context.limit - depth)) where
  shadow := readRule_shadowed grammar context.recovery_recovering _
  follow := by
    intro trials rule
    induction fuel generalizing depth trials rule with
    | zero =>
        rw [Nat.sub_eq_zero_of_le (by omega)]
        intro slots machine state mirrors
        have same : (machine.toState slots).tooDeep context =
            state.tooDeep (context.during trials) := by
          rw [mirrors.state_eq]
          rfl
        simp only [driveRule, exec_get_bind, same]
        exact .error (.refl machine)
    | succ fuel ih =>
        rcases Nat.lt_or_ge depth context.limit with allowed | reached
        · obtain ⟨left, rest⟩ : ∃ left, context.limit - depth = left + 1 :=
            ⟨context.limit - depth - 1, by omega⟩
          have deeper : context.limit - (depth + 1) = left := by omega
          have follows : RulesFollow context (depth + 1) (driveRule grammar fuel)
              (readRule grammar left) :=
            { shadow := readRule_shadowed grammar context.recovery_recovering _
              follow := deeper ▸ fun trials rule => ih (by omega) trials rule }
          rw [rest]
          exact nested_follows allowed ((grammar rule).drive_follows follows trials)
        · rw [Nat.sub_eq_zero_of_le reached]
          exact nested_follows_tooDeep reached

/-- With some rules and trials open, a phrase of the language is read with the rest of the
nesting, and without recovery in a trial. -/
theorem Language.drive_follows (phrase : Phrase) (context : Context) (trials depth : Nat) :
    Follows trials depth (Language.drive phrase context)
      (phrase.run (readRule grammar (context.limit - depth)) (context.during trials)) :=
  phrase.drive_follows (driveRule_follows grammar context (Nat.le_add_right _ _)) trials

/-- On a machine at rest it is read as without one. -/
theorem Language.drive_follows_read (phrase : Phrase) (context : Context) :
    Follows 0 0 (Language.drive phrase context) (Language.read phrase context) :=
  Language.drive_follows phrase context 0 0

namespace State.Neutral

variable (context : Context)

theorem takeRest (rounds : Nat) : Neutral (State.takeRest context rounds) := by
  induction rounds with
  | zero => exact fun _ _ => rfl
  | succ rounds ih =>
      intro state errors
      have same : (state.withErrors errors).atEnd context = state.atEnd context := rfl
      simp only [State.takeRest, same, take context state errors]
      split
      · rfl
      · exact ih _ errors

theorem sweep : Neutral (State.sweep context) := by
  intro state errors
  have same : (state.withErrors errors).atEnd context = state.atEnd context := rfl
  have swept := takeRest context (state.remaining context) { state with slots := [] } errors
  simp only [State.sweep, same]
  split
  · rfl
  · simp only [State.withErrors, State.remaining] at swept ⊢
    rw [swept]
    rfl

theorem takeAny : Neutral (State.takeAny context) :=
  fun _ _ => rfl

end State.Neutral

namespace Machine

section Rest

variable {context : Context} {slots : List Element} {machine : Machine} {state : State}

theorem apply_mirrors {move : State → State} (neutral : State.Neutral move)
    (mirrors : Mirrors 0 0 slots machine state) :
    Mirrors 0 0 ((apply move slots).run machine).1 ((apply move slots).run machine).2
      (move state) :=
  (step_follows neutral slots machine state mirrors).2

/-- Giving up on an item undoes what it has done since its start. -/
theorem abandon_mirrors {after : Machine} (error : SyntaxError)
    (mirrors : Mirrors 0 0 slots machine state) (kept : machine.Kept after) :
    let given := (abandon context machine.position machine.errors.length error slots).run after
    Mirrors 0 0 given.1 given.2 (state.abandon context error) := by
  obtain ⟨newer, grown⟩ := kept.grows
  have dropped : after.errors.drop (after.errors.length - machine.errors.length) =
      machine.errors := by
    rw [← grown, List.length_append, Nat.add_sub_cancel, List.drop_left]
  have undone : Mirrors 0 0 slots { after with
      position := machine.position
      errors := error :: after.errors.drop (after.errors.length - machine.errors.length) }
      { state with errors := error :: state.errors } :=
    { tries := kept.trials.trans mirrors.tries
      level := kept.depth.trans mirrors.level
      position := mirrors.position
      slots := mirrors.slots
      errors := fun none => by rw [dropped, mirrors.errors none] }
  exact apply_mirrors (.sweep context) undone

theorem run_get_bind {α : Type} (next : Machine → StateM Machine α) :
    (get >>= next).run machine = (next machine).run machine := rfl

/-- What is run on a machine at rest leads to a state, and tells whether to go on. -/
def Settles (run : StateM Machine (List Element × Bool)) (machine : Machine)
    (result : State × Bool) : Prop :=
  (run.run machine).1.2 = result.2 ∧
    Mirrors 0 0 (run.run machine).1.1 (run.run machine).2 result.1

/-- What comes after starts from that state. -/
theorem Settles.bind {α : Type} {run : StateM Machine (List Element × Bool)}
    {result : State × Bool} {next : List Element × Bool → StateM Machine α}
    (fits : α × Machine → Prop) (settles : Settles run machine result)
    (tail : ∀ read after, Mirrors 0 0 read after result.1 →
      fits ((next (read, result.2)).run after)) :
    fits ((run >>= next).run machine) := by
  obtain ⟨goes, later⟩ := settles
  have started := tail _ _ later
  rwa [← goes] at started

theorem readItem_run (context : Context) (item : Phrase) (slots : List Element)
    (machine : Machine) : (readItem context item slots).run machine =
      let tried := exec (Language.drive item context slots) machine
      StateT.run (match tried.1 with
        | .ok read => return (read, true)
        | .error error =>
            return (← abandon context machine.position machine.errors.length error slots, false))
        tried.2 := rfl

theorem readItem_settles (item : Phrase) (mirrors : Mirrors 0 0 slots machine state) :
    Settles (readItem context item slots) machine (state.readItem context item) := by
  rw [Settles, readItem_run, State.readItem]
  obtain ⟨read, after, state', ran, came, kept, later⟩ | ⟨error, after, ran, came, kept⟩ :=
    (Language.drive_follows_read item context slots machine state mirrors).cases
  · rw [ran, came]
    exact ⟨rfl, later⟩
  · rw [ran, came]
    exact ⟨rfl, abandon_mirrors error mirrors kept⟩

theorem readItems_settles (continues : TokenKind → Bool) (item : Phrase) (rounds : Nat)
    (mirrors : Mirrors 0 0 slots machine state) :
    Settles (readItems context continues item rounds slots) machine
      (state.readItems context continues item rounds) := by
  induction rounds generalizing slots machine state with
  | zero => exact ⟨rfl, mirrors⟩
  | succ rounds ih =>
      have here : (machine.toState slots).kindAt context 0 = state.kindAt context 0 :=
        mirrors.kindAt context 0
      have first : Settles (readItem context item slots) machine _ := readItem_settles item mirrors
      simp only [Settles, readItems, State.readItems, run_get_bind, here]
      split
      · refine Settles.bind (fun outcome : (List Element × Bool) × Machine =>
          outcome.1.2 = _ ∧ Mirrors 0 0 outcome.1.1 outcome.2 _) first fun read after later => ?_
        generalize state.readItem context item = result at later ⊢
        obtain ⟨state', goes⟩ := result
        cases goes with
        | true => exact ih later
        | false => exact ⟨rfl, later⟩
      · exact ⟨rfl, mirrors⟩

theorem readUnit_mirrors (mirrors : Mirrors 0 0 slots machine state) :
    Mirrors 0 0 ((readUnit context slots).run machine).1 ((readUnit context slots).run machine).2
      (state.readUnit context) := by
  rw [readUnit, State.readUnit]
  refine Settles.bind (fun outcome => Mirrors 0 0 outcome.1 outcome.2 _)
    (readItem_settles Language.packageDeclaration mirrors) fun packaged after later => ?_
  generalize state.readItem context Language.packageDeclaration = result at later ⊢
  obtain ⟨state', goes⟩ := result
  cases goes with
  | false => exact later
  | true =>
      have unread : (after.toState packaged).remaining context = state'.remaining context :=
        later.remaining context
      simp only [run_get_bind, unread]
      refine Settles.bind (fun outcome => Mirrors 0 0 outcome.1 outcome.2 _)
        (readItems_settles (· == .kwImport) Language.importDeclaration _ later)
        fun imported after later => ?_
      generalize state'.readItems context (· == .kwImport) Language.importDeclaration
        (state'.remaining context) = result at later ⊢
      obtain ⟨state', goes⟩ := result
      cases goes with
      | false => exact later
      | true =>
          have unread : (after.toState imported).remaining context = state'.remaining context :=
            later.remaining context
          simp only [run_get_bind, unread]
          exact (readItems_settles (· != .eof) (.progress Language.typeDeclaration) _ later).2

theorem leftover_run (context : Context) (error : SyntaxError) (slots : List Element)
    (machine : Machine) : StateT.run (do
        match ← (report context error).run with
        | .ok () => apply (·.sweep context) slots
        | .error error =>
            modify fun machine => { machine with errors := error :: machine.errors }
            apply (·.sweep context) slots) machine =
      let reported := exec (report context error) machine
      StateT.run (match reported.1 with
        | .ok () => apply (·.sweep context) slots
        | .error error => do
            modify fun machine => { machine with errors := error :: machine.errors }
            apply (·.sweep context) slots) reported.2 := rfl

/-- What follows an expression is put away, and reported one way or the other. -/
theorem leftover_mirrors (error : SyntaxError) (mirrors : Mirrors 0 0 slots machine state) :
    let put := StateT.run (do
      match ← (report context error).run with
      | .ok () => apply (·.sweep context) slots
      | .error error =>
          modify fun machine => { machine with errors := error :: machine.errors }
          apply (·.sweep context) slots) machine
    Mirrors 0 0 put.1 put.2 (State.sweep context <| match state.report context error with
      | .ok reported => reported
      | .error error => { state with errors := error :: state.errors }) := by
  rw [leftover_run]
  cases recovers : context.recovery with
  | true =>
      obtain ⟨_, after, reported, ran, came, -, later, -⟩ | ⟨other, after, -, came, -⟩ :=
        (report_tracks context error mirrors).cases
      · simp only [ran, show state.report context error = .ok reported from came]
        exact apply_mirrors (.sweep context) later
      · change state.report context error = .error other at came
        simp only [State.report, recovers, if_true] at came
        split at came
        · split at came <;> cases came
        · cases came
  | false =>
      have raised : exec (report context error) machine = (.error error, machine) := by
        simp [report, exec_get_bind, recovers]
      have came : state.report context error = .error error := by
        simp [State.report, recovers]
      rw [raised, came]
      exact apply_mirrors (.sweep context) { mirrors with
        errors := fun none => congrArg (error :: ·) (mirrors.errors none) }

theorem readExpression_run (context : Context) (slots : List Element) (machine : Machine) :
    (readExpression context slots).run machine =
      let tried := exec (Language.drive (.call .expression) context slots) machine
      StateT.run (match tried.1 with
        | .ok read => do
            let state := (← get).toState read
            if state.atEnd context then return read
            else
              let found := state.current context
              let error : SyntaxError := ⟨.unexpectedToken .eof found.kind, found.span⟩
              match ← (report context error).run with
              | .ok () => apply (·.sweep context) read
              | .error error =>
                  modify fun machine => { machine with errors := error :: machine.errors }
                  apply (·.sweep context) read
        | .error error => abandon context 0 0 error slots) tried.2 := rfl

theorem readExpression_mirrors (mirrors : Mirrors 0 0 slots machine state) :
    Mirrors 0 0 ((readExpression context slots).run machine).1
      ((readExpression context slots).run machine).2 (state.readExpression context) := by
  rw [readExpression_run, State.readExpression]
  obtain ⟨read, after, state', ran, came, kept, later⟩ | ⟨error, after, ran, came, kept⟩ :=
    (Language.drive_follows_read (.call .expression) context slots machine state mirrors).cases
  · rw [ran, came]
    have ends : (after.toState read).atEnd context = state'.atEnd context :=
      congrArg (· == _) (later.kindAt context 0)
    have found : (after.toState read).current context = state'.current context :=
      later.current context
    simp only [run_get_bind, ends, found]
    split
    · exact later
    · exact leftover_mirrors _ later
  · rw [ran, came]
    have undone : Mirrors 0 0 slots { after with
        position := 0, errors := error :: after.errors.drop (after.errors.length - 0) }
        { state with position := 0, errors := [error] } :=
      { tries := kept.trials.trans mirrors.tries
        level := kept.depth.trans mirrors.level
        position := rfl
        slots := mirrors.slots
        errors := fun _ => by rw [Nat.sub_zero, List.drop_length] }
    exact apply_mirrors (.sweep context) undone

/-- A finished parse leaves a machine at rest. -/
theorem finishParse_run (kind : NodeKind) (mirrors : Mirrors 0 0 slots machine state) :
    (finishParse context kind slots).run machine =
      (state.finishParse context kind, ⟨(state.takeAny context).position, [], 0, 0⟩) := by
  have ended := apply_mirrors (.takeAny context) mirrors
  have unfolded : (finishParse context kind slots).run machine =
      let taken := (apply (·.takeAny context) slots).run machine
      let state := taken.2.toState taken.1
      (⟨.spanning kind state.gathered (state.here context), state.errors.reverse⟩,
        { taken.2 with errors := [] }) := rfl
  rw [unfolded]
  generalize (apply (·.takeAny context) slots).run machine = taken at ended ⊢
  obtain ⟨read, after⟩ := taken
  have same : state.takeAny context = after.toState read := by
    rw [ended.state_eq, ended.errors rfl]
    rfl
  rw [State.finishParse, same]
  obtain ⟨position, errors, depth, trials⟩ := after
  obtain ⟨rfl, rfl, -, -, -⟩ := ended
  rfl

end Rest

/-- A machine at rest with its cursor at a place. -/
def atRest (position : Nat) : Machine :=
  ⟨position, [], 0, 0⟩

theorem parse_run (session : Session) (entry : Entry) :
    (parse session.context entry).run (atRest session.position) =
      ((session.call entry).1, atRest (session.call entry).2.position) := by
  have mirrors : Mirrors 0 0 [] (atRest session.position) ⟨session.position, [], []⟩ :=
    ⟨rfl, rfl, rfl, rfl, fun _ => rfl⟩
  cases entry with
  | unit => exact finishParse_run .compilationUnit (readUnit_mirrors mirrors)
  | expression => exact finishParse_run .expressionRoot (readExpression_mirrors mirrors)

theorem after_eq (session : Session) (calls : List Entry) :
    after session.context (atRest session.position) calls =
      atRest (session.after calls).position := by
  induction calls generalizing session with
  | nil => rfl
  | cons entry calls ih =>
      have next := session.context_call entry
      have rest := ih (session.call entry).2
      rw [next] at rest
      rw [after, List.foldl_cons, parse_run]
      exact rest

end Machine

end JavaSyntax
