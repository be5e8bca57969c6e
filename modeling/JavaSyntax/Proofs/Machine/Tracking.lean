import JavaSyntax.Proofs.Machine.Basic
import JavaSyntax.Proofs.Reading.Strict

/-!
# The machine keeps track

Whatever is read on the machine comes to what it comes to without one, on success and on
failure, and leaves the counters as they were.  The counters decide with which limit and with
how much recovery a phrase is read, so they have to be right at every step for this to hold.
-/

namespace JavaSyntax

/-- The context of a reading with so many trials open. -/
def Context.during (context : Context) (trials : Nat) : Context :=
  { context with recovery := trials == 0 && context.recovery }

/-- The same context with recovery. -/
def Context.recovering (context : Context) : Context :=
  { context with recovery := true }

theorem Context.recovery_recovering (context : Context) : context.recovering.recovery = true := rfl

theorem Context.during_succ (context : Context) (trials : Nat) :
    context.during (trials + 1) = context.trial := rfl

theorem Context.trial_during (context : Context) (trials : Nat) :
    (context.during trials).trial = context.during (trials + 1) := rfl

namespace State

/-- The state with other recorded errors. -/
def withErrors (state : State) (errors : List SyntaxError) : State :=
  ⟨state.position, errors, state.slots⟩

/-- Moves that neither look at the recorded errors nor change them. -/
def Neutral (move : State → State) : Prop :=
  ∀ state errors, move (state.withErrors errors) = (move state).withErrors errors

namespace Neutral

variable (context : Context)

theorem errors {move : State → State} (neutral : Neutral move) (state : State) :
    (move state).errors = state.errors := by
  have same := congrArg State.errors (neutral state state.errors)
  exact same

theorem comp {first second : State → State} (two : Neutral second) (one : Neutral first) :
    Neutral (second ∘ first) := by
  intro state errors
  rw [Function.comp_apply, one, two]
  rfl

theorem dropAbsent : Neutral State.dropAbsent := by
  intro state errors
  obtain ⟨position, known, slots⟩ := state
  cases slots with
  | nil => rfl
  | cons first rest => cases first <;> rfl

theorem take : Neutral (State.take context) := by
  intro state errors
  have same : (state.withErrors errors).atEnd context = state.atEnd context := rfl
  simp only [State.take, same]
  split <;> rfl

theorem takeMany (count : Nat) : Neutral (State.takeMany context count) := by
  induction count with
  | zero => exact fun _ _ => rfl
  | succ count ih => exact ih.comp (take context)

theorem reduce (state : State) (errors : List SyntaxError) (floor : Level) (stack : List Pending)
    (right : List Element) : (state.withErrors errors).reduce context floor stack right =
      state.reduce context floor stack right := by
  induction stack generalizing right with
  | nil => rfl
  | cons top stack ih =>
      simp only [State.reduce]
      split
      · exact ih _
      · rfl

theorem closeOperators (stack : List Pending) (left : List Element) :
    Neutral (State.closeOperators context · stack left) := by
  intro state errors
  simp only [State.closeOperators, reduce]
  rfl

theorem close (kind : NodeKind) : Neutral (State.close context · kind) :=
  fun _ _ => rfl

theorem putAway : Neutral fun state => (state.take context).close context .error :=
  (close context .error).comp (take context)

theorem swallow : Neutral (State.swallow context) := by
  have cleared : Neutral fun state =>
      { state with slots := state.slots.filter (!isEmptyError ·) } := fun _ _ => rfl
  exact (putAway context).comp cleared

end Neutral

end State

namespace Machine

/-- What a computation does to the machine from some state of it on. -/
def exec {α : Type} (run : Run α) (machine : Machine) : Except SyntaxError α × Machine :=
  (ExceptT.run run).run machine

@[simp] theorem exec_pure {α : Type} (value : α) (machine : Machine) :
    exec (pure value) machine = (.ok value, machine) := rfl

@[simp] theorem exec_throw {α : Type} (error : SyntaxError) (machine : Machine) :
    exec (throw error : Run α) machine = (.error error, machine) := rfl

@[simp] theorem exec_get_bind {α : Type} (next : Machine → Run α) (machine : Machine) :
    exec (get >>= next) machine = exec (next machine) machine := rfl

@[simp] theorem exec_lift_bind {α β : Type} (first : StateM Machine α) (next : α → Run β)
    (machine : Machine) : exec (liftM first >>= next) machine =
      exec (next (first.run machine).1) (first.run machine).2 := rfl

/-- What follows is run where the first computation succeeds; where it fails, the machine is left
as it is. -/
theorem exec_bind {α β : Type} (first : Run α) (next : α → Run β) (machine : Machine) :
    exec (first >>= next) machine =
      match exec first machine with
      | (.ok value, after) => exec (next value) after
      | (.error error, after) => (.error error, after) := by
  simp only [exec, ExceptT.run, Bind.bind, ExceptT.bind, ExceptT.mk, StateT.run, StateT.bind]
  generalize (first machine : Except SyntaxError α × Machine) = outcome
  obtain ⟨value, after⟩ := outcome
  cases value <;> rfl

/-- What a computation never undoes: the counters are as before, errors are only added, and
none in a trial. -/
structure Kept (before after : Machine) : Prop where
  depth : after.depth = before.depth
  trials : after.trials = before.trials
  grows : before.errors <:+ after.errors
  quiet : 0 < before.trials → after.errors = before.errors

namespace Kept

theorem refl (machine : Machine) : machine.Kept machine :=
  ⟨rfl, rfl, List.suffix_refl _, fun _ => rfl⟩

theorem moved (machine : Machine) (position : Nat) :
    machine.Kept { machine with position := position } :=
  ⟨rfl, rfl, List.suffix_refl _, fun _ => rfl⟩

theorem trans {first second third : Machine} (one : first.Kept second) (two : second.Kept third) :
    first.Kept third where
  depth := two.depth.trans one.depth
  trials := two.trials.trans one.trials
  grows := one.grows.trans two.grows
  quiet := fun open' => (two.quiet (one.trials ▸ open')).trans (one.quiet open')

end Kept

/-- The machine with some slots in hand is in a state, with so many trials and rules open.
In a trial the recorded errors do not matter. -/
structure Mirrors (trials depth : Nat) (slots : List Element) (machine : Machine)
    (state : State) : Prop where
  tries : machine.trials = trials
  level : machine.depth = depth
  position : state.position = machine.position
  slots : state.slots = slots
  errors : trials = 0 → state.errors = machine.errors

/-- What is run on the machine comes to a result: they succeed alike or fail alike. -/
def Tracks {α β : Type} (fits : α → Machine → β → Prop) (before : Machine)
    (outcome : Except SyntaxError α × Machine) (result : Except SyntaxError β) : Prop :=
  before.Kept outcome.2 ∧
    match outcome.1, result with
    | .ok value, .ok value' => fits value outcome.2 value'
    | .error error, .error error' => error = error'
    | _, _ => False

namespace Tracks

variable {α β γ δ : Type} {fits : α → Machine → β → Prop} {fits' : γ → Machine → δ → Prop}
  {before : Machine}

theorem ok {value : α} {after : Machine} {value' : β} (kept : before.Kept after)
    (same : fits value after value') : Tracks fits before (.ok value, after) (.ok value') :=
  ⟨kept, same⟩

theorem error {error : SyntaxError} {after : Machine} (kept : before.Kept after) :
    Tracks fits before (.error error, after) (.error error) :=
  ⟨kept, rfl⟩

theorem cases {outcome : Except SyntaxError α × Machine} {result : Except SyntaxError β}
    (tracks : Tracks fits before outcome result) :
    (∃ value after value', outcome = (.ok value, after) ∧ result = .ok value' ∧
        before.Kept after ∧ fits value after value') ∨
      ∃ error after, outcome = (.error error, after) ∧ result = .error error ∧
        before.Kept after := by
  obtain ⟨first, after⟩ := outcome
  obtain ⟨kept, same⟩ := tracks
  cases first <;> cases result
  · cases same
    exact .inr ⟨_, _, rfl, rfl, kept⟩
  · cases same
  · cases same
  · exact .inl ⟨_, _, _, rfl, rfl, kept, same⟩

theorem since {middle : Machine} {outcome : Except SyntaxError α × Machine}
    {result : Except SyntaxError β} (kept : before.Kept middle)
    (tracks : Tracks fits middle outcome result) : Tracks fits before outcome result :=
  ⟨kept.trans tracks.1, tracks.2⟩

/-- Computations compose as results do. -/
theorem bind {first : Run α} {next : α → Run γ} {result : Except SyntaxError β}
    {next' : β → Except SyntaxError δ} (head : Tracks fits before (exec first before) result)
    (tail : ∀ value after value', fits value after value' →
      Tracks fits' after (exec (next value) after) (next' value')) :
    Tracks fits' before (exec (first >>= next) before) (result >>= next') := by
  rw [exec_bind]
  obtain ⟨value, after, value', ran, came, kept, same⟩ | ⟨error, after, ran, came, kept⟩ :=
    head.cases
  · rw [ran, came]
    exact (tail value after value' same).since kept
  · rw [ran, came]
    exact .error kept

end Tracks

/-- With so many trials and rules open, a computation on slots comes to what a step comes
to. -/
def Follows (trials depth : Nat) (act : Act) (step : Step) : Prop :=
  ∀ slots machine state, Mirrors trials depth slots machine state →
    Tracks (Mirrors trials depth) machine (exec (act slots) machine) (step state)

section Steps

variable {trials depth : Nat} {slots : List Element} {machine : Machine} {state : State}

namespace Mirrors

variable (mirrors : Mirrors trials depth slots machine state)

include mirrors

theorem state_eq : state = (machine.toState slots).withErrors state.errors := by
  obtain ⟨position, errors, slots⟩ := state
  obtain ⟨-, -, rfl, rfl, -⟩ := mirrors
  rfl

/-- With other slots in hand. -/
theorem withSlots (others : List Element) :
    Mirrors trials depth others machine { state with slots := others } :=
  { mirrors with slots := rfl }

end Mirrors

theorem tracks_pure (mirrors : Mirrors trials depth slots machine state) :
    Tracks (Mirrors trials depth) machine (exec (pure slots) machine) (.ok state) :=
  .ok (.refl machine) mirrors

/-- A step that neither looks at errors nor changes them. -/
theorem step_follows {move : State → State} (neutral : State.Neutral move) :
    Follows trials depth (step move) fun state => .ok (move state) := by
  intro slots machine state mirrors
  have kept := neutral.errors (machine.toState slots)
  simp only
  rw [mirrors.state_eq, neutral]
  refine .ok ⟨rfl, rfl, ?_, fun _ => kept⟩ ⟨mirrors.tries, mirrors.level, rfl, rfl, ?_⟩
  · exact kept ▸ List.suffix_refl _
  · exact fun none => (mirrors.errors none).trans kept.symm

theorem report_tracks (context : Context) (error : SyntaxError)
    (mirrors : Mirrors trials depth slots machine state) :
    Tracks (fun _ after reported => Mirrors trials depth slots after reported ∧
        reported.position = state.position) machine
      (exec (report context error) machine) (state.report (context.during trials) error) := by
  unfold report State.report
  rw [exec_get_bind]
  by_cases recovers : trials = 0 ∧ context.recovery = true
  · have recovers' : (context.during trials).recovery = true := by
      simp [Context.during, recovers]
    have known := mirrors.errors recovers.1
    have tries := mirrors.tries.trans recovers.1
    have recorded (errors : List SyntaxError) (grows : machine.errors <:+ errors) :
        Tracks (fun _ after reported => Mirrors trials depth slots after reported ∧
            reported.position = state.position) machine
          (exec (set { machine with errors := errors }) machine)
          (.ok { state with errors := errors }) :=
      .ok ⟨rfl, rfl, grows, fun quiet => by omega⟩ ⟨{ mirrors with errors := fun _ => rfl }, rfl⟩
    rw [if_pos recovers', if_pos ⟨tries, recovers.2⟩, known]
    cases errors : machine.errors with
    | nil => exact recorded [error] (errors ▸ List.nil_suffix)
    | cons last others =>
        simp only
        split
        · exact .ok (.refl machine) ⟨mirrors, rfl⟩
        · exact recorded (error :: last :: others) (errors ▸ List.suffix_cons _ _)
  · have recovers' : (context.during trials).recovery = false := by
      simpa [Context.during] using recovers
    rw [if_neg (mirrors.tries ▸ recovers), recovers']
    exact .error (.refl machine)

theorem inFrame_follows {act : Act} {inner : Step} (lead : Nat)
    (follows : Follows trials depth act inner) :
    Follows trials depth (inFrame lead act) (·.inFrame lead inner) := by
  intro slots machine state mirrors
  have same := mirrors.slots
  refine (follows _ _ _ (same ▸ mirrors.withSlots (state.slots.take lead))).bind ?_
  intro read after state' later
  exact .ok (.refl after) { later with slots := by rw [later.slots, same] }

theorem collect_tracks {act : Act} {inner : Step} (follows : Follows trials depth act inner)
    (mirrors : Mirrors trials depth slots machine state) :
    Tracks (fun read after result => result.1 = read ∧ Mirrors trials depth slots after result.2)
      machine (exec (collect act) machine) (state.collect inner) := by
  refine (follows _ _ _ (mirrors.withSlots [])).bind ?_
  intro read after state' later
  refine .ok (.refl after) ⟨?_, { later with slots := mirrors.slots }⟩
  rw [State.gathered, later.slots]

/-- Both choose alike. -/
theorem Tracks.ite {α β : Type} {fits : α → Machine → β → Prop} {condition condition' : Prop}
    [Decidable condition] [Decidable condition'] {yes no : Run α} {yes' no' : Except SyntaxError β}
    (alike : condition ↔ condition')
    (whenTrue : condition → Tracks fits machine (exec yes machine) yes')
    (whenFalse : ¬condition → Tracks fits machine (exec no machine) no') :
    Tracks fits machine (exec (if condition then yes else no) machine)
      (if condition' then yes' else no') := by
  by_cases holds : condition
  · rw [if_pos holds, if_pos (alike.mp holds)]
    exact whenTrue holds
  · rw [if_neg holds, if_neg (holds ∘ alike.mpr)]
    exact whenFalse holds

/-- Nothing but the errors tells the machine from the state. -/
theorem Mirrors.view (mirrors : Mirrors trials depth slots machine state) :
    (machine.toState slots).withErrors state.errors = state :=
  mirrors.state_eq.symm

variable (context : Context)

/-- The tokens ahead are those of the state. -/
theorem Mirrors.kindAt (mirrors : Mirrors trials depth slots machine state) (distance : Nat) :
    (machine.toState slots).kindAt context distance =
      state.kindAt (context.during trials) distance := by
  rw [State.kindAt, State.kindAt, mirrors.position]
  rfl

theorem Mirrors.current (mirrors : Mirrors trials depth slots machine state) :
    (machine.toState slots).current context = state.current (context.during trials) := by
  rw [State.current, State.current, mirrors.position]
  rfl

theorem expect_follows (kind : TokenKind) :
    Follows trials depth (expect context kind) (·.expect (context.during trials) kind) := by
  intro slots machine state mirrors
  unfold expect State.expect
  rw [exec_get_bind]
  simp only [mirrors.current context, mirrors.kindAt context]
  refine .ite Iff.rfl (fun _ => step_follows (.take context) slots _ _ mirrors) fun _ => ?_
  refine (report_tracks context _ mirrors).bind ?_
  intro _ after reported later
  obtain ⟨later, still⟩ := later
  refine .ite ?_ (fun _ => ?_) fun _ => ?_
  · rw [State.kindAt, State.kindAt, still]
  · refine (inFrame_follows 0 (step_follows (.putAway context)) slots _ _ later).bind ?_
    exact fun slots _ _ => step_follows (.take context) slots _ _
  · exact @step_follows _ _ (fun state => state.push (.missing kind (state.here context)))
      (fun _ _ => rfl) slots _ _ later

theorem noViable_follows (construct : Construct) :
    Follows trials depth (noViable context construct)
      (·.noViable (context.during trials) construct) := by
  intro slots machine state mirrors
  unfold noViable State.noViable
  rw [exec_get_bind]
  simp only [mirrors.current context]
  refine (report_tracks context _ mirrors).bind fun _ after reported later => ?_
  refine inFrame_follows 0 (fun inner machine state mirrors => ?_) slots _ _ later.1
  refine .ite Iff.rfl (fun _ => ?_) fun _ => ?_
  · exact step_follows (.close context .error) inner _ _ mirrors
  · exact step_follows (.putAway context) inner _ _ mirrors

theorem Mirrors.atEnd (mirrors : Mirrors trials depth slots machine state) :
    (machine.toState slots).atEnd context = state.atEnd (context.during trials) := by
  rw [State.atEnd, State.atEnd, mirrors.kindAt]

theorem Mirrors.finish (mirrors : Mirrors trials depth slots machine state) :
    (machine.toState slots).finish context = state.finish (context.during trials) := by
  rw [mirrors.state_eq]
  rfl

theorem Mirrors.remaining (mirrors : Mirrors trials depth slots machine state) :
    (machine.toState slots).remaining context = state.remaining (context.during trials) := by
  rw [mirrors.state_eq]
  rfl

theorem progress_follows {act : Act} {inner : Step} (follows : Follows trials depth act inner) :
    Follows trials depth (progress context act) (·.progress (context.during trials) inner) := by
  intro slots machine state mirrors
  unfold progress State.progress
  rw [exec_get_bind]
  refine inFrame_follows 0 (fun inner here state' framed => ?_) slots _ _ mirrors
  refine (follows inner here state' framed).bind fun read after state' later => ?_
  rw [exec_get_bind]
  simp only [later.atEnd context]
  refine .ite ?_ (fun _ => tracks_pure later) fun _ => ?_
  · rw [mirrors.position, later.position]
    rfl
  · exact step_follows (.swallow context) read _ _ later

/-! ## Loops -/

theorem iterate_follows {act : Act} {inner : Step} (follows : Follows trials depth act inner)
    (rounds : Nat) : Follows trials depth (iterate act rounds) (State.iterate inner rounds) := by
  induction rounds with
  | zero => exact follows
  | succ rounds ih =>
      intro slots machine state mirrors
      unfold iterate State.iterate
      rw [exec_get_bind]
      refine (follows slots machine state mirrors).bind fun read after state' later => ?_
      rw [exec_get_bind]
      refine .ite ?_ (fun _ => ih read after state' later) fun _ => tracks_pure later
      rw [mirrors.position, later.position]

theorem Mirrors.operator? (mirrors : Mirrors trials depth slots machine state) :
    (machine.toState slots).operator? context = state.operator? (context.during trials) := by
  rw [mirrors.state_eq]
  rfl

theorem Mirrors.reduce (mirrors : Mirrors trials depth slots machine state) (floor : Level)
    (stack : List Pending) (right : List Element) :
    (machine.toState slots).reduce context floor stack right =
      state.reduce (context.during trials) floor stack right := by
  rw [mirrors.state_eq, State.Neutral.reduce]
  exact (State.reduce_under context _ _ _ _ _ _).symm

theorem closeOperators_follows (stack : List Pending) (left : List Element) :
    Follows trials depth (step (·.closeOperators context stack left))
      fun state => .ok (state.closeOperators (context.during trials) stack left) := by
  have same (state : State) : state.closeOperators (context.during trials) stack left =
      state.closeOperators context stack left := state.closeOperators_under context _ _ _ _
  simp only [same]
  exact step_follows (.closeOperators context stack left)

theorem takeMany_follows (count : Nat) : Follows trials depth (step (·.takeMany context count))
    fun state => .ok (state.takeMany (context.during trials) count) := by
  have same (state : State) : state.takeMany (context.during trials) count =
      state.takeMany context count := State.takeMany_under context _ _ _ _
  simp only [same]
  exact step_follows (.takeMany context count)

theorem climb_follows {operand type : Act} {operand' type' : Step}
    (operands : Follows trials depth operand operand') (types : Follows trials depth type type')
    (rounds : Nat) (stack : List Pending) (left : List Element) :
    Follows trials depth (climb context operand type rounds stack left)
      (State.climb (context.during trials) operand' type' rounds stack left) := by
  induction rounds generalizing stack left with
  | zero => exact closeOperators_follows context stack left
  | succ rounds ih =>
      intro slots machine state mirrors
      unfold climb State.climb
      rw [exec_get_bind]
      simp only [mirrors.operator? context]
      cases state.operator? (context.during trials) with
      | none => exact closeOperators_follows context stack left slots _ _ mirrors
      | some found =>
          obtain ⟨level, width⟩ := found
          simp only [mirrors.reduce context, mirrors.kindAt context]
          refine .ite Iff.rfl (fun _ => ?_) fun _ => ?_
          · have tests : Follows trials depth (fun inner => do type (← step (·.take context) inner))
                fun inner => type' (inner.take (context.during trials)) := by
              intro inner machine state mirrors
              exact (step_follows (.take context) inner _ _ mirrors).bind types
            refine (collect_tracks tests mirrors).bind fun read after result later => ?_
            obtain ⟨right, state'⟩ := result
            obtain ⟨rfl, later⟩ := later
            rw [exec_get_bind, later.finish context]
            exact ih _ _ slots _ _ later
          · refine (collect_tracks (takeMany_follows context width) mirrors).bind ?_
            intro read after result later
            obtain ⟨operator, state'⟩ := result
            obtain ⟨rfl, later⟩ := later
            refine (collect_tracks operands later).bind fun read after result later => ?_
            obtain ⟨right, state'⟩ := result
            obtain ⟨rfl, later⟩ := later
            exact ih _ _ slots _ _ later

theorem operators_follows {operand type : Act} {operand' type' : Step}
    (operands : Follows trials depth operand operand') (types : Follows trials depth type type') :
    Follows trials depth (operators context operand type)
      (State.operators (context.during trials) operand' type') := by
  intro slots machine state mirrors
  refine (collect_tracks operands mirrors).bind fun read after result later => ?_
  obtain ⟨left, state'⟩ := result
  obtain ⟨rfl, later⟩ := later
  simp only [exec_get_bind, later.remaining context]
  exact climb_follows context operands types _ _ _ slots _ _ later

theorem Mirrors.nestRight (mirrors : Mirrors trials depth slots machine state) :
    (machine.toState slots).nestRight context = state.nestRight (context.during trials) := by
  rw [mirrors.state_eq]
  rfl

theorem closePrefixes_follows {last : Act} {last' : Step} (lasts : Follows trials depth last last')
    (prefixes : List (List Element)) :
    Follows trials depth (closePrefixes context last prefixes)
      (State.closePrefixes (context.during trials) last' prefixes) := by
  intro slots machine state mirrors
  cases prefixes with
  | nil => exact inFrame_follows 0 lasts slots _ _ mirrors
  | cons inmost outer =>
      refine (lasts _ _ _ (mirrors.withSlots inmost.reverse)).bind fun read after state' later => ?_
      simp only [exec_get_bind, later.finish context, later.nestRight context]
      refine .ok (.refl after) { later with slots := ?_ }
      rw [mirrors.slots, State.gathered, State.gathered, later.slots]
      rfl

theorem prefixed_follows {link last : Act} {link' last' : Step}
    (links : Follows trials depth link link') (lasts : Follows trials depth last last')
    (rounds : Nat) (prefixes : List (List Element)) :
    Follows trials depth (prefixed context link last rounds prefixes)
      (State.prefixed (context.during trials) link' last' rounds prefixes) := by
  induction rounds generalizing prefixes with
  | zero => exact closePrefixes_follows context lasts prefixes
  | succ rounds ih =>
      intro slots machine state mirrors
      unfold prefixed State.prefixed
      rw [exec_get_bind]
      refine (collect_tracks links mirrors).bind fun read after result later => ?_
      obtain ⟨first, state'⟩ := result
      obtain ⟨rfl, later⟩ := later
      rw [exec_get_bind]
      refine .ite ?_ (fun _ => ih _ slots _ _ later)
        fun _ => closePrefixes_follows context lasts prefixes slots _ _ later
      rw [mirrors.position, later.position]

theorem closeChain_tracks {last : Act} {last' : Step} {inner : List Element} {framed : State}
    (kind : NodeKind) (lasts : Follows trials depth last last') (outer : List (List Element))
    (base : List Element) (mirrors : Mirrors trials depth inner machine framed) :
    Tracks (Mirrors trials depth) machine
      (exec (closeChain context kind last outer base inner) machine)
      (State.closeChain (context.during trials) kind last' outer base framed) := by
  refine (lasts _ _ _ mirrors).bind fun read after state' later => ?_
  simp only [exec_get_bind, later.finish context, later.nestRight context]
  refine .ok (.refl after) { later with slots := ?_ }
  rw [State.gathered, State.gathered, later.slots]
  rfl

theorem chain_follows {link last : Act} {link' last' : Step} {kind : NodeKind}
    {more : List Element → StateM Machine Bool} {more' : State → Bool}
    (links : Follows trials depth link link') (lasts : Follows trials depth last last')
    (asks : ∀ slots machine state, Mirrors trials depth slots machine state →
      (more slots).run machine = (more' state, machine))
    (rounds : Nat) (outer : List (List Element)) :
    Follows trials depth (chain context kind link more last rounds outer)
      (State.chain (context.during trials) kind link' more' last' rounds outer) := by
  induction rounds generalizing outer with
  | zero =>
      intro slots machine state mirrors
      refine (links _ _ _ (mirrors.withSlots [])).bind fun read after state' later => ?_
      rw [mirrors.slots]
      exact closeChain_tracks context kind lasts outer slots later
  | succ rounds ih =>
      intro slots machine state mirrors
      refine (links _ _ _ (mirrors.withSlots [])).bind fun read after state' later => ?_
      rw [exec_lift_bind, asks _ _ _ later, mirrors.slots]
      refine .ite Iff.rfl (fun _ => ?_) fun _ =>
        closeChain_tracks context kind lasts outer slots later
      change Tracks _ _ _ (Except.ok (state'.take (context.during trials)) >>= fun joined =>
        State.chain (context.during trials) kind link' more' last' rounds
          (joined.gathered :: outer) { joined with slots := slots })
      refine (step_follows (.take context) read _ _ later).bind fun joined after state' taken => ?_
      rw [State.gathered, taken.slots]
      exact ih _ slots _ _ (taken.withSlots slots)

end Steps

/-! ## Phrases -/

/-- The rules on the machine come to what the rules come to, with any number of trials open;
and rules record no error in a trial. -/
structure RulesFollow (context : Context) (depth : Nat) (acts : Rule → Context → Act)
    (rules : Rule → Context → Step) : Prop where
  follow : ∀ trials rule,
    Follows trials depth (acts rule context) (rules rule (context.during trials))
  shadow : ∀ rule, Shadowed (rules rule context.trial)
    (rules rule context.recovering)

theorem RulesFollow.quiet {context : Context} {depth : Nat} {acts : Rule → Context → Act}
    {rules : Rule → Context → Step} (follows : RulesFollow context depth acts rules)
    {phrase : Phrase} {state after : State}
    (ran : phrase.run rules context.trial state = .ok after) :
    after.errors = state.errors :=
  (phrase.run_shadowed context.recovery_recovering follows.shadow state).quiet
    after ran

section Trials

variable {trials depth : Nat} {slots : List Element} {machine : Machine} {state : State}

/-- A trial starts with one more trial open, where errors do not matter. -/
theorem Mirrors.opened (mirrors : Mirrors trials depth slots machine state) :
    Mirrors (trials + 1) depth slots { machine with trials := machine.trials + 1 } state where
  tries := congrArg (· + 1) mirrors.tries
  level := mirrors.level
  position := mirrors.position
  slots := mirrors.slots
  errors := fun never => absurd never (Nat.succ_ne_zero _)

/-- Once a trial has fit, it is as if its tokens had been read without it. -/
theorem Mirrors.closed {place : Nat} {read : List Element} {before after : State}
    (later : Mirrors (trials + 1) depth read
      { machine with position := place, trials := machine.trials + 1 } after)
    (quiet : after.errors = before.errors) (mirrors : Mirrors trials depth slots machine before) :
    Mirrors trials depth read { machine with position := place } after where
  tries := mirrors.tries
  level := mirrors.level
  position := later.position
  slots := later.slots
  errors := fun none => quiet.trans (mirrors.errors none)

/-- While trials are open, only the cursor moves. -/
theorem Kept.eq_of_trial {after : Machine}
    (kept : Kept { machine with trials := machine.trials + 1 } after) :
    after = { machine with position := after.position, trials := machine.trials + 1 } := by
  obtain ⟨position, errors, depth, trials⟩ := after
  obtain ⟨rfl, rfl, -, quiet⟩ := kept
  obtain rfl := quiet (Nat.succ_pos _)
  rfl

/-- A trial that fails leaves no trace, and one that fits only moves the cursor. -/
theorem speculate_run {α β : Type} {fits : α → Machine → β → Prop} {trial : Run α}
    {result : Except SyntaxError β}
    (tracks : Tracks fits { machine with trials := machine.trials + 1 }
      (exec trial { machine with trials := machine.trials + 1 }) result) :
    (∃ value position value', (speculate trial).run machine =
        (some value, { machine with position := position }) ∧ result = .ok value' ∧
        fits value { machine with position := position, trials := machine.trials + 1 } value') ∨
      ∃ error, (speculate trial).run machine = (none, machine) ∧ result = .error error := by
  have unfolded : (speculate trial).run machine =
      match exec trial { machine with trials := machine.trials + 1 } with
      | (.ok value, after) => (some value, { after with trials := after.trials - 1 })
      | (.error _, after) =>
          (none, { after with
            position := machine.position
            errors := after.errors.drop (after.errors.length - machine.errors.length)
            trials := after.trials - 1 }) := by
    simp only [speculate, exec, StateT.run_bind, StateT.run_get, StateT.run_modify,
      ExceptT.run, pure_bind, bind_pure_comp]
    generalize (StateT.run trial { machine with trials := machine.trials + 1 } :
      Except SyntaxError α × Machine) = outcome
    obtain ⟨value, after⟩ := outcome
    cases value <;> rfl
  obtain ⟨value, after, value', ran, came, kept, same⟩ | ⟨error, after, ran, came, kept⟩ :=
    tracks.cases
  · have moved := kept.eq_of_trial
    rw [ran] at unfolded
    rw [moved] at unfolded same
    exact .inl ⟨value, after.position, value', unfolded, came, same⟩
  · rw [ran] at unfolded
    rw [kept.eq_of_trial] at unfolded
    simp only [Nat.sub_self, List.drop_zero] at unfolded
    exact .inr ⟨error, unfolded, came⟩

/-- Looking ahead leaves no trace. -/
theorem lookahead_run {trial : Run Bool} {result : Except SyntaxError Bool}
    (tracks : Tracks (fun answer _ answer' => answer = answer')
      { machine with trials := machine.trials + 1 }
      (exec trial { machine with trials := machine.trials + 1 }) result) :
    (lookahead trial).run machine = (result.toOption.getD false, machine) := by
  obtain ⟨answer, place, _, ran, rfl, rfl⟩ | ⟨error, ran, rfl⟩ := speculate_run tracks
  · simp only [lookahead, StateT.run_bind, StateT.run_get, pure_bind, ran]
    rfl
  · simp only [lookahead, StateT.run_bind, StateT.run_get, pure_bind, ran]
    rfl

end Trials

end Machine

open Machine

mutual

/-- A phrase on the machine comes to what the phrase comes to. -/
theorem Phrase.drive_follows {context : Context} {depth : Nat} {acts : Rule → Context → Act}
    {rules : Rule → Context → Step} (follows : RulesFollow context depth acts rules) :
    (phrase : Phrase) → (trials : Nat) → Follows trials depth (phrase.drive acts context)
      (phrase.run rules (context.during trials))
  | .nothing, _ => fun _ _ _ mirrors => tracks_pure mirrors
  | .absent, _ => step_follows fun _ _ => rfl
  | .absentFirst, _ => fun slots machine state mirrors => by
      refine .ok (.refl machine) { mirrors with slots := ?_ }
      exact congrArg (· ++ [Element.absent]) mirrors.slots
  | .dropAbsent, _ => step_follows .dropAbsent
  | .take, _ => step_follows (.take context)
  | .expect kind, _ => expect_follows context kind
  | .noViable construct, _ => noViable_follows context construct
  | .require requirement, trials => fun slots machine state mirrors => by
      simp only [Phrase.drive, Phrase.run, mirrors.slots]
      cases requirement.violation? slots with
      | none => exact tracks_pure mirrors
      | some error =>
          change Tracks _ _ _ (state.report (context.during trials) error)
          rw [← bind_pure (state.report (context.during trials) error)]
          exact (report_tracks context error mirrors).bind fun _ _ _ later => tracks_pure later.1
  | .call rule, trials => follows.follow trials rule
  | .seq first second, trials => fun slots machine state mirrors =>
      (first.drive_follows follows trials slots machine state mirrors).bind
        (second.drive_follows follows trials)
  | .choose condition yes no, trials => fun slots machine state mirrors => by
      simp only [Phrase.drive, Phrase.run]
      rw [exec_lift_bind, condition.check_eq follows trials mirrors]
      exact .ite Iff.rfl (fun _ => yes.drive_follows follows trials slots _ _ mirrors)
        fun _ => no.drive_follows follows trials slots _ _ mirrors
  | .frame lead body, trials => inFrame_follows lead (body.drive_follows follows trials)
  | .close kind, _ => step_follows (.close context kind)
  | .many body, trials => fun slots machine state mirrors => by
      simp only [Phrase.drive, Phrase.run, exec_get_bind, mirrors.remaining context]
      exact iterate_follows (body.drive_follows follows trials) _ slots _ _ mirrors
  | .whenAdvanced body next, trials => fun slots machine state mirrors => by
      simp only [Phrase.drive, Phrase.run, exec_get_bind]
      refine (body.drive_follows follows trials slots _ _ mirrors).bind ?_
      intro read after state' later
      rw [exec_get_bind]
      refine .ite ?_ (fun _ => next.drive_follows follows trials read _ _ later)
        fun _ => tracks_pure later
      rw [mirrors.position, later.position]
  | .progress body, trials => progress_follows context (body.drive_follows follows trials)
  | .attempt trial accept yes no, trials => fun slots machine state mirrors => by
      have skipped := no.drive_follows follows trials slots _ _ mirrors
      have tried := trial.drive_follows follows (trials + 1) slots _ _ mirrors.opened
      simp only [Phrase.drive, Phrase.run, exec_get_bind]
      rw [exec_lift_bind]
      obtain ⟨read, place, after, ran, came, later⟩ | ⟨error, ran, came⟩ := speculate_run tried
      · have fits := later.closed (follows.quiet came) mirrors
        simp only [ran, Context.trial_during, came]
        rw [exec_lift_bind, accept.check_eq follows trials fits]
        cases accept.holds rules (context.during trials) after with
        | true =>
            exact .since (.moved machine place) (yes.drive_follows follows trials read _ _ fits)
        | false => exact skipped
      · rw [ran, Context.trial_during, came]
        exact skipped
  | .operators operand type, trials =>
      operators_follows context (operand.drive_follows follows trials)
        (type.drive_follows follows trials)
  | .prefixed link last, trials => fun slots machine state mirrors => by
      simp only [Phrase.drive, Phrase.run, exec_get_bind, mirrors.remaining context]
      exact prefixed_follows context (link.drive_follows follows trials)
        (last.drive_follows follows trials) _ _ slots _ _ mirrors
  | .chain kind link more last, trials => fun slots machine state mirrors => by
      simp only [Phrase.drive, Phrase.run, exec_get_bind, mirrors.remaining context]
      exact chain_follows context (link.drive_follows follows trials)
        (last.drive_follows follows trials) (fun _ _ _ => more.check_eq follows trials) _ _
        slots _ _ mirrors

/-- A condition is found out without a trace. -/
theorem Condition.check_eq {context : Context} {depth : Nat} {acts : Rule → Context → Act}
    {rules : Rule → Context → Step} (follows : RulesFollow context depth acts rules) :
    (condition : Condition) → (trials : Nat) →
      ∀ {slots : List Element} {machine : Machine} {state : State},
        Mirrors trials depth slots machine state →
          (condition.check acts context slots).run machine =
            (condition.holds rules (context.during trials) state, machine)
  | .next distance kinds, trials, slots, machine, state, mirrors => by
      simp only [Condition.holds, ← mirrors.kindAt context]
      rfl
  | .shape shape, trials, slots, machine, state, mirrors => by
      simp only [Condition.holds, mirrors.slots]
      rfl
  | .not condition, trials, slots, machine, state, mirrors => by
      simp only [Condition.check, Condition.holds, StateT.run_bind,
        condition.check_eq follows trials mirrors]
      rfl
  | .and left right, trials, slots, machine, state, mirrors => by
      simp only [Condition.check, Condition.holds, StateT.run_bind,
        left.check_eq follows trials mirrors]
      cases left.holds rules (context.during trials) state with
      | true => exact right.check_eq follows trials mirrors
      | false => rfl
  | .or left right, trials, slots, machine, state, mirrors => by
      simp only [Condition.check, Condition.holds, StateT.run_bind,
        left.check_eq follows trials mirrors]
      cases left.holds rules (context.during trials) state with
      | true => rfl
      | false => exact right.check_eq follows trials mirrors
  | .ahead trial afterwards, trials, slots, machine, state, mirrors => by
      have tried := trial.drive_follows follows (trials + 1) slots _ _ mirrors.opened
      have asked : ∀ read after state', Mirrors (trials + 1) depth read after state' →
          Tracks (fun answer _ answer' => answer = answer') after
            (exec (liftM (afterwards.check acts context read) : Run Bool) after)
            (.ok (afterwards.holds rules (context.during (trials + 1)) state')) := by
        intro read after state' later
        have same := afterwards.check_eq follows (trials + 1) later
        rw [← bind_pure (liftM _ : Run Bool), exec_lift_bind, same]
        exact .ok (.refl after) rfl
      have both := tried.bind asked
      refine (lookahead_run both).trans ?_
      simp only [Condition.holds, Context.trial_during]
      cases trial.run rules (context.during (trials + 1)) state <;> rfl

end

end JavaSyntax
