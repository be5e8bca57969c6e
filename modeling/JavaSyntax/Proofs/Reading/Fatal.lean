import JavaSyntax.Proofs.Fuel.Unlimited
import JavaSyntax.Proofs.Lossless

/-!
# Where a reading nests too deep

The only errors that no rule recovers from are those of readings that nest too deep.  Such an
error points at the token at which the last rule was called.  If the rules that a phrase calls
from some place on fail only from a place on, so does the phrase.
-/

namespace JavaSyntax

/-- A fatal result points at a token that is not before a place. -/
def DeepFrom {α : Type} (context : Context) (bound : Nat) (result : Except SyntaxError α) : Prop :=
  ∀ error, result = .error error → error.isFatal = true →
    ∃ place, bound ≤ place ∧ error = ⟨.tooDeeplyNested context.limit, (context.get place).span⟩

/-- A step that moves the cursor forward and, where it starts at `origin` or later, nests too
deep only at `bound` or later. -/
structure FailsFrom (context : Context) (origin bound : Nat) (step : Step) : Prop where
  forward : ∀ before after, step before = .ok after → before.position ≤ after.position
  fails : ∀ before : State, origin ≤ before.position → DeepFrom context bound (step before)

namespace DeepFrom

variable {α β : Type} {context : Context} {bound later : Nat}

theorem ok (value : α) : DeepFrom context bound (.ok value) := by
  intro error failed
  cases failed

theorem mono {result : Except SyntaxError α} (deep : DeepFrom context later result)
    (before : bound ≤ later) : DeepFrom context bound result := by
  intro error failed fatal
  obtain ⟨place, ahead, same⟩ := deep error failed fatal
  exact ⟨place, Nat.le_trans before ahead, same⟩

/-- An error from which a rule recovers is not fatal. -/
theorem ofMild {result : Except SyntaxError α}
    (mild : ∀ error, result = .error error → error.isFatal = false) :
    DeepFrom context bound result := by
  intro error failed fatal
  rw [mild error failed] at fatal
  cases fatal

theorem bind {first : Except SyntaxError α} {next : α → Except SyntaxError β}
    (deep : DeepFrom context bound first)
    (rest : ∀ value, first = .ok value → DeepFrom context bound (next value)) :
    DeepFrom context bound (first >>= next) := by
  cases first with
  | error error => exact fun other failed => deep other (by cases failed; rfl)
  | ok value => exact rest value rfl

end DeepFrom

namespace State

variable {context : Context} {step : Step} {origin bound : Nat}

theorem report_deepFrom {state : State} {error : SyntaxError} (mild : error.isFatal = false) :
    DeepFrom context bound (state.report context error) := by
  refine .ofMild fun other failed => ?_
  simp only [report] at failed
  split at failed
  · split at failed
    · split at failed <;> cases failed
    · cases failed
  · cases failed
    exact mild

theorem inFrame_deepFrom {state : State} {lead : Nat}
    (deep : DeepFrom context bound (step { state with slots := state.slots.take lead })) :
    DeepFrom context bound (state.inFrame lead step) :=
  deep.bind fun _ _ => .ok _

theorem expect_deepFrom (state : State) (kind : TokenKind) :
    DeepFrom context bound (state.expect context kind) := by
  simp only [expect]
  split
  · exact .ok _
  · refine (report_deepFrom rfl).bind fun reported _ => ?_
    split
    · exact .ok _
    · exact .ok _

theorem noViable_deepFrom (state : State) (construct : Construct) :
    DeepFrom context bound (state.noViable context construct) := by
  refine (report_deepFrom rfl).bind fun reported _ => inFrame_deepFrom ?_
  split <;> exact .ok _

theorem progress_deepFrom (ahead : FailsFrom context origin bound step) {state : State}
    (later : origin ≤ state.position) : DeepFrom context bound (state.progress context step) := by
  refine inFrame_deepFrom (.bind (ahead.fails _ later) fun result _ => ?_)
  split <;> exact .ok _

theorem iterate_deepFrom (ahead : FailsFrom context origin bound step) (rounds : Nat)
    {state : State} (later : origin ≤ state.position) :
    DeepFrom context bound (iterate step rounds state) := by
  induction rounds generalizing state with
  | zero => exact ahead.fails state later
  | succ rounds ih =>
      refine (ahead.fails state later).bind fun next read => ?_
      split
      · exact ih (Nat.le_trans later (ahead.forward _ _ read))
      · exact .ok _

/-- What is collected in a frame is followed by what starts no earlier. -/
theorem collect_deepFrom {β : Type} (ahead : FailsFrom context origin bound step) {state : State}
    (later : origin ≤ state.position) {next : List Element × State → Except SyntaxError β}
    (rest : ∀ slots (after : State), origin ≤ after.position →
      DeepFrom context bound (next (slots, after))) :
    DeepFrom context bound (state.collect step >>= next) := by
  have collected : DeepFrom context bound (state.collect step) :=
    (ahead.fails { state with slots := [] } later).bind fun _ _ => .ok _
  refine collected.bind fun (slots, after) read => rest slots after ?_
  obtain ⟨inner, stepped, -, rfl⟩ := collect_eq_ok.mp read
  exact Nat.le_trans later (ahead.forward { state with slots := [] } inner stepped)

theorem take_forward (context : Context) (state : State) :
    state.position ≤ (state.take context).position := by
  have taken : Moves context .any state (state.take context) := .takeUnlessEnded context state
  exact taken.forward_any

section Loops

variable {operand type link last : Step}

theorem climb_deepFrom (operands : FailsFrom context origin bound operand)
    (types : FailsFrom context origin bound type) (rounds : Nat) (stack : List Pending)
    (left : List Element) {state : State} (later : origin ≤ state.position) :
    DeepFrom context bound (climb context operand type rounds stack left state) := by
  induction rounds generalizing stack left state with
  | zero => exact .ok _
  | succ rounds ih =>
      simp only [climb]
      split
      · exact .ok _
      · rename_i level width _
        split
        · have typed : FailsFrom context origin bound fun inner => type (inner.take context) :=
            ⟨fun before after read => Nat.le_trans (take_forward context before)
                (types.forward _ _ read),
              fun before start => types.fails _ (Nat.le_trans start (take_forward context before))⟩
          exact collect_deepFrom typed later fun right after start => ih _ _ start
        · have takes : FailsFrom context origin bound fun inner =>
              .ok (inner.takeMany context width) := by
            refine ⟨fun before after read => ?_, fun _ _ => .ok _⟩
            cases read
            have taken : Moves context .any before _ := .takeMany context width before
            exact taken.forward_any
          refine collect_deepFrom takes later fun operator before start => ?_
          exact collect_deepFrom operands start fun right after start => ih _ _ start

theorem operators_deepFrom (operands : FailsFrom context origin bound operand)
    (types : FailsFrom context origin bound type) {state : State}
    (later : origin ≤ state.position) :
    DeepFrom context bound (operators context operand type state) :=
  collect_deepFrom operands later fun _ _ start => climb_deepFrom operands types _ _ _ start

theorem closePrefixes_deepFrom (ends : FailsFrom context origin bound last)
    (prefixes : List (List Element)) {state : State} (later : origin ≤ state.position) :
    DeepFrom context bound (closePrefixes context last prefixes state) := by
  unfold closePrefixes
  split
  · exact inFrame_deepFrom (ends.fails _ later)
  · exact .bind (ends.fails _ later) fun _ _ => .ok _

theorem prefixed_deepFrom (links : FailsFrom context origin bound link)
    (ends : FailsFrom context origin bound last) (rounds : Nat) (prefixes : List (List Element))
    {state : State} (later : origin ≤ state.position) :
    DeepFrom context bound (prefixed context link last rounds prefixes state) := by
  induction rounds generalizing prefixes state with
  | zero => exact closePrefixes_deepFrom ends prefixes later
  | succ rounds ih =>
      refine collect_deepFrom links later fun slots after start => ?_
      simp only
      split
      · exact ih _ start
      · exact closePrefixes_deepFrom ends _ start

theorem chain_deepFrom (links : FailsFrom context origin bound link)
    (ends : FailsFrom context origin bound last) (kind : NodeKind) (more : State → Bool)
    (rounds : Nat) (outer : List (List Element)) {state : State}
    (later : origin ≤ state.position) :
    DeepFrom context bound (chain context kind link more last rounds outer state) := by
  have closing (outer : List (List Element)) (base : List Element) {inner : State}
      (start : origin ≤ inner.position) :
      DeepFrom context bound (closeChain context kind last outer base inner) :=
    (ends.fails inner start).bind fun _ _ => .ok _
  induction rounds generalizing outer state with
  | zero =>
      refine (links.fails { state with slots := [] } later).bind fun inner read => ?_
      exact closing _ _ (Nat.le_trans later (links.forward { state with slots := [] } inner read))
  | succ rounds ih =>
      refine (links.fails { state with slots := [] } later).bind fun inner read => ?_
      have start := Nat.le_trans later (links.forward { state with slots := [] } inner read)
      split
      · exact ih _ (Nat.le_trans start (take_forward context inner))
      · exact closing _ _ start

end Loops

end State

namespace Phrase

variable {rules : Rule → Context → Step} {context : Context} {origin bound : Nat}
  (moving : ∀ (rule : Rule) (context : Context), Moving context .any (rules rule context))
  (fails : ∀ (rule : Rule) (state : State), origin ≤ state.position →
    DeepFrom context bound (rules rule context state))

include moving

theorem run_forward {context : Context} (phrase : Phrase) (before after : State)
    (read : phrase.run rules context before = .ok after) : before.position ≤ after.position :=
  (phrase.run_moving (moving · _) (moving · _) phrase.closesOnly_any _ _ read).forward_any

include fails

/-- A phrase nests too deep only where the rules it calls do.  The induction is over the
phrase; a trial that fails is no failure. -/
theorem run_failsFrom :
    (phrase : Phrase) → FailsFrom context origin bound (phrase.run rules context)
  | .nothing | .absent | .absentFirst | .dropAbsent | .take | .close _ =>
      ⟨run_forward moving _, fun _ _ => .ok _⟩
  | .expect kind => ⟨run_forward moving _, fun before _ => before.expect_deepFrom kind⟩
  | .noViable construct =>
      ⟨run_forward moving _, fun before _ => before.noViable_deepFrom construct⟩
  | .require requirement => ⟨run_forward moving _, fun before _ => by
      simp only [run]
      split
      · exact State.report_deepFrom (Requirement.isFatal_of_violation ‹_›)
      · exact .ok _⟩
  | .call rule => ⟨run_forward moving _, fails rule⟩
  | .seq first second => ⟨run_forward moving _, fun before later =>
      ((run_failsFrom first).fails before later).bind fun middle read =>
        (run_failsFrom second).fails middle
          (Nat.le_trans later (run_forward moving first _ _ read))⟩
  | .choose condition yes no => ⟨run_forward moving _, fun before later => by
      simp only [run]
      split
      · exact (run_failsFrom yes).fails before later
      · exact (run_failsFrom no).fails before later⟩
  | .frame lead body => ⟨run_forward moving _, fun before later =>
      State.inFrame_deepFrom ((run_failsFrom body).fails _ later)⟩
  | .many body => ⟨run_forward moving _, fun _ later =>
      State.iterate_deepFrom (run_failsFrom body) _ later⟩
  | .whenAdvanced body next => ⟨run_forward moving _, fun before later =>
      ((run_failsFrom body).fails before later).bind fun middle read => by
        split
        · exact (run_failsFrom next).fails middle
            (Nat.le_trans later (run_forward moving body _ _ read))
        · exact .ok _⟩
  | .progress body => ⟨run_forward moving _, fun _ later =>
      State.progress_deepFrom (run_failsFrom body) later⟩
  | .attempt trial accept yes no => ⟨run_forward moving _, fun before later => by
      have skipped := (run_failsFrom no).fails before later
      simp only [run]
      split
      · rename_i tried fitted
        split
        · exact (run_failsFrom yes).fails tried
            (Nat.le_trans later (run_forward moving trial _ _ fitted))
        · exact skipped
      · exact skipped⟩
  | .operators operand type => ⟨run_forward moving _, fun _ later =>
      State.operators_deepFrom (run_failsFrom operand) (run_failsFrom type) later⟩
  | .prefixed link last => ⟨run_forward moving _, fun _ later =>
      State.prefixed_deepFrom (run_failsFrom link) (run_failsFrom last) _ _ later⟩
  | .chain kind link more last => ⟨run_forward moving _, fun _ later =>
      State.chain_deepFrom (run_failsFrom link) (run_failsFrom last) kind _ _ _ later⟩

end Phrase

/-- A rule that nests too deep does so from the token on at which it starts. -/
theorem readRule_deepFrom (grammar : Rule → Phrase) (depth : Nat) (rule : Rule)
    (context : Context) (state : State) :
    DeepFrom context state.position (readRule grammar depth rule context state) := by
  induction depth generalizing rule state with
  | zero =>
      intro error failed _
      cases failed
      exact ⟨state.position, Nat.le_refl _, rfl⟩
  | succ depth ih =>
      refine ((grammar rule).run_failsFrom (readRule_moving grammar depth) ?_).fails state
        (Nat.le_refl _)
      exact fun rule later start => (ih rule later).mono start

end JavaSyntax
