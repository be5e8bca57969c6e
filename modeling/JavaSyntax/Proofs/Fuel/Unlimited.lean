import JavaSyntax.Proofs.Fuel.Reading
import JavaSyntax.Proofs.Reading.Compare

/-!
# Nesting that outlasts the fuel

With at least as many nesting levels as fuel, a reading on fuel runs out of fuel before it
reaches the limit.  So it does not depend on the limit, and it neither hands back nor records
the one error that is fatal.
-/

namespace JavaSyntax

/-- No error of a list is fatal. -/
def Harmless (errors : List SyntaxError) : Prop :=
  errors.any SyntaxError.isFatal = false

namespace Fueled

/-- Two readings on fuel that start with the errors `start` are the same, and nothing in them
is fatal. -/
structure Agree {α : Type} (errors : α → List SyntaxError) (start : List SyntaxError)
    (left right : Fueled α) : Prop where
  same : left = right
  raised : ∀ error, left = some (.error error) → error.isFatal = false
  recorded : ∀ result, left = some (.ok result) → Harmless start → Harmless (errors result)

/-- Two steps on fuel that are alike from every state. -/
def StepsAgree (left right : FueledStep) : Prop :=
  ∀ state : State, Agree State.errors state.errors (left state) (right state)

namespace Agree

variable {α β : Type} {errors : α → List SyntaxError} {errors' : β → List SyntaxError}
  {start : List SyntaxError}

theorem none : Agree errors start Option.none Option.none where
  same := rfl
  raised := by
    intro _ failed
    cases failed
  recorded := by
    intro _ read
    cases read

theorem pure {result : α} (same : errors result = start) :
    Agree errors start (pure result) (pure result) where
  same := rfl
  raised := by
    intro _ failed
    cases failed
  recorded := by
    intro _ read harmless
    cases read
    exact same ▸ harmless

theorem bind {left right : Fueled α} {next next' : α → Fueled β}
    (head : Agree errors start left right)
    (tail : ∀ value, Agree errors' (errors value) (next value) (next' value)) :
    Agree errors' start (left >>= next) (right >>= next') := by
  obtain ⟨rfl, raised, recorded⟩ := head
  obtain rfl : next = next' := funext fun value => (tail value).same
  match left, raised, recorded with
  | .none, _, _ => exact .none
  | some (.error error), raised, _ =>
      exact ⟨rfl, fun other failed => raised other (by cases failed; rfl),
        fun _ read => by cases read⟩
  | some (.ok value), _, recorded =>
      have rest := tail value
      exact ⟨rfl, rest.raised, fun result read harmless =>
        rest.recorded result read (recorded value rfl harmless)⟩

theorem weaken {earlier : List SyntaxError} {left right : Fueled α}
    (alike : Agree errors start left right) (known : Harmless earlier → Harmless start) :
    Agree errors earlier left right :=
  ⟨alike.same, alike.raised, fun result read harmless =>
    alike.recorded result read (known harmless)⟩

/-- Both readings decide alike. -/
theorem decide {decision decision' : Option Bool} {next next' : Bool → Fueled β}
    (same : decision = decision')
    (tail : ∀ decided, Agree errors' start (next decided) (next' decided)) :
    Agree errors' start ((liftM decision : Fueled Bool) >>= next)
      ((liftM decision' : Fueled Bool) >>= next') := by
  subst same
  cases decision with
  | none => exact .none
  | some decided => exact tail decided

theorem ite {condition : Prop} [Decidable condition] {yes yes' no no' : Fueled α}
    (whenTrue : Agree errors start yes yes') (whenFalse : Agree errors start no no') :
    Agree errors start (if condition then yes else no) (if condition then yes' else no') := by
  split
  · exact whenTrue
  · exact whenFalse

end Agree

section Loops

variable {left right : FueledStep}

theorem inFrame_agree (lead : Nat) (steps : StepsAgree left right) :
    StepsAgree (fun state => inFrame state lead left) fun state => inFrame state lead right :=
  fun state => .bind (steps { state with slots := state.slots.take lead }) fun _ => .pure rfl

theorem collect_agree (steps : StepsAgree left right) (state : State) :
    Agree (fun result => result.2.errors) state.errors (collect state left) (collect state right) :=
  .bind (steps { state with slots := [] }) fun _ => .pure rfl

theorem loop_agree {declines declines' : State → Option Bool} (decides : declines = declines')
    (steps : StepsAgree left right) (rounds : Nat) :
    StepsAgree (loop declines left rounds) (loop declines' right rounds) := by
  induction rounds with
  | zero => exact fun _ => .none
  | succ rounds ih =>
      intro state
      refine .decide (congrFun decides state) fun declined => .ite (.pure rfl) ?_
      exact .bind (steps state) ih

variable (context : Context) (limit : Nat) (recovery : Bool)

theorem progress_agree (steps : StepsAgree left right) :
    StepsAgree (fun state => progress (context.under limit recovery) state left)
      fun state => progress context state right := by
  intro state
  refine inFrame_agree 0 (fun inner => .bind (steps inner) fun result => ?_) state
  exact .ite (.pure rfl) (.pure (by simp [State.swallow]))

theorem climb_agree {type type' : FueledStep} (operands : StepsAgree left right)
    (types : StepsAgree type type') (rounds : Nat) (stack : List Pending) (before : List Element) :
    StepsAgree (climb (context.under limit recovery) left type rounds stack before)
      (climb context right type' rounds stack before) := by
  induction rounds generalizing stack before with
  | zero => exact fun _ => .none
  | succ rounds ih =>
      intro state
      have same : state.operator? (context.under limit recovery) = state.operator? context := rfl
      simp only [climb, same]
      cases state.operator? context with
      | none =>
          simp only [State.closeOperators_under]
          exact .pure rfl
      | some found =>
          obtain ⟨level, width⟩ := found
          simp only [State.reduce_under, State.takeMany_under]
          refine .ite ?_ ?_
          · have tests : StepsAgree (fun inner => type (inner.take (context.under limit recovery)))
                fun inner => type' (inner.take context) := by
              intro inner
              have known := types (inner.take context)
              rwa [State.errors_take] at known
            exact .bind (collect_agree tests state) fun result => ih _ _ result.2
          · have taken : StepsAgree (fun inner => pure (inner.takeMany context width))
                fun inner => pure (inner.takeMany context width) :=
              fun inner => .pure (State.errors_takeMany context width inner)
            refine .bind (collect_agree taken state) fun result => ?_
            exact .bind (collect_agree operands result.2) fun result => ih _ _ result.2

theorem closePrefixes_agree (lasts : StepsAgree left right) (prefixes : List (List Element)) :
    StepsAgree (closePrefixes (context.under limit recovery) left prefixes)
      (closePrefixes context right prefixes) := by
  intro state
  cases prefixes with
  | nil => exact inFrame_agree 0 lasts state
  | cons inmost outer =>
      exact .bind (lasts { state with slots := inmost.reverse }) fun _ => .pure rfl

theorem prefixed_agree {declines declines' : State → Option Bool} {link link' : FueledStep}
    (decides : declines = declines') (links : StepsAgree link link') (lasts : StepsAgree left right)
    (rounds : Nat) (prefixes : List (List Element)) :
    StepsAgree (prefixed (context.under limit recovery) declines link left rounds prefixes)
      (prefixed context declines' link' right rounds prefixes) := by
  induction rounds generalizing prefixes with
  | zero => exact fun _ => .none
  | succ rounds ih =>
      intro state
      refine .decide (congrFun decides _) fun declined => .ite ?_ ?_
      · exact closePrefixes_agree context limit recovery lasts prefixes state
      · exact .bind (collect_agree links state) fun result => ih _ result.2

theorem closeChain_agree (kind : NodeKind) (lasts : StepsAgree left right)
    (outer : List (List Element)) (base : List Element) :
    StepsAgree (closeChain (context.under limit recovery) kind left outer base)
      (closeChain context kind right outer base) :=
  fun inner => .bind (lasts inner) fun _ => .pure rfl

theorem chain_agree (kind : NodeKind) {more more' : State → Option Bool} {link link' : FueledStep}
    (decides : more = more') (links : StepsAgree link link') (lasts : StepsAgree left right)
    (rounds : Nat) (outer : List (List Element)) :
    StepsAgree (chain (context.under limit recovery) kind link more left rounds outer)
      (chain context kind link' more' right rounds outer) := by
  induction rounds generalizing outer with
  | zero => exact fun _ => .none
  | succ rounds ih =>
      intro state
      refine .bind (links { state with slots := [] }) fun inner =>
        .decide (congrFun decides inner) fun goes => .ite ?_ ?_
      · have rest := ih ((inner.take context).gathered :: outer)
          { inner.take context with slots := state.slots }
        exact State.errors_take context inner ▸ rest
      · exact closeChain_agree context limit recovery kind lasts outer state.slots inner

end Loops

section Reports

variable (context : Context)

/-- What is read without fuel counts as read on it. -/
theorem Agree.done {α : Type} {errors : α → List SyntaxError} {start : List SyntaxError}
    {result : Except SyntaxError α}
    (raised : ∀ error, result = .error error → error.isFatal = false)
    (recorded : ∀ value, result = .ok value → Harmless start → Harmless (errors value)) :
    Agree errors start (some result) (some result) :=
  ⟨rfl, fun error failed => raised error (Option.some.inj failed),
    fun value read => recorded value (Option.some.inj read)⟩

theorem report_agree {error : SyntaxError} (mild : error.isFatal = false) (state : State) :
    Agree State.errors state.errors (some (state.report context error))
      (some (state.report context error)) := by
  rw [State.report]
  have known (errors : List SyntaxError) (harmless : Harmless errors) :
      Harmless (error :: errors) := by
    rw [Harmless, List.any_cons, mild]
    exact harmless
  split
  · split
    · rename_i errors
      split
      · exact .pure rfl
      · exact .done (fun _ failed => nomatch failed) fun value read harmless => by
          cases read
          exact known _ harmless
    · exact .done (fun _ failed => nomatch failed) fun value read _ => by
        cases read
        exact known [] rfl
  · refine .done (fun other failed => ?_) fun _ read => nomatch read
    cases failed
    exact mild

/-- Steps without fuel may follow one another on fuel. -/
theorem Agree.andThen {α β : Type} {errors : α → List SyntaxError}
    {errors' : β → List SyntaxError} {start : List SyntaxError}
    {left right : Except SyntaxError α}
    {next next' : α → Except SyntaxError β} (head : Agree errors start (some left) (some right))
    (tail : ∀ value, Agree errors' (errors value) (some (next value)) (some (next' value))) :
    Agree errors' start (some (left >>= next)) (some (right >>= next')) := by
  have whole := Agree.bind head tail
  cases left <;> cases right <;> exact whole

theorem expect_agree (kind : TokenKind) :
    StepsAgree (fun state => some (state.expect context kind))
      fun state => some (state.expect context kind) := by
  intro state
  simp only [State.expect]
  split
  · exact .pure (State.errors_take context state)
  · refine .andThen (report_agree context (by rfl) state) fun reported => ?_
    split
    · exact .pure (by simp)
    · exact .pure rfl

theorem noViable_agree (construct : Construct) :
    StepsAgree (fun state => some (state.noViable context construct))
      fun state => some (state.noViable context construct) := by
  intro state
  simp only [State.noViable]
  refine .andThen (report_agree context (by rfl) state) fun reported => ?_
  split
  · exact .pure rfl
  · exact .pure (State.errors_take context { reported with slots := [] })

end Reports

end Fueled

/-- A violation of a requirement is no fatal error. -/
theorem Requirement.isFatal_of_violation {requirement : Requirement} {slots : List Element}
    {error : SyntaxError} (violates : requirement.violation? slots = some error) :
    error.isFatal = false := by
  cases requirement with
  | statementExpression =>
      simp only [violation?] at violates
      split at violates
      · split at violates
        · cases violates
        · cases violates
          rfl
      · cases violates
  | handler =>
      simp only [violation?] at violates
      split at violates
      · cases violates
        rfl
      · cases violates

open Fueled

section Phrases

/-- Rules that are read alike under a limit and without it. -/
def RulesAgree (limit : Nat) (rules rules' : Rule → Context → FueledStep) : Prop :=
  ∀ rule context,
    StepsAgree (rules rule (context.under limit context.recovery)) (rules' rule context)

variable {rules rules' : Rule → Context → FueledStep} {limit : Nat}

mutual

/-- A phrase is read alike under both limits, if the rules it calls are. -/
theorem Phrase.runWithin_agree (alike : RulesAgree limit rules rules') (fuel : Nat) :
    (phrase : Phrase) → (context : Context) →
    StepsAgree (phrase.runWithin rules fuel (context.under limit context.recovery))
      (phrase.runWithin rules' fuel context)
  | .nothing, _ | .absent, _ | .absentFirst, _ | .close _, _ => fun _ => .pure rfl
  | .dropAbsent, _ => fun state => .pure (by
      unfold State.dropAbsent
      split <;> rfl)
  | .take, context => fun state => .pure (State.errors_take context state)
  | .expect kind, context => expect_agree context kind
  | .noViable construct, context => noViable_agree context construct
  | .require requirement, context => fun state => by
      simp only [Phrase.runWithin]
      cases violates : requirement.violation? state.slots with
      | none => exact .pure rfl
      | some error =>
          exact report_agree context (Requirement.isFatal_of_violation violates) state
  | .call rule, context => alike rule context
  | .seq first second, context => fun state =>
      .bind (first.runWithin_agree alike fuel context state)
        (second.runWithin_agree alike fuel context)
  | .choose condition yes no, context => fun state =>
      .decide (congrFun (condition.holdsWithin_same alike fuel context) state) fun _ =>
        .ite (yes.runWithin_agree alike fuel context state)
          (no.runWithin_agree alike fuel context state)
  | .frame lead body, context => inFrame_agree lead (body.runWithin_agree alike fuel context)
  | .many body, context =>
      loop_agree (body.declinesWithin_same alike fuel context)
        (body.runWithin_agree alike fuel context) fuel
  | .whenAdvanced body next, context => fun state =>
      .bind (body.runWithin_agree alike fuel context state) fun after =>
        .ite (next.runWithin_agree alike fuel context after) (.pure rfl)
  | .progress body, context =>
      progress_agree context limit _ (body.runWithin_agree alike fuel context)
  | .attempt trial accept yes no, context => fun state => by
      have tried := (trial.runWithin_agree alike fuel context.trial state).same
      have skipped := no.runWithin_agree alike fuel context state
      have trials : (context.under limit context.recovery).trial =
          context.trial.under limit context.trial.recovery := rfl
      simp only [Phrase.runWithin, trials, tried]
      match came : trial.runWithin rules' fuel context.trial state with
      | none => exact .none
      | some (.error error) => exact skipped
      | some (.ok after) =>
          have harmless := (trial.runWithin_agree alike fuel context.trial state).recorded after
            (tried.trans came)
          have taken := (yes.runWithin_agree alike fuel context after).weaken harmless
          exact .decide (congrFun (accept.holdsWithin_same alike fuel context) after) fun _ =>
            .ite taken skipped
  | .operators operand type, context => fun state =>
      .bind (collect_agree (operand.runWithin_agree alike fuel context) state) fun result =>
        climb_agree context limit _ (operand.runWithin_agree alike fuel context)
          (type.runWithin_agree alike fuel context) fuel _ _ result.2
  | .prefixed link last, context =>
      prefixed_agree context limit _ (link.declinesWithin_same alike fuel context)
        (link.runWithin_agree alike fuel context) (last.runWithin_agree alike fuel context) fuel _
  | .chain kind link more last, context =>
      chain_agree context limit _ kind (more.holdsWithin_same alike fuel context)
        (link.runWithin_agree alike fuel context) (last.runWithin_agree alike fuel context) fuel _

theorem Phrase.declinesWithin_same (alike : RulesAgree limit rules rules') (fuel : Nat) :
    (phrase : Phrase) → (context : Context) →
    phrase.declinesWithin rules fuel (context.under limit context.recovery) =
      phrase.declinesWithin rules' fuel context
  | .nothing, _ | .absent, _ | .absentFirst, _ | .dropAbsent, _ | .take, _ | .expect _, _
  | .noViable _, _ | .require _, _ | .call _, _ | .seq _ _, _ | .frame _ _, _ | .close _, _
  | .many _, _ | .whenAdvanced _ _, _ | .progress _, _ | .operators _ _, _ | .prefixed _ _, _
  | .chain _ _ _ _, _ => rfl
  | .choose condition yes no, context => by
      funext state
      simp only [Phrase.declinesWithin, condition.holdsWithin_same alike fuel context,
        yes.declinesWithin_same alike fuel context, no.declinesWithin_same alike fuel context]
  | .attempt trial accept yes no, context => by
      funext state
      have tried := (trial.runWithin_agree alike fuel context.trial state).same
      have trials : (context.under limit context.recovery).trial =
          context.trial.under limit context.trial.recovery := rfl
      simp only [Phrase.declinesWithin, trials, tried, accept.holdsWithin_same alike fuel context,
        no.declinesWithin_same alike fuel context]

theorem Condition.holdsWithin_same (alike : RulesAgree limit rules rules') (fuel : Nat) :
    (condition : Condition) → (context : Context) →
    condition.holdsWithin rules fuel (context.under limit context.recovery) =
      condition.holdsWithin rules' fuel context
  | .next _ _, _ | .shape _, _ => rfl
  | .not condition, context => by
      funext state
      simp only [Condition.holdsWithin, condition.holdsWithin_same alike fuel context]
  | .and left right, context | .or left right, context => by
      funext state
      simp only [Condition.holdsWithin, left.holdsWithin_same alike fuel context,
        right.holdsWithin_same alike fuel context]
  | .ahead trial afterwards, context => by
      funext state
      have tried := (trial.runWithin_agree alike fuel context.trial state).same
      have trials : (context.under limit context.recovery).trial =
          context.trial.under limit context.trial.recovery := rfl
      simp only [Condition.holdsWithin, trials, tried,
        afterwards.holdsWithin_same alike fuel context.trial]

end

/-- A rule with fuel for no more than the nesting that is allowed is read alike, however much
more is. -/
theorem readRuleWithin_agree (grammar : Rule → Phrase) {fuel depth depth' : Nat}
    (deep : fuel ≤ depth) (deep' : fuel ≤ depth') :
    RulesAgree limit (readRuleWithin grammar fuel depth) (readRuleWithin grammar fuel depth') := by
  induction fuel generalizing depth depth' with
  | zero => exact fun _ _ _ => .none
  | succ fuel ih =>
      obtain ⟨depth, rfl⟩ := Nat.exists_eq_add_one_of_ne_zero (Nat.ne_zero_of_lt deep)
      obtain ⟨depth', rfl⟩ := Nat.exists_eq_add_one_of_ne_zero (Nat.ne_zero_of_lt deep')
      exact fun rule context => (grammar rule).runWithin_agree
        (ih (Nat.le_of_succ_le_succ deep) (Nat.le_of_succ_le_succ deep')) fuel context

end Phrases

end JavaSyntax
