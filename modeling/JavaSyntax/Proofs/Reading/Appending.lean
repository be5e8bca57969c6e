import JavaSyntax.Proofs.Reading.Moves

/-!
# Steps that only append

Most steps leave the slots of their frame alone and put new ones behind them.
Only closing a frame, changing its absent slots, or taking its last slots into a
new frame does more.  Frames, operators, prefixes and chains append whatever is
read inside them.
-/

namespace JavaSyntax

/-- A step that keeps the slots of the frame below those it adds. -/
def Appending (step : Step) : Prop :=
  ∀ before after, step before = .ok after → before.slots <:+ after.slots

namespace State

variable {context : Context} {step : Step}

theorem take_appends (state : State) : state.slots <:+ (state.take context).slots := by
  unfold take
  split
  · exact List.suffix_refl _
  · exact List.suffix_cons _ _

theorem slots_report {state after : State} {error : SyntaxError}
    (read : state.report context error = .ok after) : after.slots = state.slots := by
  simp only [report] at read
  split at read
  · split at read
    · split at read <;> cases read <;> rfl
    · cases read
      rfl
  · cases read

/-- A frame of its own appends, whatever is done in it. -/
theorem inFrame_appending (step : Step) : Appending (fun state => state.inFrame 0 step) := by
  intro before after read
  obtain ⟨inner, _, rfl⟩ := inFrame_eq_ok.mp read
  exact ⟨inner.slots, by simp [onto]⟩

theorem expect_appending (kind : TokenKind) :
    Appending (fun state => state.expect context kind) := by
  intro before after read
  simp only [expect] at read
  split at read
  · cases read
    exact take_appends before
  · obtain ⟨reported, recorded, rest⟩ := bind_eq_ok.mp read
    rw [← slots_report recorded]
    split at rest
    · obtain ⟨skipped, stepped, taken⟩ := bind_eq_ok.mp rest
      cases taken
      exact (inFrame_appending _ _ _ stepped).trans (take_appends skipped)
    · cases rest
      exact List.suffix_cons _ _

theorem noViable_appending (construct : Construct) :
    Appending (fun state => state.noViable context construct) := by
  intro before after read
  obtain ⟨reported, recorded, rest⟩ := bind_eq_ok.mp read
  rw [← slots_report recorded]
  exact inFrame_appending _ _ _ rest

theorem progress_appending (step : Step) :
    Appending (fun state => state.progress context step) :=
  fun before after read => inFrame_appending _ before after read

theorem iterate_appending (appending : Appending step) (rounds : Nat) :
    Appending (iterate step rounds) :=
  iterate_relates (·.slots <:+ ·.slots) appending List.IsSuffix.trans rounds

theorem climb_appending {operand type : Step} (rounds : Nat) (stack : List Pending)
    (left : List Element) : Appending (climb context operand type rounds stack left) := by
  induction rounds generalizing stack left with
  | zero =>
      intro before after read
      cases read
      exact List.suffix_append _ _
  | succ rounds ih =>
      intro before after read
      simp only [climb] at read
      split at read
      · cases read
        exact List.suffix_append _ _
      · split at read
        · obtain ⟨⟨right, next⟩, collected, rest⟩ := bind_eq_ok.mp read
          rw [← slots_collect collected]
          exact ih _ _ _ _ rest
        · obtain ⟨⟨operator, middle⟩, taken, rest⟩ := bind_eq_ok.mp read
          obtain ⟨⟨right, next⟩, collected, rest⟩ := bind_eq_ok.mp rest
          rw [← slots_collect taken, ← slots_collect collected]
          exact ih _ _ _ _ rest

theorem operators_appending (operand type : Step) :
    Appending (operators context operand type) := by
  intro before after read
  obtain ⟨⟨left, next⟩, collected, rest⟩ := bind_eq_ok.mp read
  rw [← slots_collect collected]
  exact climb_appending _ _ _ _ _ rest

theorem closePrefixes_appending (last : Step) (prefixes : List (List Element)) :
    Appending (closePrefixes context last prefixes) := by
  intro before after read
  cases prefixes with
  | nil => exact inFrame_appending last before after read
  | cons inmost outer =>
      obtain ⟨inner, _, rest⟩ := bind_eq_ok.mp read
      cases rest
      exact List.suffix_cons _ _

theorem prefixed_appending (link last : Step) (rounds : Nat) (prefixes : List (List Element)) :
    Appending (prefixed context link last rounds prefixes) := by
  induction rounds generalizing prefixes with
  | zero => exact closePrefixes_appending last prefixes
  | succ rounds ih =>
      intro before after read
      obtain ⟨⟨slots, next⟩, collected, rest⟩ := bind_eq_ok.mp read
      rw [← slots_collect collected]
      simp only at rest
      split at rest
      · exact ih _ _ _ rest
      · exact closePrefixes_appending last prefixes _ _ rest

theorem isAbsent_nestRight (state : State) (kind : List Element → NodeKind)
    (frames : List (List Element)) {inmost : Element} (present : inmost.isAbsent = false) :
    (state.nestRight context kind frames inmost).isAbsent = false := by
  induction frames generalizing inmost with
  | nil => exact present
  | cons slots frames ih => exact ih rfl

theorem slots_closeChain {kind : NodeKind} {last : Step} {outer : List (List Element)}
    {base : List Element} {inner after : State}
    (read : closeChain context kind last outer base inner = .ok after) :
    ∃ node : Element, node.isAbsent = false ∧ after.slots = node :: base := by
  obtain ⟨ended, _, rest⟩ := bind_eq_ok.mp read
  cases rest
  exact ⟨_, isAbsent_nestRight _ _ _ rfl, rfl⟩

/-- A chain becomes one node. -/
theorem slots_chain {kind : NodeKind} {link last : Step} {more : State → Bool} {rounds : Nat}
    {outer : List (List Element)} {state after : State}
    (read : chain context kind link more last rounds outer state = .ok after) :
    ∃ node : Element, node.isAbsent = false ∧ after.slots = node :: state.slots := by
  induction rounds generalizing outer state with
  | zero =>
      obtain ⟨inner, _, rest⟩ := bind_eq_ok.mp read
      exact slots_closeChain rest
  | succ rounds ih =>
      obtain ⟨inner, _, rest⟩ := bind_eq_ok.mp read
      split at rest
      · obtain ⟨node, present, slots⟩ := ih rest
        exact ⟨node, present, slots⟩
      · exact slots_closeChain rest

end State

namespace Phrase

/-- Whether a phrase only appends, given which rules do. -/
def appends (rules : Rule → Bool) : Phrase → Bool
  | .close _ | .absentFirst | .dropAbsent => false
  | .seq first second | .whenAdvanced first second => first.appends rules && second.appends rules
  | .choose _ yes no => yes.appends rules && no.appends rules
  | .frame lead _ => lead == 0
  | .many body => body.appends rules
  | .attempt trial _ yes no => trial.appends rules && yes.appends rules && no.appends rules
  | .call rule => rules rule
  | .nothing | .absent | .take | .expect _ | .noViable _ | .require _ | .progress _
  | .operators _ _ | .prefixed _ _ | .chain _ _ _ _ => true

theorem run_appending {rules : Rule → Context → Step} {append : Rule → Bool}
    (rulesAppend : ∀ rule context, append rule = true → Appending (rules rule context)) :
    (phrase : Phrase) → (context : Context) → phrase.appends append = true →
      Appending (phrase.run rules context)
  | .close _, _, allowed | .absentFirst, _, allowed | .dropAbsent, _, allowed => by cases allowed
  | .nothing, _, _ => fun before after read => by
      cases read
      exact List.suffix_refl _
  | .absent, _, _ => fun before after read => by
      cases read
      exact List.suffix_cons _ _
  | .take, context, _ => fun before after read => by
      cases read
      exact State.take_appends before
  | .expect kind, _, _ => State.expect_appending kind
  | .noViable construct, _, _ => State.noViable_appending construct
  | .require requirement, context, _ => fun before after read => by
      simp only [Phrase.run] at read
      split at read
      · exact ⟨[], by simp [State.slots_report read]⟩
      · cases read
        exact List.suffix_refl _
  | .call rule, context, allowed => rulesAppend rule context allowed
  | .seq first second, context, allowed => fun before after read => by
      simp only [appends, Bool.and_eq_true] at allowed
      obtain ⟨middle, started, ended⟩ := bind_eq_ok.mp read
      exact (first.run_appending rulesAppend context allowed.1 _ _ started).trans
        (second.run_appending rulesAppend context allowed.2 _ _ ended)
  | .choose condition yes no, context, allowed => fun before after read => by
      simp only [appends, Bool.and_eq_true] at allowed
      simp only [Phrase.run] at read
      split at read
      · exact yes.run_appending rulesAppend context allowed.1 _ _ read
      · exact no.run_appending rulesAppend context allowed.2 _ _ read
  | .frame lead body, context, allowed => fun before after read => by
      obtain rfl : lead = 0 := by simpa [appends] using allowed
      exact State.inFrame_appending _ before after read
  | .many body, context, allowed => fun before after read =>
      State.iterate_appending (body.run_appending rulesAppend context allowed) _ before after read
  | .whenAdvanced body next, context, allowed => fun before after read => by
      simp only [appends, Bool.and_eq_true] at allowed
      obtain ⟨middle, started, ended⟩ := bind_eq_ok.mp read
      have appended := body.run_appending rulesAppend context allowed.1 _ _ started
      split at ended
      · exact appended.trans (next.run_appending rulesAppend context allowed.2 _ _ ended)
      · cases ended
        exact appended
  | .progress body, context, _ => State.progress_appending _
  | .attempt trial accept yes no, context, allowed => fun before after read => by
      simp only [appends, Bool.and_eq_true] at allowed
      simp only [Phrase.run] at read
      have skipped := no.run_appending rulesAppend context allowed.2 before after
      split at read
      · rename_i tried fitted
        split at read
        · exact (trial.run_appending rulesAppend _ allowed.1.1 _ _ fitted).trans
            (yes.run_appending rulesAppend context allowed.1.2 _ _ read)
        · exact skipped read
      · exact skipped read
  | .operators operand type, context, _ => State.operators_appending _ _
  | .prefixed link last, context, _ => fun before after read =>
      State.prefixed_appending _ _ _ _ before after read
  | .chain kind link more last, context, _ => fun before after read => by
      obtain ⟨node, _, slots⟩ := State.slots_chain read
      rw [slots]
      exact List.suffix_cons _ _

end Phrase

/-- A rule appends if its phrase does. -/
theorem readRule_appending (grammar : Rule → Phrase) {append : Rule → Bool}
    (checked : ∀ rule, append rule = true → (grammar rule).appends append = true) (depth : Nat)
    (rule : Rule) (context : Context) (allowed : append rule = true) :
    Appending (readRule grammar depth rule context) := by
  induction depth generalizing rule context with
  | zero =>
      intro before after read
      cases read
  | succ depth ih => exact (grammar rule).run_appending ih context (checked rule allowed)

end JavaSyntax
