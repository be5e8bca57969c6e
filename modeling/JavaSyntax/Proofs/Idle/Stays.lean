import JavaSyntax.Proofs.Idle.View
import JavaSyntax.Proofs.Lossless
import JavaSyntax.Proofs.Reading.Appending

/-!
# Readings that stay where they are

With recovery a phrase may succeed without reading a token: what it asks for is
made up, or an error node stands where the cursor is.  Two things are computed
from the phrase alone: the view in which it may end where it started, and the view
in which it may do so and leave nothing but absent slots.  Where there is no such
view, the phrase reads a token, or fills the frame.
-/

namespace JavaSyntax

/-- Whether a frame has no slots but absent ones. -/
def State.isHollow (state : State) : Bool :=
  state.slots.all Element.isAbsent

namespace State

variable {context : Context} {before after : State}

theorem isHollow_of_suffix (suffix : before.slots <:+ after.slots)
    (hollow : after.isHollow = true) : before.isHollow = true := by
  obtain ⟨newer, same⟩ := suffix
  rw [isHollow, ← same, List.all_append, Bool.and_eq_true] at hollow
  exact hollow.2

theorem isHollow_onto {state : State} {base : List Element}
    (hollow : (state.onto base).isHollow = true) : state.isHollow = true := by
  rw [isHollow, onto, List.all_append, Bool.and_eq_true] at hollow
  exact hollow.1

/-- Absent slots hold no tokens. -/
theorem yieldAll_of_hollow {slots : List Element} (hollow : slots.all Element.isAbsent = true) :
    Element.yieldAll slots = [] := by
  induction slots with
  | nil => simp
  | cons first rest ih =>
      rw [List.all_cons, Bool.and_eq_true] at hollow
      cases first with
      | absent => simpa using ih hollow.2
      | node | token | missing => exact absurd hollow.1 Bool.false_ne_true

/-- Whatever is read is in the frame, so where the frame is hollow nothing was read. -/
theorem position_of_hollow (kept : Lossless context before after)
    (hollow : after.isHollow = true) : after.position = before.position := by
  have nothing : Element.yieldAll after.gathered = [] :=
    yieldAll_of_hollow (by rwa [gathered, List.all_reverse])
  exact kept.still (by simp [nothing])

end State

/-- What is relied on of the rules that a phrase calls: they only move the state, they
read a token where they start at one of certain kinds, and they fill the frame. -/
structure Steady (reads : Rule → TokenSet) (rules : Rule → Context → Step) : Prop where
  moving : ∀ (rule : Rule) (context : Context), Moving context .any (rules rule context)
  advances : ∀ {rule : Rule} {context : Context} {before after : State},
    rules rule context before = .ok after →
    (reads rule).contains (before.kindAt context 0) = true → before.position < after.position
  fills : ∀ {rule : Rule} {context : Context} {before after : State},
    rules rule context before = .ok after → after.isHollow = false

namespace Steady

variable {reads : Rule → TokenSet} {rules : Rule → Context → Step} {context : Context}
  {before after : State} (steady : Steady reads rules)

include steady

theorem lossless (phrase : Phrase) (read : phrase.run rules context before = .ok after) :
    Lossless context before after :=
  (phrase.run_moving (steady.moving · _) (steady.moving · _) phrase.closesOnly_any
    _ _ read).lossless

theorem forward (phrase : Phrase) (read : phrase.run rules context before = .ok after) :
    before.position ≤ after.position :=
  (steady.lossless phrase read).forward

/-- A frame that is hollow in the end was hollow all the time. -/
theorem hollow_of_run : (phrase : Phrase) → ∀ {context : Context} {before after : State},
    phrase.run rules context before = .ok after → after.isHollow = true →
      before.isHollow = true
  | .nothing, _, _, _, read, hollow => by
      cases read
      exact hollow
  | .absent, _, _, _, read, hollow => by
      cases read
      exact hollow
  | .absentFirst, _, before, _, read, hollow => by
      cases read
      simpa [State.isHollow, Element.isAbsent] using hollow
  | .dropAbsent, _, before, _, read, hollow => by
      cases read
      unfold State.dropAbsent at hollow
      split at hollow
      · rename_i rest slots
        simpa [State.isHollow, slots, Element.isAbsent] using hollow
      · exact hollow
  | .take, _, before, _, read, hollow => by
      cases read
      exact State.isHollow_of_suffix (State.take_appends before) hollow
  | .expect kind, _, _, _, read, hollow =>
      State.isHollow_of_suffix (State.expect_appending kind _ _ read) hollow
  | .noViable construct, _, _, _, read, hollow =>
      State.isHollow_of_suffix (State.noViable_appending construct _ _ read) hollow
  | .require requirement, _, _, _, read, hollow => by
      simp only [Phrase.run] at read
      split at read
      · rwa [State.isHollow, ← State.slots_report read]
      · cases read
        exact hollow
  | .call rule, _, _, _, read, hollow => by
      rw [steady.fills read] at hollow
      cases hollow
  | .seq first second, _, _, _, read, hollow => by
      obtain ⟨middle, started, ended⟩ := bind_eq_ok.mp read
      exact hollow_of_run first started (hollow_of_run second ended hollow)
  | .choose condition yes no, _, _, _, read, hollow => by
      simp only [Phrase.run] at read
      split at read
      · exact hollow_of_run yes read hollow
      · exact hollow_of_run no read hollow
  | .frame lead body, _, before, _, read, hollow => by
      obtain ⟨inner, stepped, rfl⟩ := State.inFrame_eq_ok.mp read
      have lower : (before.slots.drop lead).all Element.isAbsent = true := by
        rw [State.isHollow, State.onto, List.all_append, Bool.and_eq_true] at hollow
        exact hollow.2
      have upper := hollow_of_run body stepped (State.isHollow_onto hollow)
      rw [State.isHollow, ← List.take_append_drop lead before.slots, List.all_append,
        Bool.and_eq_true]
      exact ⟨upper, lower⟩
  | .close kind, _, _, _, read, hollow => by
      cases read
      cases hollow
  | .many body, _, _, _, read, hollow =>
      State.iterate_relates (fun before after => after.isHollow = true → before.isHollow = true)
        (fun _ _ => hollow_of_run body) (fun first rest hollow => first (rest hollow)) _ _ _ read
        hollow
  | .whenAdvanced body next, _, _, _, read, hollow => by
      obtain ⟨middle, started, ended⟩ := bind_eq_ok.mp read
      split at ended
      · exact hollow_of_run body started (hollow_of_run next ended hollow)
      · cases ended
        exact hollow_of_run body started hollow
  | .progress body, _, _, _, read, hollow =>
      State.isHollow_of_suffix (State.progress_appending _ _ _ read) hollow
  | .attempt trial accept yes no, _, _, _, read, hollow => by
      simp only [Phrase.run] at read
      split at read
      · rename_i tried fitted
        split at read
        · exact hollow_of_run trial fitted (hollow_of_run yes read hollow)
        · exact hollow_of_run no read hollow
      · exact hollow_of_run no read hollow
  | .operators operand type, _, _, _, read, hollow =>
      State.isHollow_of_suffix (State.operators_appending _ _ _ _ read) hollow
  | .prefixed link last, _, _, _, read, hollow =>
      State.isHollow_of_suffix (State.prefixed_appending _ _ _ _ _ _ read) hollow
  | .chain kind link more last, _, _, _, read, hollow => by
      obtain ⟨node, _, slots⟩ := State.slots_chain read
      exact State.isHollow_of_suffix (slots ▸ List.suffix_cons _ _) hollow

end Steady

/-! ## Steps that stay -/

namespace State

variable {context : Context} {before after : State}

theorem atEnd_iff {state : State} : state.atEnd context = true ↔ state.kindAt context 0 = .eof := by
  simp [atEnd]

/-- Only an end mark is left where it is. -/
theorem atEnd_of_take_still (still : (before.take context).position = before.position) :
    before.atEnd context = true := by
  cases ended : before.atEnd context with
  | true => rfl
  | false =>
      have taken : before.take context = before.takeAny context := by simp [take, ended]
      rw [taken, position_takeAny ended] at still
      omega

theorem position_report {error : SyntaxError} (read : before.report context error = .ok after) :
    after.position = before.position := by
  simp only [report] at read
  split at read
  · split at read
    · split at read <;> cases read <;> rfl
    · cases read
      rfl
  · cases read

/-- A step that has to make progress stays only at the end. -/
theorem progress_still {step : Step} (read : before.progress context step = .ok after)
    (still : after.position = before.position) : before.atEnd context = true := by
  obtain ⟨inner, stepped, rfl⟩ := inFrame_eq_ok.mp read
  obtain ⟨result, first, rest⟩ := bind_eq_ok.mp stepped
  have still : inner.position = before.position := still
  split at rest
  · rename_i advanced
    cases rest
    rw [← still] at advanced
    have ended := advanced.resolve_left (absurd rfl)
    rwa [atEnd, kindAt, still] at ended
  · rename_i stuck
    cases rest
    rw [not_or, Decidable.not_not] at stuck
    rw [swallow, position_close, ← stuck.1] at still
    exact absurd (atEnd_of_take_still still) stuck.2

/-- A required token is read where it is, and made up for where it is not. -/
theorem expect_still {kind : TokenKind} (some : kind ≠ .eof)
    (read : before.expect context kind = .ok after) (still : after.position = before.position) :
    before.kindAt context 0 ≠ kind ∧ after.isHollow = false := by
  simp only [expect] at read
  split at read
  · rename_i found
    cases read
    have ended := atEnd_iff.mp (atEnd_of_take_still still)
    exact absurd (found.symm.trans ended) some
  · rename_i other
    refine ⟨other, ?_⟩
    obtain ⟨reported, _, rest⟩ := bind_eq_ok.mp read
    rw [Bool.eq_false_iff]
    intro hollow
    split at rest
    · obtain ⟨skipped, stepped, taken⟩ := bind_eq_ok.mp rest
      cases taken
      obtain ⟨inner, closed, rfl⟩ := inFrame_eq_ok.mp stepped
      cases closed
      cases isHollow_onto (isHollow_of_suffix (take_appends _) hollow)
    · cases rest
      cases hollow

/-- A failed choice leaves the current token only to the rules around it. -/
theorem noViable_still {construct : Construct}
    (read : before.noViable context construct = .ok after)
    (still : after.position = before.position) :
    synchronizing.contains (before.kindAt context 0) = true ∧ after.isHollow = false := by
  obtain ⟨reported, recorded, rest⟩ := bind_eq_ok.mp read
  have same := position_report recorded
  obtain ⟨inner, closed, rfl⟩ := inFrame_eq_ok.mp rest
  have filled : ∀ taken : State, ((taken.close context .error).onto
      (reported.slots.drop 0)).isHollow = false := fun _ => rfl
  split at closed
  · rename_i left
    cases closed
    exact ⟨left, filled _⟩
  · rename_i skipped
    cases closed
    refine ⟨?_, filled _⟩
    have kept : ({ reported with slots := [] } : State).atEnd context = true :=
      atEnd_of_take_still (still.trans same.symm)
    have ended : (before.current context).kind = .eof := by
      simpa [atEnd, kindAt, current, same] using kept
    exact absurd (by rw [ended]; decide) skipped

/-! ## Loops that stay -/

/-- A loop that stays where it is ends after one round. -/
theorem iterate_still {step : Step} {rounds : Nat}
    (forward : ∀ {start next : State}, step start = .ok next → start.position ≤ next.position)
    (read : iterate step rounds before = .ok after) (still : after.position = before.position) :
    step before = .ok after := by
  obtain ⟨next, stepped, rfl | ⟨moved, fewer, rest⟩⟩ := iterate_first read
  · exact stepped
  · have onward : next.position ≤ after.position :=
      iterate_relates (·.position ≤ ·.position) (fun _ _ => forward) Nat.le_trans _ _ _ rest
    omega

/-- Operands that are joined become a node. -/
theorem reduce_hollow {state : State} {floor : Level} {stack : List Pending}
    {right : List Element}
    (hollow : (state.reduce context floor stack right).2.all Element.isAbsent = true) :
    state.reduce context floor stack right = (stack, right) ∧
      right.all Element.isAbsent = true := by
  induction stack generalizing right with
  | nil => exact ⟨rfl, hollow⟩
  | cons top stack ih =>
      simp only [reduce] at hollow ⊢
      split at hollow
      · exact absurd (ih hollow).2 Bool.false_ne_true
      · rename_i loose
        exact ⟨if_neg loose, hollow⟩

theorem closeOperators_hollow {state : State} {stack : List Pending} {left : List Element}
    (hollow : (state.closeOperators context stack left).isHollow = true) :
    stack = [] ∧ left.all Element.isAbsent = true := by
  rw [isHollow, closeOperators, List.all_append, List.all_reverse, Bool.and_eq_true] at hollow
  obtain ⟨same, absent⟩ := reduce_hollow hollow.1
  have none := reduce_or context state stack left
  rw [same] at none
  exact ⟨none, absent⟩

theorem climb_hollow {operand type : Step} {rounds : Nat} {stack : List Pending}
    {left : List Element} (read : climb context operand type rounds stack left before = .ok after)
    (hollow : after.isHollow = true) : stack = [] ∧ left.all Element.isAbsent = true := by
  induction rounds generalizing stack left before with
  | zero =>
      cases read
      exact closeOperators_hollow hollow
  | succ rounds ih =>
      simp only [climb] at read
      split at read
      · cases read
        exact closeOperators_hollow hollow
      · split at read
        · obtain ⟨⟨right, next⟩, collected, rest⟩ := bind_eq_ok.mp read
          exact absurd (ih rest).2 Bool.false_ne_true
        · obtain ⟨⟨operator, middle⟩, taken, rest⟩ := bind_eq_ok.mp read
          obtain ⟨⟨right, next⟩, collected, rest⟩ := bind_eq_ok.mp rest
          cases (ih rest).1

/-- Operators that stay where they are have read their first operand there. -/
theorem operators_still {operand type : Step} (operandMoves : Moving context .any operand)
    (typeMoves : Moving context .any type)
    (read : operators context operand type before = .ok after)
    (still : after.position = before.position) :
    ∃ inner : State, operand { before with slots := [] } = .ok inner ∧
      inner.position = before.position ∧ (after.isHollow = true → inner.isHollow = true) := by
  obtain ⟨⟨left, next⟩, collected, rest⟩ := bind_eq_ok.mp read
  obtain ⟨inner, stepped, rfl, rfl⟩ := collect_eq_ok.mp collected
  have started : before.position ≤ inner.position := (operandMoves _ _ stepped).forward_any
  have moved : Moves context .any _ after :=
    climb_moves (fun _ => rfl) rfl operandMoves typeMoves _ _ _ _ _ rest
  have ended : inner.position ≤ after.position := moved.forward_any
  refine ⟨inner, stepped, by omega, ?_⟩
  intro hollow
  have absent := (climb_hollow rest hollow).2
  rwa [gathered, List.all_reverse] at absent

/-- Prefixes that stay where they are have read their operand there, and no prefix. -/
theorem prefixed_still {link last : Step} {rounds : Nat} (linkMoves : Moving context .any link)
    (lastMoves : Moving context .any last)
    (read : prefixed context link last rounds [] before = .ok after)
    (still : after.position = before.position) :
    ∃ start inner : State, start.position = before.position ∧
      last { start with slots := [] } = .ok inner ∧ after = inner.onto start.slots := by
  cases rounds with
  | zero =>
      obtain ⟨inner, stepped, rfl⟩ := inFrame_eq_ok.mp read
      exact ⟨before, inner, rfl, stepped, rfl⟩
  | succ rounds =>
      obtain ⟨⟨slots, next⟩, collected, rest⟩ := bind_eq_ok.mp read
      simp only at rest
      split at rest
      · rename_i advanced
        have moved : Moves context .any _ after :=
          prefixed_moves (fun _ => rfl) linkMoves lastMoves _ _ _ _ rest
        have ended : next.position ≤ after.position := moved.forward_any
        omega
      · rename_i unmoved
        obtain ⟨linked, stepped, rfl, rfl⟩ := collect_eq_ok.mp collected
        have forward : before.position ≤ linked.position := (linkMoves _ _ stepped).forward_any
        obtain ⟨inner, ended, rfl⟩ := inFrame_eq_ok.mp rest
        exact ⟨{ linked with slots := before.slots }, inner, by simp only at unmoved ⊢; omega,
          ended, rfl⟩

/-- The first link of a chain is read where the chain starts. -/
theorem chain_start {kind : NodeKind} {link last : Step} {more : State → Bool} {rounds : Nat}
    {outer : List (List Element)} (linkMoves : Moving context .any link)
    (lastMoves : Moving context .any last)
    (read : chain context kind link more last rounds outer before = .ok after) :
    ∃ inner : State, link { before with slots := [] } = .ok inner ∧
      inner.position ≤ after.position := by
  have closed {inner : State} {base : List Element}
      (rest : closeChain context kind last outer base inner = .ok after) :
      inner.position ≤ after.position := by
    have moved : Moves context .any _ after := closeChain_moves rfl lastMoves _ _ _ _ rest
    exact moved.forward_any
  cases rounds with
  | zero =>
      obtain ⟨inner, stepped, rest⟩ := bind_eq_ok.mp read
      exact ⟨inner, stepped, closed rest⟩
  | succ rounds =>
      obtain ⟨inner, stepped, rest⟩ := bind_eq_ok.mp read
      refine ⟨inner, stepped, ?_⟩
      split at rest
      · have joined : Moves context .any inner _ := Moves.takeUnlessEnded context inner
        have moved : Moves context .any _ after :=
          chain_moves rfl more linkMoves lastMoves _ _ _ _ rest
        exact Nat.le_trans joined.forward_any moved.forward_any
      · exact closed rest

end State

/-- The view in which a phrase may end where it started.  With `clean`, it also leaves
the frame hollow. -/
def Phrase.stays (reads : Rule → TokenSet) (clean : Bool) : Phrase → View → Option View
  | .nothing, view | .absent, view | .absentFirst, view | .dropAbsent, view
  | .require _, view => some view
  | .close _, view => if clean then none else some view
  | .take, view | .progress _, view => view.narrow (.singleton .eof)
  | .expect kind, view =>
      if kind = .eof then some view
      else if clean then none
      else view.narrow (TokenSet.singleton kind).compl
  | .noViable _, view => if clean then none else view.narrow State.synchronizing
  | .call rule, view => if clean then none else view.narrow (reads rule).compl
  | .seq first second, view => (first.stays reads clean view).bind (second.stays reads clean)
  | .choose condition yes no, view =>
      View.join ((condition.glimpse true view).bind (yes.stays reads clean))
        ((condition.glimpse false view).bind (no.stays reads clean))
  | .frame _ body, view | .many body, view | .whenAdvanced body _, view =>
      body.stays reads clean view
  | .attempt trial accept yes no, view =>
      View.join
        (((trial.stays reads clean view).bind (accept.glimpse true)).bind (yes.stays reads clean))
        (no.stays reads clean view)
  | .operators operand _, view => operand.stays reads clean view
  | .prefixed _ last, view => last.stays reads clean view
  | .chain _ link _ _, view => if clean then none else link.stays reads clean view

/-- A reading that has stayed where it was, and with `clean` has left the frame hollow. -/
structure Stayed (clean : Bool) (before after : State) : Prop where
  still : after.position = before.position
  hollow : clean = true → after.isHollow = true

namespace Steady

open View

variable {reads : Rule → TokenSet} {rules : Rule → Context → Step}
  (steady : Steady reads rules) (clean : Bool)

include steady

theorem moves (phrase : Phrase) (context : Context) :
    Moving context .any (phrase.run rules context) :=
  phrase.run_moving (steady.moving · _) (steady.moving · _) phrase.closesOnly_any

/-- Two readings one after the other stay only if both do. -/
theorem stayed_split {clean : Bool} {first second : Phrase} {context context' : Context}
    {before middle after : State} (started : first.run rules context before = .ok middle)
    (ended : second.run rules context' middle = .ok after) (stayed : Stayed clean before after) :
    Stayed clean before middle ∧ Stayed clean middle after := by
  have still := stayed.still
  have one := steady.forward first started
  have two := steady.forward second ended
  exact ⟨⟨by omega, fun isClean => steady.hollow_of_run second ended (stayed.hollow isClean)⟩,
    ⟨by omega, stayed.hollow⟩⟩

/-- A reading that stays ends in the view computed for it.  The induction is over the
phrase; in a loop only the first round can have been read. -/
theorem stays_of_run : (phrase : Phrase) → ∀ {context : Context} {before after : State}
    {view : View}, phrase.run rules context before = .ok after → Stayed clean before after →
      view.Fits context before → Possible context (phrase.stays reads clean view) after
  | .nothing, _, _, _, _, _, stayed, fits | .absent, _, _, _, _, _, stayed, fits
  | .absentFirst, _, _, _, _, _, stayed, fits | .dropAbsent, _, _, _, _, _, stayed, fits
  | .require _, _, _, _, _, _, stayed, fits => (fits.atPosition stayed.still).possible
  | .close kind, _, _, _, _, read, stayed, fits => by
      cases read
      cases clean with
      | false => exact (fits.atPosition stayed.still).possible
      | true => cases stayed.hollow rfl
  | .take, context, before, _, _, read, stayed, fits => by
      cases read
      have ended := State.atEnd_iff.mp (State.atEnd_of_take_still stayed.still)
      exact (fits.narrow (by simp [ended])).atPosition stayed.still
  | .progress body, context, before, after, _, read, stayed, fits => by
      have ended := State.atEnd_iff.mp (State.progress_still read stayed.still)
      exact (fits.narrow (by simp [ended])).atPosition stayed.still
  | .expect kind, context, before, after, _, read, stayed, fits => by
      rw [Phrase.stays]
      split
      · exact (fits.atPosition stayed.still).possible
      · rename_i some
        obtain ⟨other, filled⟩ := State.expect_still some read stayed.still
        split
        · rename_i isClean
          rw [stayed.hollow isClean] at filled
          cases filled
        · exact (fits.narrow (by simp [other.symm])).atPosition stayed.still
  | .noViable construct, context, before, after, _, read, stayed, fits => by
      obtain ⟨left, filled⟩ := State.noViable_still read stayed.still
      rw [Phrase.stays]
      split
      · rename_i isClean
        rw [stayed.hollow isClean] at filled
        cases filled
      · exact (fits.narrow left).atPosition stayed.still
  | .call rule, context, before, after, _, read, stayed, fits => by
      cases clean with
      | true =>
          have hollow := stayed.hollow rfl
          rw [steady.fills read] at hollow
          cases hollow
      | false =>
          refine (fits.narrow ?_).atPosition stayed.still
          rw [TokenSet.contains_compl, Bool.not_eq_true', Bool.eq_false_iff]
          intro starts
          have moved := steady.advances read starts
          have still := stayed.still
          omega
  | .seq first second, _, _, _, _, read, stayed, fits => by
      obtain ⟨middle, started, ended⟩ := bind_eq_ok.mp read
      obtain ⟨one, two⟩ := steady.stayed_split started ended stayed
      exact (stays_of_run first started one fits).bind
        fun view known => stays_of_run second ended two known
  | .choose condition yes no, _, _, _, _, read, stayed, fits => by
      simp only [Phrase.run] at read
      split at read
      · rename_i holds
        exact possible_join (.inl ((fits.glimpse holds).bind
          fun view known => stays_of_run yes read stayed known))
      · rename_i fails
        exact possible_join (.inr ((fits.glimpse (Bool.eq_false_iff.mpr fails)).bind
          fun view known => stays_of_run no read stayed known))
  | .frame lead body, _, before, _, _, read, stayed, fits => by
      obtain ⟨inner, stepped, rfl⟩ := State.inFrame_eq_ok.mp read
      have inside : Stayed clean { before with slots := before.slots.take lead } inner :=
        ⟨stayed.still, fun isClean => State.isHollow_onto (stayed.hollow isClean)⟩
      exact (stays_of_run body stepped inside (fits.atPosition rfl)).atPosition rfl
  | .many body, context, _, _, _, read, stayed, fits => by
      have once := State.iterate_still (steady.forward body) read stayed.still
      exact stays_of_run body once stayed fits
  | .whenAdvanced body next, _, _, after, _, read, stayed, fits => by
      obtain ⟨middle, started, ended⟩ := bind_eq_ok.mp read
      split at ended
      · have forward := steady.forward next ended
        have still := stayed.still
        omega
      · cases ended
        exact stays_of_run body started stayed fits
  | .attempt trial accept yes no, context, before, after, view, read, stayed, fits => by
      simp only [Phrase.run] at read
      have skipped (read : no.run rules context before = .ok after) :
          Possible context ((Phrase.attempt trial accept yes no).stays reads clean view) after :=
        possible_join (.inr (stays_of_run no read stayed fits))
      split at read
      · rename_i tried fitted
        split at read
        · rename_i accepted
          obtain ⟨one, two⟩ := steady.stayed_split fitted read stayed
          have first := possible_trial.mp (stays_of_run trial fitted one fits)
          have second := first.bind fun view known => known.glimpse accepted
          exact possible_join (.inl (second.bind
            fun view known => stays_of_run yes read two known))
        · exact skipped read
      · exact skipped read
  | .operators operand type, context, before, after, _, read, stayed, fits => by
      obtain ⟨inner, stepped, still, hollow⟩ := State.operators_still (steady.moves operand context)
        (steady.moves type context) read stayed.still
      have inside : Stayed clean { before with slots := [] } inner :=
        ⟨still, fun isClean => hollow (stayed.hollow isClean)⟩
      exact (stays_of_run operand stepped inside (fits.atPosition rfl)).atPosition
        (stayed.still.trans still.symm)
  | .prefixed link last, context, before, after, _, read, stayed, fits => by
      obtain ⟨start, inner, still, stepped, rfl⟩ := State.prefixed_still
        (steady.moves link context) (steady.moves last context) read stayed.still
      have inside : Stayed clean { start with slots := [] } inner :=
        ⟨stayed.still.trans still.symm, fun isClean => State.isHollow_onto (stayed.hollow isClean)⟩
      exact (stays_of_run last stepped inside (fits.atPosition still)).atPosition rfl
  | .chain kind link more last, context, before, after, _, read, stayed, fits => by
      rw [Phrase.stays]
      split
      · rename_i isClean
        obtain ⟨node, present, slots⟩ := State.slots_chain read
        have hollow := stayed.hollow isClean
        simp [State.isHollow, slots, present] at hollow
      · rename_i unclean
        obtain ⟨inner, stepped, ended⟩ := State.chain_start (steady.moves link context)
          (steady.moves last context) read
        have started := steady.forward link stepped
        simp only at started
        have still := stayed.still
        have same : inner.position = before.position := by omega
        have inside : Stayed clean { before with slots := [] } inner :=
          ⟨same, fun isClean => absurd isClean unclean⟩
        exact (stays_of_run link stepped inside (fits.atPosition rfl)).atPosition
          (still.trans same.symm)

/-- Where there is no view in which a phrase may stay, it reads a token. -/
theorem advances_of_stays {phrase : Phrase} {context : Context} {before after : State}
    {view : View} (never : phrase.stays reads false view = none) (fits : view.Fits context before)
    (read : phrase.run rules context before = .ok after) : before.position < after.position := by
  refine Nat.lt_of_le_of_ne (steady.forward phrase read) ?_
  intro still
  have stays := steady.stays_of_run false phrase read
    ⟨still.symm, (absurd · Bool.false_ne_true)⟩ fits
  rw [never] at stays
  exact not_possible_none stays

/-- Where there is no view in which a phrase may leave the frame hollow, it fills it. -/
theorem fills_of_stays {phrase : Phrase} {context : Context} {before after : State}
    {view : View} (never : phrase.stays reads true view = none) (fits : view.Fits context before)
    (read : phrase.run rules context before = .ok after) : after.isHollow = false := by
  rw [Bool.eq_false_iff]
  intro hollow
  have still := State.position_of_hollow (steady.lossless phrase read) hollow
  have stays := steady.stays_of_run true phrase read ⟨still, fun _ => hollow⟩ fits
  rw [never] at stays
  exact not_possible_none stays

end Steady

end JavaSyntax
