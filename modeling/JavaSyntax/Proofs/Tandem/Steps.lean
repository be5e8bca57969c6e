import JavaSyntax.Proofs.Tandem.Like

/-!
# Steps in tandem

Two steps that start in like states come to like results: both succeed, or both
fail with errors at the same token.  Whenever they succeed, each of them has kept
what it should.  So it is for every elementary step, and for a step in a frame.
-/

namespace JavaSyntax

/-- Like states of two readings, both of them sound. -/
structure Tandem (left right : Context) (state state' : State) : Prop
    extends Like left right state state' where
  sound : Sound left state
  sound' : Sound right state'

/-- Both readings succeed with like states, or both fail with like errors. -/
def Alike (left right : Context) :
    Except SyntaxError State → Except SyntaxError State → Prop
  | .ok state, .ok state' => Like left right state state'
  | .error error, .error error' => ErrorLike left right error error'
  | _, _ => False

/-- What two readings come to that start in like states. -/
structure Paired (left right : Context) (start start' : State)
    (result result' : Except SyntaxError State) : Prop where
  alike : Alike left right result result'
  course : ∀ {after : State}, result = .ok after → Course left start after
  course' : ∀ {after : State}, result' = .ok after → Course right start' after

variable {left right : Context}

theorem Alike.bind {result result' : Except SyntaxError State} {next next' : Step}
    (first : Alike left right result result')
    (rest : ∀ after after', result = .ok after → result' = .ok after' →
      Like left right after after' → Alike left right (next after) (next' after')) :
    Alike left right (result >>= next) (result' >>= next') := by
  cases result with
  | ok after =>
      cases result' with
      | ok after' => exact rest after after' rfl rfl first
      | error error' => exact first.elim
  | error error =>
      cases result' with
      | ok after' => exact first.elim
      | error error' => exact first

namespace Paired

variable {start start' state state' : State} {result result' : Except SyntaxError State}

theorem ok {after after' : State} (like : Like left right after after')
    (course : Course left start after) (course' : Course right start' after') :
    Paired left right start start' (.ok after) (.ok after') where
  alike := like
  course := by
    rintro _ ⟨⟩
    exact course
  course' := by
    rintro _ ⟨⟩
    exact course'

theorem error {error error' : SyntaxError} (like : ErrorLike left right error error') :
    Paired left right start start' (.error error) (.error error') where
  alike := like
  course := by
    intro _ failed
    cases failed
  course' := by
    intro _ failed
    cases failed

theorem refl (tandem : Tandem left right start start') :
    Paired left right start start' (.ok start) (.ok start') :=
  ok tandem.toLike (.refl tandem.sound) (.refl tandem.sound')

/-- A trial is made of the same tokens. -/
theorem ofTrial (outcome : Paired left.trial right.trial start start' result result') :
    Paired left right start start' result result' where
  alike := by
    have alike := outcome.alike
    cases result <;> cases result'
    · exact alike
    · exact alike
    · exact alike
    · exact ⟨alike.position, alike.slots, alike.errors⟩
  course := fun read => (outcome.course read).ofTrial
  course' := fun read => (outcome.course' read).ofTrial

/-- What came before is a part of the course. -/
theorem after (outcome : Paired left right state state' result result')
    (course : Course left start state) (course' : Course right start' state') :
    Paired left right start start' result result' :=
  ⟨outcome.alike, fun read => course.trans (outcome.course read),
    fun read => course'.trans (outcome.course' read)⟩

theorem cases (paired : Paired left right start start' result result') :
    (∃ after after', result = .ok after ∧ result' = .ok after' ∧ Tandem left right after after') ∨
      ∃ error error', result = .error error ∧ result' = .error error' ∧
        ErrorLike left right error error' := by
  cases result with
  | ok after =>
      cases result' with
      | ok after' =>
          exact .inl ⟨after, after', rfl, rfl, paired.alike, (paired.course rfl).sound,
            (paired.course' rfl).sound⟩
      | error found' => exact paired.alike.elim
  | error found =>
      cases result' with
      | ok after' => exact paired.alike.elim
      | error found' => exact .inr ⟨found, found', rfl, rfl, paired.alike⟩

/-- One step after the other. -/
theorem bind {next next' : Step} (first : Paired left right start start' result result')
    (rest : ∀ after after', result = .ok after → result' = .ok after' →
      Tandem left right after after' →
        Paired left right after after' (next after) (next' after')) :
    Paired left right start start' (result >>= next) (result' >>= next') := by
  rcases first.cases with ⟨after, after', rfl, rfl, tandem⟩ | ⟨found, found', rfl, rfl, like⟩
  · exact (rest after after' rfl rfl tandem).after (first.course rfl) (first.course' rfl)
  · exact .error like

end Paired

namespace Tandem

variable {state state' : State} (tandem : Tandem left right state state')

include tandem

/-- A trial is made of the same tokens. -/
theorem trial : Tandem left.trial right.trial state state' where
  position := tandem.position
  slots := tandem.slots
  errors := tandem.errors
  sound := tandem.sound.trial
  sound' := tandem.sound'.trial

/-- A frame that holds the last slots. -/
theorem withLast (lead : Nat) :
    Tandem left right { state with slots := state.slots.take lead }
      { state' with slots := state'.slots.take lead } where
  toLike := tandem.withSlots (by rw [List.map_take, List.map_take, tandem.slots])
  sound := tandem.sound.ofSlots _ (List.take_prefix _ _)
  sound' := tandem.sound'.ofSlots _ (List.take_prefix _ _)

theorem bare : Tandem left right { state with slots := [] } { state' with slots := [] } :=
  tandem.withLast 0

/-- Slots at the same place of both frames, if they are there and whole, start at tokens
with the same index. -/
theorem place {slot slot' : Element} {above above' below below' : List Element}
    (slots : state.slots = above ++ slot :: below)
    (slots' : state'.slots = above' ++ slot' :: below')
    (level : above'.length = above.length) (present : slot.isAbsent = false)
    (whole : slot.isDamaged = false) :
    ∃ index < state.position, slot.span?.map Span.offset = some (left.get index).start ∧
      slot'.span?.map Span.offset = some (right.get index).start := by
  have same := tandem.slots
  rw [slots, slots', List.map_append, List.map_append] at same
  obtain ⟨upper, lower⟩ := List.append_inj same (by simpa using level)
  have drawn : slot'.sketch = slot.sketch := (List.cons.inj lower).1
  obtain ⟨first, rest, yields, place⟩ :=
    tandem.sound.anchored slot (by simp [slots]) whole present
  obtain ⟨first', rest', yields', place'⟩ :=
    tandem.sound'.anchored slot' (by simp [slots'])
      (by rw [← Element.isDamaged_sketch, drawn, Element.isDamaged_sketch, whole])
      (by rw [← Element.isAbsent_sketch, drawn, Element.isAbsent_sketch, present])
  have sizes : rest'.length = rest.length := by
    have lengths := congrArg (fun slot => slot.yield.length) drawn
    simpa [yields, yields'] using lengths
  have beyond : (Element.yieldAll above'.reverse).length =
      (Element.yieldAll above.reverse).length := by
    have drawn := congrArg (fun slots => (Element.yieldAll slots.reverse).length) upper
    simpa [← List.map_reverse] using drawn
  have whole : Element.yieldAll state.gathered = Element.yieldAll below.reverse ++
      first :: (rest ++ Element.yieldAll above.reverse) := by
    simp [State.gathered, slots, yields]
  have whole' : Element.yieldAll state'.gathered = Element.yieldAll below'.reverse ++
      first' :: (rest' ++ Element.yieldAll above'.reverse) := by
    simp [State.gathered, slots', yields']
  obtain ⟨inside, found⟩ := tandem.sound.get_of_yield whole
  obtain ⟨_, found'⟩ := tandem.sound'.get_of_yield whole'
  refine ⟨_, ?_, place.trans (congrArg (fun token => some token.start) found.symm), ?_⟩
  · omega
  · rw [place', ← found', tandem.position]
    simp only [List.length_append, sizes, beyond]

end Tandem

/-! ## Elementary steps -/

namespace State

/-- A node of its own for what is put away. -/
theorem like_putAway {opened opened' : State} (like : Like left right opened opened')
    {base base' : List Element} (below : base'.map Element.sketch = base.map Element.sketch) :
    Like left right ((opened.close left .error).onto base)
      ((opened'.close right .error).onto base') :=
  (like.close .error).withSlots (by
    rw [List.map_append, List.map_append, below, (like.close .error).slots])

variable {state state' : State} (tandem : Tandem left right state state')
  (alike : left.Matches right)

include tandem

/-- The current tokens have the same index. -/
theorem errorLike_current {fault : SyntaxFault} :
    ErrorLike left right ⟨fault, (state.current left).span⟩
      ⟨fault, (state'.current right).span⟩ :=
  ⟨rfl, state.position, tandem.sound.inside, rfl, by rw [current, tandem.position]; rfl⟩

include alike

/-- Like errors are both recorded, both dropped, or both handed back. -/
theorem report_alike {error error' : SyntaxError} (like : ErrorLike left right error error') :
    Alike left right (state.report left error) (state'.report right error') := by
  have recorded : Like left right { state with errors := error :: state.errors }
      { state' with errors := error' :: state'.errors } :=
    ⟨tandem.position, tandem.slots, .cons like tandem.errors⟩
  have errors := tandem.errors
  unfold report
  rw [alike.recovery]
  split
  · generalize known : state.errors = found at errors
    generalize known' : state'.errors = found' at errors
    cases errors with
    | nil =>
        rw [known, known'] at recorded
        exact recorded
    | @cons last last' others others' first _ =>
        rw [known, known'] at recorded
        obtain ⟨_, index, inside, place, place'⟩ := first
        obtain ⟨_, other, beyond, here, here'⟩ := like
        have same : last'.offset = error'.offset ↔ last.offset = error.offset := by
          rw [place, place', here, here', alike.ordered.start_inj inside beyond,
            alike.ordered'.start_inj (alike.size ▸ inside) (alike.size ▸ beyond)]
        dsimp only
        by_cases dropped : last.offset = error.offset
        · rw [if_pos dropped, if_pos (same.mpr dropped)]
          exact tandem.toLike
        · rw [if_neg dropped, if_neg (mt same.mp dropped)]
          exact recorded
  · exact like

theorem expect_paired (kind : TokenKind) :
    Paired left right state state' (state.expect left kind) (state'.expect right kind) := by
  refine ⟨?_, expect_course tandem.sound alike.ordered, expect_course tandem.sound' alike.ordered'⟩
  simp only [expect, tandem.current_kind alike]
  split
  · exact tandem.take alike
  · refine (report_alike tandem alike (errorLike_current tandem)).bind ?_
    intro reported reported' _ _ like
    rw [like.kindAt alike]
    split
    · have opened : Like left right { reported with slots := [] } { reported' with slots := [] } :=
        like.withSlots rfl
      exact (like_putAway (opened.take alike) like.slots).take alike
    · exact like.push (by simp [Element.sketch])

theorem noViable_paired (construct : Construct) :
    Paired left right state state' (state.noViable left construct)
      (state'.noViable right construct) := by
  refine ⟨?_, fun read => (noViable_course tandem.sound alike.ordered read).1,
    fun read => (noViable_course tandem.sound' alike.ordered' read).1⟩
  simp only [noViable, tandem.current_kind alike]
  refine (report_alike tandem alike (errorLike_current tandem)).bind ?_
  intro reported reported' _ _ like
  have opened : Like left right { reported with slots := [] } { reported' with slots := [] } :=
    like.withSlots rfl
  split
  · exact like_putAway opened like.slots
  · exact like_putAway (opened.take alike) like.slots

end State

/-! ## Requirements -/

namespace Requirement

/-- An expression may be no statement only if it is whole. -/
theorem violation?_statementExpression (slot : Element) (others : List Element) :
    violation? (slot :: others) .statementExpression =
      if slot.nodeKind?.isSome && !slot.isStatementExpression && !slot.isDamaged then
        slot.span?.map fun span => ⟨.notAStatement, span⟩
      else none := by
  cases slot with
  | node kind span children =>
      simp only [violation?, List.head?_cons, Option.bind_some, Element.node?, Element.nodeKind?,
        Option.map_some, Option.isSome_some, Bool.true_and, Node.toElement, Node.hasErrors_eq,
        Element.isDamaged_node, Element.span?]
      cases (Element.node kind span children).isStatementExpression <;>
        cases kind == .error || Element.anyDamaged children <;> rfl
  | token | missing | absent => rfl

/-- Handlers are missed only if both of their slots are absent. -/
theorem violation?_handler (slots : List Element) :
    violation? slots .handler =
      if slots[0]?.any Element.isAbsent && slots[1]?.any Element.isAbsent then
        (slots.getLast?.bind Element.span?).map fun span => ⟨.missingCatchOrFinally, span⟩
      else none := by
  match slots with
  | [] => rfl
  | [slot] => cases slot <;> rfl
  | first :: second :: others =>
      unfold violation?
      generalize (first :: second :: others).getLast?.bind Element.span? = place
      cases first <;> cases second <;> cases place <;> rfl

end Requirement

namespace Tandem

variable {state state' : State} (tandem : Tandem left right state state')

include tandem

theorem any_getElem? {test : Element → Bool} (same : ∀ slot, test slot.sketch = test slot)
    (index : Nat) : state'.slots[index]?.any test = state.slots[index]?.any test := by
  have drawn (slots : List Element) :
      (slots.map Element.sketch)[index]?.any test = slots[index]?.any test := by
    rw [List.getElem?_map, Element.any_map_sketch same]
  rw [← drawn, tandem.slots, drawn]

/-- The same requirement is violated in both frames, at tokens with the same index. -/
theorem violation? {requirement : Requirement}
    (headed : requirement = .handler → ∃ first, state.slots.getLast? = some (.token first)) :
    (requirement.violation? state.slots = none ∧ requirement.violation? state'.slots = none) ∨
      ∃ error error', requirement.violation? state.slots = some error ∧
        requirement.violation? state'.slots = some error' ∧ error'.fault = error.fault ∧
        error.fault.damages = false ∧ ∃ index < state.position,
          error.offset = (left.get index).start ∧ error'.offset = (right.get index).start := by
  have same := tandem.slots
  cases requirement with
  | statementExpression =>
      cases slots : state.slots with
      | nil =>
          rw [slots, List.map_nil, List.map_eq_nil_iff] at same
          exact .inl ⟨rfl, by rw [same]; rfl⟩
      | cons slot others =>
          cases slots' : state'.slots with
          | nil => simp [slots, slots'] at same
          | cons slot' others' =>
              rw [slots, slots', List.map_cons, List.map_cons] at same
              have drawn := (List.cons.inj same).1
              rw [Requirement.violation?_statementExpression,
                Requirement.violation?_statementExpression, ← Element.nodeKind?_sketch slot',
                ← Element.isStatementExpression_sketch slot', ← Element.isDamaged_sketch slot',
                drawn, Element.nodeKind?_sketch, Element.isStatementExpression_sketch,
                Element.isDamaged_sketch]
              split
              · rename_i blamed
                simp only [Bool.and_eq_true, Bool.not_eq_true'] at blamed
                have present : slot.isAbsent = false := by
                  cases slot <;> first | rfl | cases blamed.1.1
                obtain ⟨index, before, place, place'⟩ :=
                  tandem.place (slots.trans (List.nil_append _).symm)
                    (slots'.trans (List.nil_append _).symm) rfl present blamed.2
                obtain ⟨span, known, offset⟩ := Option.map_eq_some_iff.mp place
                obtain ⟨span', known', offset'⟩ := Option.map_eq_some_iff.mp place'
                rw [known, known']
                exact .inr ⟨_, _, rfl, rfl, rfl, rfl, index, before, offset, offset'⟩
              · exact .inl ⟨rfl, rfl⟩
  | handler =>
      obtain ⟨first, last⟩ := headed rfl
      obtain ⟨above, slots⟩ := List.getLast?_eq_some_iff.mp last
      obtain ⟨above', slot', slots'⟩ : ∃ above' slot', state'.slots = above' ++ [slot'] := by
        have some : state'.slots ≠ [] := by
          rintro none
          simp [slots, none] at same
        exact ⟨_, _, (List.dropLast_append_getLast some).symm⟩
      have level : above'.length = above.length := by
        have sizes := congrArg List.length same
        simpa [slots, slots'] using sizes
      obtain ⟨index, before, place, place'⟩ := tandem.place slots slots' level rfl rfl
      rw [Requirement.violation?_handler, Requirement.violation?_handler,
        tandem.any_getElem? Element.isAbsent_sketch, tandem.any_getElem? Element.isAbsent_sketch]
      split
      · obtain ⟨span', known', offset'⟩ := Option.map_eq_some_iff.mp place'
        rw [slots, slots', List.getLast?_concat, List.getLast?_concat, Option.bind_some,
          Option.bind_some, known']
        exact .inr ⟨_, _, rfl, rfl, rfl, rfl, index, before, Option.some.inj place, offset'⟩
      · exact .inl ⟨rfl, rfl⟩

end Tandem

namespace State

variable {state state' : State} {step step' : Step} (tandem : Tandem left right state state')
  (alike : left.Matches right)

include tandem

theorem require_paired (alike : left.Matches right) {requirement : Requirement}
    (headed : requirement = .handler → ∃ first, state.slots.getLast? = some (.token first)) :
    Paired left right state state'
      (match requirement.violation? state.slots with
        | some error => state.report left error
        | none => .ok state)
      (match requirement.violation? state'.slots with
        | some error => state'.report right error
        | none => .ok state') := by
  rcases tandem.violation? headed with ⟨none, none'⟩ | ⟨error, error', some, some', fault,
    harmless, index, before, place, place'⟩
  · rw [none, none']
    exact .refl tandem
  · rw [some, some']
    have inside := tandem.sound.inside
    have inside' := tandem.sound'.inside
    have earlier : error.offset < (state.current left).start :=
      place ▸ alike.ordered.start_lt before inside
    have earlier' : error'.offset < (state'.current right).start :=
      place' ▸ alike.ordered'.start_lt (tandem.position ▸ before) inside'
    exact ⟨report_alike tandem alike
        ⟨fault, index, Nat.lt_trans before inside, place, place'⟩,
      report_course tandem.sound harmless earlier,
      report_course tandem.sound' (fault ▸ harmless) earlier'⟩

/-- Steps in a frame that starts with the last slots. -/
theorem inFrame_paired {lead : Nat}
    (inner : Paired left right { state with slots := state.slots.take lead }
      { state' with slots := state'.slots.take lead }
      (step { state with slots := state.slots.take lead })
      (step' { state' with slots := state'.slots.take lead })) :
    Paired left right state state' (state.inFrame lead step) (state'.inFrame lead step') where
  alike := by
    refine inner.alike.bind ?_
    intro after after' _ _ like
    refine like.withSlots ?_
    rw [List.map_append, List.map_append, like.slots, List.map_drop, List.map_drop, tandem.slots]
  course := by
    intro after read
    obtain ⟨ended, stepped, rfl⟩ := inFrame_eq_ok.mp read
    exact .inFrame tandem.sound (inner.course stepped)
  course' := by
    intro after read
    obtain ⟨ended, stepped, rfl⟩ := inFrame_eq_ok.mp read
    exact .inFrame tandem.sound' (inner.course' stepped)

include alike

/-- What was built without reading a token is put away with the current one, if it is
damage that has been reported. -/
theorem progress_paired
    (inner : Paired left right { state with slots := [] } { state' with slots := [] }
      (step { state with slots := [] }) (step' { state' with slots := [] }))
    (damage : ∀ result, step { state with slots := [] } = .ok result →
      result.position = state.position → result.atEnd left = false →
        reportsDamage result.errors = true) :
    Paired left right state state' (state.progress left step) (state'.progress right step') := by
  refine inFrame_paired tandem (inner.bind ?_)
  intro result result' stepped stepped' paired
  rw [paired.position, tandem.position, paired.atEnd alike]
  split
  · exact .refl paired
  · rename_i stuck
    rw [not_or, not_not, Bool.not_eq_true] at stuck
    have reports := damage result stepped stuck.1 stuck.2
    refine .ok ?_ (swallow_course paired.sound alike.ordered reports)
      (swallow_course paired.sound' alike.ordered' (paired.reportsDamage.trans reports))
    have fewer : Like left right
        { result with slots := result.slots.filter (!isEmptyError ·) }
        { result' with slots := result'.slots.filter (!isEmptyError ·) } := by
      have drawn (slots : List Element) : (slots.filter (!isEmptyError ·)).map Element.sketch =
          (slots.map Element.sketch).filter (!isEmptyError ·) := by
        rw [List.filter_map]
        simp only [Function.comp_def, isEmptyError_sketch]
      exact paired.withSlots (by rw [drawn, drawn, paired.slots])
    exact (fewer.take alike).close .error

end State

/-- Rounds of a step, each of which is paired as long as an invariant holds. -/
theorem State.iterate_paired {step step' : Step} (invariant : State → Prop)
    (paired : ∀ state state', Tandem left right state state' → invariant state →
      Paired left right state state' (step state) (step' state'))
    (onward : ∀ state after, step state = .ok after → state.position < after.position →
      invariant after)
    (rounds : Nat) : ∀ state state', Tandem left right state state' → invariant state →
      Paired left right state state' (iterate step rounds state) (iterate step' rounds state') := by
  induction rounds with
  | zero => exact paired
  | succ rounds ih =>
      intro state state' tandem holds
      refine (paired state state' tandem holds).bind ?_
      intro after after' stepped _ next
      rw [next.position, tandem.position]
      split
      · rename_i moved
        exact ih after after' next (onward state after stepped moved)
      · exact .refl next

end JavaSyntax
