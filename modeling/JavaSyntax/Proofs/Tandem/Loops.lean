import JavaSyntax.Proofs.Tandem.Steps
import JavaSyntax.Proofs.Fuel.Enough

/-!
# Loops in tandem

Operators, prefixes and chains are read in loops that keep unfinished frames aside.
As with moves, each loop is seen as a reading of the state that has the slots of
those frames in front of its own.
-/

namespace JavaSyntax

variable {left right : Context}

namespace State

variable {step step' : Step}

/-- What follows a step in a frame, seen in front of the slots below the frame. -/
theorem frame_paired {start start' : State} {base base' : List Element}
    {result result' : Except SyntaxError State} {next next' : Step}
    (below : base'.map Element.sketch = base.map Element.sketch)
    (tandem : Tandem left right (start.onto base) (start'.onto base'))
    (inner : Paired left right start start' result result')
    (rest : ∀ after after', result = .ok after → result' = .ok after' →
      Tandem left right after after' →
      Tandem left right (after.onto base) (after'.onto base') →
        Paired left right (after.onto base) (after'.onto base') (next after) (next' after')) :
    Paired left right (start.onto base) (start'.onto base') (result >>= next)
      (result' >>= next') := by
  rcases inner.cases with ⟨after, after', rfl, rfl, ended⟩ | ⟨error, error', rfl, rfl, like⟩
  · have course := (inner.course rfl).onto base tandem.sound
    have course' := (inner.course' rfl).onto base' tandem.sound'
    have wider : Like left right (after.onto base) (after'.onto base') :=
      ended.withSlots (by rw [List.map_append, List.map_append, ended.slots, below])
    have whole := rest after after' rfl rfl ended ⟨wider, course.sound, course'.sound⟩
    exact whole.after course course'
  · exact .error like

theorem collect_bind (state : State) (step : Step)
    (next : List Element × State → Except SyntaxError State) :
    state.collect step >>= next = step { state with slots := [] } >>= fun after =>
      next (after.gathered, { after with slots := state.slots }) := by
  unfold collect
  cases step { state with slots := [] } <;> rfl

/-- Steps in a frame of their own, seen in front of other slots than those of the state. -/
theorem collect_paired (state state' : State) {base base' : List Element}
    {next next' : List Element × State → Except SyntaxError State}
    (tandem : Tandem left right { state with slots := base } { state' with slots := base' })
    (inner : Paired left right { state with slots := [] } { state' with slots := [] }
      (step { state with slots := [] }) (step' { state' with slots := [] }))
    (rest : ∀ after after', step { state with slots := [] } = .ok after →
      step' { state' with slots := [] } = .ok after' → Tandem left right after after' →
      Tandem left right (after.onto base) (after'.onto base') →
        Paired left right (after.onto base) (after'.onto base')
          (next (after.gathered, { after with slots := state.slots }))
          (next' (after'.gathered, { after' with slots := state'.slots }))) :
    Paired left right { state with slots := base } { state' with slots := base' }
      (state.collect step >>= next) (state'.collect step' >>= next') := by
  rw [collect_bind, collect_bind]
  exact frame_paired tandem.slots tandem inner rest

end State

/-! ## Operators -/

namespace Pending

/-- A waiting operand of which only the sketches of its slots are kept. -/
def sketch (pending : Pending) : Pending :=
  ⟨pending.left.map Element.sketch, pending.level, pending.operator.map Element.sketch⟩

theorem slots_sketch (stack : List Pending) :
    (slots stack).map Element.sketch = slots (stack.map sketch) := by
  induction stack with
  | nil => rfl
  | cons top stack ih => simp [slots, sketch, ih]

end Pending

/-- The loops over operators of two readings, with the operands that wait in each. -/
structure Awaiting (left right : Context) (state state' : State) (stack stack' : List Pending)
    (held held' : List Element) : Prop where
  tandem : Tandem left right
    { state with slots := held.reverse ++ Pending.slots stack ++ state.slots }
    { state' with slots := held'.reverse ++ Pending.slots stack' ++ state'.slots }
  below : state'.slots.map Element.sketch = state.slots.map Element.sketch
  operands : stack'.map Pending.sketch = stack.map Pending.sketch
  latest : held'.map Element.sketch = held.map Element.sketch
  joined : ∀ pending ∈ stack, pending.operator.all Element.isAbsent = false
  joined' : ∀ pending ∈ stack', pending.operator.all Element.isAbsent = false

namespace State

variable {context : Context} {state state' : State}

theorem reduce_sketch (floor : Level) {stack stack' : List Pending} {held held' : List Element}
    (piles : stack'.map Pending.sketch = stack.map Pending.sketch)
    (same : held'.map Element.sketch = held.map Element.sketch) :
    (state'.reduce right floor stack' held').1.map Pending.sketch =
        (state.reduce left floor stack held).1.map Pending.sketch ∧
      (state'.reduce right floor stack' held').2.map Element.sketch =
        (state.reduce left floor stack held).2.map Element.sketch := by
  induction stack generalizing stack' held held' with
  | nil =>
      obtain rfl := List.map_eq_nil_iff.mp piles
      exact ⟨rfl, same⟩
  | cons top stack ih =>
      cases stack' with
      | nil => cases piles
      | cons top' stack' =>
          obtain ⟨tops, rest⟩ := List.cons.inj piles
          obtain ⟨lefts, levels, operators⟩ := Pending.mk.inj tops
          simp only [reduce, levels]
          split
          · refine ih rest ?_
            have drawn : (top'.left ++ top'.operator ++ held').map Element.sketch =
                (top.left ++ top.operator ++ held).map Element.sketch := by
              simp only [List.map_append, lefts, operators, same]
            exact congrArg (· :: []) (sketch_finish top.level.nodeKind drawn)
          · exact ⟨piles, same⟩

theorem mem_reduce {floor : Level} {stack : List Pending} {held : List Element}
    {pending : Pending} (member : pending ∈ (state.reduce context floor stack held).1) :
    pending ∈ stack := by
  induction stack generalizing held with
  | nil => exact member
  | cons top stack ih =>
      simp only [reduce] at member
      split at member
      · exact List.mem_cons_of_mem _ (ih member)
      · exact member

theorem reduce_course (ordered : context.Ordered) (floor : Level) {stack : List Pending}
    (held : List Element) {base : List Element}
    (sound : Sound context { state with slots := held.reverse ++ Pending.slots stack ++ base })
    (joined : ∀ pending ∈ stack, pending.operator.all Element.isAbsent = false) :
    Course context { state with slots := held.reverse ++ Pending.slots stack ++ base }
      { state with
        slots := (state.reduce context floor stack held).2.reverse ++
          Pending.slots (state.reduce context floor stack held).1 ++ base } := by
  induction stack generalizing held with
  | nil => exact .refl sound
  | cons top stack ih =>
      simp only [reduce]
      split
      · have present := joined top List.mem_cons_self
        have slots : held.reverse ++ Pending.slots (top :: stack) ++ base =
            (top.left ++ top.operator ++ held).reverse ++ (Pending.slots stack ++ base) := by
          simp [Pending.slots]
        rw [slots] at sound ⊢
        have proper : top.level.nodeKind ≠ .error := by cases top.level <;> decide
        have closed := Course.closeOver _ sound ordered (by simp [present]) proper
        refine closed.trans (ih [_] closed.sound ?_)
        intro pending member
        exact joined pending (List.mem_cons_of_mem _ member)
      · exact .refl sound

theorem all_append_gathered (slots : List Element) (filled : state.isHollow = false) :
    (slots ++ state.gathered).all Element.isAbsent = false := by
  rw [isHollow] at filled
  rw [List.all_append, gathered, List.all_reverse, filled, Bool.and_false]

/-- Operands that wait are joined alike. -/
theorem reduce_waiting (alike : left.Matches right) (floor : Level) {stack stack' : List Pending}
    {held held' : List Element}
    (waiting : Awaiting left right state state' stack stack' held held') :
    Awaiting left right state state' (state.reduce left floor stack held).1
      (state'.reduce right floor stack' held').1 (state.reduce left floor stack held).2
      (state'.reduce right floor stack' held').2 := by
  obtain ⟨piles, helds⟩ := reduce_sketch floor waiting.operands waiting.latest
  have course := reduce_course alike.ordered floor held waiting.tandem.sound waiting.joined
  have course' := reduce_course alike.ordered' floor held' waiting.tandem.sound' waiting.joined'
  refine ⟨⟨?_, course.sound, course'.sound⟩, waiting.below, piles, helds,
    fun pending member => waiting.joined pending (mem_reduce member),
    fun pending member => waiting.joined' pending (mem_reduce member)⟩
  refine waiting.tandem.withSlots ?_
  simp only [List.map_append, List.map_reverse, Pending.slots_sketch, piles, helds, waiting.below]

/-- The expressions that remain are alike. -/
theorem closeOperators_paired (alike : left.Matches right) {stack stack' : List Pending}
    {held held' : List Element}
    (waiting : Awaiting left right state state' stack stack' held held') :
    Paired left right
      { state with slots := held.reverse ++ Pending.slots stack ++ state.slots }
      { state' with slots := held'.reverse ++ Pending.slots stack' ++ state'.slots }
      (.ok (state.closeOperators left stack held))
      (.ok (state'.closeOperators right stack' held')) := by
  have reduced := reduce_waiting alike .or waiting
  have course := reduce_course alike.ordered .or held waiting.tandem.sound waiting.joined
  have course' := reduce_course alike.ordered' .or held' waiting.tandem.sound' waiting.joined'
  have like := reduced.tandem.toLike
  rw [reduce_or] at course course'
  rw [reduce_or, reduce_or] at like
  simp only [Pending.slots, List.append_nil] at course course' like
  exact .ok like course course'

end State

namespace Awaiting

variable {state state' after after' : State} {stack stack' : List Pending}
  {held held' : List Element}

/-- An operator and its right side are read. -/
theorem push (waiting : Awaiting left right state state' stack stack' held held') (level : Level)
    {opened opened' : State} (operators : Like left right opened opened')
    (inner : Like left right after after')
    (whole : Tandem left right
      (after.onto (opened.slots ++ (held.reverse ++ Pending.slots stack ++ state.slots)))
      (after'.onto (opened'.slots ++ (held'.reverse ++ Pending.slots stack' ++ state'.slots))))
    (filled : opened.isHollow = false) :
    Awaiting left right { after with slots := state.slots } { after' with slots := state'.slots }
      (⟨held, level, opened.gathered⟩ :: stack) (⟨held', level, opened'.gathered⟩ :: stack')
      after.gathered after'.gathered where
  tandem := by simpa [Pending.slots, State.gathered, State.onto] using whole
  below := waiting.below
  operands := by
    simp only [List.map_cons, waiting.operands, Pending.sketch, waiting.latest, operators.gathered]
  latest := inner.gathered
  joined := by
    intro pending member
    cases member with
    | head => simpa [State.gathered, State.isHollow] using filled
    | tail _ member => exact waiting.joined pending member
  joined' := by
    intro pending member
    cases member with
    | head =>
        rw [← operators.isHollow] at filled
        simpa [State.gathered, State.isHollow] using filled
    | tail _ member => exact waiting.joined' pending member

/-- A type test is complete when its type is read. -/
theorem test (waiting : Awaiting left right state state' stack stack' held held')
    (inner : Like left right after after') {kind : NodeKind}
    (closed : Sound left
      { after with
        slots := after.finish left kind (held ++ after.gathered) ::
          (Pending.slots stack ++ state.slots) })
    (closed' : Sound right
      { after' with
        slots := after'.finish right kind (held' ++ after'.gathered) ::
          (Pending.slots stack' ++ state'.slots) }) :
    Awaiting left right { after with slots := state.slots } { after' with slots := state'.slots }
      stack stack' [after.finish left kind (held ++ after.gathered)]
      [after'.finish right kind (held' ++ after'.gathered)] := by
  have drawn : (held' ++ after'.gathered).map Element.sketch =
      (held ++ after.gathered).map Element.sketch := by
    rw [List.map_append, List.map_append, waiting.latest, inner.gathered]
  have nodes : [after'.finish right kind (held' ++ after'.gathered)].map Element.sketch =
      [after.finish left kind (held ++ after.gathered)].map Element.sketch :=
    congrArg (· :: []) (State.sketch_finish kind drawn)
  refine ⟨⟨inner.withSlots ?_, closed, closed'⟩, waiting.below, waiting.operands, nodes,
    waiting.joined, waiting.joined'⟩
  simp only [List.map_append, List.map_reverse, Pending.slots_sketch, waiting.operands,
    waiting.below, nodes]

end Awaiting

namespace State

section Operators

variable {operand operand' type type' : Step} (alike : left.Matches right)
  (operands : ∀ state state', Tandem left right state state' → state.slots = [] →
    Paired left right state state' (operand state) (operand' state'))
  (types : ∀ state state', Tandem left right state state' → state.isHollow = false →
    Paired left right state state' (type state) (type' state'))

include alike operands types

theorem climb_paired (rounds : Nat) {stack stack' : List Pending} {held held' : List Element}
    {state state' : State} (waiting : Awaiting left right state state' stack stack' held held') :
    Paired left right
      { state with slots := held.reverse ++ Pending.slots stack ++ state.slots }
      { state' with slots := held'.reverse ++ Pending.slots stack' ++ state'.slots }
      (climb left operand type rounds stack held state)
      (climb right operand' type' rounds stack' held' state') := by
  induction rounds generalizing stack stack' held held' state state' with
  | zero => exact closeOperators_paired alike waiting
  | succ rounds ih =>
      have found : state'.operator? right = state.operator? left :=
        waiting.tandem.operator? alike
      have first : state'.kindAt right 0 = state.kindAt left 0 := waiting.tandem.kindAt alike 0
      simp only [climb, found, first]
      split
      · exact closeOperators_paired alike waiting
      · rename_i level width some
        have course := reduce_course alike.ordered level held waiting.tandem.sound waiting.joined
        have course' :=
          reduce_course alike.ordered' level held' waiting.tandem.sound' waiting.joined'
        have reduced := reduce_waiting alike level waiting
        obtain ⟨more, wide⟩ := operator?_eq_some some
        refine Paired.after ?_ course course'
        generalize state.reduce left level stack held = pair at reduced
        generalize state'.reduce right level stack' held' = pair' at reduced
        obtain ⟨waits, tested⟩ := pair
        obtain ⟨waits', tested'⟩ := pair'
        have bare := reduced.tandem.bare
        split
        · have started : Course left { state with slots := [] } _ :=
            .take bare.sound alike.ordered
          have started' : Course right { state' with slots := [] } _ :=
            .take bare.sound' alike.ordered'
          have taken : Tandem left right _ _ :=
            ⟨bare.take alike, started.sound, started'.sound⟩
          have typed := types _ _ taken (started.filled (position_lt_take more))
          refine collect_paired state state' reduced.tandem (typed.after started started') ?_
          intro after after' read read' inner wider
          have filled : after.isHollow = false :=
            (started.trans (typed.course read)).filled
              (Nat.lt_of_lt_of_le (position_lt_take more) (typed.course read).kept.forward)
          have slots (after : State) (tested base : List Element) :
              after.slots ++ (tested.reverse ++ base) =
                (tested ++ after.gathered).reverse ++ base := by
            simp [gathered]
          simp only [List.append_assoc, onto, slots] at wider ⊢
          have closed := Course.closeOver .instanceofExpression wider.sound alike.ordered
            (all_append_gathered tested filled) (by decide)
          have closed' := Course.closeOver .instanceofExpression wider.sound' alike.ordered'
            (all_append_gathered tested' (inner.isHollow.trans filled)) (by decide)
          exact (ih (reduced.test inner.toLike closed.sound closed'.sound)).after closed closed'
        · have started : Course left { state with slots := [] } _ :=
            .takeMany bare.sound alike.ordered width
          have started' : Course right { state' with slots := [] } _ :=
            .takeMany bare.sound' alike.ordered' width
          refine collect_paired state state' reduced.tandem
            (.ok (bare.takeMany alike width) started started') ?_
          intro opened opened' read read' inner wider
          have filled : opened.isHollow = false := by
            cases read
            exact started.filled (position_lt_takeMany more wide)
          refine collect_paired { opened with slots := state.slots }
            { opened' with slots := state'.slots } wider (operands _ _ wider.bare rfl) ?_
          intro after after' _ _ last whole
          have next := ih (reduced.push level inner.toLike last.toLike whole filled)
          simpa [Pending.slots, gathered, onto] using next

theorem operators_paired {state state' : State} (tandem : Tandem left right state state') :
    Paired left right state state' (operators left operand type state)
      (operators right operand' type' state') := by
  refine collect_paired state state' tandem (operands _ _ tandem.bare rfl) ?_
  intro after after' _ _ inner whole
  have waiting : Awaiting left right { after with slots := state.slots }
      { after' with slots := state'.slots } [] [] after.gathered after'.gathered :=
    ⟨by simpa [Pending.slots, gathered, onto] using whole, tandem.slots, rfl, inner.gathered,
      by simp, by simp⟩
  have rounds : ({ after' with slots := state'.slots } : State).remaining right =
      ({ after with slots := state.slots } : State).remaining left := inner.remaining alike
  have climbed := climb_paired alike operands types
    (({ after with slots := state.slots } : State).remaining left) waiting
  dsimp only
  rw [rounds]
  simpa [Pending.slots, gathered, onto] using climbed

end Operators

end State

/-! ## Frames nested to the right -/

/-- Unfinished frames of two readings with the same sketches, none of them hollow. -/
structure Nested (frames frames' : List (List Element)) : Prop where
  drawn : frames'.map (·.map Element.sketch) = frames.map (·.map Element.sketch)
  filled : ∀ slots ∈ frames, slots.all Element.isAbsent = false

namespace Nested

theorem nil : Nested [] [] :=
  ⟨rfl, by simp⟩

theorem cons {after after' : State} {frames frames' : List (List Element)}
    (nested : Nested frames frames') (like : Like left right after after')
    (filled : after.isHollow = false) :
    Nested (after.gathered :: frames) (after'.gathered :: frames') where
  drawn := by rw [List.map_cons, List.map_cons, nested.drawn, like.gathered]
  filled := by
    intro slots member
    cases member with
    | head => simpa [State.gathered, State.isHollow] using filled
    | tail _ member => exact nested.filled slots member

theorem openSlots {frames frames' : List (List Element)} (nested : Nested frames frames') :
    (openSlots frames').map Element.sketch = (openSlots frames).map Element.sketch := by
  have drawn (frames : List (List Element)) : (JavaSyntax.openSlots frames).map Element.sketch =
      JavaSyntax.openSlots (frames.map (·.map Element.sketch)) := by
    induction frames with
    | nil => rfl
    | cons slots frames ih => simp [ih]
  rw [drawn, drawn, nested.drawn]

end Nested

namespace State

variable {context : Context} {state state' : State}

theorem nestRight_sketch {kind kind' : List Element → NodeKind}
    (kinds : ∀ slots slots' : List Element,
      slots'.map Element.sketch = slots.map Element.sketch → kind' slots' = kind slots)
    {frames frames' : List (List Element)}
    (drawn : frames'.map (·.map Element.sketch) = frames.map (·.map Element.sketch))
    {inmost inmost' : Element} (same : inmost'.sketch = inmost.sketch) :
    (state'.nestRight right kind' frames' inmost').sketch =
      (state.nestRight left kind frames inmost).sketch := by
  induction frames generalizing frames' inmost inmost' with
  | nil =>
      obtain rfl := List.map_eq_nil_iff.mp drawn
      exact same
  | cons slots frames ih =>
      cases frames' with
      | nil => cases drawn
      | cons slots' frames' =>
          rw [List.map_cons, List.map_cons] at drawn
          obtain ⟨first, rest⟩ := List.cons.inj drawn
          refine ih rest ?_
          dsimp only
          rw [kinds slots slots' first]
          refine sketch_finish _ ?_
          rw [List.map_append, List.map_append, first, List.map_singleton, List.map_singleton, same]

theorem nestRight_course (ordered : context.Ordered) {kind : List Element → NodeKind}
    (proper : ∀ slots, kind slots ≠ .error) {frames : List (List Element)} (inmost : Element)
    {base : List Element} (present : inmost.isAbsent = false)
    (sound : Sound context { state with slots := inmost :: (openSlots frames ++ base) }) :
    Course context { state with slots := inmost :: (openSlots frames ++ base) }
      { state with slots := state.nestRight context kind frames inmost :: base } := by
  induction frames generalizing inmost with
  | nil => exact .refl sound
  | cons slots frames ih =>
      have whole : inmost :: (openSlots (slots :: frames) ++ base) =
          (slots ++ [inmost]).reverse ++ (openSlots frames ++ base) := by simp
      rw [whole] at sound ⊢
      have closed := Course.closeOver (kind slots) sound ordered (by simp [present]) (proper slots)
      exact closed.trans (ih _ rfl closed.sound)

/-- The node of the innermost frame, and of all unfinished frames around it. -/
def nested (context : Context) (inner : State) (kind : List Element → NodeKind)
    (frames : List (List Element)) (inmost : NodeKind) : Element :=
  inner.nestRight context kind frames (inner.finish context inmost inner.gathered)

theorem nested_course (ordered : context.Ordered) {inner : State}
    {kind : List Element → NodeKind} (proper : ∀ slots, kind slots ≠ .error)
    {frames : List (List Element)} {inmost : NodeKind} (fits : inmost ≠ .error)
    {base : List Element} (filled : inner.isHollow = false)
    (sound : Sound context (inner.onto (openSlots frames ++ base))) :
    Course context (inner.onto (openSlots frames ++ base))
      { inner with slots := inner.nested context kind frames inmost :: base } := by
  have whole : inner.onto (openSlots frames ++ base) =
      { inner with slots := inner.gathered.reverse ++ (openSlots frames ++ base) } := by
    simp [onto, gathered]
  rw [whole] at sound ⊢
  have absent : inner.gathered.all Element.isAbsent = false :=
    all_append_gathered [] filled
  have closed := Course.closeOver inmost sound ordered absent fits
  exact closed.trans (nestRight_course ordered proper _ rfl closed.sound)

theorem nested_paired (alike : left.Matches right) {inner inner' : State}
    {kind : List Element → NodeKind} (proper : ∀ slots, kind slots ≠ .error)
    (kinds : ∀ slots : List Element, kind (slots.map Element.sketch) = kind slots)
    {frames frames' : List (List Element)} (nested : Nested frames frames') {inmost : NodeKind}
    (fits : inmost ≠ .error) {base base' : List Element}
    (below : base'.map Element.sketch = base.map Element.sketch)
    (like : Like left right inner inner') (filled : inner.isHollow = false)
    (whole : Tandem left right (inner.onto (openSlots frames ++ base))
      (inner'.onto (openSlots frames' ++ base'))) :
    Paired left right (inner.onto (openSlots frames ++ base))
      (inner'.onto (openSlots frames' ++ base'))
      (.ok { inner with slots := inner.nested left kind frames inmost :: base })
      (.ok { inner' with slots := inner'.nested right kind frames' inmost :: base' }) := by
  refine .ok (like.withSlots ?_) (nested_course alike.ordered proper fits filled whole.sound)
    (nested_course alike.ordered' proper fits (like.isHollow.trans filled) whole.sound')
  rw [List.map_cons, List.map_cons, below]
  refine congrArg (· :: _) (nestRight_sketch ?_ nested.drawn (sketch_finish _ like.gathered))
  intro slots slots' same
  rw [← kinds, same, kinds]

section Prefixes

variable {link link' last last' : Step} (alike : left.Matches right)
  (lasts : ∀ state state', Tandem left right state state' →
    (state.slots = [] ∨ state.isHollow = false) →
      Paired left right state state' (last state) (last' state'))
  (keeps : ∀ state after, last state = .ok after → state.isHollow = false →
    after.isHollow = false)

theorem prefixKind_ne_error (slots : List Element) : prefixKind slots ≠ .error := by
  unfold prefixKind
  split <;> decide

include alike lasts keeps

theorem closePrefixes_paired (state state' : State) {prefixes prefixes' : List (List Element)}
    (nested : Nested prefixes prefixes')
    (below : state'.slots.map Element.sketch = state.slots.map Element.sketch)
    (tandem : Tandem left right { state with slots := openSlots prefixes ++ state.slots }
      { state' with slots := openSlots prefixes' ++ state'.slots }) :
    Paired left right { state with slots := openSlots prefixes ++ state.slots }
      { state' with slots := openSlots prefixes' ++ state'.slots }
      (state.closePrefixes left last prefixes) (state'.closePrefixes right last' prefixes') := by
  cases prefixes with
  | nil =>
      obtain rfl := List.map_eq_nil_iff.mp nested.drawn
      have tandem : Tandem left right state state' := tandem
      exact inFrame_paired tandem (lasts _ _ tandem.bare (.inl rfl))
  | cons inmost outer =>
      cases prefixes' with
      | nil => cases nested.drawn
      | cons inmost' outer' =>
          have drawn := nested.drawn
          rw [List.map_cons, List.map_cons] at drawn
          obtain ⟨first, rest⟩ := List.cons.inj drawn
          have outside : Nested outer outer' :=
            ⟨rest, fun slots member => nested.filled slots (List.mem_cons_of_mem _ member)⟩
          have filled : ({ state with slots := inmost.reverse } : State).isHollow = false := by
            rw [isHollow, List.all_reverse]
            exact nested.filled inmost List.mem_cons_self
          have kinds : prefixKind inmost' = prefixKind inmost := by
            rw [← prefixKind_sketch, first, prefixKind_sketch]
          have beneath : (openSlots outer' ++ state'.slots).map Element.sketch =
              (openSlots outer ++ state.slots).map Element.sketch := by
            rw [List.map_append, List.map_append, outside.openSlots, below]
          simp only [openSlots_cons, List.append_assoc] at tandem ⊢
          have frame : Tandem left right { state with slots := inmost.reverse }
              { state' with slots := inmost'.reverse } :=
            ⟨tandem.withSlots (by rw [List.map_reverse, List.map_reverse, first]),
              tandem.sound.ofSlots _ (List.prefix_append _ _),
              tandem.sound'.ofSlots _ (List.prefix_append _ _)⟩
          refine frame_paired beneath tandem (lasts _ _ frame (.inr filled)) ?_
          intro inner inner' read _ like whole
          rw [kinds]
          exact nested_paired alike prefixKind_ne_error prefixKind_sketch outside
            (prefixKind_ne_error inmost) below like.toLike (keeps _ _ read filled) whole

theorem prefixed_paired
    (links : ∀ state state', Tandem left right state state' → state.slots = [] →
      Paired left right state state' (link state) (link' state'))
    (still : ∀ state after, link state = .ok after → ¬state.position < after.position →
      after = state)
    (rounds : Nat) {prefixes prefixes' : List (List Element)} (nested : Nested prefixes prefixes')
    (state state' : State)
    (below : state'.slots.map Element.sketch = state.slots.map Element.sketch)
    (tandem : Tandem left right { state with slots := openSlots prefixes ++ state.slots }
      { state' with slots := openSlots prefixes' ++ state'.slots }) :
    Paired left right { state with slots := openSlots prefixes ++ state.slots }
      { state' with slots := openSlots prefixes' ++ state'.slots }
      (prefixed left link last rounds prefixes state)
      (prefixed right link' last' rounds prefixes' state') := by
  induction rounds generalizing prefixes prefixes' state state' with
  | zero => exact closePrefixes_paired alike lasts keeps state state' nested below tandem
  | succ rounds ih =>
      have linked := links _ _ tandem.bare rfl
      refine collect_paired state state' tandem linked ?_
      intro after after' read _ inner whole
      have same : state'.position = state.position := tandem.position
      have moves : state'.position < after'.position ↔ state.position < after.position := by
        rw [inner.position, same]
      simp only [moves]
      split
      · rename_i moved
        have filled := (linked.course read).filled moved
        have rest := ih (nested.cons inner.toLike filled) { after with slots := state.slots }
          { after' with slots := state'.slots } below (by simpa [gathered, onto] using whole)
        simpa [gathered, onto] using rest
      · rename_i stuck
        obtain rfl := still _ _ read stuck
        have none : after'.slots = [] := List.map_eq_nil_iff.mp inner.slots
        have slots' : after'.onto (openSlots prefixes' ++ state'.slots) =
            { after' with slots := openSlots prefixes' ++ state'.slots } := by
          rw [onto, none, List.nil_append]
        rw [slots'] at whole ⊢
        exact closePrefixes_paired alike lasts keeps state { after' with slots := state'.slots }
          nested below whole

end Prefixes

section Chains

variable {link link' last last' : Step} {more more' : State → Bool} {kind : NodeKind}
  (alike : left.Matches right) (proper : kind ≠ .error)
  (links : ∀ state state', Tandem left right state state' → state.slots = [] →
    Paired left right state state' (link state) (link' state'))
  (fills : ∀ state after, link state = .ok after → after.isHollow = false)
  (decides : ∀ state state', Tandem left right state state' → more' state' = more state)
  (lasts : ∀ state state', Tandem left right state state' → state.isHollow = false →
    Paired left right state state' (last state) (last' state'))
  (keeps : ∀ state after, last state = .ok after → state.isHollow = false →
    after.isHollow = false)

include alike proper links fills decides lasts keeps

omit links fills decides in
theorem closeChain_paired {outer outer' : List (List Element)} (nested : Nested outer outer')
    {base base' : List Element} (below : base'.map Element.sketch = base.map Element.sketch)
    {inner inner' : State} (tandem : Tandem left right inner inner')
    (whole : Tandem left right (inner.onto (openSlots outer ++ base))
      (inner'.onto (openSlots outer' ++ base'))) (filled : inner.isHollow = false) :
    Paired left right (inner.onto (openSlots outer ++ base))
      (inner'.onto (openSlots outer' ++ base')) (closeChain left kind last outer base inner)
      (closeChain right kind last' outer' base' inner') := by
  have beneath : (openSlots outer' ++ base').map Element.sketch =
      (openSlots outer ++ base).map Element.sketch := by
    rw [List.map_append, List.map_append, nested.openSlots, below]
  refine frame_paired beneath whole (lasts _ _ tandem filled) ?_
  intro ended ended' read _ like whole
  exact nested_paired alike (fun _ => proper) (fun _ => rfl) nested proper below like.toLike
    (keeps _ _ read filled) whole

theorem chain_paired (rounds : Nat) {outer outer' : List (List Element)}
    (nested : Nested outer outer') (state state' : State)
    (below : state'.slots.map Element.sketch = state.slots.map Element.sketch)
    (tandem : Tandem left right { state with slots := openSlots outer ++ state.slots }
      { state' with slots := openSlots outer' ++ state'.slots }) :
    Paired left right { state with slots := openSlots outer ++ state.slots }
      { state' with slots := openSlots outer' ++ state'.slots }
      (chain left kind link more last rounds outer state)
      (chain right kind link' more' last' rounds outer' state') := by
  induction rounds generalizing outer outer' state state' with
  | zero =>
      refine frame_paired tandem.slots tandem (links _ _ tandem.bare rfl) ?_
      intro inner inner' read _ like whole
      exact closeChain_paired alike proper lasts keeps nested below like whole (fills _ _ read)
  | succ rounds ih =>
      refine frame_paired tandem.slots tandem (links _ _ tandem.bare rfl) ?_
      intro inner inner' read _ like whole
      rw [decides _ _ like]
      split
      · have taken : Course left _ _ := .take like.sound alike.ordered
        have taken' : Course right _ _ := .take like.sound' alike.ordered'
        have joined : Tandem left right (inner.take left) (inner'.take right) :=
          ⟨like.take alike, taken.sound, taken'.sound⟩
        have filled : (inner.take left).isHollow = false := by
          rw [Bool.eq_false_iff]
          intro hollow
          have before := isHollow_of_suffix (take_appends inner) hollow
          rw [fills _ _ read] at before
          cases before
        have course := taken.onto _ whole.sound
        have course' := taken'.onto _ whole.sound'
        have wider : Tandem left right ((inner.take left).onto (openSlots outer ++ state.slots))
            ((inner'.take right).onto (openSlots outer' ++ state'.slots)) :=
          ⟨joined.withSlots (by simp only [List.map_append, joined.slots, nested.openSlots, below]),
            course.sound, course'.sound⟩
        have rest := ih (nested.cons joined.toLike filled)
          { inner.take left with slots := state.slots }
          { inner'.take right with slots := state'.slots } below
          (by simpa [gathered, onto] using wider)
        refine Paired.after ?_ course course'
        simpa [gathered, onto] using rest
      · exact closeChain_paired alike proper lasts keeps nested below like whole (fills _ _ read)

end Chains

end State

end JavaSyntax
