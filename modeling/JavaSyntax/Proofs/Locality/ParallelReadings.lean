import JavaSyntax.Proofs.Locality.Confine
import JavaSyntax.Proofs.Tandem.Loops

/-!
# Parallel readings of a common stretch

Two token lists may agree on a stretch of tokens and differ before and behind it.  Readings
of the two that start at the same token of the stretch go the same way, as long as they do
not leave it.  Their states are twins: the cursors are at the same token, and the frames have
the same sketch.

What two readings come to is compared with the effects that were computed: either both fail,
or both succeed with twins, and one of the effects tells what was read.
-/

namespace JavaSyntax

/-- Two token lists, both read without recovery, that agree between two places in all that a
reading looks at. -/
structure Fence where
  left : Context
  right : Context
  /-- How much farther from the start a token stands in the right list. -/
  shift : Nat
  /-- The first place at which the lists agree. -/
  low : Nat
  /-- The last place at which the lists agree. -/
  high : Nat
  strict : left.recovery = false
  strict' : right.recovery = false
  size : high < left.tokens.size
  size' : high + shift < right.tokens.size
  sketch : ∀ index, low ≤ index → index ≤ high →
    (right.get (index + shift)).sketch = (left.get index).sketch
  touching : ∀ index, low ≤ index → index < high →
    ((right.get (index + shift)).stop = (right.get (index + 1 + shift)).start ↔
      (left.get index).stop = (left.get (index + 1)).start)

namespace State

theorem slots_dropAbsent (state : State) :
    state.dropAbsent.slots =
      if state.slots.head?.any Element.isAbsent then state.slots.tail else state.slots := by
  obtain ⟨position, errors, slots⟩ := state
  cases slots with
  | nil => rfl
  | cons first rest => cases first <;> rfl

/-- Whether the last slot is absent can be told from the sketch. -/
theorem sketch_dropAbsent {state state' : State}
    (same : state'.slots.map Element.sketch = state.slots.map Element.sketch) :
    state'.dropAbsent.slots.map Element.sketch = state.dropAbsent.slots.map Element.sketch := by
  have ends (slots : List Element) : slots.head?.any Element.isAbsent =
      (slots.map Element.sketch).head?.any Element.isAbsent := by
    rw [List.head?_map, Element.any_map_sketch Element.isAbsent_sketch]
  rw [slots_dropAbsent, slots_dropAbsent, ends, same, ← ends]
  split
  · rw [List.map_tail, List.map_tail, same]
  · exact same

theorem position_dropAbsent (state : State) : state.dropAbsent.position = state.position := by
  unfold dropAbsent
  split <;> rfl

theorem errors_dropAbsent (state : State) : state.dropAbsent.errors = state.errors := by
  unfold dropAbsent
  split <;> rfl

end State

/-- Whether a requirement is violated can be told from the sketch. -/
theorem Requirement.isSome_violation?_sketch (slots : List Element) (requirement : Requirement) :
    (requirement.violation? (slots.map Element.sketch)).isSome =
      (requirement.violation? slots).isSome := by
  have placed (slot : Element) : slot.sketch.span?.isSome = slot.span?.isSome := by
    cases slot <;> simp [Element.sketch, Element.span?]
  cases requirement with
  | statementExpression =>
      cases slots with
      | nil => rfl
      | cons slot others =>
          rw [List.map_cons, violation?_statementExpression, violation?_statementExpression,
            Element.nodeKind?_sketch, Element.isStatementExpression_sketch,
            Element.isDamaged_sketch]
          split
          · rw [Option.isSome_map, Option.isSome_map, placed]
          · rfl
  | handler =>
      rw [violation?_handler, violation?_handler, List.getElem?_map, List.getElem?_map,
        Element.any_map_sketch Element.isAbsent_sketch,
        Element.any_map_sketch Element.isAbsent_sketch]
      split
      · rw [Option.isSome_map, Option.isSome_map, List.getLast?_map]
        cases slots.getLast? with
        | none => rfl
        | some last => exact placed last
      · rfl

namespace Walls

variable {walls : Walls} {stack : List Bracket} {context : Context} {state : State}
  (passable : (walls.stops stack).contains (state.kindAt context 0) = false)

include passable

theorem not_atEnd : state.atEnd context = false := by
  rw [Bool.eq_false_iff]
  intro ended
  rw [State.atEnd_iff.mp ended, Walls.stops_eof] at passable
  cases passable

theorem position_take : (state.take context).position = state.position + 1 := by
  have more := not_atEnd passable
  rw [State.take, more]
  exact State.position_takeAny more

theorem passes_take : Passes walls context stack state.position
    ((state.kindAt context 0).shift stack) (state.take context).position := by
  rw [position_take passable]
  exact Passes.next .refl passable

end Walls

/-- States of two readings that have the same sketch, the second one so many tokens farther
from the start. -/
structure Twins (shift : Nat) (state state' : State) : Prop where
  position : state'.position = state.position + shift
  slots : state'.slots.map Element.sketch = state.slots.map Element.sketch
  errors : state'.errors = state.errors

namespace Twins

variable {shift : Nat} {state state' : State} (twins : Twins shift state state')

include twins

theorem withSlots {slots slots' : List Element}
    (same : slots'.map Element.sketch = slots.map Element.sketch) :
    Twins shift { state with slots := slots } { state' with slots := slots' } :=
  ⟨twins.position, same, twins.errors⟩

theorem gathered : state'.gathered.map Element.sketch = state.gathered.map Element.sketch := by
  rw [State.gathered, State.gathered, List.map_reverse, List.map_reverse, twins.slots]

theorem push {slot slot' : Element} (same : slot'.sketch = slot.sketch) :
    Twins shift (state.push slot) (state'.push slot') :=
  twins.withSlots (by rw [List.map_cons, List.map_cons, same, twins.slots])

theorem close (left right : Context) (kind : NodeKind) :
    Twins shift (state.close left kind) (state'.close right kind) :=
  twins.withSlots (by simpa using State.sketch_finish kind twins.gathered)

theorem dropAbsent : Twins shift state.dropAbsent state'.dropAbsent := by
  refine ⟨?_, State.sketch_dropAbsent twins.slots, ?_⟩
  · rw [State.position_dropAbsent, State.position_dropAbsent, twins.position]
  · rw [State.errors_dropAbsent, State.errors_dropAbsent, twins.errors]

theorem shape (shape : Shape) : shape.holds state'.slots = shape.holds state.slots := by
  rw [← Shape.holds_sketch, twins.slots, Shape.holds_sketch]

theorem violation? (requirement : Requirement) :
    (requirement.violation? state'.slots).isSome = (requirement.violation? state.slots).isSome := by
  rw [← Requirement.isSome_violation?_sketch, twins.slots, Requirement.isSome_violation?_sketch]

theorem moved {after after' : State} (later : Twins shift after after') :
    state'.position < after'.position ↔ state.position < after.position := by
  rw [twins.position, later.position]
  omega

end Twins

namespace Fence

/-- Twins at a place from which the readings cannot get out of the stretch, with some
brackets open and something known of the tokens ahead. -/
structure Stands (fence : Fence) (walls : Walls) (stack : List Bracket) (view : View)
    (state state' : State) : Prop extends Twins fence.shift state state' where
  above : fence.low ≤ state.position
  blocked : Blocked walls fence.left stack state.position fence.high
  fits : view.Fits fence.left state

namespace Stands

variable {fence : Fence} {walls : Walls} {stack : List Bracket} {view : View}
  {state state' : State} (stands : fence.Stands walls stack view state state')

include stands

theorem withSlots {slots slots' : List Element}
    (same : slots'.map Element.sketch = slots.map Element.sketch) :
    fence.Stands walls stack view { state with slots := slots } { state' with slots := slots' } :=
  ⟨stands.toTwins.withSlots same, stands.above, stands.blocked, stands.fits⟩

/-- A frame that starts with the last slots. -/
theorem inner (lead : Nat) : fence.Stands walls stack view
    { state with slots := state.slots.take lead } { state' with slots := state'.slots.take lead } :=
  stands.withSlots (by rw [List.map_take, List.map_take, stands.slots])

theorem withView {known : View} (fits : known.Fits fence.left state) :
    fence.Stands walls stack known state state' :=
  { stands with fits := fits }

theorem unseen : fence.Stands walls stack [] state state' :=
  stands.withView (View.fits_nil _ _)

theorem inside : state.position ≤ fence.high :=
  stands.blocked.inside

theorem current_sketch :
    (state'.current fence.right).sketch = (state.current fence.left).sketch := by
  rw [State.current, State.current, stands.position]
  exact fence.sketch _ stands.above stands.inside

/-- Tokens ahead are of the same kind up to the end of the stretch. -/
theorem kindAt {distance : Nat} (inside : state.position + distance ≤ fence.high) :
    state'.kindAt fence.right distance = state.kindAt fence.left distance := by
  have same := congrArg Token.kind
    (fence.sketch (state.position + distance) (by have := stands.above; omega) inside)
  rw [Nat.add_right_comm, ← stands.position] at same
  exact same

theorem kindAt_zero : state'.kindAt fence.right 0 = state.kindAt fence.left 0 :=
  stands.kindAt stands.inside

/-- There are enough rounds for each loop. -/
theorem remaining : fence.high - state.position < state.remaining fence.left ∧
    fence.high - state.position < state'.remaining fence.right := by
  have size := fence.size
  have size' := fence.size'
  have inside := stands.inside
  rw [State.remaining, State.remaining, stands.position]
  omega

variable (passable : (walls.stops stack).contains (state.kindAt fence.left 0) = false)

include passable

theorem lt_high : state.position < fence.high :=
  stands.blocked.lt_of_passable passable

/-- A token that is no wall is read in both. -/
theorem twins_take : Twins fence.shift (state.take fence.left) (state'.take fence.right) := by
  have more := Walls.not_atEnd passable
  have more' : state'.atEnd fence.right = false := by
    rw [State.atEnd, stands.kindAt_zero]
    exact more
  have taken (context : Context) (state : State) (more : state.atEnd context = false) :
      state.take context = state.takeAny context := by
    simp [State.take, more]
  rw [taken _ _ more, taken _ _ more']
  refine ⟨?_, ?_, stands.errors⟩
  · rw [State.position_takeAny more, State.position_takeAny more', stands.position]
    omega
  · simp only [State.takeAny, List.map_cons, stands.slots, Element.sketch, Element.redraw_token,
      stands.current_sketch]

end Stands

/-- Twins to which an effect leads that starts at a place with some brackets open. -/
structure Led (fence : Fence) (walls : Walls) (stack : List Bracket) (start : Nat)
    (effect : Effect) (after after' : State) : Prop extends Twins fence.shift after after' where
  passes : Passes walls fence.left stack start effect.stack after.position
  fits : effect.view.Fits fence.left after
  moved : effect.moved = true → start < after.position
  last : start < after.position →
    effect.last.contains (fence.left.get (after.position - 1)).kind = true

/-- Twins to which one of some effects leads. -/
def Any (fence : Fence) (walls : Walls) (stack : List Bracket) (start : Nat)
    (effects : List Effect) (after after' : State) : Prop :=
  ∃ effect ∈ effects, fence.Led walls stack start effect after after'

/-- What two readings come to: both fail, or both succeed as one of some effects says. -/
def Leads (fence : Fence) (walls : Walls) (stack : List Bracket) (start : Nat)
    (effects : List Effect) : Except SyntaxError State → Except SyntaxError State → Prop
  | .ok after, .ok after' => fence.Any walls stack start effects after after'
  | .error _, .error _ => True
  | _, _ => False

variable {fence : Fence} {walls : Walls} {stack : List Bracket} {start : Nat}
  {effects own : List Effect} {state state' after after' : State}

namespace Led

variable {effect second : Effect}

theorem stands {view : View} (led : fence.Led walls stack state.position effect after after')
    (stands : fence.Stands walls stack view state state') :
    fence.Stands walls effect.stack effect.view after after' where
  toTwins := led.toTwins
  above := Nat.le_trans stands.above led.passes.forward
  blocked := stands.blocked.later led.passes
  fits := led.fits

/-- Nothing was read. -/
theorem stay {view : View} (stands : fence.Stands walls stack view state state')
    (twins : Twins fence.shift after after') (still : after.position = state.position) :
    fence.Led walls stack state.position (.stay stack view) after after' where
  toTwins := twins
  passes := by
    rw [still]
    exact .refl
  fits := stands.fits.atPosition still
  moved := (absurd · Bool.false_ne_true)
  last := by omega

/-- A token was read that is no wall. -/
theorem take {view : View} {kinds : TokenSet} {next : List Bracket}
    (stands : fence.Stands walls stack view state state')
    (passable : (walls.stops stack).contains (state.kindAt fence.left 0) = false)
    (shifts : (state.kindAt fence.left 0).shift stack = next)
    (member : kinds.contains (state.kindAt fence.left 0) = true) :
    fence.Led walls stack state.position ⟨next, view.tail, true, kinds⟩ (state.take fence.left)
      (state'.take fence.right) where
  toTwins := stands.twins_take passable
  passes := shifts ▸ Walls.passes_take passable
  fits := stands.fits.tail (Walls.position_take passable)
  moved := fun _ => by
    rw [Walls.position_take passable]
    omega
  last := fun _ => by
    rw [Walls.position_take passable]
    exact member

theorem withSlots (led : fence.Led walls stack start effect after after')
    {slots slots' : List Element}
    (same : slots'.map Element.sketch = slots.map Element.sketch) :
    fence.Led walls stack start effect { after with slots := slots }
      { after' with slots := slots' } :=
  ⟨led.toTwins.withSlots same, led.passes, led.fits, led.moved, led.last⟩

theorem andThen {middle middle' : State}
    (first : fence.Led walls stack start effect middle middle')
    (rest : fence.Led walls effect.stack middle.position second after after') :
    fence.Led walls stack start (effect.andThen second) after after' where
  toTwins := rest.toTwins
  passes := first.passes.trans rest.passes
  fits := rest.fits
  moved := by
    have one := first.passes.forward
    have two := rest.passes.forward
    intro moved
    rcases (Bool.or_eq_true _ _).mp moved with moved | moved
    · have := first.moved moved
      omega
    · have := rest.moved moved
      omega
  last := by
    intro moved
    simp only [Effect.andThen]
    by_cases further : middle.position < after.position
    · have known := rest.last further
      split
      · exact known
      · exact (TokenSet.contains_union _ _ _).trans (by rw [known, Bool.or_true])
    · have still : after.position = middle.position := by
        have := rest.passes.forward
        omega
      rw [still] at moved ⊢
      split
      · rename_i moves
        exact absurd (rest.moved moves) further
      · exact (TokenSet.contains_union _ _ _).trans (by rw [first.last moved, Bool.true_or])

/-- An effect that says less. -/
theorem weaken (led : fence.Led walls stack start effect after after')
    (sameStack : second.stack = effect.stack) (unseen : second.view = [])
    (moved : second.moved = true → effect.moved = true)
    (last : ∀ kind, effect.last.contains kind = true → second.last.contains kind = true) :
    fence.Led walls stack start second after after' where
  toTwins := led.toTwins
  passes := sameStack ▸ led.passes
  fits := by
    rw [unseen]
    exact View.fits_nil _ _
  moved := fun moves => led.moved (moved moves)
  last := fun moves => last _ (led.last moves)

theorem join {left right joined : Effect} (same : left.join? right = some joined)
    (led : fence.Led walls stack start left after after' ∨
      fence.Led walls stack start right after after') :
    fence.Led walls stack start joined after after' := by
  unfold Effect.join? at same
  split at same
  · rename_i alike
    cases same
    refine ⟨led.elim (·.toTwins) (·.toTwins), ?_,
      View.fits_zipWith (led.imp (·.fits) (·.fits)), ?_, ?_⟩
    · rcases led with led | led
      · exact led.passes
      · exact alike.1 ▸ led.passes
    · intro moved
      rcases led with led | led
      · exact led.moved moved
      · exact led.moved (alike.2 ▸ moved)
    · intro moved
      refine (TokenSet.contains_union _ _ _).trans ?_
      rw [Bool.or_eq_true]
      exact led.imp (·.last moved) (·.last moved)
  · cases same

end Led

/-! ## Some effects -/

theorem any_insert {effect : Effect} {others : List Effect}
    (led : fence.Led walls stack start effect after after' ∨
      fence.Any walls stack start others after after') :
    fence.Any walls stack start (effect.insert others) after after' := by
  induction others with
  | nil =>
      rcases led with led | ⟨_, member, _⟩
      · exact ⟨effect, List.mem_singleton_self _, led⟩
      · cases member
  | cons first others ih =>
      simp only [Effect.insert]
      split
      · rename_i joined same
        rcases led with led | ⟨other, member, led⟩
        · exact ⟨joined, List.mem_cons_self, .join same (.inl led)⟩
        · cases member with
          | head => exact ⟨joined, List.mem_cons_self, .join same (.inr led)⟩
          | tail _ member => exact ⟨other, List.mem_cons_of_mem _ member, led⟩
      · have onward (led : fence.Any walls stack start (effect.insert others) after after') :
            fence.Any walls stack start (first :: effect.insert others) after after' := by
          obtain ⟨found, known, led⟩ := led
          exact ⟨found, List.mem_cons_of_mem _ known, led⟩
        rcases led with led | ⟨other, member, led⟩
        · exact onward (ih (.inl led))
        · cases member with
          | head => exact ⟨first, List.mem_cons_self, led⟩
          | tail _ member => exact onward (ih (.inr ⟨other, member, led⟩))

theorem any_merge {left right : List Effect}
    (led : fence.Any walls stack start left after after' ∨
      fence.Any walls stack start right after after') :
    fence.Any walls stack start (Effect.merge left right) after after' :=
  @exists_mem_foldr _ (fence.Led walls stack start · after after') Effect.insert any_insert left
    right led

/-- The effects of each item are among those of all. -/
theorem any_each (fence : Fence) (walls : Walls) {α : Type} {next : α → Option (List Effect)}
    {items : List α} {item : α}
    (found : Effect.each next items = some effects) (member : item ∈ items) :
    ∃ own, next item = some own ∧ ∀ {stack start after after'},
      fence.Any walls stack start own after after' →
        fence.Any walls stack start effects after after' := by
  induction items generalizing effects with
  | nil => cases member
  | cons first others ih =>
      obtain ⟨here, isHere, found⟩ := Option.bind_eq_some_iff.mp found
      obtain ⟨rest, isRest, found⟩ := Option.bind_eq_some_iff.mp found
      cases found
      cases member with
      | head => exact ⟨here, isHere, fun led => any_merge (.inl led)⟩
      | tail _ member =>
          obtain ⟨own, isOwn, among⟩ := ih isRest member
          exact ⟨own, isOwn, fun led => any_merge (.inr (among led))⟩

/-- Some view that fits has effects that are among those where a condition was decided. -/
theorem any_decide (fence : Fence) (walls : Walls) {rules : Rule → Context → Step}
    {condition : Condition} {decided : Bool}
    {next : View → Option (List Effect)} {view : View} {context : Context}
    (found : condition.decide decided next view = some effects)
    (holds : condition.holds rules context state = decided) (fits : view.Fits context state) :
    ∃ known own, known.Fits context state ∧ next known = some own ∧
      ∀ {stack start after after'}, fence.Any walls stack start own after after' →
        fence.Any walls stack start effects after after' := by
  obtain ⟨known, member, fits⟩ := View.Fits.views condition holds fits
  unfold Condition.decide at found
  split at found
  · rename_i none
    rw [none] at member
    cases member
  · rename_i one single
    rw [single] at member
    obtain rfl := List.mem_singleton.mp member
    exact ⟨known, effects, fits, found, id⟩
  · rename_i first others _ several
    rw [several] at member
    cases joined : next (View.joinAll first others) with
    | some own =>
        rw [joined] at found
        cases found
        exact ⟨_, effects, View.fits_joinAll member fits, joined, id⟩
    | none =>
        rw [joined] at found
        obtain ⟨own, isOwn, among⟩ := any_each _ _ found member
        exact ⟨known, own, fits, isOwn, among⟩

/-! ## Results -/

namespace Leads

variable {result result' : Except SyntaxError State}

theorem cases (leads : fence.Leads walls stack start effects result result') :
    (∃ error error', result = .error error ∧ result' = .error error') ∨
      ∃ after after', result = .ok after ∧ result' = .ok after' ∧
        fence.Any walls stack start effects after after' := by
  cases result <;> cases result'
  · exact .inl ⟨_, _, rfl, rfl⟩
  · exact leads.elim
  · exact leads.elim
  · exact .inr ⟨_, _, rfl, rfl, leads⟩

theorem mono (leads : fence.Leads walls stack start own result result')
    (among : ∀ {after after'}, fence.Any walls stack start own after after' →
      fence.Any walls stack start effects after after') :
    fence.Leads walls stack start effects result result' := by
  obtain ⟨_, _, rfl, rfl⟩ | ⟨_, _, rfl, rfl, some⟩ := leads.cases
  · trivial
  · exact among some

/-- Where there is no effect, both readings fail. -/
theorem none (leads : fence.Leads walls stack start [] result result') :
    (∃ error, result = .error error) ∧ ∃ error, result' = .error error := by
  obtain ⟨_, _, rfl, rfl⟩ | ⟨_, _, rfl, rfl, _, member, _⟩ := leads.cases
  · exact ⟨⟨_, rfl⟩, _, rfl⟩
  · cases member

/-- Both readings go on after they have succeeded. -/
theorem bind {next next' : Step} {firsts : List Effect}
    (first : fence.Leads walls stack start firsts result result')
    (rest : ∀ effect ∈ firsts, ∀ after after',
      fence.Led walls stack start effect after after' →
        fence.Leads walls stack start effects (next after) (next' after')) :
    fence.Leads walls stack start effects (result >>= next) (result' >>= next') := by
  obtain ⟨_, _, rfl, rfl⟩ | ⟨_, _, rfl, rfl, effect, member, led⟩ := first.cases
  · trivial
  · exact rest effect member _ _ led

/-- What comes before is a part of the effect. -/
theorem since {effect : Effect} (led : fence.Led walls stack start effect after after')
    (leads : fence.Leads walls effect.stack after.position own result result') :
    fence.Leads walls stack start (own.map effect.andThen) result result' := by
  obtain ⟨_, _, rfl, rfl⟩ | ⟨_, _, rfl, rfl, second, member, rest⟩ := leads.cases
  · trivial
  · exact ⟨_, List.mem_map_of_mem member, led.andThen rest⟩

/-- One reading after the other. -/
theorem follow {next next' : Step} {firsts : List Effect}
    {further : List Bracket → View → Option (List Effect)}
    (first : fence.Leads walls stack start firsts result result')
    (found : Effect.each (Effect.follow further) firsts = some effects)
    (rest : ∀ effect after after' own, fence.Led walls stack start effect after after' →
      further effect.stack effect.view = some own →
        fence.Leads walls effect.stack after.position own (next after) (next' after')) :
    fence.Leads walls stack start effects (result >>= next) (result' >>= next') := by
  refine first.bind fun effect member after after' led => ?_
  obtain ⟨all, followed, among⟩ := any_each _ _ found member
  obtain ⟨own, isOwn, rfl⟩ := Option.map_eq_some_iff.mp followed
  exact ((rest effect after after' own led isOwn).since led).mono among

/-- Only the slots are changed in the end. -/
theorem withSlots {slots slots' : State → List Element}
    (leads : fence.Leads walls stack start effects result result')
    (same : ∀ after after', Twins fence.shift after after' →
      (slots' after').map Element.sketch = (slots after).map Element.sketch) :
    fence.Leads walls stack start effects
      (result >>= fun after => .ok { after with slots := slots after })
      (result' >>= fun after' => .ok { after' with slots := slots' after' }) := by
  refine leads.bind fun effect member after after' led => ?_
  exact ⟨effect, member, led.withSlots (same after after' led.toTwins)⟩

end Leads

end Fence

end JavaSyntax
