import Mathlib.Data.List.Forall2
import JavaSyntax.Proofs.Tandem.Sound
import JavaSyntax.Proofs.Tree.Sketch
import JavaSyntax.Grammar.Run

/-!
# Two readings in tandem

Two token lists match if they agree in everything a reading may look at: the kinds,
whether neighbouring angle brackets touch, and whether names are capitalized.  The
states of two readings are alike if the cursors are at the same index, the frames
have the same sketch, and the errors point at the starts of the same tokens.
-/

namespace JavaSyntax

/-- The tokens of two contexts agree in what a reading looks at. -/
structure Context.Matches (left right : Context) : Prop where
  ordered : left.Ordered
  ordered' : right.Ordered
  size : right.tokens.size = left.tokens.size
  sketch : ∀ index, (right.get index).sketch = (left.get index).sketch
  touching : ∀ index (kind : TokenKind), kind = .lt ∨ kind = .gt →
    (left.get index).kind = kind → (left.get (index + 1)).kind = kind →
    ((right.get index).stop = (right.get (index + 1)).start ↔
      (left.get index).stop = (left.get (index + 1)).start)
  limit : right.limit = left.limit
  recovery : right.recovery = left.recovery

namespace Context.Matches

variable {left right : Context}

theorem trial (alike : left.Matches right) : left.trial.Matches right.trial where
  ordered := ⟨alike.ordered.increasing, alike.ordered.some, alike.ordered.ended⟩
  ordered' := ⟨alike.ordered'.increasing, alike.ordered'.some, alike.ordered'.ended⟩
  size := alike.size
  sketch := alike.sketch
  touching := alike.touching
  limit := alike.limit
  recovery := rfl

theorem kind (alike : left.Matches right) (index : Nat) :
    (right.get index).kind = (left.get index).kind := by
  have same := congrArg Token.kind (alike.sketch index)
  simpa using same

end Context.Matches

/-- Two errors of the same kind that point at the starts of tokens with the same
index. -/
def ErrorLike (left right : Context) (error error' : SyntaxError) : Prop :=
  error'.fault = error.fault ∧ ∃ index < left.tokens.size,
    error.offset = (left.get index).start ∧ error'.offset = (right.get index).start

/-- Nodes from slots with the same sketch have the same sketch. -/
theorem State.sketch_finish {left right : Context} {state state' : State} (kind : NodeKind)
    {children children' : List Element}
    (same : children'.map Element.sketch = children.map Element.sketch) :
    (state'.finish right kind children').sketch = (state.finish left kind children).sketch := by
  simp only [State.finish, Node.toElement, Node.spanning, Element.sketch, Element.redraw_node]
  exact congrArg _ same

/-- States of two readings that cannot be told apart but by texts and places. -/
structure Like (left right : Context) (state state' : State) : Prop where
  position : state'.position = state.position
  slots : state'.slots.map Element.sketch = state.slots.map Element.sketch
  errors : List.Forall₂ (ErrorLike left right) state.errors state'.errors

namespace Like

variable {left right : Context} {state state' : State} (like : Like left right state state')

include like

theorem isHollow : state'.isHollow = state.isHollow := by
  have absent (slots : List Element) :
      (slots.map Element.sketch).all Element.isAbsent = slots.all Element.isAbsent := by
    simp [List.all_map, Function.comp_def]
  rw [State.isHollow, State.isHollow, ← absent, like.slots, absent]

theorem shape (shape : Shape) : shape.holds state'.slots = shape.holds state.slots := by
  rw [← Shape.holds_sketch, like.slots, Shape.holds_sketch]

theorem gathered : state'.gathered.map Element.sketch = state.gathered.map Element.sketch := by
  rw [State.gathered, State.gathered, List.map_reverse, List.map_reverse, like.slots]

/-- Other slots with the same sketch take the place of those at hand. -/
theorem withSlots {slots slots' : List Element}
    (same : slots'.map Element.sketch = slots.map Element.sketch) :
    Like left right { state with slots := slots } { state' with slots := slots' } :=
  ⟨like.position, same, like.errors⟩

theorem push {slot slot' : Element} (same : slot'.sketch = slot.sketch) :
    Like left right (state.push slot) (state'.push slot') :=
  like.withSlots (by simp [same, like.slots])

theorem dropAbsent : Like left right state.dropAbsent state'.dropAbsent := by
  have known (slots : List Element) : (∃ rest, slots = .absent :: rest) ↔
      (slots.map Element.sketch).head?.any Element.isAbsent = true := by
    cases slots with
    | nil => simp
    | cons first rest =>
        simp only [List.map_cons, List.head?_cons, Option.any_some, Element.isAbsent_sketch]
        cases first <;> simp [Element.isAbsent]
  have same := like.slots
  unfold State.dropAbsent
  split
  · rename_i rest slots
    obtain ⟨rest', slots'⟩ := (known state'.slots).mpr (same ▸ (known state.slots).mp ⟨rest, slots⟩)
    simp only [slots']
    rw [slots, slots'] at same
    exact like.withSlots (List.cons.inj same).2
  · rename_i other
    split
    · rename_i rest' slots'
      obtain ⟨rest, slots⟩ :=
        (known state.slots).mpr (same ▸ (known state'.slots).mp ⟨rest', slots'⟩)
      exact absurd slots (other rest)
    · exact like

theorem close (kind : NodeKind) :
    Like left right (state.close left kind) (state'.close right kind) :=
  like.withSlots (by simpa using State.sketch_finish kind like.gathered)

theorem reportsDamage : reportsDamage state'.errors = reportsDamage state.errors := by
  have errors := like.errors
  generalize state.errors = found at errors
  generalize state'.errors = found' at errors
  induction errors with
  | nil => rfl
  | cons first _ ih => rw [reportsDamage_cons, reportsDamage_cons, first.1, ih]

variable (alike : left.Matches right)

include alike

theorem kindAt (distance : Nat) : state'.kindAt right distance = state.kindAt left distance := by
  rw [State.kindAt, State.kindAt, like.position, alike.kind]

theorem atEnd : state'.atEnd right = state.atEnd left := by
  rw [State.atEnd, State.atEnd, like.kindAt alike]

theorem remaining : state'.remaining right = state.remaining left := by
  rw [State.remaining, State.remaining, like.position, alike.size]

theorem current : (state'.current right).sketch = (state.current left).sketch := by
  rw [State.current, State.current, like.position, alike.sketch]

theorem current_kind : (state'.current right).kind = (state.current left).kind := by
  rw [State.current, State.current, like.position, alike.kind]

theorem take : Like left right (state.take left) (state'.take right) := by
  unfold State.take
  rw [like.atEnd alike]
  split
  · exact like
  · refine ⟨?_, ?_, like.errors⟩
    · simp only [State.takeAny, like.position, alike.size]
    · simp only [State.takeAny, List.map_cons, like.slots, Element.sketch, Element.redraw_token,
        like.current alike]

theorem takeMany (count : Nat) :
    Like left right (state.takeMany left count) (state'.takeMany right count) := by
  induction count generalizing state state' with
  | zero => exact like
  | succ count ih => exact ih (like.take alike)

theorem doubled {kind : TokenKind} (angle : kind = .lt ∨ kind = .gt) (distance : Nat) :
    state'.doubled right kind distance = state.doubled left kind distance := by
  simp only [State.doubled, like.kindAt alike]
  by_cases both : state.kindAt left distance = kind ∧ state.kindAt left (distance + 1) = kind
  · have touches := alike.touching (state.position + distance) kind angle both.1 both.2
    have same : state'.touching right distance = state.touching left distance := by
      rw [State.touching, State.touching, like.position, Bool.eq_iff_iff, beq_iff_eq, beq_iff_eq]
      exact touches
    rw [same]
  · have neither : (state.kindAt left distance == kind &&
        state.kindAt left (distance + 1) == kind) = false := by
      rw [Bool.eq_false_iff]
      intro equal
      rw [Bool.and_eq_true, beq_iff_eq, beq_iff_eq] at equal
      exact both equal
    rw [neither, Bool.false_and, Bool.false_and]

/-- The same operator is read in both. -/
theorem operator? : state'.operator? right = state.operator? left := by
  simp only [State.operator?, like.doubled alike (.inl rfl), like.doubled alike (.inr rfl),
    like.kindAt alike]

end Like

end JavaSyntax
