import JavaSyntax.Grammar.Run

/-!
# Two readings side by side

The same tokens can be read with or without recovery, and under one nesting limit
or another.  Whatever is said about the results of two such readings composes
along their steps if it holds of equal successes and carries through `bind`.  So
it is enough to compare the parts of a phrase: the frames and loops around them
follow here, once for every such comparison.
-/

namespace JavaSyntax

/-- The same tokens, read under another limit and with or without recovery. -/
def Context.under (context : Context) (limit : Nat) (recovery : Bool) : Context :=
  { context with limit := limit, recovery := recovery }

/-- A relation between the results of two readings that start with the same errors. -/
structure Comparison where
  Holds : {α : Type} → (α → List SyntaxError) → List SyntaxError →
    Except SyntaxError α → Except SyntaxError α → Prop
  ok : ∀ {α : Type} {errors : α → List SyntaxError} {start : List SyntaxError} {result : α},
    errors result = start → Holds errors start (.ok result) (.ok result)
  bind : ∀ {α β : Type} {errors : α → List SyntaxError} {errors' : β → List SyntaxError}
    {start : List SyntaxError} {left right : Except SyntaxError α}
    {next next' : α → Except SyntaxError β}, Holds errors start left right →
    (∀ value, Holds errors' (errors value) (next value) (next' value)) →
    Holds errors' start (left >>= next) (right >>= next')

/-- Two steps whose results compare from every state. -/
def Comparison.Relates (comparison : Comparison) (left right : Step) : Prop :=
  ∀ state : State, comparison.Holds State.errors state.errors (left state) (right state)

namespace State

@[simp] theorem errors_takeMany (context : Context) (count : Nat) (state : State) :
    (state.takeMany context count).errors = state.errors := by
  induction count generalizing state with
  | zero => rfl
  | succ count ih => rw [takeMany, ih, errors_take]

variable (context : Context) (limit : Nat) (recovery : Bool)

@[simp] theorem reduce_under (state : State) (floor : Level) (stack : List Pending)
    (right : List Element) :
    state.reduce (context.under limit recovery) floor stack right =
      state.reduce context floor stack right := by
  induction stack generalizing right with
  | nil => rfl
  | cons top stack ih =>
      simp only [reduce]
      rw [ih]
      rfl

@[simp] theorem closeOperators_under (state : State) (stack : List Pending)
    (left : List Element) :
    state.closeOperators (context.under limit recovery) stack left =
      state.closeOperators context stack left := by
  simp only [closeOperators, reduce_under]

@[simp] theorem takeMany_under (count : Nat) (state : State) :
    state.takeMany (context.under limit recovery) count = state.takeMany context count := by
  induction count generalizing state with
  | zero => rfl
  | succ count ih => exact ih _

end State

namespace Comparison

variable {comparison : Comparison} {left right : Step}

/-- Both readings decide alike. -/
theorem ite {α : Type} {errors : α → List SyntaxError} {start : List SyntaxError}
    {condition condition' : Prop} [Decidable condition] [Decidable condition']
    {yes yes' no no' : Except SyntaxError α} (alike : condition ↔ condition')
    (whenTrue : condition → comparison.Holds errors start yes yes')
    (whenFalse : ¬condition → comparison.Holds errors start no no') :
    comparison.Holds errors start (if condition then yes else no)
      (if condition' then yes' else no') := by
  by_cases holds : condition
  · rw [if_pos holds, if_pos (alike.mp holds)]
    exact whenTrue holds
  · rw [if_neg holds, if_neg (holds ∘ alike.mpr)]
    exact whenFalse holds

theorem inFrame (lead : Nat) (steps : comparison.Relates left right) :
    comparison.Relates (fun state => state.inFrame lead left)
      (fun state => state.inFrame lead right) := by
  intro state
  exact comparison.bind (steps { state with slots := state.slots.take lead })
    fun _ => comparison.ok rfl

theorem collect (steps : comparison.Relates left right) (state : State) :
    comparison.Holds (fun result => result.2.errors) state.errors (state.collect left)
      (state.collect right) :=
  comparison.bind (steps { state with slots := [] }) fun _ => comparison.ok rfl

theorem iterate (steps : comparison.Relates left right) (rounds : Nat) :
    comparison.Relates (State.iterate left rounds) (State.iterate right rounds) := by
  induction rounds with
  | zero => exact steps
  | succ rounds ih =>
      intro state
      refine comparison.bind (steps state) ?_
      intro next
      exact comparison.ite Iff.rfl (fun _ => ih next) (fun _ => comparison.ok rfl)

section Contexts

variable (context : Context) (limit : Nat) (recovery : Bool)

theorem progress (steps : comparison.Relates left right) :
    comparison.Relates (fun state => state.progress (context.under limit recovery) left)
      (fun state => state.progress context right) := by
  intro state
  refine comparison.inFrame 0 ?_ state
  intro inner
  refine comparison.bind (steps inner) ?_
  intro result
  refine comparison.ite Iff.rfl ?_ ?_
  · intro _
    exact comparison.ok rfl
  · intro _
    exact comparison.ok (by simp [State.swallow])

/-- The loop over operators, with two readings of operands and types. -/
theorem climb {leftType rightType : Step} (operands : comparison.Relates left right)
    (types : comparison.Relates leftType rightType) (rounds : Nat) (stack : List Pending)
    (before : List Element) (state : State) :
    comparison.Holds State.errors state.errors
      (State.climb (context.under limit recovery) left leftType rounds stack before state)
      (State.climb context right rightType rounds stack before state) := by
  induction rounds generalizing stack before state with
  | zero =>
      simp only [State.climb, State.closeOperators_under]
      exact comparison.ok rfl
  | succ rounds ih =>
      have same : state.operator? (context.under limit recovery) = state.operator? context := rfl
      simp only [State.climb, same, State.reduce_under, State.closeOperators_under,
        State.takeMany_under]
      cases state.operator? context with
      | none => exact comparison.ok rfl
      | some found =>
          obtain ⟨level, width⟩ := found
          refine comparison.ite Iff.rfl ?_ ?_
          · intro _
            have typed : comparison.Relates
                (fun inner => leftType (inner.take (context.under limit recovery)))
                (fun inner => rightType (inner.take context)) := by
              intro inner
              have taken := types (inner.take context)
              rwa [State.errors_take] at taken
            exact comparison.bind (comparison.collect typed state) fun result => ih _ _ result.2
          · intro _
            have takes : comparison.Relates (fun inner => .ok (inner.takeMany context width))
                (fun inner => .ok (inner.takeMany context width)) :=
              fun inner => comparison.ok (State.errors_takeMany context width inner)
            refine comparison.bind (comparison.collect takes state) ?_
            intro operator
            exact comparison.bind (comparison.collect operands operator.2)
              fun result => ih _ _ result.2

theorem operators {leftType rightType : Step} (operands : comparison.Relates left right)
    (types : comparison.Relates leftType rightType) :
    comparison.Relates (State.operators (context.under limit recovery) left leftType)
      (State.operators context right rightType) := by
  intro state
  exact comparison.bind (comparison.collect operands state) fun result =>
    comparison.climb context limit recovery operands types _ _ _ result.2

theorem closePrefixes (lasts : comparison.Relates left right) (prefixes : List (List Element)) :
    comparison.Relates (State.closePrefixes (context.under limit recovery) left prefixes)
      (State.closePrefixes context right prefixes) := by
  intro state
  cases prefixes with
  | nil => exact comparison.inFrame 0 lasts state
  | cons inmost outer =>
      exact comparison.bind (lasts { state with slots := inmost.reverse })
        fun _ => comparison.ok rfl

theorem prefixed {leftLink rightLink : Step} (links : comparison.Relates leftLink rightLink)
    (lasts : comparison.Relates left right) (rounds : Nat) (prefixes : List (List Element)) :
    comparison.Relates
      (State.prefixed (context.under limit recovery) leftLink left rounds prefixes)
      (State.prefixed context rightLink right rounds prefixes) := by
  induction rounds generalizing prefixes with
  | zero => exact comparison.closePrefixes context limit recovery lasts prefixes
  | succ rounds ih =>
      intro state
      refine comparison.bind (comparison.collect links state) ?_
      intro result
      refine comparison.ite Iff.rfl ?_ ?_
      · intro _
        exact ih _ result.2
      · intro _
        exact comparison.closePrefixes context limit recovery lasts prefixes result.2

theorem closeChain (kind : NodeKind) (lasts : comparison.Relates left right)
    (outer : List (List Element)) (base : List Element) :
    comparison.Relates (State.closeChain (context.under limit recovery) kind left outer base)
      (State.closeChain context kind right outer base) := by
  intro inner
  exact comparison.bind (lasts inner) fun _ => comparison.ok rfl

theorem chain (kind : NodeKind) (more : State → Bool) {leftLink rightLink : Step}
    (links : comparison.Relates leftLink rightLink) (lasts : comparison.Relates left right)
    (rounds : Nat) (outer : List (List Element)) :
    comparison.Relates
      (State.chain (context.under limit recovery) kind leftLink more left rounds outer)
      (State.chain context kind rightLink more right rounds outer) := by
  have ends (outer : List (List Element)) (base : List Element) :=
    comparison.closeChain context limit recovery kind lasts outer base
  induction rounds generalizing outer with
  | zero =>
      intro state
      exact comparison.bind (links { state with slots := [] }) fun inner =>
        ends outer state.slots inner
  | succ rounds ih =>
      intro state
      refine comparison.bind (links { state with slots := [] }) ?_
      intro inner
      refine comparison.ite Iff.rfl ?_ ?_
      · intro _
        have joined := ih ((inner.take context).gathered :: outer)
          { inner.take context with slots := state.slots }
        rwa [show ({ inner.take context with slots := state.slots } : State).errors = inner.errors
          from State.errors_take context inner] at joined
      · intro _
        exact ends outer state.slots inner

end Contexts

end Comparison

end JavaSyntax
