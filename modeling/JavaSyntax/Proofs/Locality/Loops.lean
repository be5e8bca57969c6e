import JavaSyntax.Proofs.Locality.ParallelReadings

/-!
# Loops before a wall

Each round of a loop gets past tokens, so before a wall there are only so many rounds, and
how many more a loop may make does not matter.  The loops over operators, prefixes and chains
keep unfinished frames aside; those of the two readings have the same sketches.
-/

namespace JavaSyntax

theorem Level.contains_operatorKinds {kind : TokenKind} {level : Level}
    (operates : Level.ofKind? kind = some level) : operatorKinds.contains kind = true := by
  unfold Level.ofKind? at operates
  split at operates <;> first | decide | cases operates

theorem mark?_of_operatorKinds {kind : TokenKind}
    (member : operatorKinds.contains kind = true) : kind.mark? = none := by
  simp only [operatorKinds, TokenSet.contains_ofList, decide_eq_true_eq, List.mem_cons,
    List.not_mem_nil, or_false] at member
  rcases member with rfl | rfl | rfl | rfl | rfl | rfl | rfl | rfl | rfl | rfl | rfl | rfl | rfl |
    rfl | rfl | rfl | rfl <;> rfl

theorem TokenSet.contains_eq_false_of_disjoint {left right : TokenSet} {kind : TokenKind}
    (apart : left.disjoint right = true) (member : left.contains kind = true) :
    right.contains kind = false := by
  have bits : (left.inter right).bits = 0 := by simpa [disjoint, isEmpty] using apart
  have neither : (left.inter right).contains kind = false := by simp [contains, bits]
  rwa [contains_inter, member, Bool.true_and] at neither

/-- Frames with the same sketches give nodes with the same sketch. -/
theorem Twins.nestRight {shift : Nat} {state state' : State} (twins : Twins shift state state')
    (left right : Context) {kind : List Element → NodeKind}
    (kinds : ∀ slots : List Element, kind (slots.map Element.sketch) = kind slots)
    {frames frames' : List (List Element)}
    (drawn : frames'.map (·.map Element.sketch) = frames.map (·.map Element.sketch))
    (inmost : NodeKind) :
    (state'.nestRight right kind frames' (state'.finish right inmost state'.gathered)).sketch =
      (state.nestRight left kind frames (state.finish left inmost state.gathered)).sketch := by
  refine State.nestRight_sketch ?_ drawn (State.sketch_finish _ twins.gathered)
  intro slots slots' same
  rw [← kinds, same, kinds]

/-- Operators of the same sketches are joined to nodes of the same sketches. -/
theorem Twins.closeOperators {shift : Nat} {state state' : State} (twins : Twins shift state state')
    (left right : Context) {pending pending' : List Pending} {held held' : List Element}
    (piles : pending'.map Pending.sketch = pending.map Pending.sketch)
    (same : held'.map Element.sketch = held.map Element.sketch) :
    Twins shift (state.closeOperators left pending held)
      (state'.closeOperators right pending' held') := by
  have drawn : (state'.reduce right .or pending' held').2.map Element.sketch =
      (state.reduce left .or pending held).2.map Element.sketch :=
    (State.reduce_sketch .or piles same).2
  refine twins.withSlots ?_
  rw [List.map_append, List.map_append, List.map_reverse, List.map_reverse, drawn, twins.slots]

/-- All tokens of an operator start operators. -/
theorem State.contains_operatorKinds {context : Context} {state : State} {level : Level}
    {width : Nat} (found : state.operator? context = some (level, width)) :
    ∀ distance < width, operatorKinds.contains (state.kindAt context distance) = true := by
  have doubles {kind : TokenKind} (operates : operatorKinds.contains kind = true)
      {place : Nat} (twice : state.doubled context kind place = true) :
      operatorKinds.contains (state.kindAt context place) = true ∧
        operatorKinds.contains (state.kindAt context (place + 1)) = true := by
    simp only [State.doubled, Bool.and_eq_true, beq_iff_eq] at twice
    rw [twice.1.1, twice.1.2]
    exact ⟨operates, operates⟩
  unfold State.operator? at found
  split at found
  · rename_i twice
    cases found
    intro distance within
    obtain rfl | rfl : distance = 0 ∨ distance = 1 := by omega
    · exact (doubles (by decide) twice).1
    · exact (doubles (by decide) twice).2
  · split at found
    · rename_i twice
      obtain ⟨rfl, rfl⟩ := Prod.mk.inj (Option.some.inj found)
      intro distance within
      split at within
      · rename_i thrice
        obtain rfl | rfl | rfl : distance = 0 ∨ distance = 1 ∨ distance = 2 := by omega
        · exact (doubles (by decide) twice).1
        · exact (doubles (by decide) twice).2
        · exact (doubles (by decide) thrice).2
      · obtain rfl | rfl : distance = 0 ∨ distance = 1 := by omega
        · exact (doubles (by decide) twice).1
        · exact (doubles (by decide) twice).2
    · obtain ⟨level, operates, same⟩ := Option.map_eq_some_iff.mp found
      cases same
      intro distance within
      obtain rfl : distance = 0 := by omega
      exact Level.contains_operatorKinds operates

namespace Fence

/-- Two steps that come to some effects from all twins that stand at places with some open
brackets and a view. -/
def Follows (fence : Fence) (walls : Walls) (stack : List Bracket) (view : View)
    (effects : List Effect) (step step' : Step) : Prop :=
  ∀ state state', fence.Stands walls stack view state state' →
    fence.Leads walls stack state.position effects (step state) (step' state')

variable {fence : Fence} {walls : Walls} {stack : List Bracket} {view : View}
  {effects : List Effect} {step step' : Step}

theorem Follows.inFrame (follows : fence.Follows walls stack view effects step step')
    (lead : Nat) : fence.Follows walls stack view effects (State.inFrame · lead step)
      (State.inFrame · lead step') := by
  intro state state' stands
  refine (follows _ _ (stands.inner lead)).withSlots fun after after' twins => ?_
  rw [List.map_append, List.map_append, List.map_drop, List.map_drop, stands.slots, twins.slots]

theorem stack_eq_of_allLeave (kept : Effect.allLeave stack effects = true) {effect : Effect}
    (member : effect ∈ effects) : effect.stack = stack := by
  simpa using List.all_eq_true.mp kept effect member

theorem contains_lasts {effect : Effect} (member : effect ∈ effects) {kind : TokenKind}
    (known : effect.last.contains kind = true) : (Effect.lasts effects).contains kind = true := by
  induction effects with
  | nil => cases member
  | cons first others ih =>
      refine (TokenSet.contains_union _ _ _).trans ?_
      rw [Bool.or_eq_true]
      cases member with
      | head => exact .inl known
      | tail _ member => exact .inr (ih member)

/-- A round, and then the rest of a loop that leaves the same brackets open. -/
theorem Leads.onward {start : Nat} {effect rest : Effect} {moved : Bool} {last : TokenSet}
    {after after' : State} {result result' : Except SyntaxError State}
    (led : fence.Led walls stack start effect after after') (leaves : effect.stack = stack)
    (leads : fence.Leads walls stack after.position [rest] result result')
    (kept : rest.stack = stack) (moves : moved = true → (effect.moved || rest.moved) = true)
    (lasts : ∀ kind, rest.moved = false ∧ effect.last.contains kind = true ∨
      rest.last.contains kind = true → last.contains kind = true) :
    fence.Leads walls stack start [⟨stack, [], moved, last⟩] result result' := by
  rw [← leaves] at leads
  refine (leads.since led).mono ?_
  rintro final final' ⟨both, member, led⟩
  obtain rfl := List.mem_singleton.mp member
  refine ⟨_, List.mem_singleton_self _, led.weaken kept.symm rfl moves ?_⟩
  intro kind known
  simp only [Effect.andThen] at known
  refine lasts kind ?_
  split at known
  · exact .inr known
  · rename_i unmoved
    rcases (Bool.or_eq_true _ _).mp ((TokenSet.contains_union _ _ _).symm.trans known) with
      known | known
    · exact .inl ⟨Bool.eq_false_iff.mpr unmoved, known⟩
    · exact .inr known

theorem iterate_leads {rounds : List Effect}
    (round : fence.Follows walls stack [] rounds step step')
    (kept : Effect.allLeave stack rounds = true) (count count' : Nat) {state state' : State}
    (stands : fence.Stands walls stack [] state state')
    (enough : fence.high - state.position < count)
    (enough' : fence.high - state.position < count') :
    fence.Leads walls stack state.position [⟨stack, [], false, Effect.lasts rounds⟩]
      (State.iterate step count state) (State.iterate step' count' state') := by
  induction count generalizing count' state state' with
  | zero => omega
  | succ count ih =>
      obtain ⟨count', rfl⟩ : ∃ fewer, count' = fewer + 1 := ⟨count' - 1, by omega⟩
      refine (round _ _ stands).bind fun effect member after after' led => ?_
      have same := stack_eq_of_allLeave kept member
      have inside := (led.stands stands).inside
      simp only [stands.toTwins.moved led.toTwins]
      split
      · have again : fence.Stands walls stack [] after after' := same ▸ (led.stands stands).unseen
        refine .onward led same (ih count' again (by omega) (by omega)) rfl
          (absurd · Bool.false_ne_true) ?_
        rintro kind (⟨_, known⟩ | known)
        · exact contains_lasts member known
        · exact known
      · exact ⟨_, List.mem_singleton_self _, led.weaken same.symm rfl
          (absurd · Bool.false_ne_true) fun _ => contains_lasts member⟩

/-! ## Operators -/

namespace Stands

variable {state state' : State} (free : operatorKinds.disjoint (walls.stops stack) = true)

include free

/-- An operator is no wall. -/
theorem led_operator (stands : fence.Stands walls stack [] state state')
    (operates : operatorKinds.contains (state.kindAt fence.left 0) = true) :
    fence.Led walls stack state.position ⟨stack, [], true, .full⟩ (state.take fence.left)
      (state'.take fence.right) := by
  refine .take stands (TokenSet.contains_eq_false_of_disjoint free operates) ?_
    (TokenSet.contains_full _)
  rw [TokenKind.shift, mark?_of_operatorKinds operates]

/-- After the first token of an operator, the others are ahead. -/
theorem take_operator (stands : fence.Stands walls stack [] state state') {width : Nat}
    (operates : ∀ distance < width + 1,
      operatorKinds.contains (state.kindAt fence.left distance) = true) :
    (state.take fence.left).position = state.position + 1 ∧
      fence.Stands walls stack [] (state.take fence.left) (state'.take fence.right) ∧
      ∀ distance < width,
        operatorKinds.contains ((state.take fence.left).kindAt fence.left distance) = true := by
  have first := operates 0 (by omega)
  have next : (state.take fence.left).position = state.position + 1 :=
    Walls.position_take (TokenSet.contains_eq_false_of_disjoint free first)
  refine ⟨next, (stands.led_operator free first).stands stands, ?_⟩
  intro distance within
  have ahead := operates (distance + 1) (by omega)
  rwa [State.kindAt, next, Nat.add_assoc, Nat.add_comm 1]

theorem led_operators (stands : fence.Stands walls stack [] state state') (width : Nat)
    (operates : ∀ distance < width,
      operatorKinds.contains (state.kindAt fence.left distance) = true) :
    fence.Led walls stack state.position ⟨stack, [], decide (0 < width), .full⟩
      (state.takeMany fence.left width) (state'.takeMany fence.right width) := by
  induction width generalizing state state' with
  | zero =>
      exact (Led.stay stands stands.toTwins rfl).weaken rfl rfl id
        fun _ _ => TokenSet.contains_full _
  | succ width ih =>
      have here := stands.led_operator free (operates 0 (by omega))
      obtain ⟨_, standing, others⟩ := stands.take_operator free operates
      have rest := ih standing others
      exact (here.andThen rest).weaken rfl rfl (fun _ => rfl) fun _ _ => TokenSet.contains_full _

theorem reaches_operators (stands : fence.Stands walls stack [] state state') (width : Nat)
    (operates : ∀ distance < width,
      operatorKinds.contains (state.kindAt fence.left distance) = true) :
    state.position + width ≤ fence.high := by
  induction width generalizing state state' with
  | zero => exact stands.inside
  | succ width ih =>
      obtain ⟨next, standing, others⟩ := stands.take_operator free operates
      have rest := ih standing others
      omega

omit free in
/-- Two touching tokens of a kind are seen in both readings. -/
theorem doubled (stands : fence.Stands walls stack [] state state') {kind : TokenKind}
    {distance : Nat} (inside : state.position + distance ≤ fence.high)
    (next : state.kindAt fence.left distance = kind →
      state.position + distance + 1 ≤ fence.high) :
    state'.doubled fence.right kind distance = state.doubled fence.left kind distance := by
  simp only [State.doubled, stands.kindAt inside]
  by_cases here : state.kindAt fence.left distance = kind
  · have beyond := next here
    have touches := fence.touching (state.position + distance)
      (by have := stands.above; omega) (by omega)
    have same : state'.touching fence.right distance = state.touching fence.left distance := by
      rw [State.touching, State.touching, Bool.eq_iff_iff, beq_iff_eq, beq_iff_eq, ← touches,
        stands.position, Nat.add_right_comm state.position fence.shift distance,
        Nat.add_right_comm _ fence.shift 1]
    rw [stands.kindAt (by omega), same]
  · rw [beq_eq_false_iff_ne.mpr here, Bool.false_and, Bool.false_and, Bool.false_and,
      Bool.false_and]

/-- The same operator is seen in both readings. -/
theorem operator? (stands : fence.Stands walls stack [] state state') :
    state'.operator? fence.right = state.operator? fence.left := by
  have inside := stands.inside
  have first {kind : TokenKind} (operates : operatorKinds.contains kind = true)
      (here : state.kindAt fence.left 0 = kind) : state.position + 0 + 1 ≤ fence.high :=
    stands.lt_high (TokenSet.contains_eq_false_of_disjoint free (here ▸ operates))
  rw [State.operator?, State.operator?, stands.doubled inside (first (by decide)),
    stands.doubled inside (first (by decide)), stands.kindAt_zero]
  by_cases twice : state.doubled fence.left .gt 0 = true
  · have both := twice
    simp only [State.doubled, Bool.and_eq_true, beq_iff_eq] at both
    have pair : state.position + 2 ≤ fence.high :=
      stands.reaches_operators free 2 fun distance within => by
        obtain rfl | rfl : distance = 0 ∨ distance = 1 := by omega
        · exact both.1.1 ▸ by decide
        · exact both.1.2 ▸ by decide
    rw [stands.doubled (by omega) fun _ => pair]
  · rw [if_neg twice, if_neg twice]

end Stands

theorem Leads.collect {effects' : List Effect} {start : Nat} {state state' : State}
    {next next' : List Element × State → Except SyntaxError State}
    (leads : fence.Leads walls stack start effects (step { state with slots := [] })
      (step' { state' with slots := [] }))
    (rest : ∀ effect ∈ effects, ∀ after after', fence.Led walls stack start effect after after' →
      fence.Leads walls stack start effects'
        (next (after.gathered, { after with slots := state.slots }))
        (next' (after'.gathered, { after' with slots := state'.slots }))) :
    fence.Leads walls stack start effects' (state.collect step >>= next)
      (state'.collect step' >>= next') := by
  rw [State.collect_bind, State.collect_bind]
  exact leads.bind rest

section Operators

variable {operand operand' type type' : Step} {operands tests : List Effect}
  (operandsFollow : fence.Follows walls stack [] operands operand operand')
  (typesFollow : fence.Follows walls stack [] tests type type')
  (free : operatorKinds.disjoint (walls.stops stack) = true)
  (kept : Effect.allLeave stack (operands ++ tests) = true)

include operandsFollow typesFollow free kept

theorem climb_leads (count count' : Nat) {pending pending' : List Pending}
    {held held' : List Element} {state state' : State}
    (stands : fence.Stands walls stack [] state state')
    (piles : pending'.map Pending.sketch = pending.map Pending.sketch)
    (same : held'.map Element.sketch = held.map Element.sketch)
    (enough : fence.high - state.position < count)
    (enough' : fence.high - state.position < count') :
    fence.Leads walls stack state.position [⟨stack, [], false, .full⟩]
      (State.climb fence.left operand type count pending held state)
      (State.climb fence.right operand' type' count' pending' held' state') := by
  induction count generalizing count' pending pending' held held' state state' with
  | zero => omega
  | succ count ih =>
      obtain ⟨count', rfl⟩ : ∃ fewer, count' = fewer + 1 := ⟨count' - 1, by omega⟩
      simp only [State.climb, stands.operator? free, stands.kindAt_zero]
      split
      · have closed := stands.toTwins.closeOperators fence.left fence.right piles same
        exact ⟨_, List.mem_singleton_self _, (Led.stay stands closed rfl).weaken rfl rfl id
          fun _ _ => TokenSet.contains_full _⟩
      · rename_i level width found
        have reduced : (state'.reduce fence.right level pending' held').1.map Pending.sketch =
              (state.reduce fence.left level pending held).1.map Pending.sketch ∧
            (state'.reduce fence.right level pending' held').2.map Element.sketch =
              (state.reduce fence.left level pending held).2.map Element.sketch :=
          State.reduce_sketch level piles same
        generalize state.reduce fence.left level pending held = pair at reduced ⊢
        generalize state'.reduce fence.right level pending' held' = pair' at reduced ⊢
        obtain ⟨waiting, tested⟩ := pair
        obtain ⟨waiting', tested'⟩ := pair'
        have operates := State.contains_operatorKinds found
        obtain ⟨_, wide⟩ := State.operator?_eq_some found
        have bare : fence.Stands walls stack [] { state with slots := [] }
            { state' with slots := [] } := stands.inner 0
        -- What is read after the operator ends outside of its brackets, and farther on.
        have again {effect : Effect} {after after' : State} {waiting waiting' : List Pending}
            {held held' : List Element}
            (led : fence.Led walls stack state.position effect after after')
            (leaves : effect.stack = stack) (moves : effect.moved = true)
            (piles : waiting'.map Pending.sketch = waiting.map Pending.sketch)
            (same : held'.map Element.sketch = held.map Element.sketch) :
            fence.Leads walls stack state.position [⟨stack, [], false, .full⟩]
              (State.climb fence.left operand type count waiting held
                { after with slots := state.slots })
              (State.climb fence.right operand' type' count' waiting' held'
                { after' with slots := state'.slots }) := by
          have moved := led.moved moves
          have inside := (led.stands stands).inside
          have further := (led.withSlots stands.slots).stands stands
          rw [leaves] at further
          exact .onward led leaves
            (ih count' further.unseen piles same (by simp only; omega) (by simp only; omega)) rfl
            (absurd · Bool.false_ne_true) fun _ _ => TokenSet.contains_full _
        split
        · have here := bare.led_operator free (operates 0 wide)
          refine Leads.collect ((typesFollow _ _ (here.stands bare)).since here) ?_
          intro effect member after after' led
          obtain ⟨test, isTest, rfl⟩ := List.mem_map.mp member
          have leaves := stack_eq_of_allLeave kept (List.mem_append_right _ isTest)
          refine again led leaves rfl reduced.1 ?_
          refine congrArg (· :: []) (State.sketch_finish _ ?_)
          rw [List.map_append, List.map_append, reduced.2, led.toTwins.gathered]
        · have here := bare.led_operators free width operates
          have first : fence.Leads walls stack state.position
              [⟨stack, [], decide (0 < width), .full⟩]
              (.ok (({ state with slots := [] } : State).takeMany fence.left width))
              (.ok (({ state' with slots := [] } : State).takeMany fence.right width)) :=
            ⟨_, List.mem_singleton_self _, here⟩
          refine Leads.collect first ?_
          intro effect member opened opened' operator
          obtain rfl := List.mem_singleton.mp member
          have emptied := operator.withSlots (rfl : ([] : List Element).map Element.sketch = _)
          refine Leads.collect ((operandsFollow _ _ (emptied.stands stands)).since emptied) ?_
          intro effect member after after' led
          obtain ⟨read, isRead, rfl⟩ := List.mem_map.mp member
          have leaves := stack_eq_of_allLeave kept (List.mem_append_left _ isRead)
          refine again led leaves (by simp [Effect.andThen, wide]) ?_ led.toTwins.gathered
          rw [List.map_cons, List.map_cons, reduced.1]
          simp only [Pending.sketch, reduced.2, operator.toTwins.gathered]

theorem operators_follow :
    fence.Follows walls stack view [⟨stack, [], operands.all (·.moved), .full⟩]
      (State.operators fence.left operand type) (State.operators fence.right operand' type') := by
  intro state state' stands
  refine Leads.collect (operandsFollow _ _ (stands.inner 0).unseen) ?_
  intro effect member after after' led
  have leaves := stack_eq_of_allLeave kept (List.mem_append_left _ member)
  have further := (led.withSlots stands.slots).stands stands
  rw [leaves] at further
  have rounds := further.remaining
  have none : ([] : List Pending).map Pending.sketch = [].map Pending.sketch := rfl
  refine .onward led leaves (climb_leads operandsFollow typesFollow free kept _ _ further.unseen
    none led.toTwins.gathered rounds.1 rounds.2) rfl ?_ fun _ _ => TokenSet.contains_full _
  intro all
  rw [List.all_eq_true.mp all effect member, Bool.true_or]

end Operators

/-! ## Frames nested to the right -/

section Prefixes

variable {link link' last last' : Step} {links ends : List Effect}
  (linksFollow : fence.Follows walls stack [] links link link')
  (endsFollow : fence.Follows walls stack [] ends last last')
  (kept : Effect.allLeave stack (links ++ ends) = true)

include endsFollow kept

theorem closePrefixes_leads {prefixes prefixes' : List (List Element)} {state state' : State}
    (stands : fence.Stands walls stack [] state state')
    (drawn : prefixes'.map (·.map Element.sketch) = prefixes.map (·.map Element.sketch)) :
    fence.Leads walls stack state.position [⟨stack, [], ends.all (·.moved), .full⟩]
      (state.closePrefixes fence.left last prefixes)
      (state'.closePrefixes fence.right last' prefixes') := by
  have weaken {result result' : Except SyntaxError State}
      (leads : fence.Leads walls stack state.position ends result result') :
      fence.Leads walls stack state.position [⟨stack, [], ends.all (·.moved), .full⟩]
        result result' := by
    refine leads.mono ?_
    rintro after after' ⟨effect, member, led⟩
    refine ⟨_, List.mem_singleton_self _, led.weaken ?_ rfl ?_ fun _ _ => TokenSet.contains_full _⟩
    · exact (stack_eq_of_allLeave kept (List.mem_append_right _ member)).symm
    · exact fun all => List.all_eq_true.mp all effect member
  cases prefixes with
  | nil =>
      obtain rfl := List.map_eq_nil_iff.mp drawn
      exact weaken (endsFollow.inFrame 0 _ _ stands)
  | cons inmost outer =>
      cases prefixes' with
      | nil => cases drawn
      | cons inmost' outer' =>
          have inner : inmost'.map Element.sketch = inmost.map Element.sketch :=
            (List.cons.inj drawn).1
          have around := (List.cons.inj drawn).2
          have started : fence.Stands walls stack [] { state with slots := inmost.reverse }
              { state' with slots := inmost'.reverse } :=
            stands.withSlots (by rw [List.map_reverse, List.map_reverse, inner])
          refine weaken ((endsFollow _ _ started).withSlots fun after after' twins => ?_)
          have kinds : State.prefixKind inmost' = State.prefixKind inmost := by
            rw [← State.prefixKind_sketch, inner, State.prefixKind_sketch]
          rw [List.map_cons, List.map_cons, stands.slots, kinds,
            twins.nestRight _ _ State.prefixKind_sketch around]

include linksFollow

theorem prefixed_leads (count count' : Nat) {prefixes prefixes' : List (List Element)}
    {state state' : State} (stands : fence.Stands walls stack [] state state')
    (drawn : prefixes'.map (·.map Element.sketch) = prefixes.map (·.map Element.sketch))
    (enough : fence.high - state.position < count)
    (enough' : fence.high - state.position < count') :
    fence.Leads walls stack state.position [⟨stack, [], ends.all (·.moved), .full⟩]
      (state.prefixed fence.left link last count prefixes)
      (state'.prefixed fence.right link' last' count' prefixes') := by
  induction count generalizing count' prefixes prefixes' state state' with
  | zero => omega
  | succ count ih =>
      obtain ⟨count', rfl⟩ : ∃ fewer, count' = fewer + 1 := ⟨count' - 1, by omega⟩
      refine Leads.collect (linksFollow _ _ (stands.inner 0)) ?_
      intro effect member after after' led
      have leaves := stack_eq_of_allLeave kept (List.mem_append_left _ member)
      have inside := (led.stands stands).inside
      have further := (led.withSlots stands.slots).stands stands
      rw [leaves] at further
      have onward {result result' : Except SyntaxError State}
          (leads : fence.Leads walls stack after.position
            [⟨stack, [], ends.all (·.moved), .full⟩] result result') :
          fence.Leads walls stack state.position [⟨stack, [], ends.all (·.moved), .full⟩]
            result result' :=
        .onward led leaves leads rfl (fun moved => by rw [moved, Bool.or_true])
          fun _ _ => TokenSet.contains_full _
      simp only [stands.toTwins.moved led.toTwins]
      split
      · refine onward (ih count' further.unseen ?_ (by simp only; omega) (by simp only; omega))
        rw [List.map_cons, List.map_cons, drawn, led.toTwins.gathered]
      · exact onward (closePrefixes_leads endsFollow kept further.unseen drawn)

end Prefixes

section Chain

variable {kind : NodeKind} {link link' last last' : Step} {more more' : State → Bool}
  {links ends : List Effect} {further : List Bracket → View → Option (List Effect)}
  (linksFollow : fence.Follows walls stack [] links link link')
  (endsFollow : ∀ {stack view own}, further stack view = some own →
    fence.Follows walls stack view own last last')
  (found : Effect.each (Effect.follow further) links = some ends)
  (kept : Effect.allLeave stack (links ++ ends) = true)
  (advances : ∀ effect ∈ links, effect.moved = true)
  (joins : ∀ effect ∈ links, ∀ state state',
    fence.Stands walls stack effect.view state state' → more' state' = more state ∧
      (more state = true →
        fence.Led walls stack state.position ⟨stack, [], true, .full⟩ (state.take fence.left)
          (state'.take fence.right)))

include linksFollow endsFollow found kept advances joins

theorem chain_leads (count count' : Nat) {outer outer' : List (List Element)}
    {state state' : State} (stands : fence.Stands walls stack [] state state')
    (drawn : outer'.map (·.map Element.sketch) = outer.map (·.map Element.sketch))
    (enough : fence.high - state.position < count)
    (enough' : fence.high - state.position < count') :
    fence.Leads walls stack state.position [⟨stack, [], true, Effect.lasts ends⟩]
      (state.chain fence.left kind link more last count outer)
      (state'.chain fence.right kind link' more' last' count' outer') := by
  induction count generalizing count' outer outer' state state' with
  | zero => omega
  | succ count ih =>
      obtain ⟨count', rfl⟩ : ∃ fewer, count' = fewer + 1 := ⟨count' - 1, by omega⟩
      refine (linksFollow _ _ (stands.inner 0)).bind ?_
      intro effect member after after' led
      have leaves := stack_eq_of_allLeave kept (List.mem_append_left _ member)
      have moved : state.position < after.position := led.moved (advances effect member)
      have reached := led.stands (stands.inner 0)
      have standing : fence.Stands walls stack effect.view after after' := leaves ▸ reached
      obtain ⟨same, takes⟩ := joins effect member after after' standing
      rw [same]
      split
      · rename_i goesOn
        have taken := takes goesOn
        have inside := (taken.stands standing).inside
        have passed := taken.passes.forward
        have next := ((taken.withSlots stands.slots).stands standing).unseen
        rw [← leaves] at taken
        refine .onward (led.andThen taken) leaves (ih count' next ?_ (by simp only; omega)
          (by simp only; omega)) rfl (fun _ => by simp [Effect.andThen]) ?_
        · rw [List.map_cons, List.map_cons, drawn, taken.toTwins.gathered]
        · rintro kind (⟨unmoved, _⟩ | known)
          · cases unmoved
          · exact known
      · obtain ⟨all, followed, among⟩ := any_each fence walls found member
        obtain ⟨own, isOwn, rfl⟩ := Option.map_eq_some_iff.mp followed
        refine
          (((endsFollow isOwn _ _ reached).since led).withSlots fun ended ended' twins => ?_).mono
          ?_
        · rw [List.map_cons, List.map_cons, stands.slots, twins.nestRight _ _ (fun _ => rfl) drawn]
        · rintro final final' some
          obtain ⟨whole, inEnds, known⟩ := among some
          obtain ⟨both, inBoth, rest⟩ := some
          obtain ⟨second, _, rfl⟩ := List.mem_map.mp inBoth
          have advanced := rest.moved (by simp [Effect.andThen, advances effect member])
          have leavesAll := stack_eq_of_allLeave kept (List.mem_append_right _ inEnds)
          have weaker : fence.Led walls stack state.position
              ⟨stack, [], false, Effect.lasts ends⟩ final final' :=
            known.weaken leavesAll.symm rfl (absurd · Bool.false_ne_true)
              fun _ => contains_lasts inEnds
          exact ⟨_, List.mem_singleton_self _, { weaker with moved := fun _ => advanced }⟩

end Chain

end Fence

end JavaSyntax
