import JavaSyntax.Proofs.Outline.Sound

/-!
# The loop over binary operators

Operands are read one at a time while operators wait on a stack.  What a discipline
demands of operators follows from two invariants: one of the stack and the operand at
hand, and one that holds besides when the operators on the stack that bind at least as
tightly as the next one have been folded into the operand.
-/

namespace JavaSyntax

variable {good : Node → Prop} {context : Context}

theorem Good.takeMany (count : Nat) {state : State} (all : Good good state.slots) :
    Good good (state.takeMany context count).slots := by
  induction count generalizing state with
  | zero => exact all
  | succ count ih => exact ih all.take

theorem isRelational_of_instanceof {state : State} {level : Level} {width : Nat}
    (found : state.operator? context = some (level, width))
    (keyword : state.kindAt context 0 = .kwInstanceof) : level = .relational := by
  have notLess : state.doubled context .lt 0 = false := by simp [State.doubled, keyword]
  have notGreater : state.doubled context .gt 0 = false := by simp [State.doubled, keyword]
  simp [State.operator?, notLess, notGreater, keyword, Level.ofKind?] at found
  exact found.1.symm

/-- The tokens of an operator of some width at the cursor. -/
def State.operatorTokens (context : Context) (state : State) (width : Nat) : List Element :=
  (State.takeMany context width { state with slots := [] }).gathered

/-- What is kept while operators are read: `waiting` of the stack and the operand at hand,
and `folded` when the next operator has a level. -/
structure Climbs (good : Node → Prop) (context : Context) (slot result : Slot)
    (tests : List Outline) (waiting : List Pending → Element → Prop)
    (folded : Level → List Pending → Element → Prop) : Prop where
  start : ∀ {operand : Element}, slot.admits operand = true → Good good [operand] →
    waiting [] operand
  fold : ∀ (state : State) (level : Level) {stack : List Pending} {operand : Element},
    waiting stack operand → ∃ rest result,
      state.reduce context level stack [operand] = (rest, [result]) ∧ folded level rest result
  test : ∀ (state : State) {stack : List Pending} {left : Element} {outline : Outline}
    {slots : List Element}, folded .relational stack left → outline ∈ tests →
    Fits outline.parts slots → Good good slots →
    waiting stack (state.finish context .instanceofExpression ([left] ++ slots.reverse))
  join : ∀ {state : State} {level : Level} {width : Nat} {stack : List Pending}
    {left right : Element}, folded level stack left →
    state.operator? context = some (level, width) → state.kindAt context 0 ≠ .kwInstanceof →
    slot.admits right = true → Good good [right] →
    waiting (⟨[left], level, state.operatorTokens context width⟩ :: stack) right
  close : ∀ {stack : List Pending} {operand : Element}, folded .or stack operand →
    result.admits operand = true ∧ Good good [operand]

namespace Climbs

variable {operand type : Step} {slot result : Slot} {tests : List Outline}
  {waiting : List Pending → Element → Prop} {folded : Level → List Pending → Element → Prop}
  (climbs : Climbs good context slot result tests waiting folded)
  (operandReads : Reads good slot operand)
  (typeLeads : Leads good context type true
    ⟨[.one (.ofTokens (.singleton .kwInstanceof))], [], false⟩ tests)

include climbs in
theorem closeOperators_appends {state : State} {stack : List Pending} {left : Element}
    (waits : waiting stack left) :
    ∃ element, (state.closeOperators context stack [left]).slots = element :: state.slots ∧
      result.admits element = true ∧ Good good [element] := by
  obtain ⟨rest, element, reduced, whole⟩ := climbs.fold state .or waits
  exact ⟨element, by simp [State.closeOperators, reduced], climbs.close whole⟩

include typeLeads in
/-- What is read behind the keyword of a type test, with the keyword. -/
theorem typeTest_fits {state inner : State} (keyword : state.kindAt context 0 = .kwInstanceof)
    (tested : type (State.take context { state with slots := [] }) = .ok inner) :
    ∃ outline ∈ tests, Fits outline.parts inner.slots ∧ Good good inner.slots := by
  have more : State.atEnd context { state with slots := [] } = false := by
    simp [State.atEnd, State.kindAt] at keyword ⊢
    simp [keyword]
  have taken : (State.take context { state with slots := [] }).slots =
      [.token (state.current context)] := by
    simp [State.take, more, State.takeAny, State.current]
  have start : Outline.Describes ⟨context, 0, []⟩
      ⟨[.one (.ofTokens (.singleton .kwInstanceof))], [], false⟩
      (State.take context { state with slots := [] }) := by
    refine .unmoved ⟨[.token (state.current context)], .one ?_ .nil, by simp [taken]⟩
      (Nat.zero_le _)
    have kind : (state.current context).kind = .kwInstanceof := keyword
    simp [Slot.admits, Slot.ofTokens, kind]
  obtain ⟨⟨outline, member, fits⟩, kept⟩ :=
    typeLeads _ _ inner rfl (fun _ => rfl) start Good.nil.take tested
  obtain ⟨top, parts, slots⟩ := fits.slots
  rw [List.append_nil] at slots
  exact ⟨outline, member, slots ▸ parts, kept⟩

include climbs operandReads typeLeads

/-- The loop over operators, from any operand at hand. -/
theorem climb_appends (rounds : Nat) {stack : List Pending} {left : Element}
    {state after : State} (waits : waiting stack left)
    (read : State.climb context operand type rounds stack [left] state = .ok after) :
    ∃ element, after.slots = element :: state.slots ∧
      result.admits element = true ∧ Good good [element] := by
  induction rounds generalizing stack left state with
  | zero =>
      cases read
      exact climbs.closeOperators_appends waits
  | succ rounds ih =>
      simp only [State.climb] at read
      split at read
      · cases read
        exact climbs.closeOperators_appends waits
      · rename_i level width found
        obtain ⟨rest, result, reduced, whole⟩ := climbs.fold state level waits
        rw [reduced] at read
        simp only at read
        split at read
        · rename_i keyword
          obtain rfl := isRelational_of_instanceof found keyword
          obtain ⟨⟨right, next⟩, collected, rest⟩ := bind_eq_ok.mp read
          obtain ⟨inner, tested, rfl, rfl⟩ := State.collect_eq_ok.mp collected
          obtain ⟨outline, member, fits, kept⟩ := typeTest_fits typeLeads keyword tested
          obtain ⟨element, slots, known⟩ := ih (climbs.test _ whole member fits kept) rest
          exact ⟨element, slots, known⟩
        · rename_i other
          obtain ⟨⟨operator, before⟩, taken, read⟩ := bind_eq_ok.mp read
          obtain ⟨⟨right, next⟩, collected, read⟩ := bind_eq_ok.mp read
          obtain ⟨opened, tokens, rfl, rfl⟩ := State.collect_eq_ok.mp taken
          obtain ⟨inner, stepped, rfl, rfl⟩ := State.collect_eq_ok.mp collected
          cases tokens
          obtain ⟨following, one, admitted, followingKept⟩ := operandReads _ inner rfl stepped
          simp only [State.gathered, one, List.reverse_singleton] at read
          obtain ⟨element, slots, known⟩ :=
            ih (climbs.join whole found other admitted followingKept) read
          exact ⟨element, slots, known⟩

/-- Operators append one slot, of the form that the discipline says. -/
theorem operators_appends {before after : State}
    (read : State.operators context operand type before = .ok after) :
    ∃ element, after.slots = element :: before.slots ∧
      result.admits element = true ∧ Good good [element] := by
  obtain ⟨⟨left, next⟩, collected, rest⟩ := bind_eq_ok.mp read
  obtain ⟨inner, stepped, rfl, rfl⟩ := State.collect_eq_ok.mp collected
  obtain ⟨first, one, admitted, kept⟩ := operandReads _ inner rfl stepped
  simp only [State.gathered, one, List.reverse_singleton] at rest
  obtain ⟨element, slots, known⟩ :=
    climbs.climb_appends operandReads typeLeads _ (climbs.start admitted kept) rest
  exact ⟨element, slots, known⟩

end Climbs

end JavaSyntax
