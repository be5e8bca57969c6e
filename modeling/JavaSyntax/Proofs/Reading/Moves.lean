import JavaSyntax.Grammar.Run

/-!
# What a reading does to its state

However a phrase is read, its effect on the state is a sequence of few
elementary moves: a token is read into the frame, a slot without tokens comes or
goes, an error is recorded, or the frame is closed into one node.  A move inside
a frame is a move of the whole state.

The relation `Moves` says so once for all phrases and all grammars.  Whatever
each move keeps, every reading keeps.
-/

namespace JavaSyntax

/-- A sequence of steps in `Except` ends well only if each step does. -/
theorem bind_eq_ok {ε α β : Type} {first : Except ε α} {next : α → Except ε β}
    {result : β} :
    (first >>= next) = .ok result ↔ ∃ value, first = .ok value ∧ next value = .ok result := by
  cases first with
  | error error => simp [bind, Except.bind]
  | ok value => simp [bind, Except.bind]

/-- Beyond the last token there are only end marks. -/
theorem Context.lt_size_of_kind_ne {context : Context} {index : Nat}
    (kind : (context.get index).kind ≠ .eof) : index < context.tokens.size := by
  apply Decidable.byContradiction
  intro beyond
  have outside : context.tokens[index]? = none := by simp; omega
  exact kind (by simp [Context.get, Array.getD_eq_getD_getElem?, outside, context.endMark_kind])

namespace State

variable {context : Context}

theorem current_kind_ne {state : State} (more : state.atEnd context = false) :
    (context.get state.position).kind ≠ .eof := by
  simpa [atEnd, kindAt] using more

theorem position_takeAny {state : State} (more : state.atEnd context = false) :
    (state.takeAny context).position = state.position + 1 := by
  simp [takeAny, Context.lt_size_of_kind_ne (current_kind_ne more)]

end State

/-- A token of a kind is made up for at a state only with recovery, if it does not stand at
the cursor, nor behind a single token that could be skipped. -/
structure State.Lacks (context : Context) (state : State) (kind : TokenKind) : Prop where
  recovers : context.recovery = true
  here : state.kindAt context 0 ≠ kind
  next : state.atEnd context = false → state.kindAt context 1 ≠ kind

/-- The state with some more slots behind those of its frame. -/
def State.onto (state : State) (base : List Element) : State :=
  { state with slots := state.slots ++ base }

/-- What a reading may build: nodes of certain kinds, those of errors among them, and
whatever the rules it calls do to a state. -/
structure Building where
  closes : NodeKind → Bool
  calls : State → State → Prop
  closesError : closes .error = true

/-- A reading that may build nodes of every kind and calls nothing unknown. -/
def Building.any : Building where
  closes := fun _ => true
  calls := fun _ _ => False
  closesError := rfl

/-- How a reading may change a state.  Only with recovery is an error recorded or a
token made up for. -/
inductive Moves (context : Context) (building : Building) : State → State → Prop where
  | refl (state : State) : Moves context building state state
  | trans {first second third : State} :
      Moves context building first second → Moves context building second third →
        Moves context building first third
  /-- What happens in a frame leaves the slots behind it alone. -/
  | frame {before after : State} (base : List Element) :
      Moves context building before after →
        Moves context building (before.onto base) (after.onto base)
  /-- What was built without reading a token may be thrown away. -/
  | discard {before after : State} :
      Moves context building before after → after.position ≤ before.position →
        Moves context building before { after with slots := before.slots }
  | take (state : State) (more : state.atEnd context = false) :
      Moves context building state (state.takeAny context)
  | absent (state : State) : Moves context building state (state.push .absent)
  | absentFirst (state : State) :
      Moves context building state { state with slots := state.slots ++ [.absent] }
  | dropAbsent (state : State) : Moves context building state state.dropAbsent
  | dropErrors (state : State) :
      Moves context building state
        { state with slots := state.slots.filter (!State.isEmptyError ·) }
  | missing (state : State) (kind : TokenKind) (lacks : state.Lacks context kind) :
      Moves context building state (state.push (.missing kind (state.here context)))
  | report (state : State) (error : SyntaxError) (recovers : context.recovery = true) :
      Moves context building state { state with errors := error :: state.errors }
  | close (state : State) {kind : NodeKind} (admitted : building.closes kind = true) :
      Moves context building state (state.close context kind)
  | call {before after : State} (admitted : building.calls before after) :
      Moves context building before after

/-- A step whose every success is a sequence of moves. -/
def Moving (context : Context) (building : Building) (step : Step) : Prop :=
  ∀ before after, step before = .ok after → Moves context building before after

namespace Moves

variable {building : Building}

/-- The moves of a trial are moves of the reading that makes the trial. -/
theorem ofTrial {context : Context} {before after : State}
    (moves : Moves context.trial building before after) :
    Moves context building before after := by
  induction moves with
  | refl state => exact .refl state
  | trans _ _ first second => exact .trans first second
  | frame base _ inner => exact .frame base inner
  | discard _ still inner => exact .discard inner still
  | take state more => exact .take state more
  | absent state => exact .absent state
  | absentFirst state => exact .absentFirst state
  | dropAbsent state => exact .dropAbsent state
  | dropErrors state => exact .dropErrors state
  | missing state kind lacks => exact absurd lacks.recovers Bool.false_ne_true
  | report state error recovers => simp [Context.trial] at recovers
  | close state admitted => exact .close state admitted
  | call admitted => exact .call admitted

/-- The cursor does not move back, if the rules called do not move it back. -/
theorem forward {context : Context} {before after : State}
    (callsForward : ∀ before after, building.calls before after → before.position ≤ after.position)
    (moves : Moves context building before after) : before.position ≤ after.position := by
  induction moves with
  | trans _ _ first second => exact Nat.le_trans first second
  | frame base _ inner => exact inner
  | discard _ _ inner => exact inner
  | take state more =>
      rw [State.position_takeAny more]
      exact Nat.le_succ _
  | dropAbsent state =>
      unfold State.dropAbsent
      split <;> exact Nat.le_refl _
  | call admitted => exact callsForward _ _ admitted
  | refl | absent | absentFirst | dropErrors | missing | report | close => exact Nat.le_refl _

theorem forward_any {context : Context} {before after : State}
    (moves : Moves context .any before after) : before.position ≤ after.position := by
  refine moves.forward ?_
  intro _ _ impossible
  cases impossible

/-- What holds of every slot that is no node, of the nodes that may be built over such slots
and of what the rules called leave, holds of all slots that a sequence of moves leaves. -/
theorem forall_slots {context : Context} {before after : State} {good : Element → Prop}
    (leaf : ∀ slot : Element, slot.node? = none → good slot)
    (node : ∀ kind span children, building.closes kind = true → (∀ slot ∈ children, good slot) →
      good (.node kind span children))
    (calls : ∀ before after, building.calls before after → (∀ slot ∈ before.slots, good slot) →
      ∀ slot ∈ after.slots, good slot)
    (moves : Moves context building before after) (held : ∀ slot ∈ before.slots, good slot) :
    ∀ slot ∈ after.slots, good slot := by
  induction moves with
  | refl => exact held
  | trans _ _ first second => exact second (first held)
  | frame base _ inner =>
      obtain ⟨above, below⟩ := List.forall_mem_append.mp held
      exact List.forall_mem_append.mpr ⟨inner above, below⟩
  | discard | report => exact held
  | take | absent | missing => exact List.forall_mem_cons.mpr ⟨leaf _ rfl, held⟩
  | absentFirst =>
      exact List.forall_mem_append.mpr ⟨held, List.forall_mem_singleton.mpr (leaf _ rfl)⟩
  | dropAbsent state =>
      unfold State.dropAbsent
      split
      · rename_i rest slots
        exact fun slot member => held slot (slots ▸ List.mem_cons_of_mem _ member)
      · exact held
  | dropErrors => exact fun slot member => held slot (List.mem_filter.mp member).1
  | close state admitted =>
      exact List.forall_mem_singleton.mpr
        (node _ _ _ admitted fun slot member => held slot (List.mem_reverse.mp member))
  | call admitted => exact calls _ _ admitted held

/-- Closing a frame in front of other slots. -/
theorem closeOver (context : Context) (state : State) {kind : NodeKind}
    (admitted : building.closes kind = true) (children base : List Element) :
    Moves context building { state with slots := children.reverse ++ base }
      { state with slots := state.finish context kind children :: base } := by
  have closed : Moves context building { state with slots := children.reverse }
      { state with slots := [state.finish context kind children] } := by
    have whole : Moves context building _ _ :=
      .close { state with slots := children.reverse } admitted
    simpa [State.close, State.gathered, State.finish, State.here, State.current] using whole
  exact closed.frame base

theorem takeUnlessEnded (context : Context) (state : State) :
    Moves context building state (state.take context) := by
  unfold State.take
  split
  · exact .refl state
  · rename_i more
    exact .take state (by simpa using more)

theorem takeMany (context : Context) (count : Nat) (state : State) :
    Moves context building state (state.takeMany context count) := by
  induction count generalizing state with
  | zero => exact .refl state
  | succ count ih => exact (takeUnlessEnded context state).trans (ih (state.take context))

end Moves

namespace State

variable {context : Context} {building : Building} {step : Step}

theorem inFrame_eq_ok {state after : State} {lead : Nat} :
    state.inFrame lead step = .ok after ↔
      ∃ inner, step { state with slots := state.slots.take lead } = .ok inner ∧
        after = inner.onto (state.slots.drop lead) := by
  rw [inFrame, bind_eq_ok]
  constructor
  · rintro ⟨inner, stepped, same⟩
    exact ⟨inner, stepped, (Except.ok.inj same).symm⟩
  · rintro ⟨inner, stepped, rfl⟩
    exact ⟨inner, stepped, rfl⟩

theorem collect_eq_ok {state after : State} {slots : List Element} :
    state.collect step = .ok (slots, after) ↔
      ∃ inner, step { state with slots := [] } = .ok inner ∧
        slots = inner.gathered ∧ after = { inner with slots := state.slots } := by
  rw [collect, bind_eq_ok]
  constructor
  · rintro ⟨inner, stepped, same⟩
    cases same
    exact ⟨inner, stepped, rfl, rfl⟩
  · rintro ⟨inner, stepped, rfl, rfl⟩
    exact ⟨inner, stepped, rfl⟩

/-- Collecting slots leaves those of the state alone. -/
theorem slots_collect {state after : State} {slots : List Element}
    (read : state.collect step = .ok (slots, after)) : after.slots = state.slots := by
  obtain ⟨inner, stepped, rfl, rfl⟩ := collect_eq_ok.mp read
  rfl

/-- A step in a frame of its own moves the state that has the frame's slots in front. -/
theorem collect_moves (moving : Moving context building step) {state after : State}
    {slots : List Element} (read : state.collect step = .ok (slots, after))
    (base : List Element) :
    Moves context building { state with slots := base }
      { after with slots := slots.reverse ++ base } := by
  obtain ⟨inner, stepped, rfl, rfl⟩ := collect_eq_ok.mp read
  have moved := (moving _ _ stepped).frame base
  simpa [onto, gathered] using moved

theorem inFrame_moving (lead : Nat) (moving : Moving context building step) :
    Moving context building (fun state => state.inFrame lead step) := by
  intro before after read
  obtain ⟨inner, stepped, rfl⟩ := inFrame_eq_ok.mp read
  have moved := (moving _ _ stepped).frame (before.slots.drop lead)
  simpa [onto] using moved

theorem report_moving (error : SyntaxError) :
    Moving context building (fun state => state.report context error) := by
  intro before after read
  simp only [report] at read
  split at read
  · rename_i recovers
    split at read
    · split at read
      · cases read
        exact .refl before
      · cases read
        exact .report before error recovers
    · rename_i none
      cases read
      have recorded : Moves context building before _ := .report before error recovers
      simpa [none] using recorded
  · cases read

/-- An error is recorded only with recovery. -/
theorem recovers_of_report {state after : State} {error : SyntaxError}
    (read : state.report context error = .ok after) : context.recovery = true := by
  cases recovers : context.recovery with
  | true => rfl
  | false => simp [report, recovers] at read

/-- Without recovery, nothing is read on after a report. -/
theorem report_ne_ok (strict : context.recovery = false) {state after : State}
    {error : SyntaxError} : state.report context error ≠ .ok after := by
  intro read
  have recovers := recovers_of_report read
  rw [strict] at recovers
  cases recovers

/-- Reporting an error changes nothing but the errors. -/
theorem exists_errors_of_report {state after : State} {error : SyntaxError}
    (read : state.report context error = .ok after) : ∃ errors, after = { state with errors } := by
  simp only [report] at read
  split at read
  · split at read
    · split at read <;> cases read <;> exact ⟨_, rfl⟩
    · cases read
      exact ⟨_, rfl⟩
  · cases read

/-- What is found where a required token neither stands nor comes next. -/
theorem lacks_of_report {state reported : State} {kind : TokenKind} {error : SyntaxError}
    (recorded : state.report context error = .ok reported)
    (other : (state.current context).kind ≠ kind)
    (apart : ¬((state.current context).kind ≠ .eof ∧ reported.kindAt context 1 = kind)) :
    reported.Lacks context kind := by
  have recovers := recovers_of_report recorded
  obtain ⟨errors, rfl⟩ := exists_errors_of_report recorded
  refine ⟨recovers, other, fun more next => apart ⟨?_, next⟩⟩
  have more : state.atEnd context = false := more
  exact current_kind_ne more

theorem takeClosed_moving :
    Moving context building (fun state => .ok ((state.take context).close context .error)) := by
  intro before after read
  cases read
  exact (Moves.takeUnlessEnded context before).trans (.close _ building.closesError)

theorem expect_moving (kind : TokenKind) :
    Moving context building (fun state => state.expect context kind) := by
  intro before after read
  simp only [expect] at read
  split at read
  · cases read
    exact .takeUnlessEnded context before
  · obtain ⟨reported, recorded, rest⟩ := bind_eq_ok.mp read
    refine (report_moving _ _ _ recorded).trans ?_
    split at rest
    · obtain ⟨skipped, stepped, taken⟩ := bind_eq_ok.mp rest
      cases taken
      have skips : Moves context building reported skipped :=
        inFrame_moving 0 takeClosed_moving _ _ stepped
      exact skips.trans (.takeUnlessEnded context skipped)
    · cases rest
      exact .missing reported kind (lacks_of_report recorded ‹_› ‹_›)

theorem noViable_moving (construct : Construct) :
    Moving context building (fun state => state.noViable context construct) := by
  intro before after read
  simp only [noViable] at read
  obtain ⟨reported, recorded, rest⟩ := bind_eq_ok.mp read
  refine (report_moving _ _ _ recorded).trans ?_
  split at rest
  · refine inFrame_moving 0 ?_ _ _ rest
    intro inner _ closed
    cases closed
    exact .close inner building.closesError
  · exact inFrame_moving 0 takeClosed_moving _ _ rest

theorem swallow_moves (state : State) :
    Moves context building state (state.swallow context) := by
  have taken : Moves context building state _ :=
    (Moves.dropErrors state).trans (.takeUnlessEnded context _)
  exact taken.trans (.close _ building.closesError)

theorem progress_moving (moving : Moving context building step) :
    Moving context building (fun state => state.progress context step) := by
  intro before after read
  refine inFrame_moving 0 ?_ before after read
  intro inner ended stepped
  obtain ⟨result, first, rest⟩ := bind_eq_ok.mp stepped
  have moved := moving _ _ first
  split at rest
  · cases rest
    exact moved
  · cases rest
    exact moved.trans (swallow_moves result)

/-- A loop reads one round, and then goes on only if that has read a token. -/
theorem iterate_first {rounds : Nat} {before after : State}
    (read : iterate step rounds before = .ok after) :
    ∃ next, step before = .ok next ∧
      (after = next ∨
        before.position < next.position ∧ ∃ fewer, iterate step fewer next = .ok after) := by
  cases rounds with
  | zero => exact ⟨after, read, .inl rfl⟩
  | succ rounds =>
      obtain ⟨next, stepped, rest⟩ := bind_eq_ok.mp read
      split at rest
      · rename_i advanced
        exact ⟨next, stepped, .inr ⟨advanced, rounds, rest⟩⟩
      · cases rest
        exact ⟨after, stepped, .inl rfl⟩

/-- What holds of each round, and of two that follow each other, holds of the loop. -/
theorem iterate_relates (relation : State → State → Prop)
    (once : ∀ before after, step before = .ok after → relation before after)
    (trans : ∀ {before middle after}, relation before middle → relation middle after →
      relation before after) (rounds : Nat) :
    ∀ before after, iterate step rounds before = .ok after → relation before after := by
  induction rounds with
  | zero => exact once
  | succ rounds ih =>
      intro before after read
      obtain ⟨next, stepped, rest⟩ := bind_eq_ok.mp read
      split at rest
      · exact trans (once _ _ stepped) (ih _ _ rest)
      · cases rest
        exact once _ _ stepped

theorem iterate_moving (moving : Moving context building step) (rounds : Nat) :
    Moving context building (iterate step rounds) :=
  iterate_relates (Moves context building) moving Moves.trans rounds

end State

namespace Level

/-- All levels, loosest first. -/
def all : List Level :=
  [.or, .and, .bitOr, .bitXor, .bitAnd, .equality, .relational, .shift, .additive, .multiplicative]

theorem mem_all (level : Level) : level ∈ all := by
  cases level <;> decide

end Level

/-- The slots of operands that wait for their right side, latest first. -/
def Pending.slots : List Pending → List Element
  | [] => []
  | top :: stack => top.operator.reverse ++ top.left.reverse ++ slots stack

namespace State

variable {context : Context} {building : Building}

/-- Every operator binds at least as tightly as the loosest one, so none is left. -/
theorem reduce_or (context : Context) (state : State) (stack : List Pending)
    (right : List Element) : (state.reduce context .or stack right).1 = [] := by
  induction stack generalizing right with
  | nil => rfl
  | cons top stack ih =>
      have loosest : Level.or.rank ≤ top.level.rank := Nat.zero_le _
      simp only [reduce, loosest, if_true]
      exact ih _

section Operators

variable (binaries : ∀ level : Level, building.closes level.nodeKind = true)

include binaries

theorem reduce_moves (state : State) (floor : Level) (stack : List Pending)
    (right base : List Element) :
    Moves context building { state with slots := right.reverse ++ Pending.slots stack ++ base }
      { state with
        slots := (state.reduce context floor stack right).2.reverse ++
          Pending.slots (state.reduce context floor stack right).1 ++ base } := by
  induction stack generalizing right with
  | nil => exact .refl _
  | cons top stack ih =>
      simp only [reduce]
      split
      · have closed := Moves.closeOver context state (binaries top.level)
          (top.left ++ top.operator ++ right) (Pending.slots stack ++ base)
        refine Moves.trans ?_ (ih _)
        simpa [Pending.slots] using closed
      · exact .refl _

theorem closeOperators_moves (state : State) (stack : List Pending) (left : List Element) :
    Moves context building
      { state with slots := left.reverse ++ Pending.slots stack ++ state.slots }
      (state.closeOperators context stack left) := by
  have moved : Moves context building _ _ :=
    reduce_moves binaries state .or stack left state.slots
  rw [reduce_or] at moved
  simpa [closeOperators, Pending.slots] using moved

/-- The loop over operators moves the state that has all waiting operands in front. -/
theorem climb_moves {operand type : Step} (tests : building.closes .instanceofExpression = true)
    (operandMoves : Moving context building operand) (typeMoves : Moving context building type)
    (rounds : Nat) (stack : List Pending) (left : List Element) (state after : State)
    (read : climb context operand type rounds stack left state = .ok after) :
    Moves context building
      { state with slots := left.reverse ++ Pending.slots stack ++ state.slots } after := by
  induction rounds generalizing stack left state with
  | zero =>
      cases read
      exact closeOperators_moves binaries state stack left
  | succ rounds ih =>
      simp only [climb] at read
      split at read
      · cases read
        exact closeOperators_moves binaries state stack left
      · rename_i level width _
        have reduced : Moves context building _ _ :=
          reduce_moves binaries state level stack left state.slots
        generalize state.reduce context level stack left = pair at read reduced
        obtain ⟨waiting, tested⟩ := pair
        refine reduced.trans ?_
        split at read
        · obtain ⟨⟨right, next⟩, collected, rest⟩ := bind_eq_ok.mp read
          have typed : Moving context building fun inner => type (inner.take context) := by
            intro before after stepped
            exact (Moves.takeUnlessEnded context before).trans (typeMoves _ _ stepped)
          refine (collect_moves typed collected _).trans (Moves.trans ?_ (ih _ _ _ rest))
          have closed := Moves.closeOver context next tests (tested ++ right)
            (Pending.slots waiting ++ state.slots)
          simpa [slots_collect collected] using closed
        · obtain ⟨⟨operator, before⟩, taken, rest⟩ := bind_eq_ok.mp read
          obtain ⟨⟨right, next⟩, collected, rest⟩ := bind_eq_ok.mp rest
          have takes : Moving context building fun inner => .ok (inner.takeMany context width) := by
            intro _ _ stepped
            cases stepped
            exact .takeMany context width _
          have joined := (collect_moves takes taken
            (tested.reverse ++ Pending.slots waiting ++ state.slots)).trans
            (collect_moves operandMoves collected _)
          refine joined.trans ?_
          have moved := ih _ _ _ rest
          simpa [Pending.slots, slots_collect collected, slots_collect taken] using moved

theorem operators_moving {operand type : Step}
    (tests : building.closes .instanceofExpression = true)
    (operandMoves : Moving context building operand) (typeMoves : Moving context building type) :
    Moving context building (operators context operand type) := by
  intro before after read
  obtain ⟨⟨left, next⟩, collected, rest⟩ := bind_eq_ok.mp read
  refine (collect_moves operandMoves collected before.slots).trans ?_
  have moved := climb_moves binaries tests operandMoves typeMoves _ _ _ _ _ rest
  simpa [Pending.slots, slots_collect collected] using moved

end Operators

end State

/-- The slots of unfinished frames, latest first. -/
def openSlots (frames : List (List Element)) : List Element :=
  (frames.map List.reverse).flatten

@[simp] theorem openSlots_nil : openSlots [] = [] := rfl

@[simp] theorem openSlots_cons (slots : List Element) (frames : List (List Element)) :
    openSlots (slots :: frames) = slots.reverse ++ openSlots frames := rfl

namespace State

variable {context : Context} {building : Building} {link last : Step}

theorem nestRight_moves (state : State) {kind : List Element → NodeKind}
    (admitted : ∀ slots, building.closes (kind slots) = true) (frames : List (List Element))
    (inmost : Element) (base : List Element) :
    Moves context building { state with slots := inmost :: (openSlots frames ++ base) }
      { state with slots := state.nestRight context kind frames inmost :: base } := by
  induction frames generalizing inmost with
  | nil => exact .refl _
  | cons slots frames ih =>
      have closed := Moves.closeOver context state (admitted slots) (slots ++ [inmost])
        (openSlots frames ++ base)
      refine Moves.trans ?_ (ih (state.finish context (kind slots) (slots ++ [inmost])))
      simpa using closed

section Prefixes

variable (admitted : ∀ slots, building.closes (prefixKind slots) = true)

include admitted

theorem closePrefixes_moves (moving : Moving context building last)
    (prefixes : List (List Element)) (state after : State)
    (read : state.closePrefixes context last prefixes = .ok after) :
    Moves context building { state with slots := openSlots prefixes ++ state.slots } after := by
  cases prefixes with
  | nil => exact inFrame_moving 0 moving state after read
  | cons inmost outer =>
      obtain ⟨inner, stepped, rest⟩ := bind_eq_ok.mp read
      cases rest
      have moved := (moving _ _ stepped).frame (openSlots outer ++ state.slots)
      have closed := Moves.closeOver context inner (admitted inmost) inner.gathered
        (openSlots outer ++ state.slots)
      have nested : Moves context building _ _ := nestRight_moves inner admitted outer
        (inner.finish context (prefixKind inmost) inner.gathered) state.slots
      simp only [gathered, List.reverse_reverse] at closed nested
      refine Moves.trans ?_ (closed.trans nested)
      simpa [onto] using moved

/-- The loop over prefixes moves the state that has all open prefixes in front. -/
theorem prefixed_moves (linkMoves : Moving context building link)
    (lastMoves : Moving context building last) (rounds : Nat) (prefixes : List (List Element))
    (state after : State) (read : prefixed context link last rounds prefixes state = .ok after) :
    Moves context building { state with slots := openSlots prefixes ++ state.slots } after := by
  induction rounds generalizing prefixes state with
  | zero => exact closePrefixes_moves admitted lastMoves prefixes state after read
  | succ rounds ih =>
      obtain ⟨⟨slots, next⟩, collected, rest⟩ := bind_eq_ok.mp read
      have moved := collect_moves linkMoves collected (openSlots prefixes ++ state.slots)
      simp only at rest
      split at rest
      · refine moved.trans ?_
        simpa [slots_collect collected] using ih _ _ rest
      · rename_i still
        have discarded := moved.discard (Nat.le_of_not_lt still)
        refine discarded.trans ?_
        simpa [slots_collect collected] using
          closePrefixes_moves admitted lastMoves prefixes next after rest

theorem prefixed_moving (linkMoves : Moving context building link)
    (lastMoves : Moving context building last) (rounds : Nat) :
    Moving context building (prefixed context link last rounds []) := by
  intro before after read
  simpa using prefixed_moves admitted linkMoves lastMoves rounds [] before after read

end Prefixes

section Chains

variable {kind : NodeKind} (admitted : building.closes kind = true)

include admitted

theorem closeChain_moves (moving : Moving context building last) (outer : List (List Element))
    (base : List Element) (inner after : State)
    (read : closeChain context kind last outer base inner = .ok after) :
    Moves context building { inner with slots := inner.slots ++ (openSlots outer ++ base) }
      after := by
  obtain ⟨ended, stepped, rest⟩ := bind_eq_ok.mp read
  cases rest
  have moved := (moving _ _ stepped).frame (openSlots outer ++ base)
  have closed := Moves.closeOver context ended admitted ended.gathered (openSlots outer ++ base)
  have nested : Moves context building _ _ := nestRight_moves ended (fun _ => admitted) outer
    (ended.finish context kind ended.gathered) base
  simp only [gathered, List.reverse_reverse] at closed nested
  exact moved.trans (closed.trans nested)

/-- The loop over links moves the state that has all open links in front. -/
theorem chain_moves (more : State → Bool) (linkMoves : Moving context building link)
    (lastMoves : Moving context building last) (rounds : Nat) (outer : List (List Element))
    (state after : State)
    (read : chain context kind link more last rounds outer state = .ok after) :
    Moves context building { state with slots := openSlots outer ++ state.slots } after := by
  induction rounds generalizing outer state with
  | zero =>
      obtain ⟨inner, linked, rest⟩ := bind_eq_ok.mp read
      have moved := (linkMoves _ _ linked).frame (openSlots outer ++ state.slots)
      exact moved.trans (closeChain_moves admitted lastMoves outer state.slots inner after rest)
  | succ rounds ih =>
      obtain ⟨inner, linked, rest⟩ := bind_eq_ok.mp read
      have moved := (linkMoves _ _ linked).frame (openSlots outer ++ state.slots)
      refine moved.trans ?_
      split at rest
      · have joined : Moves context building _ _ :=
          (Moves.takeUnlessEnded context inner).frame (openSlots outer ++ state.slots)
        refine joined.trans ?_
        have following := ih _ _ rest
        simpa [gathered, onto] using following
      · exact closeChain_moves admitted lastMoves outer state.slots inner after rest

theorem chain_moving (more : State → Bool) (linkMoves : Moving context building link)
    (lastMoves : Moving context building last) (rounds : Nat) :
    Moving context building (chain context kind link more last rounds []) := by
  intro before after read
  simpa using chain_moves admitted more linkMoves lastMoves rounds [] before after read

end Chains

end State

namespace Phrase

/-- Whether a phrase, without the rules it calls, only builds nodes of certain kinds. -/
def closesOnly (closes : NodeKind → Bool) : Phrase → Bool
  | .close kind => closes kind
  | .seq first second => first.closesOnly closes && second.closesOnly closes
  | .choose _ yes no => yes.closesOnly closes && no.closesOnly closes
  | .frame _ body | .many body | .progress body => body.closesOnly closes
  | .whenAdvanced body next => body.closesOnly closes && next.closesOnly closes
  | .attempt trial _ yes no =>
      trial.closesOnly closes && yes.closesOnly closes && no.closesOnly closes
  | .operators operand type =>
      operand.closesOnly closes && type.closesOnly closes && closes .instanceofExpression &&
        Level.all.all (closes ·.nodeKind)
  | .prefixed link last =>
      link.closesOnly closes && last.closesOnly closes &&
        closes .preIncrementExpression && closes .preDecrementExpression &&
        closes .castExpression && closes .unaryExpression
  | .chain kind link _ last => closes kind && link.closesOnly closes && last.closesOnly closes
  | .nothing | .absent | .absentFirst | .dropAbsent | .take | .expect _ | .noViable _
  | .require _ | .call _ => true

theorem closesOnly_any : (phrase : Phrase) → phrase.closesOnly (fun _ => true) = true
  | .close _ | .nothing | .absent | .absentFirst | .dropAbsent | .take | .expect _ | .noViable _
  | .require _ | .call _ => rfl
  | .seq first second | .whenAdvanced first second => by
      simp [closesOnly, closesOnly_any first, closesOnly_any second]
  | .choose _ yes no => by simp [closesOnly, closesOnly_any yes, closesOnly_any no]
  | .frame _ body | .many body | .progress body => by simp [closesOnly, closesOnly_any body]
  | .attempt trial _ yes no => by
      simp [closesOnly, closesOnly_any trial, closesOnly_any yes, closesOnly_any no]
  | .operators operand type => by
      simp [closesOnly, closesOnly_any operand, closesOnly_any type]
  | .prefixed link last | .chain _ link _ last => by
      simp [closesOnly, closesOnly_any link, closesOnly_any last]

/-- Reading a phrase moves the state, if the rules it calls do, in a trial as well.  The
induction is over the phrase; conditions never change the state. -/
theorem run_moving {rules : Rule → Context → Step} {context : Context} {building : Building}
    (rulesMove : ∀ rule, Moving context building (rules rule context))
    (trialsMove : ∀ rule, Moving context.trial building (rules rule context.trial)) :
    (phrase : Phrase) → phrase.closesOnly building.closes = true →
      Moving context building (phrase.run rules context)
  | .nothing, _ => fun before after read => by
      cases read
      exact .refl before
  | .absent, _ => fun before after read => by
      cases read
      exact .absent before
  | .absentFirst, _ => fun before after read => by
      cases read
      exact .absentFirst before
  | .dropAbsent, _ => fun before after read => by
      cases read
      exact .dropAbsent before
  | .take, _ => fun before after read => by
      cases read
      exact .takeUnlessEnded context before
  | .expect kind, _ => State.expect_moving kind
  | .noViable construct, _ => State.noViable_moving construct
  | .require requirement, _ => fun before after read => by
      simp only [Phrase.run] at read
      split at read
      · exact State.report_moving _ before after read
      · cases read
        exact .refl before
  | .call rule, _ => rulesMove rule
  | .seq first second, builds => fun before after read => by
      simp only [closesOnly, Bool.and_eq_true] at builds
      obtain ⟨middle, started, ended⟩ := bind_eq_ok.mp read
      exact (first.run_moving rulesMove trialsMove builds.1 _ _ started).trans
        (second.run_moving rulesMove trialsMove builds.2 _ _ ended)
  | .choose condition yes no, builds => fun before after read => by
      simp only [closesOnly, Bool.and_eq_true] at builds
      simp only [Phrase.run] at read
      split at read
      · exact yes.run_moving rulesMove trialsMove builds.1 _ _ read
      · exact no.run_moving rulesMove trialsMove builds.2 _ _ read
  | .frame lead body, builds =>
      State.inFrame_moving lead (body.run_moving rulesMove trialsMove builds)
  | .close kind, builds => fun before after read => by
      cases read
      exact .close before builds
  | .many body, builds => fun before after read =>
      State.iterate_moving (body.run_moving rulesMove trialsMove builds) _ before after read
  | .whenAdvanced body next, builds => fun before after read => by
      simp only [closesOnly, Bool.and_eq_true] at builds
      obtain ⟨middle, started, ended⟩ := bind_eq_ok.mp read
      have moved := body.run_moving rulesMove trialsMove builds.1 _ _ started
      split at ended
      · exact moved.trans (next.run_moving rulesMove trialsMove builds.2 _ _ ended)
      · cases ended
        exact moved
  | .progress body, builds =>
      State.progress_moving (body.run_moving rulesMove trialsMove builds)
  | .attempt trial accept yes no, builds => fun before after read => by
      simp only [closesOnly, Bool.and_eq_true] at builds
      simp only [Phrase.run] at read
      split at read
      · rename_i tried fitted
        have moved := (trial.run_moving trialsMove trialsMove builds.1.1 _ _ fitted).ofTrial
        split at read
        · exact moved.trans (yes.run_moving rulesMove trialsMove builds.1.2 _ _ read)
        · exact no.run_moving rulesMove trialsMove builds.2 _ _ read
      · exact no.run_moving rulesMove trialsMove builds.2 _ _ read
  | .operators operand type, builds => by
      simp only [closesOnly, Bool.and_eq_true, List.all_eq_true] at builds
      exact State.operators_moving (fun level => builds.2 level level.mem_all) builds.1.2
        (operand.run_moving rulesMove trialsMove builds.1.1.1)
        (type.run_moving rulesMove trialsMove builds.1.1.2)
  | .prefixed link last, builds => fun before after read => by
      simp only [closesOnly, Bool.and_eq_true] at builds
      have admitted : ∀ slots, building.closes (State.prefixKind slots) = true := by
        intro slots
        unfold State.prefixKind
        split
        · exact builds.1.1.1.2
        · exact builds.1.1.2
        · exact builds.1.2
        · exact builds.2
      exact State.prefixed_moving admitted (link.run_moving rulesMove trialsMove builds.1.1.1.1.1)
        (last.run_moving rulesMove trialsMove builds.1.1.1.1.2) _ before after read
  | .chain kind link more last, builds => fun before after read => by
      simp only [closesOnly, Bool.and_eq_true] at builds
      exact State.chain_moving builds.1.1 _ (link.run_moving rulesMove trialsMove builds.1.2)
        (last.run_moving rulesMove trialsMove builds.2) _ before after read

end Phrase

theorem readRule_moving (grammar : Rule → Phrase) (depth : Nat) (rule : Rule)
    (context : Context) : Moving context .any (readRule grammar depth rule context) := by
  induction depth generalizing rule context with
  | zero =>
      intro before after read
      cases read
  | succ depth ih =>
      exact (grammar rule).run_moving (ih · context) (ih · context.trial)
        (grammar rule).closesOnly_any

end JavaSyntax
