import JavaSyntax.Proofs.Locality.Statements

/-!
# What a block holds before a seam

A block holds declarations and statements.  Each of them ends with a `;` or a `}` outside of
all brackets, so whatever decides which of them it is stands before its end.
-/

namespace JavaSyntax.Seam

open JavaSyntax.Language Phrase Condition

variable {seam : Seam} {depth : Nat} {view : View}

/-! ## Type declarations -/

theorem carries_dropAbsent : seam.Carries depth view .dropAbsent :=
  fun _ _ twins _ => .ok twins.dropAbsent

theorem carries_noViableAfter (construct : Construct) :
    seam.Carries depth view (noViableAfter construct) :=
  carries_shape (carries_seq carries_dropAbsent (carries_noViable construct))
    (carries_around 1 _ (carries_noViable construct))

theorem carries_classRest : seam.Carries depth view classRest :=
  carries_unseen (carries_around 1 _
    (carries_headed (braced_memberBody .classBody) (by decide)))

theorem carries_enumRest : seam.Carries depth view enumRest :=
  carries_unseen (carries_around 1 _ (carries_headed braced_enumBody (by decide)))

theorem carries_interfaceRest : seam.Carries depth view interfaceRest :=
  carries_unseen (carries_around 1 _
    (carries_headed (braced_memberBody .interfaceBody) (by decide)))

theorem carries_annotationTypeRest : seam.Carries depth view annotationTypeRest :=
  carries_unseen (carries_around 1 _
    (carries_headed (braced_memberBody .annotationBody) (by decide)))

theorem carries_typeDeclarationRest : seam.Carries depth [] typeDeclarationRest := by
  intro state state' twins fits after read within
  have inside : state.position < seam.left.tokens.size :=
    Nat.lt_of_le_of_lt (Nat.le_trans (Language.forward read) within) seam.size
  have before : state.position < seam.place := by
    obtain ⟨-, moved, -⟩ := seam.sealed.passes_statement fits inside read (by decide)
    exact Nat.lt_of_lt_of_le moved within
  have annotation : startsAnnotationType.holds (readRule grammar depth) seam.right state' =
      startsAnnotationType.holds (readRule grammar depth) seam.left state := by
    rw [startsAnnotationType, holds_and, holds_and, holds_is, holds_is, holds_nextIs, holds_nextIs,
      seam.kindAt twins 0 before]
    by_cases starts : .atSign = state.kindAt seam.left 0
    · have fits : View.Fits seam.left [.singleton .atSign] state :=
        fits_of_is (holds_is _ _ _ _ |>.trans (decide_eq_true starts) :
          (is .atSign).holds (readRule grammar depth) seam.left state = true)
      rw [seam.kindAt twins 1 (second_lt_place (by decide) (by decide) fits read within)]
    · rw [decide_eq_false starts, Bool.false_and, Bool.false_and]
  refine Keeps.choose (seam.holds_next twins before _)
    (fun _ => carries_classRest state state' twins fits) ?_ after read within
  refine Keeps.choose (seam.holds_next twins before _)
    (fun _ => carries_enumRest state state' twins fits) ?_
  refine Keeps.choose (seam.holds_next twins before _)
    (fun _ => carries_interfaceRest state state' twins fits) ?_
  exact Keeps.choose annotation (fun _ => carries_annotationTypeRest state state' twins fits)
    (carries_noViableAfter _ state state' twins fits)

/-! ## Block statements -/

theorem endsStatement_blockStatement : endsStatement [] blockStatement = true := by
  decide

theorem carries_localClass {state state' : State} {high : Nat} (before : high < seam.place)
    (stands : (seam.fence before).Stands headWalls [] [] state state') :
    seam.Keeps ((modifiers localClassModifiers ++ typeDeclarationRest).run (readRule grammar depth)
        seam.left state)
      ((modifiers localClassModifiers ++ typeDeclarationRest).run (readRule grammar depth)
        seam.right state') := by
  refine (keeps_of_blocked (by decide) stands.toTwins stands.fits before stands.blocked).bind
    (fun _ _ => Language.forward) fun middle middle' _ _ twins => ?_
  exact carries_typeDeclarationRest middle middle' twins (View.fits_nil _ _)

/-- Which sort of block statement it is can be told before its last token. -/
theorem carries_blockStatement : seam.Carries depth [] blockStatement := by
  intro state state' twins fits after read within
  have inside : state.position < seam.left.tokens.size :=
    Nat.lt_of_le_of_lt (Nat.le_trans (Language.forward read) within) seam.size
  obtain ⟨passes, moved, last⟩ :=
    seam.sealed.passes_statement fits inside read endsStatement_blockStatement
  have blocked : Blocked headWalls seam.left [] state.position (after.position - 1) :=
    passes.blocked_at_last (by decide) (by decide) moved last
  have before : after.position - 1 < seam.place := by omega
  have stands : (seam.fence before).Stands headWalls [] [] state state' :=
    ⟨twins, Nat.zero_le _, blocked, fits⟩
  refine Keeps.choose
    ((startsLocalClass.holds_of_bounded (guards_grammar (seam.fence before) depth)).alike
      (by decide) stands)
    (fun _ => carries_localClass before stands) ?_ after read within
  refine Keeps.choose
    ((startsVariable.holds_of_bounded (guards_grammar (seam.fence before) depth)).alike
      (by decide) stands) (fun _ => ?_) ?_
  · exact carries_node _ (carries_walled itemWalls (by decide) (by decide)) state state'
      twins fits
  · exact carries_call_statement state state' twins fits


end Seam

/-! ## Rounds -/

namespace State

/-- Rounds of a loop, each of which reads tokens. -/
inductive Rounds (step : Step) : State → State → Prop where
  | done (state : State) : Rounds step state state
  | next {state middle after : State} : step state = .ok middle →
      state.position < middle.position → Rounds step middle after → Rounds step state after

variable {step : Step} {state middle after : State}

theorem Rounds.trans (first : Rounds step state middle) (rest : Rounds step middle after) :
    Rounds step state after := by
  induction first with
  | done => exact rest
  | next read moved _ ih => exact .next read moved (ih rest)

theorem Rounds.forward (rounds : Rounds step state after) : state.position ≤ after.position := by
  induction rounds with
  | done => exact Nat.le_refl _
  | next _ moved _ ih => exact Nat.le_trans (Nat.le_of_lt moved) ih

/-- A loop with enough rounds goes through all of them. -/
theorem Rounds.iterate_eq (rounds : Rounds step state middle) (last : step middle = .ok after)
    (still : after.position ≤ middle.position) {count : Nat}
    (enough : middle.position < state.position + count) :
    iterate step count state = .ok after := by
  induction rounds generalizing count with
  | done state =>
      obtain ⟨fewer, rfl⟩ : ∃ fewer, count = fewer + 1 := ⟨count - 1, by omega⟩
      simp only [iterate, last]
      exact if_neg (Nat.not_lt.mpr still)
  | next read moved rest ih =>
      have onward := rest.forward
      obtain ⟨fewer, rfl⟩ : ∃ fewer, count = fewer + 1 := ⟨count - 1, by omega⟩
      simp only [iterate, read]
      exact (if_pos moved).trans (ih last still (by omega))

/-- What a loop with enough rounds has gone through. -/
theorem exists_rounds (forward : ∀ before after, step before = .ok after →
      before.position ≤ after.position) {count : Nat}
    (read : iterate step count state = .ok after)
    (enough : after.position < state.position + count) :
    ∃ middle, Rounds step state middle ∧ step middle = .ok after ∧
      after.position ≤ middle.position := by
  induction count generalizing state with
  | zero =>
      have onward := forward _ _ read
      omega
  | succ count ih =>
      obtain ⟨next, stepped, rest⟩ := bind_eq_ok.mp read
      split at rest
      · rename_i moved
        obtain ⟨middle, rounds, last⟩ := ih rest (by omega)
        exact ⟨middle, .next stepped moved rounds, last⟩
      · rename_i still
        cases rest
        exact ⟨state, .done state, stepped, Nat.not_lt.mp still⟩

/-- A loop leaves the slots alone that its rounds leave alone. -/
theorem iterate_onto {base : List Element}
    (apart : ∀ state, step (state.onto base) = (step state).map (·.onto base)) (count : Nat)
    (state : State) :
    iterate step count (state.onto base) = (iterate step count state).map (·.onto base) := by
  induction count generalizing state with
  | zero => exact apart state
  | succ count ih =>
      simp only [iterate, apart]
      cases step state with
      | error error => rfl
      | ok next =>
          change (if state.position < next.position then iterate step count (next.onto base)
            else .ok (next.onto base)) = Except.map (·.onto base)
              (if state.position < next.position then iterate step count next else .ok next)
          split
          · exact ih next
          · rfl

/-- Reading tokens is all the progress that is asked for. -/
theorem progress_of_moved {context : Context} {inner : State}
    (read : step { state with slots := [] } = .ok inner) (moved : state.position < inner.position) :
    state.progress context step = .ok (inner.onto state.slots) := by
  rw [progress, inFrame_eq_ok]
  refine ⟨inner, bind_eq_ok.mpr ⟨inner, read, ?_⟩, rfl⟩
  exact if_pos (.inl (Nat.ne_of_gt moved))

theorem exists_of_progress {context : Context} (read : state.progress context step = .ok after) :
    ∃ inner, step { state with slots := [] } = .ok inner ∧
      (state.position < inner.position → after = inner.onto state.slots) := by
  rw [progress, inFrame_eq_ok] at read
  obtain ⟨result, framed, rfl⟩ := read
  obtain ⟨inner, started, ended⟩ := bind_eq_ok.mp framed
  refine ⟨inner, started, fun moved => ?_⟩
  rw [if_pos (.inl (Nat.ne_of_gt moved))] at ended
  cases ended
  rfl

theorem inFrame_onto (step : Step) (state : State) (base : List Element) :
    (state.onto base).inFrame 0 step = (state.inFrame 0 step).map (·.onto base) := by
  simp only [inFrame, onto, List.take_zero, List.drop_zero]
  cases step ⟨state.position, state.errors, []⟩ with
  | error error => rfl
  | ok inner => simp [bind, Except.bind, pure, Except.pure, Except.map]

end State

namespace Language

open Phrase Condition

/-- One of the statements that a block holds, unless the block or a group of its statements
ends here. -/
def blockRound : Phrase :=
  onlyIf (.not (isOneOf [.rBrace, .eof, .kwCase, .kwDefault])) (.progress blockStatement)

/-- What a block holds is read apart from the slots that are there already. -/
theorem blockStatements_onto (rules : Rule → Context → Step) (context : Context) (state : State)
    (base : List Element) : blockStatements.run rules context (state.onto base) =
      (blockStatements.run rules context state).map (·.onto base) := by
  refine State.iterate_onto (fun state => ?_) (state.remaining context) state
  have same (condition : Condition) (simple : condition.holds rules context (state.onto base) =
      condition.holds rules context state) {yes : Phrase}
      (apart : yes.run rules context (state.onto base) =
        (yes.run rules context state).map (·.onto base)) :
      (onlyIf condition yes).run rules context (state.onto base) =
        ((onlyIf condition yes).run rules context state).map (·.onto base) := by
    simp only [onlyIf, Phrase.run, simple]
    split
    · exact apart
    · rfl
  refine same _ rfl ?_
  simp only [Phrase.run, State.progress]
  exact State.inFrame_onto _ state base

variable {context : Context} {depth : Nat} {state after : State}

/-- Each block statement reads tokens. -/
theorem blockStatement_of_progress (sealed : context.Sealed)
    (inside : state.position < context.tokens.size)
    (read : (Phrase.progress blockStatement).run (readRule grammar depth) context state =
      .ok after) :
    ∃ inner, blockStatement.run (readRule grammar depth) context { state with slots := [] } =
        .ok inner ∧ state.position < inner.position ∧ after = inner.onto state.slots := by
  obtain ⟨inner, started, ended⟩ := State.exists_of_progress read
  obtain ⟨-, moved, -⟩ := sealed.passes_statement
    (View.fits_nil context { state with slots := [] }) inside started
    Seam.endsStatement_blockStatement
  exact ⟨inner, started, moved, ended moved⟩

/-- Nothing is read only where the statements of a block end. -/
theorem blockRound_still (sealed : context.Sealed)
    (read : blockRound.run (readRule grammar depth) context state = .ok after)
    (still : after.position ≤ state.position) : after = state := by
  simp only [blockRound, onlyIf, Phrase.run] at read
  split at read
  · rename_i goesOn
    have more : (context.get state.position).kind ≠ .eof := by
      intro ended
      simp [Condition.holds, isOneOf, State.kindAt, ended] at goesOn
    obtain ⟨inner, -, moved, rfl⟩ :=
      blockStatement_of_progress sealed (Context.lt_size_of_kind_ne more) read
    exact absurd moved (Nat.not_lt.mpr still)
  · cases read
    rfl

end Language

namespace Seam

open JavaSyntax.Language Phrase Condition

variable {seam : Seam} {depth : Nat} {state state' after : State}

theorem carries_progress : seam.Carries depth [] (.progress blockStatement) := by
  intro state state' twins fits after read within
  have inside : state.position < seam.left.tokens.size :=
    Nat.lt_of_le_of_lt (Nat.le_trans (Language.forward read) within) seam.size
  obtain ⟨inner, started, moved, rfl⟩ := blockStatement_of_progress seam.sealed inside read
  obtain ⟨inner', started', alike⟩ :=
    carries_blockStatement { state with slots := [] } { state' with slots := [] }
      (twins.withSlots rfl) fits inner started within
  have moved' : state'.position < inner'.position := (twins.moved alike).mpr moved
  refine ⟨_, State.progress_of_moved started' moved', alike.withSlots ?_⟩
  rw [List.map_append, List.map_append, alike.slots, twins.slots]

/-- A block statement before the seam is read alike in both lists. -/
theorem blockRound_keeps (twins : Twins 0 state state')
    (read : blockRound.run (readRule grammar depth) seam.left state = .ok after)
    (moved : state.position < after.position) (within : after.position ≤ seam.place) :
    ∃ after', blockRound.run (readRule grammar depth) seam.right state' = .ok after' ∧
      Twins 0 after after' := by
  have before := Nat.lt_of_lt_of_le moved within
  refine Keeps.choose ?_ (fun _ => carries_progress state state' twins (View.fits_nil _ _))
    (.ok twins) after read within
  exact congrArg (!·) (seam.holds_next twins before _)

/-- All block statements before the seam are read alike in both lists. -/
theorem rounds_keep
    (rounds : State.Rounds (blockRound.run (readRule grammar depth) seam.left) state after)
    (twins : Twins 0 state state') (within : after.position ≤ seam.place) :
    ∃ after', State.Rounds (blockRound.run (readRule grammar depth) seam.right) state' after' ∧
      Twins 0 after after' := by
  induction rounds generalizing state' with
  | done state => exact ⟨state', .done state', twins⟩
  | next read moved rest ih =>
      obtain ⟨middle', read', alike⟩ :=
        blockRound_keeps twins read moved (Nat.le_trans rest.forward within)
      obtain ⟨after', rest', later⟩ := ih alike within
      exact ⟨after', .next read' ((twins.moved alike).mpr moved) rest', later⟩

/-- Block statements that end at the seam in the left list are followed by those that start
there in the right one. -/
theorem blockStatements_append {middle rest : State} (twins : Twins 0 state state')
    (read : blockStatements.run (readRule grammar depth) seam.left state = .ok middle)
    (ends : middle.position = seam.place)
    (further : blockStatements.run (readRule grammar depth) seam.right
      ⟨seam.place, middle.errors, []⟩ = .ok rest)
    (inside : rest.position < seam.right.tokens.size) :
    ∃ middle', Twins 0 middle middle' ∧
      blockStatements.run (readRule grammar depth) seam.right state' =
        .ok (rest.onto middle'.slots) := by
  have onward (context : Context) (before after : State)
      (read : blockRound.run (readRule grammar depth) context before = .ok after) :
      before.position ≤ after.position := Language.forward read
  have start := Language.forward read
  have size := seam.size
  have same := twins.position
  obtain ⟨last, rounds, stays, still⟩ := State.exists_rounds (onward seam.left) read (by
    rw [State.remaining]
    omega)
  obtain rfl := blockRound_still seam.sealed stays still
  obtain ⟨middle', rounds', alike⟩ := rounds_keep rounds twins (Nat.le_of_eq ends)
  have there : (⟨seam.place, middle.errors, []⟩ : State).onto middle'.slots = middle' := by
    have := alike.position
    have := alike.errors
    obtain ⟨position, errors, slots⟩ := middle'
    simp_all [State.onto]
  have appended := blockStatements_onto (readRule grammar depth) seam.right
    ⟨seam.place, middle.errors, []⟩ middle'.slots
  rw [there, further] at appended
  have later := Language.forward further
  obtain ⟨last', rounds, stays, still⟩ := State.exists_rounds (onward seam.right) appended (by
    have := alike.position
    simp only [State.remaining, State.onto]
    simp only at later
    omega)
  refine ⟨middle', alike, (rounds'.trans rounds).iterate_eq stays still ?_⟩
  have := Language.forward stays
  simp only [State.remaining, State.onto] at this ⊢
  omega

end Seam

end JavaSyntax
