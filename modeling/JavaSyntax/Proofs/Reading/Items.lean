import JavaSyntax.Proofs.Reading.Compare
import JavaSyntax.Proofs.Reading.Moves
import JavaSyntax.Session

/-!
# Reading item by item

A source file is read in three stages, each of which goes on only if no item before
it was given up.  An item that is given up leaves one error more than it started with.
-/

namespace JavaSyntax

/-- What the items of a source file are read by. -/
def Language.items : List Phrase :=
  [packageDeclaration, importDeclaration, .progress typeDeclaration]

namespace State

/-- Go on with `next` after an outcome, unless the reading has stopped. -/
def followedBy (outcome : State × Bool) (next : State → State × Bool) : State × Bool :=
  match outcome with
  | (state, true) => next state
  | (state, false) => (state, false)

/-- A source file is read in three stages. -/
theorem readUnit_eq (context : Context) (state : State) :
    state.readUnit context =
      (followedBy
        (followedBy (state.readItem context Language.packageDeclaration) fun packaged =>
          packaged.readItems context (· == .kwImport) Language.importDeclaration
            (packaged.remaining context))
        fun imported =>
          imported.readItems context (· != .eof) (.progress Language.typeDeclaration)
            (imported.remaining context)).1 := by
  unfold readUnit
  split
  · rename_i packaged read
    rw [read]
    rfl
  · rename_i packaged read
    rw [read]
    simp only [followedBy]
    split
    · rename_i imported read
      rw [read]
    · rename_i imported read
      rw [read]

/-- Items are read one after the other. -/
theorem readItems_succ (context : Context) (continues : TokenKind → Bool) (item : Phrase)
    (rounds : Nat) (state : State) :
    state.readItems context continues item (rounds + 1) =
      if continues (state.kindAt context 0) then
        followedBy (state.readItem context item) (readItems context continues item rounds)
      else (state, true) := by
  simp only [readItems]
  split
  · rcases state.readItem context item with ⟨after, goes⟩
    cases goes <;> rfl
  · rfl

variable {context : Context}

@[simp] theorem errors_takeRest (rounds : Nat) (state : State) :
    (takeRest context rounds state).errors = state.errors := by
  induction rounds generalizing state with
  | zero => rfl
  | succ rounds ih =>
      simp only [takeRest]
      split
      · rfl
      · rw [ih, errors_take]

@[simp] theorem errors_sweep (state : State) : (state.sweep context).errors = state.errors := by
  unfold sweep
  split
  · rfl
  · exact errors_takeRest _ _

@[simp] theorem errors_abandon (state : State) (error : SyntaxError) :
    (state.abandon context error).errors = error :: state.errors := by
  simp [abandon]

/-- Tokens are put away alike under every limit. -/
theorem takeRest_under (limit : Nat) (recovery : Bool) (rounds : Nat) (state : State) :
    state.takeRest (context.under limit recovery) rounds = state.takeRest context rounds := by
  induction rounds generalizing state with
  | zero => rfl
  | succ rounds ih =>
      simp only [takeRest, ih]
      rfl

theorem sweep_under (limit : Nat) (recovery : Bool) (state : State) :
    state.sweep (context.under limit recovery) = state.sweep context := by
  simp only [sweep, takeRest_under]
  rfl

theorem abandon_under (limit : Nat) (recovery : Bool) (state : State) (error : SyntaxError) :
    state.abandon (context.under limit recovery) error = state.abandon context error := by
  simp only [abandon, sweep_under]

section Kept

/-! What every item keeps, read or given up, a source file keeps. -/

variable {kept : State → Prop}
  (reads : ∀ {item : Phrase} {state after : State}, item ∈ Language.items →
    Language.read item context state = .ok after → kept state → kept after)
  (abandons : ∀ (state : State) (error : SyntaxError),
    kept state → kept (state.abandon context error))

theorem followedBy_kept {outcome : State × Bool} {next : State → State × Bool}
    (first : kept outcome.1) (rest : ∀ state, kept state → kept (next state).1) :
    kept (followedBy outcome next).1 := by
  obtain ⟨state, goes⟩ := outcome
  cases goes with
  | true => exact rest state first
  | false => exact first

include reads abandons

theorem readItem_kept {item : Phrase} (listed : item ∈ Language.items) {state : State}
    (holds : kept state) : kept (state.readItem context item).1 := by
  unfold readItem
  split
  · rename_i after read
    exact reads listed read holds
  · exact abandons state _ holds

theorem readItems_kept (continues : TokenKind → Bool) {item : Phrase}
    (listed : item ∈ Language.items) (rounds : Nat) {state : State} (holds : kept state) :
    kept (state.readItems context continues item rounds).1 := by
  induction rounds generalizing state with
  | zero => exact holds
  | succ rounds ih =>
      rw [readItems_succ]
      split
      · exact followedBy_kept (readItem_kept reads abandons listed holds) fun _ => ih
      · exact holds

theorem readUnit_kept {state : State} (holds : kept state) : kept (state.readUnit context) := by
  rw [readUnit_eq]
  refine followedBy_kept (followedBy_kept ?_ ?_) ?_
  · exact readItem_kept reads abandons (by simp [Language.items]) holds
  · exact fun packaged => readItems_kept reads abandons _ (by simp [Language.items]) _
  · exact fun imported => readItems_kept reads abandons _ (by simp [Language.items]) _

end Kept

/-- What the reading of an expression keeps, whatever is recorded and put away on the way, a
whole expression keeps, be it read or given up and read over. -/
theorem readExpression_kept {kept : State → Prop} {state : State}
    (reads : ∀ {after : State}, Language.read (.call .expression) context state = .ok after →
      kept after)
    (restarts : kept { state with position := 0, errors := [] })
    (records : ∀ (state : State) (errors : List SyntaxError),
      kept state → kept { state with errors })
    (sweeps : ∀ state : State, kept state → kept (state.sweep context)) :
    kept (state.readExpression context) := by
  unfold readExpression
  split
  · rename_i after read
    dsimp only
    split
    · exact reads read
    · refine sweeps _ ?_
      split
      · rename_i reported recorded
        obtain ⟨errors, rfl⟩ := exists_errors_of_report recorded
        exact records after errors (reads read)
      · exact records after _ (reads read)
  · exact sweeps _ (records _ _ restarts)

end State

end JavaSyntax
