import JavaSyntax.Proofs.Reading.Fatal
import JavaSyntax.Proofs.Reading.Items
import JavaSyntax.Proofs.Termination

/-!
# Where the items of a source file begin

A source file is read item by item, and the first item that cannot be read ends the reading.
So the last state is one behind an item that was read, or the one in which an item was
abandoned where it begins.  An item reads a token before it calls a rule, so if it nests too
deep, it does so behind the token at which it begins.
-/

namespace JavaSyntax

/-- The items of a source file. -/
inductive Item where
  | packageDeclaration
  | importDeclaration
  | typeDeclaration
  deriving DecidableEq, Repr

namespace Item

/-- What an item is read by. -/
def phrase : Item → Phrase
  | .packageDeclaration => Language.packageDeclaration
  | .importDeclaration => Language.importDeclaration
  | .typeDeclaration => .progress Language.typeDeclaration

/-- The item that follows before a token of a kind, if any does.  No import follows a type. -/
def next (item : Item) (kind : TokenKind) : Option Item :=
  if kind = .eof then none
  else if kind = .kwImport ∧ item ≠ .typeDeclaration then some .importDeclaration
  else some .typeDeclaration

end Item

/-- The states in which the items of a source file begin: the first one at the front, and each
other one behind an item that was read. -/
inductive Begins (context : Context) : Item → State → Prop where
  | first : Begins context .packageDeclaration ⟨0, [], []⟩
  | next {item following : Item} {before after : State} (begins : Begins context item before)
      (read : Language.read item.phrase context before = .ok after)
      (follows : item.next (after.kindAt context 0) = some following) :
      Begins context following after

/-- A state behind an item that was read. -/
def Passed (context : Context) (item : Item) (after : State) : Prop :=
  ∃ before, Begins context item before ∧ Language.read item.phrase context before = .ok after

/-- A state in which an item was abandoned where it begins. -/
def Abandoned (context : Context) (final : State) : Prop :=
  ∃ item before error, Begins context item before ∧
    Language.read item.phrase context before = .error error ∧
    final = before.abandon context error

/-- What a reading of items comes to: it goes on from a good state, or an item was abandoned. -/
def ComesTo (context : Context) (good : State → Prop) : State × Bool → Prop
  | (state, true) => good state
  | (state, false) => Abandoned context state

theorem ComesTo.imp {context : Context} {good good' : State → Prop} {outcome : State × Bool}
    (reached : ComesTo context good outcome) (weaker : ∀ state, good state → good' state) :
    ComesTo context good' outcome := by
  obtain ⟨state, goes⟩ := outcome
  cases goes with
  | true => exact weaker state reached
  | false => exact reached

namespace State

variable {context : Context} {state : State} {item : Item}

theorem followedBy_comesTo {good good' : State → Prop} {outcome : State × Bool}
    {next : State → State × Bool} (first : ComesTo context good outcome)
    (rest : ∀ state, good state → ComesTo context good' (next state)) :
    ComesTo context good' (followedBy outcome next) := by
  obtain ⟨state, goes⟩ := outcome
  cases goes with
  | true => exact rest state first
  | false => exact first

/-- One item is passed or abandoned. -/
theorem readItem_comesTo (begins : Begins context item state) :
    ComesTo context (Passed context item) (state.readItem context item.phrase) := by
  unfold readItem
  split
  · rename_i after read
    exact ⟨state, begins, read⟩
  · rename_i error failed
    exact ⟨item, state, error, begins, failed, rfl⟩

/-- Items that each read a token are read as long as their condition holds.  The induction is
on the rounds, which outnumber the tokens that remain. -/
theorem readItems_comesTo {continues : TokenKind → Bool} {good : State → Prop}
    (stops : continues .eof = false)
    (advances : ∀ before after : State, continues (before.kindAt context 0) = true →
      Language.read item.phrase context before = .ok after → before.position < after.position)
    (begins : ∀ state, good state → continues (state.kindAt context 0) = true →
      Begins context item state)
    (passed : ∀ state, Passed context item state → good state) (rounds : Nat)
    (enough : state.remaining context ≤ rounds) (start : good state) :
    ComesTo context (fun after => good after ∧ continues (after.kindAt context 0) = false)
      (state.readItems context continues item.phrase rounds) := by
  induction rounds generalizing state with
  | zero =>
      have beyond : context.tokens.size ≤ state.position := by
        simp only [remaining] at enough
        omega
      exact ⟨start, by rw [atEnd_iff.mp (atEnd_of_size_le beyond), stops]⟩
  | succ rounds ih =>
      rw [readItems_succ]
      split
      · rename_i goes
        cases read : Language.read item.phrase context state with
        | error error =>
            have outcome : state.readItem context item.phrase =
                (state.abandon context error, false) := by simp [readItem, read]
            rw [outcome]
            exact ⟨item, state, error, begins state start goes, read, rfl⟩
        | ok after =>
            have outcome : state.readItem context item.phrase = (after, true) := by
              simp [readItem, read]
            rw [outcome]
            refine ih ?_ (passed after ⟨state, begins state start goes, read⟩)
            have moved := advances state after goes read
            simp only [remaining] at enough ⊢
            omega
      · rename_i stopped
        exact ⟨start, by simpa using stopped⟩

/-- A state behind the package or an import. -/
def AmongImports (context : Context) (state : State) : Prop :=
  ∃ item, item ≠ .typeDeclaration ∧ Passed context item state

/-- A state behind which no import may follow. -/
def BehindImports (context : Context) (state : State) : Prop :=
  ∃ item, Passed context item state ∧
    (state.kindAt context 0 = .kwImport → item = .typeDeclaration)

/-- Imports are read until another token follows. -/
theorem readImports_comesTo (start : AmongImports context state) :
    ComesTo context (BehindImports context)
      (state.readItems context (· == .kwImport) Language.importDeclaration
        (state.remaining context)) := by
  have begins (state : State) (start : AmongImports context state)
      (starts : (state.kindAt context 0 == .kwImport) = true) :
      Begins context .importDeclaration state := by
    obtain ⟨item, early, before, begins, read⟩ := start
    refine .next begins read ?_
    rw [beq_iff_eq.mp starts]
    simp [Item.next, early]
  have passed (state : State) (passed : Passed context .importDeclaration state) :
      AmongImports context state := ⟨.importDeclaration, by decide, passed⟩
  refine (readItems_comesTo rfl importDeclaration_advances begins passed _ (Nat.le_refl _)
    start).imp
    fun after ⟨⟨item, _, passed⟩, stopped⟩ => ⟨item, passed, fun starts => ?_⟩
  simp [starts] at stopped

/-- Types are read until the end. -/
theorem readTypes_comesTo (start : BehindImports context state) :
    ComesTo context (BehindImports context)
      (state.readItems context (· != .eof) (.progress Language.typeDeclaration)
        (state.remaining context)) := by
  have begins (state : State) (start : BehindImports context state)
      (more : (state.kindAt context 0 != .eof) = true) :
      Begins context .typeDeclaration state := by
    obtain ⟨item, ⟨before, begins, read⟩, late⟩ := start
    refine .next begins read ?_
    rw [Item.next, if_neg (bne_iff_ne.mp more), if_neg fun ⟨starts, early⟩ => early (late starts)]
  have passed (state : State) (passed : Passed context .typeDeclaration state) :
      BehindImports context state := ⟨.typeDeclaration, passed, fun _ => rfl⟩
  exact (readItems_comesTo rfl typeDeclaration_advances begins passed _ (Nat.le_refl _) start).imp
    fun after ⟨passed, _⟩ => passed

/-- The state after a source file is one behind an item, or an item was abandoned. -/
theorem readUnit_comesTo (context : Context) :
    (∃ item, Passed context item (readUnit context ⟨0, [], []⟩)) ∨
      Abandoned context (readUnit context ⟨0, [], []⟩) := by
  have package : ComesTo context (Passed context .packageDeclaration)
      (readItem context Language.packageDeclaration ⟨0, [], []⟩) := readItem_comesTo .first
  have imports := followedBy_comesTo package fun packaged passed =>
    readImports_comesTo ⟨_, by decide, passed⟩
  have types := followedBy_comesTo imports fun imported => readTypes_comesTo
  rw [readUnit_eq]
  generalize followedBy _ _ = outcome at types ⊢
  obtain ⟨final, goes⟩ := outcome
  cases goes with
  | true =>
      obtain ⟨item, passed, _⟩ := types
      exact .inl ⟨item, passed⟩
  | false => exact .inr types

end State

/-! ## Where items nest too deep -/

section HeldBack

open JavaSyntax.Language

/-- Rules that are refused as far as the token at `origin`. -/
def heldBack (origin : Nat) (rules : Rule → Context → Step) : Rule → Context → Step :=
  fun rule context state =>
    if origin < state.position then rules rule context state
    else .error ⟨.notAStatement, (state.current context).span⟩

theorem heldBack_eq_ok {origin : Nat} {rules : Rule → Context → Step} {rule : Rule}
    {context : Context} {state after : State}
    (read : heldBack origin rules rule context state = .ok after) :
    rules rule context state = .ok after := by
  unfold heldBack at read
  split at read
  · exact read
  · cases read

theorem Steady.heldBack {reads : Rule → TokenSet} {rules : Rule → Context → Step}
    (steady : Steady reads rules) (origin : Nat) : Steady reads (heldBack origin rules) where
  moving := fun rule context before after read =>
    steady.moving rule context before after (heldBack_eq_ok read)
  advances := fun read => steady.advances (heldBack_eq_ok read)
  fills := fun read => steady.fills (heldBack_eq_ok read)

variable {context : Context} {phrase : Phrase}

/-- A phrase that reads a token before it calls a rule is not held back by its first token. -/
theorem run_heldBack (paced : phrase.paced reads = true)
    (low : phrase.callsBelow reads rank (fun _ => 0) [] = true) (depth : Nat) (state : State) :
    phrase.run (heldBack state.position (readRule grammar depth)) context state =
      phrase.run (readRule grammar depth) context state := by
  have steady := readRule_steady steady_grammar depth
  -- Both readings come to one on fuel whose rules come to nothing at the first token.
  let within : Rule → Context → FueledStep := fun rule context next =>
    if state.position < next.position then some (readRule grammar depth rule context next) else none
  have beyond {context : Context} {rule : Rule} {next : State}
      (callable : Callable rank (fun _ => 0) state.position context rule next) :
      state.position < next.position := by
    rcases callable with beyond | ⟨_, below⟩
    · exact beyond.2
    · cases below
  have enough : context.tokens.size - state.position < context.tokens.size + 1 := by omega
  have plain : Supplied rank (fun _ => 0) state.position (readRule grammar depth) within
      (context.tokens.size + 1) context :=
    ⟨fun _ _ callable => if_pos (beyond callable), fun _ _ callable => if_pos (beyond callable),
      enough⟩
  have held : Supplied rank (fun _ => 0) state.position
      (heldBack state.position (readRule grammar depth)) within
      (context.tokens.size + 1) context := by
    refine ⟨fun _ _ callable => ?_, fun _ _ callable => ?_, enough⟩
    all_goals simp only [within, heldBack, if_pos (beyond callable)]
  have start : Reached context state.position (phrase.callsBelow reads rank fun _ => 0) state :=
    .inr ⟨rfl, [], View.fits_nil _ _, low⟩
  have same := phrase.runWithin_eq (steady.heldBack _) paced held state start
  rw [phrase.runWithin_eq steady paced plain state start] at same
  exact (Option.some.inj same).symm

/-- A phrase that reads a token before it calls a rule nests too deep only behind that token. -/
theorem read_deepFrom (paced : phrase.paced reads = true)
    (low : phrase.callsBelow reads rank (fun _ => 0) [] = true) (state : State) :
    DeepFrom context (state.position + 1) (read phrase context state) := by
  rw [Language.read, ← run_heldBack paced low]
  have steady := (readRule_steady steady_grammar context.limit).heldBack state.position
  refine (phrase.run_failsFrom steady.moving fun rule later _ => ?_).fails state (Nat.le_refl _)
  unfold heldBack
  split
  · rename_i behind
    exact (readRule_deepFrom grammar context.limit rule context later).mono behind
  · refine .ofMild fun error failed => ?_
    cases failed
    rfl

theorem Item.paced_phrase (item : Item) : item.phrase.paced reads = true := by
  cases item with
  | typeDeclaration => exact paced_typeDeclaration
  | _ => decide

/-- No item calls a rule before it has read a token. -/
theorem Item.callsBelow_phrase (item : Item) :
    item.phrase.callsBelow reads rank (fun _ => 0) [] = true := by
  cases item with
  | typeDeclaration => decide +kernel
  | _ => decide

/-- An item nests too deep only behind the token at which it begins. -/
theorem Item.read_deepFrom (item : Item) (state : State) :
    DeepFrom context (state.position + 1) (read item.phrase context state) :=
  JavaSyntax.read_deepFrom item.paced_phrase item.callsBelow_phrase state

end HeldBack

end JavaSyntax
