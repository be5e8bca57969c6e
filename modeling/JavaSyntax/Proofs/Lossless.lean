import JavaSyntax.Proofs.Reading.Moves
import JavaSyntax.Proofs.Tree.Yield
import JavaSyntax.Session

/-!
# No token is lost

Every tree holds the tokens of its source: each token once, in order and
unchanged, whatever was skipped, made up, tried or given up on the way.

The invariant of a reading is that the tokens in the slots, followed by the
tokens not yet read, stay the same list, and that no end mark is passed.
-/

namespace JavaSyntax

/-- The tokens read into the frame, followed by those that are still to be read. -/
def State.held (context : Context) (state : State) : List Token :=
  Element.yieldAll state.gathered ++ context.tokens.toList.drop state.position

/-- What every reading keeps: the cursor does not move back, no token is lost, copied
or moved, and every token read is one before the next end mark. -/
structure Lossless (context : Context) (before after : State) : Prop where
  forward : before.position ≤ after.position
  held : after.held context = before.held context
  inside : ∀ index, before.position ≤ index → index < after.position →
    (context.get index).kind ≠ .eof

namespace Context

/-- Where there is a token that is no end mark, the tokens from there on start with it. -/
theorem drop_eq_cons {context : Context} {index : Nat}
    (kind : (context.get index).kind ≠ .eof) :
    context.tokens.toList.drop index =
      context.get index :: context.tokens.toList.drop (index + 1) := by
  have bound := lt_size_of_kind_ne kind
  rw [List.drop_eq_getElem_cons (by simpa using bound)]
  simp [get, Array.getD_eq_getD_getElem?, bound]

end Context

namespace State

variable {context : Context}

@[simp] theorem held_onto (state : State) (base : List Element) :
    (state.onto base).held context = Element.yieldAll base.reverse ++ state.held context := by
  simp [held, onto, gathered]

/-- Slots that yield nothing can be left out. -/
theorem yieldAll_filter_errors (slots : List Element) :
    Element.yieldAll (slots.filter (!isEmptyError ·)).reverse =
      Element.yieldAll slots.reverse := by
  induction slots with
  | nil => rfl
  | cons first rest ih =>
      by_cases hollow : isEmptyError first = true
      · have nothing : first.yield = [] := by
          unfold isEmptyError at hollow
          split at hollow
          · simp
          · simp at hollow
        simp [hollow, ih, nothing]
      · simp [hollow, ih]

end State

namespace Lossless

variable {context : Context}

theorem refl (state : State) : Lossless context state state where
  forward := Nat.le_refl _
  held := rfl
  inside := by
    intro index lower upper
    omega

theorem trans {first second third : State} (left : Lossless context first second)
    (right : Lossless context second third) : Lossless context first third where
  forward := Nat.le_trans left.forward right.forward
  held := right.held.trans left.held
  inside := by
    intro index lower upper
    by_cases early : index < second.position
    · exact left.inside index lower early
    · exact right.inside index (Nat.le_of_not_lt early) upper

/-- A change of slots that leaves the cursor and the yield alone. -/
theorem ofSlots {before after : State} (position : after.position = before.position)
    (yields : Element.yieldAll after.gathered = Element.yieldAll before.gathered) :
    Lossless context before after where
  forward := Nat.le_of_eq position.symm
  held := by rw [State.held, State.held, position, yields]
  inside := by
    intro index lower upper
    omega

/-- What is kept in a frame is kept in front of other slots. -/
theorem onto {before after : State} (inner : Lossless context before after)
    (base : List Element) : Lossless context (before.onto base) (after.onto base) where
  forward := inner.forward
  held := by rw [State.held_onto, State.held_onto, inner.held]
  inside := inner.inside

theorem takeAny (state : State) (more : state.atEnd context = false) :
    Lossless context state (state.takeAny context) where
  forward := by
    rw [State.position_takeAny more]
    exact Nat.le_succ _
  held := by
    rw [State.held, State.held, State.position_takeAny more,
      Context.drop_eq_cons (State.current_kind_ne more)]
    simp [State.takeAny, State.gathered, State.current]
  inside := by
    intro index lower upper
    rw [State.position_takeAny more] at upper
    obtain rfl : index = state.position := by omega
    exact State.current_kind_ne more

/-- Whatever is read is in the frame, so where the frame has no more tokens than before,
nothing was read. -/
theorem still {before after : State} (kept : Lossless context before after)
    (fewer : (Element.yieldAll after.gathered).length ≤ (Element.yieldAll before.gathered).length) :
    after.position = before.position := by
  have sizes := congrArg List.length kept.held
  simp only [State.held, List.length_append, List.length_drop, Array.length_toList] at sizes
  have forward := kept.forward
  apply Decidable.byContradiction
  intro moved
  have inside := Context.lt_size_of_kind_ne (kept.inside before.position (Nat.le_refl _) (by omega))
  omega

end Lossless

/-- Every sequence of moves is lossless. -/
theorem Moves.lossless {context : Context} {before after : State}
    (moves : Moves context .any before after) : Lossless context before after := by
  induction moves with
  | refl state => exact .refl state
  | trans _ _ left right => exact left.trans right
  | frame base _ inner => exact inner.onto base
  | discard _ still inner =>
      exact .ofSlots (Nat.le_antisymm still inner.forward) rfl
  | take state more => exact .takeAny state more
  | absent state => exact .ofSlots rfl (by simp)
  | absentFirst state => exact .ofSlots rfl (by simp [State.gathered])
  | dropAbsent state =>
      refine .ofSlots ?_ ?_ <;> unfold State.dropAbsent <;> split
      · rfl
      · rfl
      · rename_i rest slots
        simp [State.gathered, slots]
      · rfl
  | dropErrors state => exact .ofSlots rfl (State.yieldAll_filter_errors state.slots)
  | missing state kind _ => exact .ofSlots rfl (by simp)
  | report state error _ => exact .ofSlots rfl rfl
  | close state _ => exact .ofSlots rfl (by simp [State.finish, Node.toElement, Node.spanning])
  | call admitted => exact admitted.elim

/-! ## Items and whole parses -/

theorem Language.moving (phrase : Phrase) (depth : Nat) (context : Context) :
    Moving context .any (phrase.run (readRule grammar depth) context) :=
  phrase.run_moving (readRule_moving grammar depth · context)
    (readRule_moving grammar depth · context.trial) phrase.closesOnly_any

/-- The cursor never moves back. -/
theorem Language.forward {phrase : Phrase} {depth : Nat} {context : Context} {state after : State}
    (read : phrase.run (readRule grammar depth) context state = .ok after) :
    state.position ≤ after.position :=
  (moving phrase depth context _ _ read).forward_any

namespace State

variable {context : Context}

theorem read_moves (phrase : Phrase) {state after : State}
    (read : Language.read phrase context state = .ok after) : Moves context .any state after :=
  Language.moving phrase context.limit context state after read

theorem read_lossless (phrase : Phrase) {state after : State}
    (read : Language.read phrase context state = .ok after) : Lossless context state after :=
  (read_moves phrase read).lossless

theorem atEnd_of_size_le {state : State} (beyond : context.tokens.size ≤ state.position) :
    state.atEnd context = true := by
  cases ended : state.atEnd context with
  | true => rfl
  | false => exact absurd (Context.lt_size_of_kind_ne (current_kind_ne ended)) (by omega)

theorem takeRest_moves {building : Building} (rounds : Nat) (state : State) :
    Moves context building state (takeRest context rounds state) := by
  induction rounds generalizing state with
  | zero => exact .refl state
  | succ rounds ih =>
      simp only [takeRest]
      split
      · exact .refl state
      · exact (Moves.takeUnlessEnded context state).trans (ih _)

theorem takeRest_atEnd (rounds : Nat) (state : State)
    (enough : state.remaining context ≤ rounds) :
    (takeRest context rounds state).atEnd context = true := by
  induction rounds generalizing state with
  | zero =>
      have beyond : context.tokens.size ≤ state.position := by
        simp only [remaining] at enough
        omega
      exact atEnd_of_size_le beyond
  | succ rounds ih =>
      simp only [takeRest]
      split
      · assumption
      · rename_i more
        have more : state.atEnd context = false := by simpa using more
        apply ih
        rw [take, if_neg (by simp [more]), remaining, position_takeAny more]
        simp only [remaining] at enough
        omega

theorem sweep_moves {building : Building} (state : State) :
    Moves context building state (state.sweep context) := by
  unfold sweep
  split
  · exact .refl state
  · have taken : Moves context building { state with slots := [] } _ :=
      takeRest_moves (state.remaining context) { state with slots := [] }
    exact (taken.trans (.close _ building.closesError)).frame state.slots

theorem sweep_atEnd (state : State) : (state.sweep context).atEnd context = true := by
  unfold sweep
  split
  · assumption
  · exact takeRest_atEnd _ _ (Nat.le_refl _)

theorem abandon_lossless (state : State) (error : SyntaxError) :
    Lossless context state (state.abandon context error) := by
  have noted : Lossless context state { state with errors := error :: state.errors } :=
    .ofSlots rfl rfl
  exact noted.trans (sweep_moves _).lossless

theorem abandon_atEnd (state : State) (error : SyntaxError) :
    (state.abandon context error).atEnd context = true :=
  sweep_atEnd _

theorem readItem_lossless (item : Phrase) (state : State) :
    Lossless context state (state.readItem context item).1 := by
  unfold readItem
  split
  · exact read_lossless item ‹_›
  · exact abandon_lossless state _

/-- A parse that does not go on after an item has swept up everything. -/
theorem readItem_atEnd {item : Phrase} {state after : State}
    (stopped : state.readItem context item = (after, false)) : after.atEnd context = true := by
  unfold readItem at stopped
  split at stopped
  · cases stopped
  · cases stopped
    exact abandon_atEnd state _

theorem readItems_lossless (continues : TokenKind → Bool) (item : Phrase) (rounds : Nat)
    (state : State) :
    Lossless context state (state.readItems context continues item rounds).1 := by
  induction rounds generalizing state with
  | zero => exact .refl state
  | succ rounds ih =>
      simp only [readItems]
      split
      · have first : Lossless context state _ := readItem_lossless item state
        split
        · rename_i after read
          rw [read] at first
          exact first.trans (ih after)
        · rename_i after read
          rw [read] at first
          exact first
      · exact .refl state

theorem readItems_atEnd {continues : TokenKind → Bool} {item : Phrase} {rounds : Nat}
    {state after : State}
    (stopped : state.readItems context continues item rounds = (after, false)) :
    after.atEnd context = true := by
  induction rounds generalizing state with
  | zero => cases stopped
  | succ rounds ih =>
      simp only [readItems] at stopped
      split at stopped
      · split at stopped
        · exact ih stopped
        · rename_i last read
          cases stopped
          exact readItem_atEnd read
      · cases stopped

/-- A phrase that has to make progress reads a token wherever there is one. -/
theorem progress_advances {phrase : Phrase} {state after : State}
    (more : state.atEnd context = false)
    (read : Language.read (.progress phrase) context state = .ok after) :
    state.position < after.position := by
  simp only [Language.read, Phrase.run, progress] at read
  obtain ⟨inner, stepped, rfl⟩ := inFrame_eq_ok.mp read
  obtain ⟨result, first, rest⟩ := bind_eq_ok.mp stepped
  have kept := read_lossless phrase first
  have forward : state.position ≤ result.position := kept.forward
  split at rest
  · rename_i advanced
    cases rest
    have moved : inner.position ≠ state.position := by
      rcases advanced with moved | ended
      · exact moved
      · intro same
        simp [atEnd, kindAt, same] at ended more
        exact more ended
    exact Nat.lt_of_le_of_ne forward moved.symm
  · rename_i still
    cases rest
    simp only [ne_eq, not_or, Bool.not_eq_true, Decidable.not_not] at still
    have taken : (result.swallow context).position = result.position + 1 := by
      have hollow : { result with slots := result.slots.filter (!isEmptyError ·) }.atEnd context =
          false := still.2
      simp only [swallow, position_close, take, hollow]
      exact position_takeAny hollow
    simp only [onto, taken]
    omega

/-- Items that have to make progress are read until the next end mark. -/
theorem readItems_exhausts {phrase : Phrase} (rounds : Nat) (state : State)
    (enough : state.remaining context ≤ rounds) :
    (state.readItems context (· != .eof) (.progress phrase) rounds).1.atEnd context = true := by
  induction rounds generalizing state with
  | zero =>
      have beyond : context.tokens.size ≤ state.position := by
        simp only [remaining] at enough
        omega
      exact atEnd_of_size_le beyond
  | succ rounds ih =>
      simp only [readItems]
      split
      · rename_i more
        have more : state.atEnd context = false := by simpa [atEnd] using more
        split
        · rename_i after read
          apply ih
          have advanced : state.position < after.position := by
            unfold readItem at read
            split at read
            · rename_i fitted
              cases read
              exact progress_advances more fitted
            · cases read
          have bound := Context.lt_size_of_kind_ne (current_kind_ne more)
          simp only [remaining] at enough ⊢
          omega
        · rename_i after read
          exact readItem_atEnd read
      · rename_i ended
        simpa [atEnd] using ended

theorem readUnit_lossless (state : State) : Lossless context state (state.readUnit context) := by
  unfold readUnit
  have packaging : Lossless context state _ := readItem_lossless Language.packageDeclaration state
  split
  · rename_i packaged read
    rw [read] at packaging
    exact packaging
  · rename_i packaged read
    rw [read] at packaging
    have importing := packaging.trans (readItems_lossless (· == .kwImport)
      Language.importDeclaration (packaged.remaining context) packaged)
    split
    · rename_i imported read
      rw [read] at importing
      exact importing
    · rename_i imported read
      rw [read] at importing
      exact importing.trans (readItems_lossless _ _ _ imported)

theorem readUnit_atEnd (state : State) : (state.readUnit context).atEnd context = true := by
  unfold readUnit
  split
  · rename_i packaged read
    exact readItem_atEnd read
  · split
    · rename_i imported read
      exact readItems_atEnd read
    · rename_i imported read
      exact readItems_exhausts _ imported (Nat.le_refl _)

/-- Where the tokens of an expression come from: it is read from the cursor on, but one that
is given up is read over from the first token of the list. -/
def expressionOrigin (context : Context) (state : State) : State :=
  match Language.read (.call .expression) context state with
  | .ok _ => state
  | .error _ => { state with position := 0, errors := [] }

theorem readExpression_lossless_origin (state : State) :
    Lossless context (state.expressionOrigin context) (state.readExpression context) := by
  unfold readExpression expressionOrigin
  cases read : Language.read (.call .expression) context state with
  | ok after =>
      have kept := read_lossless _ read
      dsimp only
      split
      · exact kept
      · refine kept.trans (Lossless.trans ?_ (sweep_moves _).lossless)
        split
        · rename_i reported recorded
          exact (report_moving _ _ _ recorded).lossless
        · exact .ofSlots rfl rfl
  | error error => exact abandon_lossless _ _

/-- Where nothing stands before an expression, reading it over loses nothing. -/
theorem readExpression_lossless (errors : List SyntaxError) :
    Lossless context ⟨0, errors, []⟩ (readExpression context ⟨0, errors, []⟩) := by
  have restarted : Lossless context ⟨0, errors, []⟩
      (expressionOrigin context ⟨0, errors, []⟩) := by
    unfold expressionOrigin
    split
    · exact .refl _
    · exact .ofSlots rfl rfl
  exact restarted.trans (readExpression_lossless_origin _)

theorem readExpression_atEnd (state : State) :
    (state.readExpression context).atEnd context = true := by
  unfold readExpression
  split
  · split
    · assumption
    · exact sweep_atEnd _
  · exact abandon_atEnd _ _

end State

/-- A token list up to and with its first end mark.  A list without one is closed where
its last token stops, or at `offset` when there is no token. -/
def Token.closedFrom (offset : Nat) : List Token → List Token
  | [] => [.endMark offset]
  | first :: rest => if first.kind = .eof then [first] else first :: closedFrom first.stop rest

/-- What a parse of a token list is about: the tokens up to and with the first end mark,
which is made up if there is none. -/
def Token.closed (tokens : List Token) : List Token :=
  closedFrom 0 tokens

namespace Token

theorem closedFrom_append_endMark (offset : Nat) (before : List Token) (mark : Token)
    (after : List Token) (inside : ∀ token ∈ before, token.kind ≠ .eof)
    (ended : mark.kind = .eof) :
    closedFrom offset (before ++ mark :: after) = before ++ [mark] := by
  induction before generalizing offset with
  | nil => simp [closedFrom, ended]
  | cons first rest ih =>
      simp only [List.mem_cons, forall_eq_or_imp] at inside
      simp [closedFrom, inside.1, ih _ inside.2]

theorem closedFrom_eq_append (offset : Nat) (tokens : List Token)
    (inside : ∀ token ∈ tokens, token.kind ≠ .eof) :
    closedFrom offset tokens =
      tokens ++ [.endMark ((tokens.getLast?.map Token.stop).getD offset)] := by
  induction tokens generalizing offset with
  | nil => rfl
  | cons first rest ih =>
      simp only [List.mem_cons, forall_eq_or_imp] at inside
      cases rest with
      | nil => simp [closedFrom, inside.1]
      | cons second rest =>
          rw [closedFrom, if_neg inside.1, ih _ inside.2, List.getLast?_cons_cons]
          simp [List.getLast?_cons]

/-- Of a closed token list, only the end mark may not be in the list itself. -/
theorem closedFrom_eq_takeWhile (offset : Nat) (tokens : List Token) :
    ∃ mark, mark.kind = .eof ∧
      closedFrom offset tokens = tokens.takeWhile (·.kind != .eof) ++ [mark] := by
  induction tokens generalizing offset with
  | nil => exact ⟨.endMark offset, rfl, rfl⟩
  | cons first rest ih =>
      by_cases ended : first.kind = .eof
      · exact ⟨first, ended, by simp [closedFrom, ended]⟩
      · obtain ⟨mark, isEnd, same⟩ := ih first.stop
        exact ⟨mark, isEnd, by simp [closedFrom, ended, same]⟩

end Token

namespace Context

/-- The tokens before the first end mark, and that mark, are the closed token list. -/
theorem take_append_get (tokens : List Token) (config : Config) (index : Nat)
    (inside : ∀ earlier, earlier < index → ((ofTokens tokens config).get earlier).kind ≠ .eof)
    (ended : ((ofTokens tokens config).get index).kind = .eof) :
    tokens.take index ++ [(ofTokens tokens config).get index] = Token.closed tokens := by
  have before : ∀ token ∈ tokens.take index, token.kind ≠ .eof := by
    intro token member
    obtain ⟨earlier, bound, rfl⟩ := List.mem_take_iff_getElem.mp member
    have met := inside earlier (by omega)
    simpa [get, ofTokens, Array.getD_eq_getD_getElem?, show earlier < tokens.length by omega]
      using met
  by_cases bound : index < tokens.length
  · have mark : (ofTokens tokens config).get index = tokens[index] := by
      simp [get, ofTokens, Array.getD_eq_getD_getElem?, bound]
    rw [mark] at ended ⊢
    have closed := Token.closedFrom_append_endMark 0 (tokens.take index) tokens[index]
      (tokens.drop (index + 1)) before ended
    rw [← List.drop_eq_getElem_cons bound, List.take_append_drop] at closed
    exact closed.symm
  · have beyond : tokens.length ≤ index := Nat.le_of_not_lt bound
    have mark : (ofTokens tokens config).get index = endMarkOf tokens := by
      simp [get, ofTokens, Array.getD_eq_getD_getElem?, beyond]
    rw [List.take_of_length_le beyond] at before ⊢
    rw [mark, Token.closed, Token.closedFrom_eq_append 0 tokens before]
    cases last : tokens.getLast? with
    | none => simp [endMarkOf, last]
    | some token =>
        have open_ := before token (List.mem_of_getLast? last)
        simp [endMarkOf, last, open_]

end Context

/-- The tree of a reading that is lossless and ends at an end mark holds exactly the
closed token list. -/
theorem Session.tokens_parseWith (tokens : List Token) (config : Config) (kind : NodeKind)
    (read : Context → State → State)
    (kept : Lossless (.ofTokens tokens config) ⟨0, [], []⟩
      (read (.ofTokens tokens config) ⟨0, [], []⟩))
    (ended : (read (.ofTokens tokens config) ⟨0, [], []⟩).atEnd (.ofTokens tokens config) = true) :
    ((Session.start tokens config).parseWith kind read).1.root.tokens = Token.closed tokens := by
  simp only [Session.parseWith, Session.start]
  generalize read (.ofTokens tokens config) ⟨0, [], []⟩ = final at kept ended ⊢
  have whole : Element.yieldAll final.gathered ++ tokens.drop final.position =
      tokens.take final.position ++ tokens.drop final.position := by
    rw [List.take_append_drop]
    simpa [State.held, State.gathered, Context.ofTokens] using kept.held
  have gathered := List.append_cancel_right whole
  have closed := Context.take_append_get tokens config final.position
    (fun index bound => kept.inside index (Nat.zero_le _) bound)
    (by simpa [State.atEnd, State.kindAt] using ended)
  rw [Node.tokens_eq_yieldAll, ← closed, ← gathered]
  simp [State.finishParse, State.takeAny, State.gathered, State.current, Node.spanning]

/-- The tree of a parse holds the tokens of its source up to and with the first end mark,
each once, in order and unchanged, whatever the limit and with recovery or without. -/
theorem tokens_parse_eq_closed (tokens : List Token) (config : Config) :
    (Session.start tokens config).parseUnit.1.root.tokens = Token.closed tokens ∧
      (Session.start tokens config).parseExpression.1.root.tokens = Token.closed tokens := by
  constructor
  · exact Session.tokens_parseWith tokens config .compilationUnit
      (fun context state => state.readUnit context)
      (State.readUnit_lossless _) (State.readUnit_atEnd _)
  · exact Session.tokens_parseWith tokens config .expressionRoot
      (fun context state => state.readExpression context)
      (State.readExpression_lossless []) (State.readExpression_atEnd _)

end JavaSyntax
