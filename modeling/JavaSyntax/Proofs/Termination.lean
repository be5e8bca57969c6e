import JavaSyntax.Proofs.Fuel.Enough
import JavaSyntax.Proofs.Reading.Items

/-!
# Every parse ends

The rules of the language are ranked so that a rule calls only lower ones where it
starts.  There are ten ranks, so a parse needs no more than ten calls for a token,
whatever the nesting limit is and however it recovers from errors.

The main result is that fuel for ten times the tokens is enough: the parse on fuel
does not run out of it, and comes to the parse.
-/

namespace JavaSyntax

namespace Language

/-- The rank of a rule where it starts at a token of a kind. -/
def rank : Rule → TokenKind → Nat
  | .typeRest, _ => 0
  | .lambda, kind => if kind = .identifier ∨ kind = .lParen then 0 else 9
  | .typeArguments _, kind => if kind = .lt then 0 else 1
  | .expression, _ | .conditional, _ => 1
  | .elementValue, _ | .arrayInitializer, _ => 2
  | .block, kind => if kind = .lBrace then 0 else 3
  | .statement, kind => if kind = .lBrace then 1 else 2
  | .switchBlock, _ | .memberBody _, _ => 3
  | .constructorBody, _ | .enumBody, _ => 4

theorem rank_lt (rule : Rule) (kind : TokenKind) : rank rule kind < 10 := by
  cases rule <;> simp only [rank] <;> first | decide | (split <;> decide)

/-- Where a rule starts it calls only lower ones. -/
theorem callsBelow_grammar (rule : Rule) :
    (grammar rule).callsBelow reads rank (rank rule) [] = true := by
  cases rule with
  | typeArguments diamond => cases diamond <;> decide
  | memberBody kind => cases kind <;> decide +kernel
  | _ => decide +kernel

theorem paced_grammar (rule : Rule) : (grammar rule).paced reads = true := by
  cases rule with
  | typeArguments diamond => cases diamond <;> decide
  | memberBody kind => cases kind <;> decide
  | _ => decide +kernel

theorem paced_typeDeclaration : (Phrase.progress typeDeclaration).paced reads = true := by
  decide +kernel

end Language

open JavaSyntax.Language

/-- Fuel for a rule: ten units for each token left, and its rank.  The induction is on
the fuel; a call in the same place ranks lower, any other leaves fewer tokens. -/
theorem readRuleWithin_eq (fuel depth : Nat) (rule : Rule) (context : Context) (state : State)
    (enough : 10 * state.remaining context + rank rule (state.kindAt context 0) + 1 < fuel) :
    readRuleWithin grammar fuel depth rule context state =
      some (readRule grammar depth rule context state) := by
  induction fuel generalizing depth rule context state with
  | zero => cases enough
  | succ fuel ih =>
      cases depth with
      | zero => rfl
      | succ depth =>
          have lower (other : Rule) (next : State)
              (callable : Callable rank (rank rule) state.position context other next) :
              10 * next.remaining context + rank other (next.kindAt context 0) + 1 < fuel := by
            rcases callable with ⟨inside, moved⟩ | ⟨same, below⟩
            · have small := rank_lt other (next.kindAt context 0)
              simp only [State.remaining] at enough ⊢
              omega
            · simp only [State.remaining, State.kindAt, same] at enough below ⊢
              omega
          have supplied : Supplied rank (rank rule) state.position (readRule grammar depth)
              (readRuleWithin grammar fuel depth) fuel context := by
            refine ⟨?_, ?_, ?_⟩
            · intro other next callable
              exact ih depth other context next (lower other next callable)
            · intro other next callable
              exact ih depth other context.trial next (lower other next callable)
            · simp only [State.remaining] at enough
              omega
          exact (grammar rule).runWithin_eq (readRule_steady steady_grammar depth)
            (paced_grammar rule) supplied state
            (.inr ⟨rfl, [], View.fits_nil _ _, callsBelow_grammar rule⟩)

/-- Fuel that is enough for so many tokens. -/
def fuelFor (count : Nat) : Nat :=
  10 * (count + 2)

section Parses

variable {context : Context} {fuel : Nat} (enough : fuelFor context.tokens.size ≤ fuel)

include enough

/-- A phrase is read on fuel as it is read without. -/
theorem Language.readWithin_eq {phrase : Phrase} (paced : phrase.paced reads = true)
    (low : phrase.callsBelow reads rank (fun _ => 10) [] = true) (state : State) :
    Language.readWithin fuel phrase context state = some (Language.read phrase context state) := by
  have covered (rule : Rule) (next : State) :
      10 * next.remaining context + rank rule (next.kindAt context 0) + 1 < fuel := by
    have small := rank_lt rule (next.kindAt context 0)
    simp only [fuelFor] at enough
    simp only [State.remaining]
    omega
  have supplied : Supplied rank (fun _ => 10) state.position (readRule grammar context.limit)
      (readRuleWithin grammar fuel context.limit) fuel context := by
    refine ⟨?_, ?_, ?_⟩
    · intro rule next _
      exact readRuleWithin_eq fuel context.limit rule context next (covered rule next)
    · intro rule next _
      exact readRuleWithin_eq fuel context.limit rule context.trial next (covered rule next)
    · simp only [fuelFor] at enough
      omega
  exact phrase.runWithin_eq (readRule_steady steady_grammar context.limit) paced supplied state
    (.inr ⟨rfl, [], View.fits_nil _ _, low⟩)

namespace State

omit enough in
theorem takeRestWithin_eq (fuel rounds : Nat) (state : State)
    (covered : state.remaining context ≤ rounds) (fueled : state.remaining context < fuel) :
    state.takeRestWithin context fuel = some (state.takeRest context rounds) := by
  induction fuel generalizing rounds state with
  | zero => cases fueled
  | succ fuel ih =>
      rw [takeRestWithin]
      cases ended : state.atEnd context with
      | true => cases rounds <;> simp [takeRest, ended]
      | false =>
          have inside := Context.lt_size_of_kind_ne (current_kind_ne ended)
          have moved := position_lt_take ended
          simp only [remaining] at covered fueled
          cases rounds with
          | zero => omega
          | succ rounds =>
              have rest := ih rounds (state.take context) (by simp only [remaining]; omega)
                (by simp only [remaining]; omega)
              simpa [takeRest, ended] using rest

theorem sweepWithin_eq (state : State) :
    state.sweepWithin context fuel = some (state.sweep context) := by
  have fueled : ({ state with slots := [] } : State).remaining context < fuel := by
    simp only [fuelFor] at enough
    simp only [remaining]
    omega
  have rest := takeRestWithin_eq fuel _ _ (Nat.le_refl _) fueled
  rw [sweepWithin, sweep, rest]
  split <;> rfl

theorem abandonWithin_eq (state : State) (error : SyntaxError) :
    state.abandonWithin context fuel error = some (state.abandon context error) :=
  sweepWithin_eq enough _

theorem readItemWithin_eq {item : Phrase} (paced : item.paced reads = true)
    (low : item.callsBelow reads rank (fun _ => 10) [] = true) (state : State) :
    state.readItemWithin context fuel item = some (state.readItem context item) := by
  rw [readItemWithin, readItem, Language.readWithin_eq enough paced low]
  cases Language.read item context state with
  | ok after => rfl
  | error error =>
      simp only [abandonWithin_eq enough]
      rfl

/-- Items are read until their condition fails, which it does at the end. -/
theorem readItemsWithin_eq {continues : TokenKind → Bool} {item : Phrase}
    (paced : item.paced reads = true)
    (low : item.callsBelow reads rank (fun _ => 10) [] = true) (ends : continues .eof = false)
    (advances : ∀ before after : State, continues (before.kindAt context 0) = true →
      Language.read item context before = .ok after → before.position < after.position)
    (fuel' rounds : Nat) (state : State) (covered : state.remaining context ≤ rounds)
    (fueled : state.remaining context < fuel') :
    state.readItemsWithin context fuel continues item fuel' =
      some (state.readItems context continues item rounds) := by
  induction fuel' generalizing rounds state with
  | zero => cases fueled
  | succ fuel' ih =>
      rw [readItemsWithin]
      cases goes : continues (state.kindAt context 0) with
      | false => cases rounds <;> simp [readItems, goes]
      | true =>
          have more : (context.get state.position).kind ≠ .eof := by
            intro isEnd
            rw [kindAt, Nat.add_zero, isEnd, ends] at goes
            cases goes
          have inside := Context.lt_size_of_kind_ne more
          simp only [remaining] at covered fueled
          cases rounds with
          | zero => omega
          | succ rounds =>
              rw [readItems_succ, if_pos goes, readItemWithin_eq enough paced low]
              cases read : Language.read item context state with
              | error error => simp [readItem, read, followedBy]
              | ok after =>
                  have moved := advances state after goes read
                  have rest := ih rounds after (by simp only [remaining]; omega)
                    (by simp only [remaining]; omega)
                  simpa [readItem, read, followedBy] using rest

/-- The rounds of a loop over items are covered by the fuel. -/
theorem remaining_lt_fuel (state : State) : state.remaining context < fuel := by
  simp only [fuelFor] at enough
  simp only [remaining]
  omega

omit enough in
/-- An import reads its keyword. -/
theorem importDeclaration_advances (before after : State)
    (starts : (before.kindAt context 0 == .kwImport) = true)
    (read : Language.read importDeclaration context before = .ok after) :
    before.position < after.position := by
  have never : importDeclaration.stays reads false [.singleton .kwImport] = none := by
    decide
  have atKeyword : before.kindAt context 0 = .kwImport := beq_iff_eq.mp starts
  exact (readRule_steady steady_grammar context.limit).advances_of_stays never
    (View.fits_singleton (by simp [atKeyword])) read

omit enough in
theorem typeDeclaration_advances (before after : State)
    (starts : (before.kindAt context 0 != .eof) = true)
    (read : Language.read (.progress typeDeclaration) context before = .ok after) :
    before.position < after.position := by
  refine progress_advances ?_ read
  rw [atEnd]
  simpa using starts

theorem readUnitWithin_eq (state : State) :
    state.readUnitWithin context fuel = some (state.readUnit context) := by
  have packaging : state.readItemWithin context fuel packageDeclaration =
      some (state.readItem context packageDeclaration) :=
    readItemWithin_eq enough (by decide) (by decide) state
  have importing (packaged : State) :
      packaged.readItemsWithin context fuel (· == .kwImport) importDeclaration fuel =
        some (packaged.readItems context (· == .kwImport) importDeclaration
          (packaged.remaining context)) :=
    readItemsWithin_eq enough (by decide) (by decide) rfl
      importDeclaration_advances fuel _ packaged (Nat.le_refl _)
      (remaining_lt_fuel enough packaged)
  have declaring (imported : State) :
      imported.readItemsWithin context fuel (· != .eof) (.progress typeDeclaration) fuel =
        some (imported.readItems context (· != .eof) (.progress typeDeclaration)
          (imported.remaining context)) :=
    readItemsWithin_eq enough paced_typeDeclaration (by decide +kernel) rfl
      typeDeclaration_advances fuel _ imported (Nat.le_refl _)
      (remaining_lt_fuel enough imported)
  rw [readUnitWithin, packaging, readUnit]
  rcases state.readItem context packageDeclaration with ⟨packaged, goes⟩
  cases goes with
  | false => rfl
  | true =>
      simp only [Option.bind_eq_bind, Option.bind_some, importing packaged]
      rcases packaged.readItems context (· == .kwImport) importDeclaration
        (packaged.remaining context) with ⟨imported, goes⟩
      cases goes with
      | false => rfl
      | true =>
          simp only [Option.bind_some, declaring imported]
          rfl

theorem readExpressionWithin_eq (state : State) :
    state.readExpressionWithin context fuel = some (state.readExpression context) := by
  have reading : Language.readWithin fuel (.call .expression) context state =
      some (Language.read (.call .expression) context state) :=
    Language.readWithin_eq enough (by decide) (by decide) state
  rw [readExpressionWithin, readExpression, reading]
  cases Language.read (.call .expression) context state with
  | error error => exact abandonWithin_eq enough _ _
  | ok after =>
      simp only [Option.bind_eq_bind, Option.bind_some]
      split
      · rfl
      · exact sweepWithin_eq enough _

end State

end Parses

/-- Both entry points come to their parse on fuel for ten times the tokens, whatever the
limit is, with recovery or without, and whether or not the list ends with a mark.  More
fuel changes nothing. -/
theorem parse_ends (tokens : List Token) (config : Config) (extra : Nat) :
    (Session.start tokens config).parseUnitWithin (fuelFor tokens.length + extra) =
        some (Session.start tokens config).parseUnit ∧
      (Session.start tokens config).parseExpressionWithin (fuelFor tokens.length + extra) =
        some (Session.start tokens config).parseExpression := by
  have enough : fuelFor (Context.ofTokens tokens config).tokens.size ≤
      fuelFor tokens.length + extra := Nat.le_add_right _ _
  constructor
  · simp only [Session.parseUnitWithin, Session.parseWithin, Session.start,
      State.readUnitWithin_eq enough]
    rfl
  · simp only [Session.parseExpressionWithin, Session.parseWithin, Session.start,
      State.readExpressionWithin_eq enough]
    rfl

end JavaSyntax
