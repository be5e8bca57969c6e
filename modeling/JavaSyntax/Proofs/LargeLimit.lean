import JavaSyntax.Proofs.Fuel.Unlimited
import JavaSyntax.Proofs.Stretches
import JavaSyntax.Proofs.Termination

/-!
# A large limit is none

Fuel for ten times the tokens is enough for every reading, and every level of nesting takes
some of it.  So a limit that is as large is never reached: neither the tree nor the errors
depend on it, and none of the errors says that the nesting is too deep.
-/

namespace JavaSyntax

open Fueled JavaSyntax.Language

/-- A phrase that is read alike under the limit of the context and under another, and without
reaching either. -/
structure Undisturbed (context : Context) (limit : Nat) (item : Phrase) : Prop where
  same : ∀ state, Language.read item (context.under limit context.recovery) state =
    Language.read item context state
  raised : ∀ state error, Language.read item context state = .error error →
    error.isFatal = false
  recorded : ∀ state after, Language.read item context state = .ok after →
    Harmless state.errors → Harmless after.errors

/-- An outcome that does not depend on which of two readings it is of, and no fatal error was
recorded on the way to it. -/
structure Agreed (before : State) (left right : State × Bool) : Prop where
  same : left = right
  recorded : Harmless before.errors → Harmless right.1.errors

theorem Agreed.followedBy {before : State} {left right : State × Bool}
    {next next' : State → State × Bool} (first : Agreed before left right)
    (rest : ∀ state, Agreed state (next state) (next' state)) :
    Agreed before (State.followedBy left next) (State.followedBy right next') := by
  obtain ⟨rfl, recorded⟩ := first
  obtain ⟨state, goes⟩ := left
  cases goes with
  | true => exact ⟨(rest state).same, (rest state).recorded ∘ recorded⟩
  | false => exact ⟨rfl, recorded⟩

section Limits

variable {context : Context} {limit : Nat}

namespace State

variable {item : Phrase} (undisturbed : Undisturbed context limit item)

include undisturbed

theorem readItem_agreed (state : State) :
    Agreed state (state.readItem (context.under limit context.recovery) item)
      (state.readItem context item) := by
  simp only [readItem, undisturbed.same, abandon, sweep_under]
  cases read : Language.read item context state with
  | ok after => exact ⟨rfl, undisturbed.recorded state after read⟩
  | error error =>
      refine ⟨rfl, fun harmless => ?_⟩
      simp only [errors_sweep, Harmless, List.any_cons, undisturbed.raised state error read]
      exact harmless

theorem readItems_agreed (continues : TokenKind → Bool) (rounds : Nat) (state : State) :
    Agreed state (state.readItems (context.under limit context.recovery) continues item rounds)
      (state.readItems context continues item rounds) := by
  induction rounds generalizing state with
  | zero => exact ⟨rfl, id⟩
  | succ rounds ih =>
      rw [readItems_succ, readItems_succ]
      have here : state.kindAt (context.under limit context.recovery) 0 =
        state.kindAt context 0 := rfl
      rw [here]
      split
      · exact (readItem_agreed undisturbed state).followedBy ih
      · exact ⟨rfl, id⟩

end State

variable (deep : fuelFor context.tokens.size ≤ context.limit)
  (deep' : fuelFor context.tokens.size ≤ limit)

include deep deep'

theorem undisturbed {item : Phrase} (paced : item.paced reads = true)
    (low : item.callsBelow reads rank (fun _ => 10) [] = true) :
    Undisturbed context limit item := by
  have alike (state : State) : Agree State.errors state.errors
      (some (Language.read item (context.under limit context.recovery) state))
      (some (Language.read item context state)) := by
    have within : RulesAgree limit
        (readRuleWithin grammar (fuelFor context.tokens.size) limit)
        (readRuleWithin grammar (fuelFor context.tokens.size) context.limit) :=
      readRuleWithin_agree grammar deep' deep
    have fueled : Agree State.errors state.errors
        (Language.readWithin _ item (context.under limit context.recovery) state)
        (Language.readWithin _ item context state) :=
      item.runWithin_agree within (fuelFor context.tokens.size) context state
    have enough : fuelFor (context.under limit context.recovery).tokens.size ≤
        fuelFor context.tokens.size := Nat.le_refl _
    rwa [Language.readWithin_eq enough paced low,
      Language.readWithin_eq (Nat.le_refl _) paced low] at fueled
  have same (state : State) : Language.read item (context.under limit context.recovery) state =
      Language.read item context state := Option.some.inj (alike state).same
  exact ⟨same, fun state error failed => (alike state).raised error (by rw [same, failed]),
    fun state after read => (alike state).recorded after (by rw [same, read])⟩

theorem readUnit_agreed (state : State) :
    state.readUnit (context.under limit context.recovery) = state.readUnit context ∧
      (Harmless state.errors → Harmless (state.readUnit context).errors) := by
  have package : Undisturbed context limit packageDeclaration :=
    undisturbed deep deep' (by decide) (by decide)
  have imports : Undisturbed context limit importDeclaration :=
    undisturbed deep deep' (by decide) (by decide)
  have types : Undisturbed context limit (.progress typeDeclaration) :=
    undisturbed deep deep' (by decide +kernel) (by decide +kernel)
  rw [State.readUnit_eq, State.readUnit_eq]
  have packaged := (State.readItem_agreed package state).followedBy fun packaged =>
    State.readItems_agreed imports (· == .kwImport) (packaged.remaining context) packaged
  have whole := packaged.followedBy fun imported =>
    State.readItems_agreed types (· != .eof) (imported.remaining context) imported
  exact ⟨congrArg Prod.fst whole.same, whole.recorded⟩

theorem readExpression_agreed (state : State) :
    state.readExpression (context.under limit context.recovery) = state.readExpression context ∧
      (Harmless state.errors → Harmless (state.readExpression context).errors) := by
  have expression : Undisturbed context limit (.call .expression) :=
    undisturbed deep deep' (by decide) (by decide)
  simp only [State.readExpression, expression.same, State.abandon, State.sweep_under]
  cases read : Language.read (.call .expression) context state with
  | error error =>
      refine ⟨rfl, fun _ => ?_⟩
      simp only [State.errors_sweep, Harmless, List.any_cons, List.any_nil, Bool.or_false,
        expression.raised state error read]
  | ok after =>
      refine ⟨rfl, fun harmless => ?_⟩
      have known := expression.recorded state after read harmless
      simp only
      split
      · exact known
      · rw [State.errors_sweep]
        have mild : SyntaxError.isFatal ⟨.unexpectedToken .eof (after.current context).kind,
          (after.current context).span⟩ = false := rfl
        have reports := report_agree context mild after
        split
        · rename_i reported came
          exact reports.recorded reported (congrArg some came) known
        · rename_i error came
          rw [Harmless, List.any_cons, reports.raised error (congrArg some came)]
          exact known

theorem call_agreed (position : Nat) (entry : Entry) :
    let parse := (Session.call ⟨context, position⟩ entry).1
    (Session.call ⟨context.under limit context.recovery, position⟩ entry).1 = parse ∧
      Harmless parse.errors := by
  have finished {kind : NodeKind} {left right : State}
      (agreed : left = right ∧ (Harmless [] → Harmless right.errors)) :
      left.finishParse context kind = right.finishParse context kind ∧
        Harmless (right.finishParse context kind).errors := by
    refine ⟨congrArg (State.finishParse context kind) agreed.1, ?_⟩
    have harmless := agreed.2 rfl
    simp only [State.finishParse, State.takeAny, Harmless, List.any_reverse]
    exact harmless
  cases entry with
  | unit => exact finished (readUnit_agreed deep deep' ⟨position, [], []⟩)
  | expression => exact finished (readExpression_agreed deep deep' ⟨position, [], []⟩)

end Limits

/-- From twenty levels for every token on, the limit does not matter: a parse is the same with
any larger one, and it reports no error for nesting too deeply. -/
theorem large_limit_unnoticed :
    ∃ factor, ∀ (tokens : List Token) (recovery : Bool) (extra : Nat) (entry : Entry),
      let enough := factor * (tokens.length + 1)
      let parse := ((Session.start tokens ⟨enough, recovery⟩).call entry).1
      ((Session.start tokens ⟨enough + extra, recovery⟩).call entry).1 = parse ∧
        parse.errors.any SyntaxError.isFatal = false := by
  refine ⟨20, fun tokens recovery extra entry => ?_⟩
  have deep : fuelFor tokens.length ≤ 20 * (tokens.length + 1) := by
    rw [fuelFor]
    omega
  have deep' := Nat.le_trans deep (Nat.le_add_right _ extra)
  let context := Context.ofTokens tokens ⟨20 * (tokens.length + 1), recovery⟩
  exact @call_agreed context _ deep deep' 0 entry

end JavaSyntax
