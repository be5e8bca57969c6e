import JavaSyntax.Proofs.Printing.Expression
import JavaSyntax.Proofs.Reading.Appending

/-!
# Reading known tokens

When the next tokens are known, what a phrase does can be worked out step by step. The
lemmas here are the steps: each says, for one way of putting phrases together, which
state it leads to when its parts lead to known states.
-/

namespace JavaSyntax

/-- The tokens from a position on. -/
def Context.Shows (context : Context) (position : Nat) (tokens : List Token) : Prop :=
  context.tokens.toList.drop position = tokens

namespace Context.Shows

variable {context : Context} {position : Nat} {tokens front rest : List Token} {token : Token}

theorem get (shows : context.Shows position tokens) (distance : Nat) :
    context.get (position + distance) = tokens.getD distance context.endMark := by
  rw [← shows, Context.get, Array.getD_eq_getD_getElem?, List.getD_eq_getElem?_getD,
    List.getElem?_drop, Array.getElem?_toList]

theorem skip (shows : context.Shows position (front ++ rest)) :
    context.Shows (position + front.length) rest := by
  rw [Context.Shows, ← List.drop_drop, shows, List.drop_left]

theorem next (shows : context.Shows position (token :: rest)) :
    context.Shows (position + 1) rest :=
  @skip context position [token] rest shows

theorem trial (shows : context.Shows position tokens) : context.trial.Shows position tokens :=
  shows

/-- What is shown lies before the end of the token list. -/
theorem room (shows : context.Shows position (token :: rest)) :
    position + (rest.length + 1) ≤ context.tokens.size := by
  have length : (context.tokens.toList.drop position).length = rest.length + 1 := by
    rw [shows, List.length_cons]
  rw [List.length_drop, Array.length_toList] at length
  omega

end Context.Shows

/-- An element that has a place in the source. -/
def Element.Placed (element : Element) : Prop :=
  element.span?.isSome = true

/-- Some of the elements has a place in the source. -/
def Element.AnyPlaced (elements : List Element) : Prop :=
  ∃ element ∈ elements, element.Placed

theorem Element.AnyPlaced.here {element : Element} {others : List Element}
    (placed : element.Placed) : AnyPlaced (element :: others) :=
  ⟨element, List.mem_cons_self, placed⟩

/-- A node over slots of which one has a place covers just these slots. -/
theorem Node.spanning_of_placed (kind : NodeKind) {children : List Element}
    (placed : Element.AnyPlaced children) (fallback : Span) :
    spanning kind children fallback = spanning kind children default := by
  obtain ⟨child, member, placed⟩ := placed
  have forward : (children.findSome? Element.span?).isSome = true := by
    rw [List.isSome_findSome?, List.any_eq_true]
    exact ⟨child, member, placed⟩
  have backward : (children.reverse.findSome? Element.span?).isSome = true := by
    rw [List.isSome_findSome?, List.any_eq_true]
    exact ⟨child, List.mem_reverse.mpr member, placed⟩
  obtain ⟨first, forward⟩ := Option.isSome_iff_exists.mp forward
  obtain ⟨last, backward⟩ := Option.isSome_iff_exists.mp backward
  simp only [spanning, spanOf, forward, backward]

namespace State

variable {context : Context} {position : Nat} {errors : List SyntaxError} {slots : List Element}
  {token second third : Token} {rest : List Token}

theorem kindAt_zero (shows : context.Shows position (token :: rest)) :
    kindAt context ⟨position, errors, slots⟩ 0 = token.kind :=
  congrArg Token.kind (shows.get 0)

theorem kindAt_one (shows : context.Shows position (token :: second :: rest)) :
    kindAt context ⟨position, errors, slots⟩ 1 = second.kind :=
  congrArg Token.kind (shows.get 1)

theorem kindAt_two (shows : context.Shows position (token :: second :: third :: rest)) :
    kindAt context ⟨position, errors, slots⟩ 2 = third.kind :=
  congrArg Token.kind (shows.get 2)

theorem take_eq (shows : context.Shows position (token :: rest)) (more : token.kind ≠ .eof) :
    take context ⟨position, errors, slots⟩ = ⟨position + 1, errors, .token token :: slots⟩ := by
  have current : context.get position = token := shows.get 0
  have inside : position < context.tokens.size := by
    have := shows.room
    omega
  simp [take, atEnd, kindAt_zero shows, more, takeAny, State.current, current, inside]

theorem finish_eq (state : State) (kind : NodeKind) {children : List Element}
    (placed : Element.AnyPlaced children) :
    state.finish context kind children = .over kind children :=
  congrArg Node.toElement (Node.spanning_of_placed kind placed _)

/-- A round of a loop that reads something leads to the next one. -/
theorem iterate_round {step : Step} {state next : State} (read : step state = .ok next)
    (further : state.position < next.position) (rounds : Nat) :
    iterate step (rounds + 1) state = iterate step rounds next := by
  simp only [iterate, read]
  exact if_pos further

/-- A loop ends where a round would change nothing. -/
theorem iterate_idle {step : Step} {state : State} (read : step state = .ok state) (rounds : Nat) :
    iterate step rounds state = .ok state := by
  cases rounds with
  | zero => exact read
  | succ rounds =>
      simp only [iterate, read]
      exact if_neg (Nat.lt_irrefl _)

/-- A loop over a step comes from one state to another, by rounds of which each reads
something. -/
def Loops (step : Step) (state after : State) : Prop :=
  ∃ rounds, state.position + rounds ≤ after.position ∧
    ∀ further, iterate step (further + rounds) state = iterate step further after

namespace Loops

variable {step : Step} {state middle after : State}

theorem refl (step : Step) (state : State) : Loops step state state :=
  ⟨0, Nat.le_refl _, fun _ => rfl⟩

theorem single (read : step state = .ok after) (further : state.position < after.position) :
    Loops step state after :=
  ⟨1, further, iterate_round read further⟩

theorem trans (first : Loops step state middle) (second : Loops step middle after) :
    Loops step state after := by
  obtain ⟨rounds, within, same⟩ := first
  obtain ⟨others, further, ended⟩ := second
  refine ⟨others + rounds, by omega, fun more => ?_⟩
  rw [← Nat.add_assoc, same, ended]

theorem position_le (loops : Loops step state after) : state.position ≤ after.position := by
  obtain ⟨rounds, within, -⟩ := loops
  omega

/-- A loop that comes to a state where it reads nothing more ends there. -/
theorem ends (loops : Loops step state after) (idle : step after = .ok after)
    (room : after.position ≤ context.tokens.size) :
    iterate step (state.remaining context) state = .ok after := by
  obtain ⟨rounds, within, same⟩ := loops
  obtain ⟨further, enough⟩ : ∃ further, state.remaining context = further + rounds :=
    ⟨state.remaining context - rounds, by unfold State.remaining; omega⟩
  rw [enough, same, iterate_idle idle]

end Loops

end State

@[simp] theorem Language.holds_among (rules : Rule → Context → Step) (kinds : TokenSet)
    (context : Context) (state : State) :
    (Language.among kinds).holds rules context state = kinds.contains (state.kindAt context 0) :=
  rfl

namespace Phrase

open State

variable {rules : Rule → Context → Step} {context : Context} {first second body yes no : Phrase}
  {condition : Condition} {state middle after : State} {position stop : Nat}
  {errors : List SyntaxError} {slots inner : List Element} {kind : NodeKind}

theorem run_seq (started : first.run rules context state = .ok middle)
    (ended : second.run rules context middle = .ok after) :
    (first ++ second).run rules context state = .ok after := by
  rw [run_append, started]
  exact ended

theorem run_take {token : Token} {rest : List Token}
    (shows : context.Shows position (token :: rest)) (more : token.kind ≠ .eof) :
    Phrase.take.run rules context ⟨position, errors, slots⟩ =
      .ok ⟨position + 1, errors, .token token :: slots⟩ :=
  congrArg Except.ok (take_eq shows more)

theorem run_expect {token : Token} {rest : List Token} {expected : TokenKind}
    (shows : context.Shows position (token :: rest)) (same : token.kind = expected)
    (more : expected ≠ .eof) :
    (Phrase.expect expected).run rules context ⟨position, errors, slots⟩ =
      .ok ⟨position + 1, errors, .token token :: slots⟩ := by
  have current : context.get position = token := shows.get 0
  simp [Phrase.run, State.expect, State.current, current, same, take_eq shows (same ▸ more)]

theorem run_yes (holds : condition.holds rules context state = true)
    (read : yes.run rules context state = .ok after) :
    (choose condition yes no).run rules context state = .ok after := by
  simp only [Phrase.run, holds, if_true, read]

theorem run_no (fails : condition.holds rules context state = false)
    (read : no.run rules context state = .ok after) :
    (choose condition yes no).run rules context state = .ok after := by
  simp only [Phrase.run, fails, Bool.false_eq_true, if_false, read]

theorem run_advanced {rest : Phrase} (read : body.run rules context state = .ok middle)
    (further : state.position < middle.position)
    (ended : rest.run rules context middle = .ok after) :
    (whenAdvanced body rest).run rules context state = .ok after := by
  simp only [Phrase.run, read, bind, Except.bind, further, if_true, ended]

theorem run_unadvanced {rest : Phrase} (read : body.run rules context state = .ok middle)
    (idle : ¬ state.position < middle.position) :
    (whenAdvanced body rest).run rules context state = .ok middle := by
  simp only [Phrase.run, read, bind, Except.bind, idle, if_false, pure, Except.pure]

theorem run_close (placed : Element.AnyPlaced inner) :
    (Phrase.close kind).run rules context ⟨position, errors, inner⟩ =
      .ok ⟨position, errors, [.over kind inner.reverse]⟩ := by
  obtain ⟨element, member, placed⟩ := placed
  have finished : State.finish context ⟨position, errors, inner⟩ kind inner.reverse = _ :=
    finish_eq _ kind ⟨element, List.mem_reverse.mpr member, placed⟩
  exact congrArg (fun built => Except.ok (State.mk position errors [built])) finished

theorem run_node {built : Element} (read : body.run rules context ⟨position, errors, []⟩ =
      .ok ⟨stop, errors, inner⟩) (placed : Element.AnyPlaced inner)
    (same : Element.over kind inner.reverse = built) :
    (node kind body).run rules context ⟨position, errors, slots⟩ =
      .ok ⟨stop, errors, built :: slots⟩ := by
  subst same
  exact inFrame_eq_ok.mpr ⟨_, run_seq read (run_close placed), rfl⟩

theorem run_around {left built : Element}
    (read : body.run rules context ⟨position, errors, [left]⟩ = .ok ⟨stop, errors, inner⟩)
    (placed : Element.AnyPlaced inner) (same : Element.over kind inner.reverse = built) :
    (around 1 kind body).run rules context ⟨position, errors, left :: slots⟩ =
      .ok ⟨stop, errors, built :: slots⟩ := by
  subst same
  exact inFrame_eq_ok.mpr ⟨_, run_seq read (run_close placed), rfl⟩

end Phrase

end JavaSyntax
