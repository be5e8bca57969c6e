import JavaSyntax.Grammar.Nesting
import JavaSyntax.Grammar.Operator
import JavaSyntax.Grammar.Shape

/-!
# Reading by phrases

How a phrase moves from state to state, and when a condition holds. Both are
structural in the phrase; the rules it calls are given from outside, one
nesting level deeper. So a grammar runs by recursion on the nesting that is
still allowed, and no parse can fail to end.
-/

namespace JavaSyntax

mutual

/-- Read a phrase, where `rules` reads the rules it calls. -/
def Phrase.run (rules : Rule → Context → Step) : Phrase → Context → Step
  | .nothing => fun _ state => .ok state
  | .absent => fun _ state => .ok (state.push .absent)
  | .absentFirst => fun _ state => .ok { state with slots := state.slots ++ [.absent] }
  | .dropAbsent => fun _ state => .ok state.dropAbsent
  | .take => fun context state => .ok (state.take context)
  | .expect kind => fun context state => state.expect context kind
  | .noViable construct => fun context state => state.noViable context construct
  | .require requirement => fun context state =>
      match requirement.violation? state.slots with
      | some error => state.report context error
      | none => .ok state
  | .call rule => rules rule
  | .seq first second => fun context state => do
      second.run rules context (← first.run rules context state)
  | .choose condition yes no => fun context state =>
      if condition.holds rules context state then yes.run rules context state
      else no.run rules context state
  | .frame lead body => fun context state => state.inFrame lead (body.run rules context)
  | .close kind => fun context state => .ok (state.close context kind)
  | .many body => fun context state =>
      State.iterate (body.run rules context) (state.remaining context) state
  | .whenAdvanced body next => fun context state => do
      let after ← body.run rules context state
      if state.position < after.position then next.run rules context after else return after
  | .progress body => fun context state => state.progress context (body.run rules context)
  | .attempt trial accept yes no => fun context state =>
      match trial.run rules context.trial state with
      | .ok after =>
          if accept.holds rules context after then yes.run rules context after
          else no.run rules context state
      | .error _ => no.run rules context state
  | .operators operand type => fun context =>
      State.operators context (operand.run rules context) (type.run rules context)
  | .prefixed link last => fun context state =>
      state.prefixed context (link.run rules context) (last.run rules context)
        (state.remaining context) []
  | .chain kind link more last => fun context state =>
      state.chain context kind (link.run rules context) (more.holds rules context)
        (last.run rules context) (state.remaining context) []

/-- Whether a condition holds. -/
def Condition.holds (rules : Rule → Context → Step) : Condition → Context → State → Bool
  | .next distance kinds => fun context state => kinds.contains (state.kindAt context distance)
  | .shape shape => fun _ state => shape.holds state.slots
  | .not condition => fun context state => !condition.holds rules context state
  | .and left right => fun context state =>
      left.holds rules context state && right.holds rules context state
  | .or left right => fun context state =>
      left.holds rules context state || right.holds rules context state
  | .ahead trial afterwards => fun context state =>
      match trial.run rules context.trial state with
      | .ok after => afterwards.holds rules context.trial after
      | .error _ => false

end

@[simp] theorem Phrase.run_append (rules : Rule → Context → Step) (first second : Phrase)
    (context : Context) (state : State) :
    (first ++ second).run rules context state =
      (first.run rules context state).bind (second.run rules context) := rfl

@[simp] theorem Condition.holds_and (rules : Rule → Context → Step) (left right : Condition)
    (context : Context) (state : State) :
    (left &&& right).holds rules context state =
      (left.holds rules context state && right.holds rules context state) := rfl

@[simp] theorem Condition.holds_or (rules : Rule → Context → Step) (left right : Condition)
    (context : Context) (state : State) :
    (left ||| right).holds rules context state =
      (left.holds rules context state || right.holds rules context state) := rfl

@[simp] theorem Condition.holds_is (rules : Rule → Context → Step) (kind : TokenKind)
    (context : Context) (state : State) :
    (Condition.is kind).holds rules context state = decide (kind = state.kindAt context 0) := by
  simp [Condition.is, Condition.holds]

@[simp] theorem Condition.holds_nextIs (rules : Rule → Context → Step) (distance : Nat)
    (kind : TokenKind) (context : Context) (state : State) :
    (Condition.nextIs distance kind).holds rules context state =
      decide (kind = state.kindAt context distance) := by
  simp [Condition.nextIs, Condition.holds]

/-- Read a rule of a grammar with so many nesting levels left. -/
def readRule (grammar : Rule → Phrase) : Nat → Rule → Context → Step
  | 0, _ => fun context state => .error (state.tooDeep context)
  | depth + 1, rule => (grammar rule).run (readRule grammar depth)

end JavaSyntax
