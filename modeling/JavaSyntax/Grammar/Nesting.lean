import JavaSyntax.Grammar.State

/-!
# Nodes nested to the right

Prefix operators and `else if` chains nest their nodes to the right, one inside
the next. They are read in a loop that keeps the unfinished outer frames, and
the nodes are built from the inside out, so a long chain costs no nesting.
-/

namespace JavaSyntax.State

/-- Build a node from each unfinished frame around `inmost`, which becomes its last
slot. The frames are given innermost first. -/
def nestRight (context : Context) (state : State) (kind : List Element → NodeKind)
    (frames : List (List Element)) (inmost : Element) : Element :=
  frames.foldl (fun below slots => state.finish context (kind slots) (slots ++ [below])) inmost

/-- The node that a prefix becomes, by its first token. -/
def prefixKind (slots : List Element) : NodeKind :=
  match slots.head?.bind Element.tokenKind? with
  | some .plusPlus => .preIncrementExpression
  | some .minusMinus => .preDecrementExpression
  | some .lParen => .castExpression
  | _ => .unaryExpression

/-- Read the operand in the frame of the last prefix, and build the node of each
prefix around it. -/
def closePrefixes (context : Context) (last : Step) (prefixes : List (List Element)) : Step :=
  fun state =>
    match prefixes with
    | [] => state.inFrame 0 last
    | inmost :: outer => do
        let inner ← last { state with slots := inmost.reverse }
        let operand := inner.finish context (prefixKind inmost) inner.gathered
        return { inner with
          slots := inner.nestRight context prefixKind outer operand :: state.slots }

/-- Read prefixes as long as there are any, then the operand. The prefixes read so
far are given latest first. -/
def prefixed (context : Context) (link last : Step) : Nat → List (List Element) → Step
  | 0, prefixes, state => state.closePrefixes context last prefixes
  | rounds + 1, prefixes, state => do
      let (slots, after) ← state.collect link
      if state.position < after.position then
        prefixed context link last rounds (slots :: prefixes) after
      else after.closePrefixes context last prefixes

/-- End the innermost link, whose slots are those of `inner`, and build the nodes of
all links; they take the place of the frame with the slots `base`. -/
def closeChain (context : Context) (kind : NodeKind) (last : Step) (outer : List (List Element))
    (base : List Element) (inner : State) : Except SyntaxError State := do
  let ended ← last inner
  let inmost := ended.finish context kind ended.gathered
  return { ended with slots := ended.nestRight context (fun _ => kind) outer inmost :: base }

/-- Read links, each inside the one before, until `more` does not hold. The token at
which it holds joins the link before it to the next. -/
def chain (context : Context) (kind : NodeKind) (link : Step) (more : State → Bool) (last : Step) :
    Nat → List (List Element) → Step
  | 0, outer, state => do
      closeChain context kind last outer state.slots (← link { state with slots := [] })
  | rounds + 1, outer, state => do
      let inner ← link { state with slots := [] }
      if more inner then
        let joined := inner.take context
        chain context kind link more last rounds (joined.gathered :: outer)
          { joined with slots := state.slots }
      else closeChain context kind last outer state.slots inner

end JavaSyntax.State
