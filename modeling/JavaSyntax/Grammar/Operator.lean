import JavaSyntax.Grammar.State

/-!
# Binary operators

Binary operators are folded by one loop over a stack of operands that wait for
their right side, so a long chain of operators costs no nesting.
-/

namespace JavaSyntax

/-- The levels of binary operators, loosest first. -/
inductive Level where
  | or | and | bitOr | bitXor | bitAnd | equality | relational | shift | additive | multiplicative
  deriving DecidableEq, Repr, Inhabited

namespace Level

/-- How tightly a level binds. -/
def rank (level : Level) : Nat :=
  level.ctorIdx

/-- The node built for an operator of a level. -/
def nodeKind : Level → NodeKind
  | .or => .conditionalOrExpression
  | .and => .conditionalAndExpression
  | .bitOr => .inclusiveOrExpression
  | .bitXor => .exclusiveOrExpression
  | .bitAnd => .andExpression
  | .equality => .equalityExpression
  | .relational => .relationalExpression
  | .shift => .shiftExpression
  | .additive => .additiveExpression
  | .multiplicative => .multiplicativeExpression

/-- The level of an operator that is one token. -/
def ofKind? : TokenKind → Option Level
  | .orOr => some .or
  | .andAnd => some .and
  | .pipe => some .bitOr
  | .caret => some .bitXor
  | .amp => some .bitAnd
  | .eqEq | .ne => some .equality
  | .lt | .gt | .le | .ge | .kwInstanceof => some .relational
  | .plus | .minus => some .additive
  | .star | .slash | .percent => some .multiplicative
  | _ => none

end Level

/-- An operand that waits for the right side of its operator. -/
structure Pending where
  left : List Element
  level : Level
  operator : List Element

namespace State

/-- Whether the tokens at two neighbouring places ahead touch. -/
def touching (context : Context) (state : State) (distance : Nat) : Bool :=
  (context.get (state.position + distance)).stop ==
    (context.get (state.position + distance + 1)).start

/-- Whether two touching tokens of a kind stand some places ahead. -/
def doubled (context : Context) (state : State) (kind : TokenKind) (distance : Nat) : Bool :=
  state.kindAt context distance == kind && state.kindAt context (distance + 1) == kind &&
    state.touching context distance

/-- The binary operator at the cursor and how many tokens it is made of. Angle
brackets that touch are a shift. -/
def operator? (context : Context) (state : State) : Option (Level × Nat) :=
  if state.doubled context .lt 0 then some (.shift, 2)
  else if state.doubled context .gt 0 then
    some (.shift, if state.doubled context .gt 1 then 3 else 2)
  else (Level.ofKind? (state.kindAt context 0)).map (·, 1)

/-- Give `right` to every waiting operand whose operator binds at least as tightly
as `floor`, innermost first. -/
def reduce (context : Context) (state : State) (floor : Level) :
    List Pending → List Element → List Pending × List Element
  | [], right => ([], right)
  | top :: stack, right =>
      if floor.rank ≤ top.level.rank then
        reduce context state floor stack
          [state.finish context top.level.nodeKind (top.left ++ top.operator ++ right)]
      else (top :: stack, right)

/-- Append the expression that remains when no operator follows. -/
def closeOperators (context : Context) (state : State) (stack : List Pending)
    (left : List Element) : State :=
  { state with slots := (state.reduce context .or stack left).2.reverse ++ state.slots }

/-- Read operators and operands after `left` until no operator follows. A type test
takes a type on its right and is complete at once. -/
def climb (context : Context) (operand type : Step) :
    Nat → List Pending → List Element → Step
  | 0, stack, left, state => .ok (state.closeOperators context stack left)
  | rounds + 1, stack, left, state =>
      match state.operator? context with
      | none => .ok (state.closeOperators context stack left)
      | some (level, width) =>
          let (stack, left) := state.reduce context level stack left
          if state.kindAt context 0 = .kwInstanceof then do
            let (right, after) ← state.collect fun inner => type (inner.take context)
            climb context operand type rounds stack
              [after.finish context .instanceofExpression (left ++ right)] after
          else do
            let (operator, before) ← state.collect fun inner => .ok (inner.takeMany context width)
            let (right, after) ← before.collect operand
            climb context operand type rounds (⟨left, level, operator⟩ :: stack) right after

/-- Read operands joined by binary operators. -/
def operators (context : Context) (operand type : Step) : Step := fun state => do
  let (left, after) ← state.collect operand
  after.climb context operand type (after.remaining context) [] left

end State

end JavaSyntax
