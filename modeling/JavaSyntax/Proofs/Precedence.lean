import JavaSyntax.Proofs.Outline.Clean
import JavaSyntax.Proofs.Outline.Operators

/-!
# Precedence in clean trees

In a tree parsed without errors every operand binds as tightly as its place in an
operator node demands, with one exception: a type test is complete as soon as its
type is read, so an operator that follows it and binds more tightly has the type
test as its left operand.
-/

namespace JavaSyntax

/-- How tightly expressions bind, loosest first. -/
inductive Precedence where
  | assignment
  | conditional
  | binary (level : Level)
  | prefixed
  | postfixed
  | primary
  deriving DecidableEq, Repr

/-- The place of a precedence in the order of all. -/
def Precedence.rank : Precedence → Nat
  | .assignment => 0
  | .conditional => 1
  | .binary level => level.rank + 2
  | .prefixed => 12
  | .postfixed => 13
  | .primary => 14

namespace NodeKind

/-- The level of the binary operator of a node.  A type test is relational. -/
def level? : NodeKind → Option Level
  | .conditionalOrExpression => some .or
  | .conditionalAndExpression => some .and
  | .inclusiveOrExpression => some .bitOr
  | .exclusiveOrExpression => some .bitXor
  | .andExpression => some .bitAnd
  | .equalityExpression => some .equality
  | .relationalExpression | .instanceofExpression => some .relational
  | .shiftExpression => some .shift
  | .additiveExpression => some .additive
  | .multiplicativeExpression => some .multiplicative
  | _ => none

/-- How tightly the expression in a node binds.  A lambda has no precedence. -/
def precedence? : NodeKind → Option Precedence
  | .assignment => some .assignment
  | .conditionalExpression => some .conditional
  | .preIncrementExpression | .preDecrementExpression | .unaryExpression | .castExpression =>
      some .prefixed
  | .postIncrementExpression | .postDecrementExpression => some .postfixed
  | .primary | .parenthesizedExpression | .thisExpression | .qualifiedThis | .classLiteral
  | .fieldAccess | .arrayAccess | .methodInvocation | .methodReference
  | .classInstanceCreationExpression | .arrayCreationExpression | .literal | .expressionName =>
      some .primary
  | kind => kind.level?.map .binary

/-- Whether a node is an expression that binds at least so tightly. -/
def bindsFrom (rank : Nat) (kind : NodeKind) : Bool :=
  kind.precedence?.any (rank ≤ ·.rank)

end NodeKind

namespace Element

/-- Whether a slot is an expression that binds at least so tightly. -/
def bindsFrom (rank : Nat) (element : Element) : Bool :=
  element.nodeKind?.any (·.bindsFrom rank)

/-- Whether a slot is an expression that binds at least as tightly as a precedence. -/
def bindsLike (precedence : Precedence) : Element → Bool :=
  bindsFrom precedence.rank

/-- Whether a slot is an expression that binds more tightly than a precedence. -/
def bindsAbove (precedence : Precedence) : Element → Bool :=
  bindsFrom (precedence.rank + 1)

/-- Whether a slot is a lambda. -/
def isLambda (element : Element) : Bool :=
  element.nodeKind? == some .lambdaExpression

/-- Whether a slot is a type test. -/
def isTypeTest (element : Element) : Bool :=
  element.nodeKind? == some .instanceofExpression

end Element

namespace Node

/-- The left operand of a binary operator, which for a type test is the operand tested,
binds at least as tightly as the operator. -/
def leftOperandFits (node : Node) : Bool :=
  node.kind.level?.all fun level => node.children.head?.any (·.bindsLike (.binary level))

/-- The other operands of an operator bind as tightly as their places demand. -/
def otherOperandsFit (node : Node) : Bool :=
  let first := node.children.head?
  let last := node.children.getLast?
  match node.kind with
  | .assignment => first.any (·.bindsLike .conditional)
  | .conditionalExpression =>
      first.any (·.bindsAbove .conditional) &&
        last.any fun element => element.bindsLike .conditional || element.isLambda
  | .preIncrementExpression | .preDecrementExpression | .unaryExpression =>
      last.any (·.bindsLike .prefixed)
  | .castExpression => last.any fun element => element.bindsLike .prefixed || element.isLambda
  | .postIncrementExpression | .postDecrementExpression => first.any (·.bindsLike .postfixed)
  | .instanceofExpression => true
  | kind => kind.level?.all fun level => last.any (·.bindsAbove (.binary level))

/-- A type test is the left operand of an operator that binds more tightly. -/
def continuesTypeTest (node : Node) : Bool :=
  node.kind.level?.any (Level.relational.rank < ·.rank) &&
    node.children.head?.any (·.isTypeTest)

/-- What holds of every node of a clean tree: only an operator after a type test has an
operand that binds too loosely, and only on its left. -/
structure OperandsFit (node : Node) : Prop where
  left : node.leftOperandFits = !node.continuesTypeTest
  others : node.otherOperandsFit = true

end Node

namespace Element

theorem bindsFrom_mono {low high : Nat} (lower : low ≤ high) {element : Element}
    (binds : element.bindsFrom high = true) : element.bindsFrom low = true := by
  obtain ⟨kind, isNode, binds⟩ := (Option.any_eq_true _ _).mp binds
  obtain ⟨precedence, known, above⟩ := (Option.any_eq_true _ _).mp binds
  have above : high ≤ precedence.rank := by simpa using above
  simp only [bindsFrom, NodeKind.bindsFrom, isNode, known, Option.any_some]
  exact decide_eq_true (Nat.le_trans lower above)

theorem bindsFrom_of_isTypeTest {element : Element} (isTest : element.isTypeTest = true) :
    element.bindsFrom (Precedence.binary .relational).rank = true := by
  have kind : element.nodeKind? = some .instanceofExpression := by simpa [isTypeTest] using isTest
  rw [bindsFrom, kind]
  rfl

/-- A type test binds no more tightly than its operator. -/
theorem not_bindsFrom_of_isTypeTest {element : Element} (isTest : element.isTypeTest = true)
    {rank : Nat} (above : (Precedence.binary .relational).rank < rank) :
    element.bindsFrom rank = false := by
  have kind : element.nodeKind? = some .instanceofExpression := by simpa [isTypeTest] using isTest
  rw [bindsFrom, kind]
  exact decide_eq_false (Nat.not_le.mpr above)

end Element

theorem Level.level?_nodeKind (level : Level) : level.nodeKind.level? = some level := by
  cases level <;> rfl

theorem Level.rank_le (level : Level) : level.rank ≤ 9 := by
  cases level <;> decide

section Operators

variable {context : Context}

/-- An operand that may stand left of an operator: it binds as tightly as the operator,
or it is a type test. -/
def MayStartLeft (level : Level) (element : Element) : Prop :=
  element.bindsLike (.binary level) = true ∨ element.isTypeTest = true

theorem bindsFrom_finish_nodeKind (state : State) (level : Level) (children : List Element) :
    (state.finish context level.nodeKind children).bindsFrom (level.rank + 2) = true := by
  cases level <;> rfl

theorem typeTest_bindsFrom (state : State) (children : List Element) :
    (state.finish context .instanceofExpression children).bindsFrom (Level.relational.rank + 2) =
      true := rfl

theorem otherOperandsFit_nodeKind (level : Level) (span : Span) (children : List Element) :
    Node.otherOperandsFit ⟨level.nodeKind, span, children⟩ =
      children.getLast?.any (·.bindsAbove (.binary level)) := by
  cases level <;> rfl

/-- The node of an operator whose operands are in place. -/
theorem operator_fits {level : Level} {left right : Element} {operator : List Element}
    (starts : MayStartLeft level left)
    (ends : right.bindsAbove (.binary level) = true) (span : Span) :
    Node.OperandsFit ⟨level.nodeKind, span, [left] ++ operator ++ [right]⟩ := by
  constructor
  · simp only [Node.leftOperandFits, Node.continuesTypeTest, level.level?_nodeKind, Option.all_some,
      Option.any_some, List.cons_append, List.head?_cons]
    cases isTest : left.isTypeTest with
    | false =>
        have binds : left.bindsLike (.binary level) = true := by
          simpa [MayStartLeft, isTest] using starts
        simp [binds]
    | true =>
        by_cases tighter : Level.relational.rank < level.rank
        · have loose : left.bindsLike (.binary level) = false :=
            Element.not_bindsFrom_of_isTypeTest isTest (Nat.add_lt_add_right tighter 2)
          simp [loose, tighter]
        · have binds : left.bindsLike (.binary level) = true :=
            Element.bindsFrom_mono (Nat.add_le_add_right (Nat.le_of_not_lt tighter) 2)
              (Element.bindsFrom_of_isTypeTest isTest)
          simp [binds, tighter]
  · rw [otherOperandsFit_nodeKind, List.getLast?_concat]
    exact ends

/-- The operands on the stack, below an operand that binds from `rank` on. -/
def Waiting (good : Node → Prop) : Nat → List Pending → Prop
  | _, [] => True
  | rank, top :: stack =>
      top.level.rank + 2 < rank ∧
        (∃ left, top.left = [left] ∧ Good good [left] ∧ MayStartLeft top.level left) ∧
        Good good top.operator ∧ Waiting good (top.level.rank + 2) stack

/-- An operator that waits for its right operand. -/
theorem Waiting.push {good : Node → Prop} {level : Level} {stack : List Pending}
    (waiting : Waiting good (level.rank + 2) stack) {left : Element} {operator : List Element}
    (starts : MayStartLeft level left) (kept : Good good [left])
    (operatorKept : Good good operator) :
    Waiting good Precedence.prefixed.rank (⟨[left], level, operator⟩ :: stack) := by
  have bounded := level.rank_le
  refine ⟨?_, ⟨left, rfl, kept, starts⟩, operatorKept, waiting⟩
  simp only [Precedence.rank]
  omega

/-- Folding operators into the operand at hand: it stays a good one, what still waits
binds less tightly than `floor`, and either the operand is as before or binds like
`floor`. -/
theorem reduce_fits (context : Context) (state : State) (floor : Level) (stack : List Pending)
    {operand : Element} {rank : Nat} (binds : operand.bindsFrom rank = true)
    (waiting : Waiting Node.OperandsFit rank stack) (kept : Good Node.OperandsFit [operand]) :
    ∃ rest result, state.reduce context floor stack [operand] = (rest, [result]) ∧
      Waiting Node.OperandsFit (floor.rank + 2) rest ∧ Good Node.OperandsFit [result] ∧
      (result = operand ∨ result.bindsLike (.binary floor) = true) := by
  induction stack generalizing operand rank with
  | nil => exact ⟨[], operand, rfl, trivial, kept, .inl rfl⟩
  | cons top stack ih =>
      obtain ⟨looser, ⟨left, same, leftKept, starts⟩, operatorKept, below⟩ := waiting
      simp only [State.reduce]
      split
      · rename_i reduces
        have right : operand.bindsAbove (.binary top.level) = true :=
          Element.bindsFrom_mono looser binds
        have node : Good Node.OperandsFit [state.finish context top.level.nodeKind
            (top.left ++ top.operator ++ [operand])] := by
          rw [same]
          exact Good.node (operator_fits starts right _)
            ((leftKept.append operatorKept).append kept)
        obtain ⟨rest, result, reduced, under, good, which⟩ :=
          ih (bindsFrom_finish_nodeKind state top.level _) below node
        refine ⟨rest, result, reduced, under, good, .inr ?_⟩
        rcases which with rfl | tight
        · exact Element.bindsFrom_mono (Nat.add_le_add_right reduces 2)
            (bindsFrom_finish_nodeKind state top.level _)
        · exact tight
      · rename_i stays
        refine ⟨top :: stack, operand, rfl, ?_, kept, .inl rfl⟩
        exact ⟨by omega, ⟨left, same, leftKept, starts⟩, operatorKept, below⟩

/-- An operand at hand when the next operator is looked for. -/
def IsOperand (element : Element) : Prop :=
  element.bindsLike .prefixed = true ∨ element.isTypeTest = true

theorem IsOperand.mayStartLeft {operand : Element} (isOperand : IsOperand operand) (level : Level) :
    MayStartLeft level operand := by
  rcases isOperand with binds | isTest
  · have bounded := level.rank_le
    exact .inl (Element.bindsFrom_mono (by simp only [Precedence.rank]; omega) binds)
  · exact .inr isTest

theorem MayStartLeft.bindsAbove {level : Level} {operand : Element}
    (starts : MayStartLeft level operand) : operand.bindsAbove .conditional = true := by
  rcases starts with binds | isTest
  · exact Element.bindsFrom_mono (Nat.le_add_left 2 _) binds
  · exact Element.bindsFrom_mono (Nat.le_add_left 2 _) (Element.bindsFrom_of_isTypeTest isTest)

/-- A type test around the operand at hand and the type that was read. -/
theorem typeTest_fits {state : State} {tested : Element} {right : List Element}
    (starts : MayStartLeft .relational tested) (kept : Good Node.OperandsFit [tested])
    (rightKept : Good Node.OperandsFit right) :
    Good Node.OperandsFit [state.finish context .instanceofExpression ([tested] ++ right)] := by
  refine Good.node ⟨?_, rfl⟩ (kept.append rightKept)
  have binds : tested.bindsLike (.binary .relational) = true :=
    starts.elim id Element.bindsFrom_of_isTypeTest
  simpa [Node.leftOperandFits, Node.continuesTypeTest, NodeKind.level?] using binds

end Operators

/-- The node kinds that pass a test, as a slot. -/
def Slot.ofTest (test : NodeKind → Bool) : Slot :=
  .ofNodes (NodeKind.all.filter test)

theorem Slot.of_admits_ofTest {test : NodeKind → Bool} {element : Element}
    (admitted : (Slot.ofTest test).admits element = true) : element.nodeKind?.any test = true := by
  cases element with
  | node kind span children =>
      simp only [Slot.admits, Slot.ofTest, Slot.ofNodes, NodeSet.contains_ofList,
        decide_eq_true_iff, List.mem_filter] at admitted
      exact admitted.2
  | token | missing | absent => simp [Slot.admits, Slot.ofTest, Slot.ofNodes] at admitted

theorem Slot.admits_ofTest {test : NodeKind → Bool} {element : Element}
    (passes : element.nodeKind?.any test = true) : (Slot.ofTest test).admits element = true := by
  cases element with
  | node kind span children =>
      simp only [Slot.admits, Slot.ofTest, Slot.ofNodes, NodeSet.contains_ofList,
        decide_eq_true_iff, List.mem_filter]
      exact ⟨kind.mem_all, passes⟩
  | token | missing | absent => cases passes

/-- Whether a part is one slot that holds a node whose kind passes a test. -/
def Part.holds (test : NodeKind → Bool) : Part → Bool
  | .one slot => slot.within (.ofTest test)
  | .run _ => false

theorem Fits.head?_holds {parts : List Part} {slots : List Element} (fits : Fits parts slots)
    {test : NodeKind → Bool} (holds : parts.head?.any (·.holds test) = true) :
    slots.head?.any (·.nodeKind?.any test) = true := by
  cases fits with
  | nil => cases holds
  | one admitted _ => exact Slot.of_admits_ofTest (Slot.admits_of_within holds admitted)
  | done | more => cases holds

theorem Fits.getLast?_holds {parts : List Part} {slots : List Element} (fits : Fits parts slots)
    {test : NodeKind → Bool} (holds : parts.getLast?.any (·.holds test) = true) :
    slots.getLast?.any (·.nodeKind?.any test) = true := by
  obtain ⟨part, last, holds⟩ := (Option.any_eq_true _ _).mp holds
  cases part with
  | one slot =>
      obtain ⟨element, found, admitted⟩ := fits.getLast? last
      rw [found]
      exact Slot.of_admits_ofTest (Slot.admits_of_within holds admitted)
  | run slot => cases holds

/-- The kind of an expression that binds at least as tightly as a precedence, or of a
lambda. -/
def NodeKind.bindsOrLambda (precedence : Precedence) (kind : NodeKind) : Bool :=
  kind.bindsFrom precedence.rank || kind == .lambdaExpression

/-- What the rules read, and what is demanded of operands.  The nodes of binary operators
are left to the loop that builds them. -/
def precedenceDiscipline : Discipline where
  signature
    | .typeRest => ⟨[⟨.empty, .ofList [.annotations], true⟩],
        .ofNodes [.primitiveType, .classType, .arrayType]⟩
    | .expression => ⟨[], .ofTest (·.bindsOrLambda .assignment)⟩
    | .conditional => ⟨[], .ofTest (·.bindsFrom Precedence.conditional.rank)⟩
    | .lambda => ⟨[], .ofNodes [.lambdaExpression]⟩
    | _ => ⟨[], .ofNodes NodeKind.all⟩
  admits kind parts :=
    match kind with
    | .assignment => parts.getLast?.any (·.holds (·.bindsFrom Precedence.conditional.rank))
    | .conditionalExpression =>
        parts.getLast?.any (·.holds (·.bindsFrom (Precedence.conditional.rank + 1))) &&
          parts.head?.any (·.holds (·.bindsOrLambda .conditional))
    | .preIncrementExpression | .preDecrementExpression | .unaryExpression =>
        parts.head?.any (·.holds (·.bindsFrom Precedence.prefixed.rank))
    | .castExpression => parts.head?.any (·.holds (·.bindsOrLambda .prefixed))
    | .postIncrementExpression | .postDecrementExpression =>
        parts.getLast?.any (·.holds (·.bindsFrom Precedence.postfixed.rank))
    | kind => kind.level?.isNone
  operators slot _ :=
    if slot.within (.ofTest (·.bindsFrom Precedence.prefixed.rank)) then
      some (.ofTest (·.bindsFrom (Precedence.conditional.rank + 1)))
    else none

theorem any_bindsOrLambda {precedence : Precedence} {slot : Option Element}
    (binds : slot.any (·.nodeKind?.any (·.bindsOrLambda precedence)) = true) :
    (slot.any fun element => element.bindsLike precedence || element.isLambda) = true := by
  obtain ⟨element, found, binds⟩ := (Option.any_eq_true _ _).mp binds
  obtain ⟨kind, isNode, binds⟩ := (Option.any_eq_true _ _).mp binds
  simpa [found, Element.bindsLike, Element.bindsFrom, Element.isLambda, isNode,
    NodeKind.bindsOrLambda] using binds

/-- A node that is no binary operator has no left operand to speak of. -/
theorem operandsFit_of_others {kind : NodeKind} {span : Span} {children : List Element}
    (none : kind.level? = none) (others : Node.otherOperandsFit ⟨kind, span, children⟩ = true) :
    Node.OperandsFit ⟨kind, span, children⟩ :=
  ⟨by simp [Node.leftOperandFits, Node.continuesTypeTest, none], others⟩

theorem precedence_admitted {kind : NodeKind} {parts : List Part} {slots : List Element}
    (span : Span) (admitted : precedenceDiscipline.admits kind parts = true)
    (fits : Fits parts slots) : Node.OperandsFit ⟨kind, span, slots.reverse⟩ := by
  have first : slots.reverse.head? = slots.getLast? := List.head?_reverse
  have last : slots.reverse.getLast? = slots.head? := List.getLast?_reverse
  simp only [precedenceDiscipline] at admitted
  -- one case for each line of the discipline; several demand the same of the same operand
  split at admitted
  case h_1 | h_7 | h_8 =>
    refine operandsFit_of_others rfl ?_
    simp only [Node.otherOperandsFit, first]
    exact fits.getLast?_holds admitted
  case h_2 =>
    rw [Bool.and_eq_true] at admitted
    refine operandsFit_of_others rfl ?_
    simp only [Node.otherOperandsFit, first, last, Bool.and_eq_true]
    refine ⟨fits.getLast?_holds admitted.1, ?_⟩
    exact any_bindsOrLambda (fits.head?_holds admitted.2)
  case h_3 | h_4 | h_5 =>
    refine operandsFit_of_others rfl ?_
    simp only [Node.otherOperandsFit, last]
    exact fits.head?_holds admitted
  case h_6 =>
    refine operandsFit_of_others rfl ?_
    simp only [Node.otherOperandsFit, last]
    exact any_bindsOrLambda (fits.head?_holds admitted)
  case h_9 =>
    have none : kind.level? = none := by simpa using admitted
    refine operandsFit_of_others none ?_
    unfold Node.otherOperandsFit
    split <;> simp_all

/-- What is kept while operators are read.  The operators on the stack bind ever more
tightly towards the top, and the operand at hand more tightly than all of them. -/
theorem precedence_climbs {context : Context} {slot : Slot} {tests : List Outline}
    (operands : ∀ element, slot.admits element = true → element.bindsLike .prefixed = true) :
    Climbs Node.OperandsFit context slot
      (.ofTest (·.bindsFrom (Precedence.conditional.rank + 1))) tests
      (fun stack operand => ∃ rank, operand.bindsFrom rank = true ∧
        Waiting Node.OperandsFit rank stack ∧ Good Node.OperandsFit [operand] ∧ IsOperand operand)
      (fun level stack operand => Waiting Node.OperandsFit (level.rank + 2) stack ∧
        Good Node.OperandsFit [operand] ∧ MayStartLeft level operand) where
  start := by
    intro operand admitted kept
    have tight := operands operand admitted
    exact ⟨Precedence.prefixed.rank, tight, trivial, kept, .inl tight⟩
  fold := by
    rintro state level stack operand ⟨rank, binds, waiting, kept, isOperand⟩
    obtain ⟨rest, result, reduced, under, good, which⟩ :=
      reduce_fits context state level stack binds waiting kept
    refine ⟨rest, result, reduced, under, good, ?_⟩
    rcases which with rfl | tight
    · exact isOperand.mayStartLeft level
    · exact .inl tight
  test := by
    rintro state stack left outline slots ⟨waiting, kept, starts⟩ member fits typeKept
    exact ⟨_, typeTest_bindsFrom _ _, waiting, typeTest_fits starts kept typeKept.reverse,
      .inr rfl⟩
  join := by
    rintro state level width stack left right ⟨waiting, kept, starts⟩ found other admitted rightKept
    have tight := operands right admitted
    have operatorKept : Good Node.OperandsFit (state.operatorTokens context width) :=
      (Good.takeMany width Good.nil).reverse
    exact ⟨_, tight, waiting.push starts kept operatorKept, rightKept, .inl tight⟩
  close := by
    rintro stack operand ⟨_, kept, starts⟩
    exact ⟨Slot.admits_ofTest starts.bindsAbove, kept⟩

theorem precedence_sound : precedenceDiscipline.Sound Node.OperandsFit where
  admitted := precedence_admitted
  operators := by
    intro context operand type slot result tests operates operandReads typeLeads before after read
    simp only [precedenceDiscipline] at operates
    split at operates
    · rename_i inside
      cases operates
      have operands : ∀ element, slot.admits element = true →
          element.bindsLike .prefixed = true :=
        fun element admitted => Slot.of_admits_ofTest (Slot.admits_of_within inside admitted)
      exact (precedence_climbs operands).operators_appends operandReads typeLeads read
    · cases operates

theorem precedence_checked : precedenceDiscipline.Checked where
  rules := by
    intro rule
    cases rule with
    | typeArguments diamond => cases diamond <;> decide +kernel
    | memberBody kind => cases kind <;> decide +kernel
    | _ => decide +kernel
  package := by decide +kernel
  imports := by decide +kernel
  types := by decide +kernel
  expression := by decide

/-- In every tree parsed without errors, whatever the tokens and the configuration, each
operand binds as its place in an operator demands, unless it is a type test on the left
of an operator that binds more tightly. -/
theorem operands_fit_of_clean (tokens : List Token) (config : Config) :
    ((Session.start tokens config).parseUnit.1.errors = [] →
      ∀ node ∈ (Session.start tokens config).parseUnit.1.root.descendants,
        node.otherOperandsFit = true ∧ node.leftOperandFits = !node.continuesTypeTest) ∧
    ((Session.start tokens config).parseExpression.1.errors = [] →
      ∀ node ∈ (Session.start tokens config).parseExpression.1.root.descendants,
        node.otherOperandsFit = true ∧ node.leftOperandFits = !node.continuesTypeTest) := by
  obtain ⟨unit, expression⟩ := good_of_clean precedence_sound precedence_checked
    (fun _ _ => operandsFit_of_others rfl rfl) (fun _ _ => operandsFit_of_others rfl rfl)
    tokens config
  constructor
  · intro clean node member
    have fits := unit clean node member
    exact ⟨fits.others, fits.left⟩
  · intro clean node member
    have fits := expression clean node member
    exact ⟨fits.others, fits.left⟩

/-- The tokens of `a instanceof T + b`. -/
def sumAfterTypeTest : List Token :=
  [.written .identifier "a" 0, .written .kwInstanceof "instanceof" 2, .written .identifier "T" 13,
    .written .plus "+" 15, .written .identifier "b" 17, .endMark 18]

/-- The exception is real: a sum whose left operand is a type test is read without an
error. -/
theorem operands_fit_of_sumAfterTypeTest :
    (Session.start sumAfterTypeTest {}).parseExpression.1.errors = [] ∧
    (∀ node ∈ (Session.start sumAfterTypeTest {}).parseExpression.1.root.descendants,
      node.otherOperandsFit = true ∧ node.leftOperandFits = !node.continuesTypeTest) ∧
    ∃ node ∈ (Session.start sumAfterTypeTest {}).parseExpression.1.root.descendants,
      node.leftOperandFits = false := by
  have clean : (Session.start sumAfterTypeTest {}).parseExpression.1.errors = [] := by
    decide +kernel
  refine ⟨clean, (operands_fit_of_clean sumAfterTypeTest {}).2 clean, ?_⟩
  rw [Node.descendants_eq_nodes]
  decide +kernel

end JavaSyntax
