import JavaSyntax.Tree.Basic

/-!
# Walking a tree

Trees can be as deep as their source is long, so every walk keeps its own
stack of what is still to be visited and costs no recursion depth. The stack
only ever holds parts of the tree that are smaller than what it replaces.
-/

namespace JavaSyntax

/-- What a depth-first walk meets, in source order. -/
inductive Event where
  | enter (node : Node)
  | token (token : Token)
  | missing (expected : TokenKind) (span : Span)
  | exit (node : Node)
  deriving DecidableEq, Repr, Inhabited

namespace Element

mutual

/-- The number of steps it takes to walk over a slot. -/
def steps : Element → Nat
  | .node _ _ children => stepsAll children + 1
  | .token _ => 1
  | .missing _ _ => 1
  | .absent => 1

/-- The number of steps it takes to walk over some slots and find their end. -/
def stepsAll : List Element → Nat
  | [] => 1
  | first :: rest => steps first + stepsAll rest

end

end Element

namespace Node

/-- The steps left when open nodes still have these slots to visit. -/
def openSteps : List (Node × List Element) → Nat
  | [] => 0
  | (_, slots) :: stack => Element.stepsAll slots + openSteps stack

/-- Walk on from a stack of open nodes, each with the slots not yet visited. -/
def eventsFrom (met : Array Event) : List (Node × List Element) → Array Event
  | [] => met
  | (node, []) :: stack => eventsFrom (met.push (.exit node)) stack
  | (node, .node kind span children :: rest) :: stack =>
      eventsFrom (met.push (.enter ⟨kind, span, children⟩))
        ((⟨kind, span, children⟩, children) :: (node, rest) :: stack)
  | (node, .token token :: rest) :: stack =>
      eventsFrom (met.push (.token token)) ((node, rest) :: stack)
  | (node, .missing expected span :: rest) :: stack =>
      eventsFrom (met.push (.missing expected span)) ((node, rest) :: stack)
  | (node, .absent :: rest) :: stack => eventsFrom met ((node, rest) :: stack)
termination_by stack => openSteps stack
decreasing_by all_goals simp +arith [openSteps, Element.stepsAll, Element.steps]

/-- The depth-first walk of a tree: a node is entered before its slots and left
after them; absent slots are passed over. -/
def events (node : Node) : Array Event :=
  eventsFrom #[.enter node] [(node, node.children)]

/-- Collect tokens from a stack of slots not yet visited. -/
def tokensFrom (found : Array Token) : List (List Element) → Array Token
  | [] => found
  | [] :: stack => tokensFrom found stack
  | (.node _ _ children :: rest) :: stack => tokensFrom found (children :: rest :: stack)
  | (.token token :: rest) :: stack => tokensFrom (found.push token) (rest :: stack)
  | (.missing _ _ :: rest) :: stack => tokensFrom found (rest :: stack)
  | (.absent :: rest) :: stack => tokensFrom found (rest :: stack)
termination_by stack => sizeOf stack

/-- All tokens of a tree, in source order. -/
def tokens (node : Node) : List Token :=
  (tokensFrom #[] [node.children]).toList

/-- The steps left when these nodes still have to be visited. -/
def stackSteps : List Node → Nat
  | [] => 0
  | node :: stack => Element.stepsAll node.children + stackSteps stack

@[simp] theorem stackSteps_append (left right : List Node) :
    stackSteps (left ++ right) = stackSteps left + stackSteps right := by
  induction left with
  | nil => simp [stackSteps]
  | cons node rest ih => simp only [List.cons_append, stackSteps, ih, Nat.add_assoc]

/-- The nodes among some slots take fewer steps than the slots. -/
theorem stackSteps_filterMap_lt (children : List Element) :
    stackSteps (children.filterMap Element.node?) < Element.stepsAll children := by
  induction children with
  | nil => simp [stackSteps, Element.stepsAll]
  | cons first rest ih =>
      cases first <;>
        simp [List.filterMap_cons, Element.node?, stackSteps, Element.stepsAll, Element.steps] <;>
        omega

/-- Collect nodes, each before the nodes below it, from a stack of nodes not yet
visited. -/
def descendantsFrom (found : Array Node) : List Node → Array Node
  | [] => found
  | node :: stack => descendantsFrom (found.push node) (node.childNodes ++ stack)
termination_by stack => stackSteps stack
decreasing_by
  have smaller := stackSteps_filterMap_lt node.children
  simp only [childNodes, stackSteps_append, stackSteps]
  omega

/-- A node and all nodes below it, each before the nodes below it. -/
def descendants (node : Node) : List Node :=
  (descendantsFrom #[] [node]).toList

/-- The nodes of a kind, in the order of `descendants`. -/
def findAll (node : Node) (kind : NodeKind) : List Node :=
  node.descendants.filter (·.kind == kind)

/-- The first node of a kind, in the order of `descendants`. -/
def first? (node : Node) (kind : NodeKind) : Option Node :=
  node.descendants.find? (·.kind == kind)

/-- Whether recovery left an `error` node or a missing token anywhere. -/
def hasErrors (node : Node) : Bool :=
  node.descendants.any fun below =>
    below.kind == .error || below.children.any Element.isMissing

end Node

end JavaSyntax
