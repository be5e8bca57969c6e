import JavaSyntax.Tree.Walk

/-!
# Measures of a tree

How deep a tree is, which kinds of node it has, and whether its tokens are those
of a given list.
-/

namespace JavaSyntax.Node

/-- The number of open nodes after an event, and the largest number so far. -/
def depthEvent (depths : Nat × Nat) : Event → Nat × Nat
  | .enter _ => (depths.1 + 1, max depths.2 (depths.1 + 1))
  | .exit _ => (depths.1 - 1, depths.2)
  | .token _ | .missing _ _ => depths

/-- The largest number of nodes that are open at once during a walk. -/
def depth (node : Node) : Nat :=
  (node.events.foldl depthEvent (0, 0)).2

/-- The kinds that occur in a tree, in declaration order, with how often they do. -/
def kindCounts (node : Node) : List (NodeKind × Nat) :=
  let kinds := node.descendants.map (·.kind)
  (NodeKind.all.map fun kind => (kind, kinds.count kind)).filter (·.2 != 0)

/-- Whether a tree holds tokens of the same kinds at the same places as a list. -/
def holdsTokens (node : Node) (tokens : List Token) : Bool :=
  node.tokens.map (fun token => (token.kind, token.start)) ==
    tokens.map fun token => (token.kind, token.start)

end JavaSyntax.Node
