import JavaSyntax.Tree.Walk

/-!
# The tokens of a tree by recursion

The walk that collects the tokens of a tree keeps its own stack.  What it
collects is the yield of the tree, defined here by recursion on the slots.
-/

namespace JavaSyntax

namespace Element

mutual

/-- The tokens in and below a slot, in source order. -/
def yield : Element → List Token
  | .node _ _ children => yieldAll children
  | .token found => [found]
  | .missing _ _ => []
  | .absent => []

/-- The tokens in and below some slots, in source order. -/
def yieldAll : List Element → List Token
  | [] => []
  | first :: rest => yield first ++ yieldAll rest

end

@[simp] theorem yieldAll_nil : yieldAll [] = [] := by
  simp [yieldAll]

@[simp] theorem yieldAll_cons (first : Element) (rest : List Element) :
    yieldAll (first :: rest) = first.yield ++ yieldAll rest := by
  simp [yieldAll]

@[simp] theorem yield_token (found : Token) : (token found).yield = [found] := by
  simp [yield]

@[simp] theorem yield_node (kind : NodeKind) (span : Span) (children : List Element) :
    (node kind span children).yield = yieldAll children := by
  simp [yield]

@[simp] theorem yield_missing (expected : TokenKind) (span : Span) :
    (missing expected span).yield = [] := by
  simp [yield]

@[simp] theorem yield_absent : absent.yield = [] := by
  simp [yield]

@[simp] theorem yieldAll_append (left right : List Element) :
    yieldAll (left ++ right) = yieldAll left ++ yieldAll right := by
  induction left with
  | nil => simp
  | cons first rest ih => simp [ih, List.append_assoc]

end Element

namespace Node

/-- Collecting tokens from a stack appends the yield of every list of slots on it. -/
theorem toList_tokensFrom (found : Array Token) (stack : List (List Element)) :
    (tokensFrom found stack).toList = found.toList ++ stack.flatMap Element.yieldAll := by
  fun_induction tokensFrom found stack with
  | case1 found => simp
  | case2 found stack ih => simpa using ih
  | case3 found kind span children rest stack ih => simpa using ih
  | case4 found token rest stack ih => simpa using ih
  | case5 found expected span rest stack ih => simpa using ih
  | case6 found rest stack ih => simpa using ih

theorem tokens_eq_yieldAll (node : Node) : node.tokens = Element.yieldAll node.children := by
  simp [tokens, toList_tokensFrom]

end Node

end JavaSyntax
