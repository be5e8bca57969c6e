import JavaSyntax.Tree.Walk

/-!
# The nodes of a tree by recursion

The walk that collects the nodes of a tree keeps its own stack.  What it collects
is the list of nodes in preorder, defined here by recursion on the slots.
-/

namespace JavaSyntax

namespace Element

mutual

/-- The nodes in and below a slot, each before those below it. -/
def nodes : Element → List Node
  | .node kind span children => ⟨kind, span, children⟩ :: nodesAll children
  | .token _ => []
  | .missing _ _ => []
  | .absent => []

/-- The nodes in and below some slots, each before those below it. -/
def nodesAll : List Element → List Node
  | [] => []
  | first :: rest => nodes first ++ nodesAll rest

end

@[simp] theorem nodesAll_nil : nodesAll [] = [] := by
  simp [nodesAll]

@[simp] theorem nodesAll_cons (first : Element) (rest : List Element) :
    nodesAll (first :: rest) = first.nodes ++ nodesAll rest := by
  simp [nodesAll]

@[simp] theorem nodes_node (kind : NodeKind) (span : Span) (children : List Element) :
    (node kind span children).nodes = ⟨kind, span, children⟩ :: nodesAll children := by
  simp [nodes]

@[simp] theorem nodes_token (found : Token) : (token found).nodes = [] := by
  simp [nodes]

@[simp] theorem nodes_missing (expected : TokenKind) (span : Span) :
    (missing expected span).nodes = [] := by
  simp [nodes]

@[simp] theorem nodes_absent : absent.nodes = [] := by
  simp [nodes]

/-- A node is among those of some slots when it is among those of one. -/
theorem mem_nodesAll {slots : List Element} {node : Node} :
    node ∈ nodesAll slots ↔ ∃ slot ∈ slots, node ∈ slot.nodes := by
  induction slots with
  | nil => simp
  | cons first rest ih => simp [ih]

mutual

/-- What is below a node of a slot is below the slot. -/
theorem mem_nodes_of_below {node below : Node} (inside : below ∈ nodesAll node.children) :
    (slot : Element) → node ∈ slot.nodes → below ∈ slot.nodes
  | .node kind span children, member => by
      rw [nodes_node] at member ⊢
      cases member with
      | head => exact List.mem_cons_of_mem _ inside
      | tail _ member => exact List.mem_cons_of_mem _ (mem_nodesAll_of_below inside children member)
  | .token _, member | .missing _ _, member | .absent, member => by simp at member

/-- What is below a node of some slots is below the slots. -/
theorem mem_nodesAll_of_below {node below : Node} (inside : below ∈ nodesAll node.children) :
    (slots : List Element) → node ∈ nodesAll slots → below ∈ nodesAll slots
  | [], member => by simp at member
  | first :: rest, member => by
      rw [nodesAll_cons, List.mem_append] at member ⊢
      exact member.imp (mem_nodes_of_below inside first) (mem_nodesAll_of_below inside rest)

end

/-- The nodes directly below, each with those below it, are all nodes below. -/
theorem flatMap_node? (slots : List Element) :
    (slots.filterMap node?).flatMap (fun node => node :: nodesAll node.children) =
      nodesAll slots := by
  induction slots with
  | nil => simp
  | cons first rest ih => cases first <;> simp [List.filterMap_cons, node?, ih]

end Element

namespace Node

/-- The nodes directly below are the slots that are nodes. -/
theorem mem_childNodes {node child : Node} :
    child ∈ node.childNodes ↔ child.toElement ∈ node.children := by
  rw [childNodes, List.mem_filterMap]
  constructor
  · rintro ⟨slot, member, isChild⟩
    cases slot with
    | node kind span children =>
        cases isChild
        exact member
    | _ => cases isChild
  · exact fun member => ⟨child.toElement, member, rfl⟩

theorem toList_descendantsFrom (found : Array Node) (stack : List Node) :
    (descendantsFrom found stack).toList =
      found.toList ++ stack.flatMap fun node => node :: Element.nodesAll node.children := by
  fun_induction descendantsFrom found stack with
  | case1 found => simp
  | case2 found node stack ih =>
      rw [ih, List.flatMap_append, childNodes, Element.flatMap_node?]
      simp

theorem descendants_eq_nodes (node : Node) :
    node.descendants = node :: Element.nodesAll node.children := by
  simp [descendants, toList_descendantsFrom]

/-- What is below a node of a tree is in the tree. -/
theorem mem_descendants_of_below {root node below : Node} (member : node ∈ root.descendants)
    (inside : below ∈ Element.nodesAll node.children) : below ∈ root.descendants := by
  rw [descendants_eq_nodes] at member ⊢
  cases member with
  | head => exact List.mem_cons_of_mem _ inside
  | tail _ member =>
      exact List.mem_cons_of_mem _ (Element.mem_nodesAll_of_below inside root.children member)

end Node

end JavaSyntax
