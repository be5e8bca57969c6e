import JavaSyntax.Proofs.Tree.Nodes

/-!
# Damage by recursion

A slot is damaged if it is or holds an error node or a token that was made up.  A
tree has errors when it is an error node itself or one of its slots is damaged.
-/

namespace JavaSyntax

namespace Element

mutual

/-- Whether an error node or a missing token stands in or below a slot. -/
def isDamaged : Element → Bool
  | .node kind _ children => kind == .error || anyDamaged children
  | .missing _ _ => true
  | .token _ => false
  | .absent => false

/-- Whether an error node or a missing token stands in or below some slots. -/
def anyDamaged : List Element → Bool
  | [] => false
  | first :: rest => isDamaged first || anyDamaged rest

end

@[simp] theorem anyDamaged_nil : anyDamaged [] = false := by
  simp [anyDamaged]

@[simp] theorem anyDamaged_cons (first : Element) (rest : List Element) :
    anyDamaged (first :: rest) = (first.isDamaged || anyDamaged rest) := by
  simp [anyDamaged]

@[simp] theorem isDamaged_node (kind : NodeKind) (span : Span) (children : List Element) :
    (node kind span children).isDamaged = (kind == .error || anyDamaged children) := by
  simp [isDamaged]

@[simp] theorem isDamaged_missing (expected : TokenKind) (span : Span) :
    (missing expected span).isDamaged = true := by
  simp [isDamaged]

@[simp] theorem isDamaged_token (found : Token) : (token found).isDamaged = false := by
  simp [isDamaged]

@[simp] theorem isDamaged_absent : absent.isDamaged = false := by
  simp [isDamaged]

@[simp] theorem anyDamaged_append (left right : List Element) :
    anyDamaged (left ++ right) = (anyDamaged left || anyDamaged right) := by
  induction left with
  | nil => simp
  | cons first rest ih => simp [ih, Bool.or_assoc]

@[simp] theorem anyDamaged_reverse (slots : List Element) :
    anyDamaged slots.reverse = anyDamaged slots := by
  induction slots with
  | nil => rfl
  | cons first rest ih => simp [ih, Bool.or_comm]

theorem anyDamaged_of_sublist {fewer slots : List Element} (part : fewer.Sublist slots)
    (damaged : anyDamaged fewer = true) : anyDamaged slots = true := by
  induction part with
  | slnil => exact damaged
  | cons first _ ih => rw [anyDamaged_cons, ih damaged, Bool.or_true]
  | cons_cons first _ ih =>
      rw [anyDamaged_cons, Bool.or_eq_true] at damaged ⊢
      exact damaged.imp id ih

theorem isDamaged_of_mem {slots : List Element} {slot : Element}
    (whole : anyDamaged slots = false) (member : slot ∈ slots) : slot.isDamaged = false := by
  induction slots with
  | nil => cases member
  | cons first rest ih =>
      rw [anyDamaged_cons, Bool.or_eq_false_iff] at whole
      cases member with
      | head => exact whole.1
      | tail _ member => exact ih whole.2 member

end Element

/-- Whether a node is an error or has a missing token among its slots. -/
def Node.isFlawed (node : Node) : Bool :=
  node.kind == .error || node.children.any Element.isMissing

namespace Element

mutual

theorem any_nodes : (slot : Element) →
    (slot.nodes.any Node.isFlawed || slot.isMissing) = slot.isDamaged
  | .node kind span children => by
      rw [isDamaged_node, ← any_nodesAll children]
      simp [Node.isFlawed, isMissing, Bool.or_assoc, Bool.or_comm (children.any isMissing)]
  | .token _ => by simp [isMissing]
  | .missing _ _ => by simp [isMissing]
  | .absent => by simp [isMissing]

/-- Slots are damaged when one of them is missing or a node below is flawed. -/
theorem any_nodesAll : (slots : List Element) →
    ((nodesAll slots).any Node.isFlawed || slots.any isMissing) = anyDamaged slots
  | [] => by simp
  | first :: rest => by
      rw [anyDamaged_cons, ← any_nodes first, ← any_nodesAll rest]
      simp only [nodesAll_cons, List.any_append, List.any_cons, Bool.or_assoc,
        Bool.or_left_comm first.isMissing]

end

end Element

theorem Node.hasErrors_eq (node : Node) :
    node.hasErrors = (node.kind == .error || Element.anyDamaged node.children) := by
  have flaws : node.hasErrors = node.descendants.any Node.isFlawed := rfl
  rw [flaws, Node.descendants_eq_nodes, ← Element.any_nodesAll]
  simp [Node.isFlawed, Bool.or_assoc, Bool.or_comm (node.children.any Element.isMissing)]

end JavaSyntax
