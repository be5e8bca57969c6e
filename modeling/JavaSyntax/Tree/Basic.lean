import JavaSyntax.Token.Basic
import JavaSyntax.Tree.Kind

/-!
# Syntax trees

A tree keeps every token of its source. A node has a fixed list of slots: the
elements a rule always has, in order, where an optional part that is not there
leaves an `absent` slot behind.
-/

namespace JavaSyntax

/-- One slot of a tree node: a node below it, a token, a required token that was
not in the input, or an optional part that is not there. -/
inductive Element where
  | node (kind : NodeKind) (span : Span) (children : List Element)
  | token (token : Token)
  | missing (expected : TokenKind) (span : Span)
  | absent
  deriving Repr, Inhabited

/-- A tree: the kind of its top node, the text it covers, and its slots. -/
structure Node where
  kind : NodeKind
  span : Span
  children : List Element
  deriving Repr, Inhabited

/-- A node as the slot of a larger one. -/
def Node.toElement (node : Node) : Element :=
  .node node.kind node.span node.children

namespace Element

/-- The text a slot covers, if it covers any place at all. -/
def span? : Element → Option Span
  | .node _ span _ => some span
  | .token found => some found.span
  | .missing _ span => some span
  | .absent => none

/-- The node in a slot. -/
def node? : Element → Option Node
  | .node kind span children => some ⟨kind, span, children⟩
  | _ => none

/-- The token in a slot. -/
def token? : Element → Option Token
  | .token found => some found
  | _ => none

/-- The kind of the node in a slot. -/
def nodeKind? (element : Element) : Option NodeKind :=
  element.node?.map (·.kind)

/-- The kind of the token in a slot. -/
def tokenKind? (element : Element) : Option TokenKind :=
  element.token?.map (·.kind)

/-- Whether a slot stands for an optional part that is not there. -/
def isAbsent : Element → Bool
  | .absent => true
  | _ => false

/-- Whether a slot stands for a required token that was not in the input. -/
def isMissing : Element → Bool
  | .missing _ _ => true
  | _ => false

mutual

/-- Equality of slots: kinds, spans, tokens and all slots below. -/
def same : Element → Element → Bool
  | .node kind span children, .node kind' span' children' =>
      kind == kind' && span == span' && sameAll children children'
  | .token left, .token right => left == right
  | .missing expected span, .missing expected' span' => expected == expected' && span == span'
  | .absent, .absent => true
  | _, _ => false

/-- Equality of lists of slots, slot by slot. -/
def sameAll : List Element → List Element → Bool
  | [], [] => true
  | first :: rest, first' :: rest' => same first first' && sameAll rest rest'
  | _, _ => false

end

mutual

theorem same_iff : (left right : Element) → (same left right = true ↔ left = right)
  | .node kind span children, .node kind' span' children' => by
      simp [same, sameAll_iff children children', and_assoc]
  | .token left, .token right => by simp [same]
  | .missing expected span, .missing expected' span' => by simp [same]
  | .absent, .absent => by simp [same]
  | .node _ _ _, .token _ | .node _ _ _, .missing _ _ | .node _ _ _, .absent
  | .token _, .node _ _ _ | .token _, .missing _ _ | .token _, .absent
  | .missing _ _, .node _ _ _ | .missing _ _, .token _ | .missing _ _, .absent
  | .absent, .node _ _ _ | .absent, .token _ | .absent, .missing _ _ => by simp [same]

theorem sameAll_iff : (left right : List Element) → (sameAll left right = true ↔ left = right)
  | [], [] => by simp [sameAll]
  | first :: rest, first' :: rest' => by
      simp [sameAll, same_iff first first', sameAll_iff rest rest']
  | [], _ :: _ | _ :: _, [] => by simp [sameAll]

end

instance : DecidableEq Element := fun left right =>
  decidable_of_iff (same left right = true) (same_iff left right)

end Element

namespace Node

instance : DecidableEq Node := fun left right =>
  decidable_of_iff (left.toElement = right.toElement) (by
    cases left; cases right; simp [toElement])

/-- The smallest span that covers the first and the last slot with a place, or
`fallback` when no slot has one. -/
def spanOf (children : List Element) (fallback : Span) : Span :=
  match children.findSome? Element.span?, children.reverse.findSome? Element.span? with
  | some first, some last => first.join last
  | _, _ => fallback

/-- A node that covers exactly its slots, or `fallback` when they have no place. -/
def spanning (kind : NodeKind) (children : List Element) (fallback : Span) : Node :=
  ⟨kind, spanOf children fallback, children⟩

@[simp] theorem kind_spanning (kind : NodeKind) (children : List Element) (fallback : Span) :
    (spanning kind children fallback).kind = kind := rfl

@[simp] theorem children_spanning (kind : NodeKind) (children : List Element) (fallback : Span) :
    (spanning kind children fallback).children = children := rfl

/-- The slot at an index. -/
def child? (node : Node) (index : Nat) : Option Element :=
  node.children[index]?

/-- The nodes directly below, in order. -/
def childNodes (node : Node) : List Node :=
  node.children.filterMap Element.node?

/-- The tokens directly below, in order. -/
def childTokens (node : Node) : List Token :=
  node.children.filterMap Element.token?

/-- The first node of a kind directly below. -/
def childOf? (node : Node) (kind : NodeKind) : Option Node :=
  node.childNodes.find? (·.kind == kind)

@[simp] theorem node?_toElement (node : Node) : node.toElement.node? = some node := rfl

@[simp] theorem span?_toElement (node : Node) : node.toElement.span? = some node.span := rfl

end Node

end JavaSyntax
