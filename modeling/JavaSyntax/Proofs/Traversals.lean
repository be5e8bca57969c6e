import JavaSyntax.Proofs.Tree.Damage
import JavaSyntax.Proofs.Tree.Events
import JavaSyntax.Tree.Text

/-!
# The traversals of a tree by recursion

Every traversal of a tree keeps a stack of its own.  What the walk meets is what a recursion
over the slots meets, and the tokens, the nodes and the damage of a tree are those that the
walk meets.  The parenthesised form, which is printed event by event, is written slot by slot.
-/

namespace JavaSyntax

namespace Event

/-- The node that a walk enters, if it enters one. -/
def entered? : Event → Option Node
  | .enter node => some node
  | _ => none

/-- Whether a walk meets an error node or a missing token. -/
def isDamage : Event → Bool
  | .enter node => node.kind == .error
  | .missing _ _ => true
  | _ => false

end Event

namespace Element

/-! ## What a walk enters and where it meets damage -/

mutual

/-- A walk over a slot enters its nodes. -/
theorem filterMap_entered?_events : (slot : Element) →
    slot.events.filterMap Event.entered? = slot.nodes
  | .node _ _ children => by
      simp [List.filterMap_cons, Event.entered?, filterMap_entered?_eventsAll children]
  | .token _ => by simp [List.filterMap_cons, Event.entered?]
  | .missing _ _ => by simp [List.filterMap_cons, Event.entered?]
  | .absent => by simp

theorem filterMap_entered?_eventsAll : (slots : List Element) →
    (eventsAll slots).filterMap Event.entered? = nodesAll slots
  | [] => by simp
  | first :: rest => by
      simp [filterMap_entered?_events first, filterMap_entered?_eventsAll rest]

end

mutual

/-- A walk over a slot meets damage exactly if the slot is damaged. -/
theorem any_isDamage_events : (slot : Element) →
    slot.events.any Event.isDamage = slot.isDamaged
  | .node _ _ children => by simp [Event.isDamage, any_isDamage_eventsAll children]
  | .token _ => by simp [Event.isDamage]
  | .missing _ _ => by simp [Event.isDamage]
  | .absent => by simp

theorem any_isDamage_eventsAll : (slots : List Element) →
    (eventsAll slots).any Event.isDamage = anyDamaged slots
  | [] => by simp
  | first :: rest => by simp [any_isDamage_events first, any_isDamage_eventsAll rest]

end

/-! ## The parenthesised form -/

mutual

/-- How a slot is written, unless it is absent or an end mark: a node as its kind and its slots
in parentheses, a token as its text. -/
def written? : Element → Option String
  | .node kind _ children => some ("(" ++ kind.name ++ writtenAll children ++ ")")
  | .token found => if found.kind = .eof then none else some found.text
  | .missing expected _ => some ("<missing " ++ expected.describe ++ ">")
  | .absent => none

/-- How some slots are written, each with one space before it. -/
def writtenAll : List Element → String
  | [] => ""
  | first :: rest => (written? first).elim "" (" " ++ ·) ++ writtenAll rest

end

@[simp] theorem writtenAll_nil : writtenAll [] = "" := by
  simp [writtenAll]

@[simp] theorem writtenAll_cons (first : Element) (rest : List Element) :
    writtenAll (first :: rest) = first.written?.elim "" (" " ++ ·) ++ writtenAll rest := by
  simp [writtenAll]

@[simp] theorem written?_node (kind : NodeKind) (span : Span) (children : List Element) :
    (node kind span children).written? =
      some ("(" ++ kind.name ++ writtenAll children ++ ")") := by
  simp [written?]

@[simp] theorem written?_token (found : Token) :
    (token found).written? = if found.kind = .eof then none else some found.text := by
  simp [written?]

@[simp] theorem written?_missing (expected : TokenKind) (span : Span) :
    (missing expected span).written? = some ("<missing " ++ expected.describe ++ ">") := by
  simp [written?]

@[simp] theorem written?_absent : absent.written? = none := by
  simp [written?]

end Element

namespace Node

/-- A word is set off by a space where something stands before it. -/
theorem appendWord_of_ne {text : String} (filled : text ≠ "") (word : String) :
    appendWord text word = text ++ " " ++ word := by
  simp [appendWord, String.isEmpty_iff, filled]

theorem append_ne_empty {text : String} (filled : text ≠ "") (more : String) :
    text ++ more ≠ "" := by
  simp [filled]

end Node

namespace Element

open Node

mutual

/-- The events of a slot print it behind what is printed already. -/
theorem foldl_dumpEvent_events : (slot : Element) → {text : String} → text ≠ "" →
    slot.events.foldl dumpEvent text = text ++ slot.written?.elim "" (" " ++ ·)
  | .node kind _ children, text, filled => by
      have opened : text ++ " " ++ ("(" ++ kind.name) ≠ "" :=
        append_ne_empty (append_ne_empty filled _) _
      rw [events_node, List.foldl_cons, List.foldl_append, dumpEvent, appendWord_of_ne filled,
        foldl_dumpEvent_eventsAll children opened, written?_node]
      simp [dumpEvent, String.append_assoc]
  | .token found, text, filled => by
      by_cases mark : found.kind = .eof <;>
        simp [dumpEvent, mark, appendWord_of_ne filled, String.append_assoc]
  | .missing _ _, text, filled => by
      simp [dumpEvent, appendWord_of_ne filled, String.append_assoc]
  | .absent, text, _ => by simp

theorem foldl_dumpEvent_eventsAll : (slots : List Element) → {text : String} → text ≠ "" →
    (eventsAll slots).foldl dumpEvent text = text ++ writtenAll slots
  | [], text, _ => by simp
  | first :: rest, text, filled => by
      rw [eventsAll_cons, List.foldl_append, foldl_dumpEvent_events first filled,
        foldl_dumpEvent_eventsAll rest (append_ne_empty filled _), writtenAll_cons,
        String.append_assoc]

end

end Element

namespace Node

/-- What is printed event by event is the tree as it is written slot by slot. -/
theorem dump_eq_written (node : Node) :
    node.dump = "(" ++ node.kind.name ++ Element.writtenAll node.children ++ ")" := by
  have opened : "(" ++ node.kind.name ≠ "" := append_ne_empty (by decide) _
  rw [dump, ← Array.foldl_toList, toList_events, toElement, Element.events_node, List.foldl_cons,
    List.foldl_append, show dumpEvent "" (.enter ⟨node.kind, node.span, node.children⟩) =
      "(" ++ node.kind.name from rfl,
    Element.foldl_dumpEvent_eventsAll node.children opened]
  rfl

/-- The traversals of a tree, each with its own stack, are recursions over the tree: the walk
meets the events of the recursion, the tokens and the nodes are those that the walk meets, a
tree has errors if the walk enters an error node or meets a missing token, and the
parenthesised form is written slot by slot. -/
theorem traversals_recursive (node : Node) :
    node.events.toList = node.toElement.events ∧
      node.tokens = node.events.toList.filterMap Event.token? ∧
      node.descendants = node.events.toList.filterMap Event.entered? ∧
      (node.hasErrors = true ↔
        (∃ below, .enter below ∈ node.events.toList ∧ below.kind = .error) ∨
          ∃ expected span, .missing expected span ∈ node.events.toList) ∧
      some node.dump = node.toElement.written? := by
  have walked := node.toList_events
  refine ⟨walked, ?_, ?_, ?_, ?_⟩
  · rw [walked, Element.filterMap_token?_events, tokens_eq_yieldAll, toElement,
      Element.yield_node]
  · rw [walked, Element.filterMap_entered?_events, descendants_eq_nodes, toElement,
      Element.nodes_node]
  · have damage : node.hasErrors = node.events.toList.any Event.isDamage := by
      rw [walked, Element.any_isDamage_events, hasErrors_eq, toElement, Element.isDamaged_node]
    rw [damage, List.any_eq_true]
    constructor
    · rintro ⟨event, met, isDamage⟩
      cases event with
      | enter below => exact .inl ⟨below, met, beq_iff_eq.mp isDamage⟩
      | missing expected span => exact .inr ⟨expected, span, met⟩
      | token | exit => cases isDamage
    · rintro (⟨below, met, isError⟩ | ⟨expected, span, met⟩)
      · exact ⟨.enter below, met, beq_iff_eq.mpr isError⟩
      · exact ⟨.missing expected span, met, rfl⟩
  · rw [dump_eq_written, toElement, Element.written?_node]

end Node

end JavaSyntax
