import JavaSyntax.Proofs.Tree.Yield

/-!
# The walk over a tree by recursion

The walk over a tree keeps its own stack of open nodes.  What it meets is the list of
events defined here by recursion on the slots.
-/

namespace JavaSyntax

/-- The token that a walk meets, if it meets one. -/
def Event.token? : Event → Option Token
  | .token found => some found
  | _ => none

namespace Element

mutual

/-- What a walk meets in a slot, in source order. -/
def events : Element → List Event
  | .node kind span children =>
      .enter ⟨kind, span, children⟩ :: (eventsAll children ++ [.exit ⟨kind, span, children⟩])
  | .token found => [.token found]
  | .missing expected span => [.missing expected span]
  | .absent => []

/-- What a walk meets in some slots, in source order. -/
def eventsAll : List Element → List Event
  | [] => []
  | first :: rest => events first ++ eventsAll rest

end

@[simp] theorem eventsAll_nil : eventsAll [] = [] := by
  simp [eventsAll]

@[simp] theorem eventsAll_cons (first : Element) (rest : List Element) :
    eventsAll (first :: rest) = first.events ++ eventsAll rest := by
  simp [eventsAll]

@[simp] theorem events_node (kind : NodeKind) (span : Span) (children : List Element) :
    (node kind span children).events =
      .enter ⟨kind, span, children⟩ :: (eventsAll children ++ [.exit ⟨kind, span, children⟩]) := by
  simp [events]

@[simp] theorem events_token (found : Token) : (token found).events = [.token found] := by
  simp [events]

@[simp] theorem events_missing (expected : TokenKind) (span : Span) :
    (missing expected span).events = [.missing expected span] := by
  simp [events]

@[simp] theorem events_absent : absent.events = [] := by
  simp [events]

@[simp] theorem eventsAll_append (left right : List Element) :
    eventsAll (left ++ right) = eventsAll left ++ eventsAll right := by
  induction left with
  | nil => simp
  | cons first rest ih => simp [ih, List.append_assoc]

mutual

/-- A walk over a slot meets its tokens. -/
theorem filterMap_token?_events : (slot : Element) →
    slot.events.filterMap Event.token? = slot.yield
  | .node _ _ children => by
      simp [List.filterMap_cons, Event.token?, filterMap_token?_eventsAll children]
  | .token _ => by simp [Event.token?]
  | .missing _ _ => by simp [List.filterMap_cons, Event.token?]
  | .absent => by simp

theorem filterMap_token?_eventsAll : (slots : List Element) →
    (eventsAll slots).filterMap Event.token? = yieldAll slots
  | [] => by simp
  | first :: rest => by
      simp [filterMap_token?_events first, filterMap_token?_eventsAll rest]

end

end Element

namespace Node

/-- Walking on from a stack meets the slots not yet visited and leaves every open node. -/
theorem toList_eventsFrom (met : Array Event) (stack : List (Node × List Element)) :
    (eventsFrom met stack).toList =
      met.toList ++ stack.flatMap fun (node, slots) => Element.eventsAll slots ++ [.exit node] := by
  fun_induction eventsFrom met stack with
  | case1 met => simp
  | case2 met node stack ih => simpa using ih
  | case3 met node kind span children rest stack ih => simpa using ih
  | case4 met node token rest stack ih => simpa using ih
  | case5 met node expected span rest stack ih => simpa using ih
  | case6 met node rest stack ih => simpa using ih

/-- A walk over a tree meets what it meets in the slot that is the whole tree. -/
theorem toList_events (node : Node) : node.events.toList = node.toElement.events := by
  simp [events, toList_eventsFrom, toElement]

end Node

end JavaSyntax
