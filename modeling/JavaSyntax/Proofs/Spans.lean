import Mathlib
import JavaSyntax.Proofs.Lexing.Order
import JavaSyntax.Proofs.Lossless
import JavaSyntax.Proofs.Reading.Items
import JavaSyntax.Proofs.Tree.Nodes
import JavaSyntax.Source

/-!
# Where the nodes of a tree stand

The slots of a node stand in order, and the node reaches from the first of them that has
a place to the last.  A node without such a slot takes up no room.  That holds after
damage as well: a token that was made up for and an error node that holds nothing stand
where the last token read ends, so behind everything built so far and before everything
to come.

The invariant of a reading is that the slots under construction stand in order and end
where the last token read does.
-/

namespace JavaSyntax

namespace Span

/-- One span lies in another. -/
def Within (inner outer : Span) : Prop :=
  outer.offset ≤ inner.offset ∧ inner.stop ≤ outer.stop

instance (inner outer : Span) : Decidable (inner.Within outer) :=
  inferInstanceAs (Decidable (_ ∧ _))

theorem Within.trans {first second third : Span} (left : first.Within second)
    (right : second.Within third) : first.Within third :=
  ⟨Nat.le_trans right.1 left.1, Nat.le_trans left.2 right.2⟩

/-- Spans in order: each ends before those after it start. -/
def Ordered (spans : List Span) : Prop :=
  spans.Pairwise fun earlier later => earlier.stop ≤ later.offset

theorem offset_le_stop (span : Span) : span.offset ≤ span.stop :=
  Nat.le_add_right _ _

namespace Ordered

variable {spans : List Span} {first last span : Span}

theorem offset_le (ordered : Ordered (first :: spans)) (member : span ∈ first :: spans) :
    first.offset ≤ span.offset := by
  cases member with
  | head => exact Nat.le_refl _
  | tail _ member =>
      exact Nat.le_trans first.offset_le_stop (List.rel_of_pairwise_cons ordered member)

theorem le_stop (ordered : Ordered spans) (final : spans.getLast? = some last)
    (member : span ∈ spans) : span.stop ≤ last.stop := by
  obtain ⟨earlier, rfl⟩ := List.getLast?_eq_some_iff.mp final
  have before := (List.pairwise_append.mp ordered).2.2
  rcases List.mem_append.mp member with member | member
  · exact Nat.le_trans (before span member last List.mem_cons_self) last.offset_le_stop
  · obtain rfl := List.mem_singleton.mp member
    exact Nat.le_refl _

end Ordered

end Span

namespace Element

/-- The spans of the slots that have a place, in order. -/
def places (slots : List Element) : List Span :=
  slots.filterMap span?

@[simp] theorem places_append (left right : List Element) :
    places (left ++ right) = places left ++ places right := by
  simp [places]

@[simp] theorem places_absent (rest : List Element) : places (absent :: rest) = places rest := rfl

theorem places_cons {slot : Element} {span : Span} (place : slot.span? = some span)
    (rest : List Element) : places (slot :: rest) = span :: places rest := by
  simp [places, place]

@[simp] theorem places_reverse (slots : List Element) :
    places slots.reverse = (places slots).reverse := by
  simp [places, List.filterMap_reverse]

end Element

namespace Node

/-- The spans of the slots of a node that have a place, in order. -/
def places (node : Node) : List Span :=
  Element.places node.children

/-- The slots of a node stand in order, and it reaches from the first to the last of
them. -/
structure Covers (node : Node) : Prop where
  ordered : Span.Ordered node.places
  starts : ∀ first ∈ node.places.head?, node.span.offset = first.offset
  stops : ∀ last ∈ node.places.getLast?, node.span.stop = last.stop
  hollow : node.places = [] → node.span.length = 0

theorem Covers.within {node : Node} (covers : node.Covers) {span : Span}
    (member : span ∈ node.places) : span.Within node.span := by
  obtain ⟨ordered, starts, stops, -⟩ := covers
  have final := List.getLast?_eq_some_getLast (List.ne_nil_of_mem member)
  refine ⟨?_, stops _ final ▸ ordered.le_stop final member⟩
  cases listed : node.places with
  | nil => simp [listed] at member
  | cons first rest =>
      rw [listed] at member ordered
      rw [starts first (by simp [listed])]
      exact ordered.offset_le member

/-- A node whose slots have no place stands where it is built. -/
theorem span_spanning_of_hollow {children : List Element} (hollow : Element.places children = [])
    (kind : NodeKind) (fallback : Span) : (spanning kind children fallback).span = fallback := by
  have nowhere : children.findSome? Element.span? = none := by
    rw [← List.head?_filterMap]
    exact congrArg List.head? hollow
  simp [spanning, spanOf, nowhere]

/-- A node built from slots in order covers them. -/
theorem covers_spanning (kind : NodeKind) {children : List Element}
    (ordered : Span.Ordered (Element.places children)) (offset : Nat) :
    (spanning kind children (.point offset)).Covers := by
  have listed : (spanning kind children (.point offset)).places = Element.places children := rfl
  cases known : Element.places children with
  | nil =>
      rw [known] at listed
      refine ⟨listed ▸ .nil, ?_, ?_, ?_⟩
      · intro first member
        simp [listed] at member
      · intro last member
        simp [listed] at member
      · intro _
        rw [span_spanning_of_hollow known]
        rfl
  | cons first rest =>
      rw [known] at listed ordered
      obtain ⟨last, final⟩ : ∃ last, (first :: rest).getLast? = some last :=
        ⟨_, List.getLast?_eq_some_getLast (List.cons_ne_nil first rest)⟩
      have span : (spanning kind children (.point offset)).span = first.join last := by
        have head : children.findSome? Element.span? = some first := by
          rw [← List.head?_filterMap]
          exact congrArg List.head? known
        have tail : children.reverse.findSome? Element.span? = some last := by
          rw [← List.getLast?_filterMap]
          exact (congrArg List.getLast? known).trans final
        simp only [spanning, spanOf, head, tail]
      have starts := ordered.offset_le (List.mem_of_getLast? final)
      have stops := ordered.le_stop final List.mem_cons_self
      refine ⟨listed ▸ ordered, ?_, ?_, ?_⟩ <;> rw [listed]
      · intro other member
        obtain rfl := Option.some.inj member
        rw [span]
        exact Nat.min_eq_left starts
      · intro other member
        obtain rfl := Option.some.inj (final.symm.trans member)
        rw [span, Span.stop_join]
        exact Nat.max_eq_right stops
      · exact fun empty => absurd empty (List.cons_ne_nil first rest)

end Node

namespace Element

mutual

/-- A slot reaches over all tokens and nodes below, if every node covers its slots. -/
theorem span?_covers : (slot : Element) → (∀ node ∈ slot.nodes, node.Covers) →
    (∀ token ∈ slot.yield, ∃ span ∈ slot.span?, token.span.Within span) ∧
      ∀ node ∈ slot.nodes, ∃ span ∈ slot.span?, node.span.Within span
  | .node kind span children, covers => by
      have below := places_cover children fun node member =>
        covers node (by simp [member])
      have whole : Node.Covers ⟨kind, span, children⟩ := covers _ (by simp)
      refine ⟨?_, ?_⟩
      · intro token member
        obtain ⟨inner, among, inside⟩ := below.1 token (by simpa using member)
        exact ⟨span, rfl, inside.trans (whole.within among)⟩
      · intro node member
        rw [nodes_node] at member
        cases member with
        | head => exact ⟨span, rfl, Nat.le_refl _, Nat.le_refl _⟩
        | tail _ member =>
            obtain ⟨inner, among, inside⟩ := below.2 node member
            exact ⟨span, rfl, inside.trans (whole.within among)⟩
  | .token found, _ => by
      refine ⟨?_, by simp⟩
      intro token member
      obtain rfl : token = found := by simpa using member
      exact ⟨token.span, rfl, Nat.le_refl _, Nat.le_refl _⟩
  | .missing _ _, _ | .absent, _ => by simp

/-- Slots reach over all tokens and nodes below, if every node covers its slots. -/
theorem places_cover : (slots : List Element) → (∀ node ∈ nodesAll slots, node.Covers) →
    (∀ token ∈ yieldAll slots, ∃ span ∈ places slots, token.span.Within span) ∧
      ∀ node ∈ nodesAll slots, ∃ span ∈ places slots, node.span.Within span
  | [], _ => by simp
  | first :: rest, covers => by
      have one := span?_covers first fun node member => covers node (by simp [member])
      have others := places_cover rest fun node member => covers node (by simp [member])
      have head {span : Span} (place : span ∈ first.span?) : span ∈ places (first :: rest) :=
        List.mem_filterMap.mpr ⟨first, List.mem_cons_self, place⟩
      have tail {span : Span} (place : span ∈ places rest) : span ∈ places (first :: rest) := by
        obtain ⟨slot, member, place⟩ := List.mem_filterMap.mp place
        exact List.mem_filterMap.mpr ⟨slot, List.mem_cons_of_mem _ member, place⟩
      refine ⟨?_, ?_⟩
      · intro token member
        rw [yieldAll_cons, List.mem_append] at member
        rcases member with member | member
        · obtain ⟨span, place, inside⟩ := one.1 token member
          exact ⟨span, head place, inside⟩
        · obtain ⟨span, place, inside⟩ := others.1 token member
          exact ⟨span, tail place, inside⟩
      · intro node member
        rw [nodesAll_cons, List.mem_append] at member
        rcases member with member | member
        · obtain ⟨span, place, inside⟩ := one.2 node member
          exact ⟨span, head place, inside⟩
        · obtain ⟨span, place, inside⟩ := others.2 node member
          exact ⟨span, tail place, inside⟩

end

/-- Slots, latest first, that stand in order, end by `bound`, and hold only nodes that
cover their slots. -/
structure Laid (slots : List Element) (bound : Nat) : Prop where
  ordered : Span.Ordered (places slots.reverse)
  ends : ∀ span ∈ places slots, span.stop ≤ bound
  covers : ∀ node ∈ nodesAll slots, node.Covers

namespace Laid

variable {slots : List Element} {bound start : Nat}

theorem nil (bound : Nat) : Laid [] bound :=
  ⟨.nil, by simp [places], by simp⟩

/-- Slots may be taken away. -/
theorem sublist {fewer : List Element} (laid : Laid slots bound) (among : fewer.Sublist slots) :
    Laid fewer bound where
  ordered := laid.ordered.sublist (among.reverse.filterMap _)
  ends := fun span member => laid.ends span ((among.filterMap _).subset member)
  covers := by
    intro node member
    obtain ⟨slot, place, below⟩ := mem_nodesAll.mp member
    exact laid.covers node (mem_nodesAll.mpr ⟨slot, among.subset place, below⟩)

/-- An absent slot may stand anywhere. -/
theorem insert_absent {before : List Element} (laid : Laid (before ++ slots) bound) :
    Laid (before ++ absent :: slots) bound where
  ordered := by simpa using laid.ordered
  ends := by simpa using laid.ends
  covers := by
    intro node member
    obtain ⟨slot, place, below⟩ := mem_nodesAll.mp member
    refine laid.covers node (mem_nodesAll.mpr ⟨slot, ?_, below⟩)
    rcases List.mem_append.mp place with place | place
    · exact List.mem_append_left _ place
    · cases place with
      | head => simp at below
      | tail _ place => exact List.mem_append_right _ place

/-- A slot that starts behind the others may be put there. -/
theorem push {slot : Element} {span : Span} (laid : Laid slots start)
    (place : slot.span? = some span) (behind : start ≤ span.offset) (within : span.stop ≤ bound)
    (covers : ∀ node ∈ slot.nodes, node.Covers) : Laid (slot :: slots) bound where
  ordered := by
    rw [List.reverse_cons, places_append, places_cons place]
    refine List.pairwise_append.mpr ⟨laid.ordered, List.pairwise_singleton _ _, ?_⟩
    intro earlier member later last
    obtain rfl := List.mem_singleton.mp last
    rw [places_reverse, List.mem_reverse] at member
    exact Nat.le_trans (laid.ends earlier member) behind
  ends := by
    intro other member
    rw [places_cons place] at member
    cases member with
    | head => exact within
    | tail _ member =>
        have before := laid.ends other member
        have room := span.offset_le_stop
        omega
  covers := by
    intro node member
    rw [nodesAll_cons, List.mem_append] at member
    exact member.elim (covers node) (laid.covers node)

/-- Slots may be closed into a node; one that has no place stands at `offset`. -/
theorem close {children : List Element} {offset : Nat}
    (laid : Laid (children.reverse ++ slots) bound) (kind : NodeKind)
    (behind : ∀ span ∈ places slots, span.stop ≤ offset) (within : offset ≤ bound) :
    Laid ((Node.spanning kind children (.point offset)).toElement :: slots) bound := by
  obtain ⟨ordered, ends, covers⟩ := laid
  rw [List.reverse_append, List.reverse_reverse, places_append] at ordered
  rw [places_append, places_reverse] at ends
  obtain ⟨earlier, inner, before⟩ := List.pairwise_append.mp ordered
  have whole := Node.covers_spanning kind inner offset
  have below {node : Node} {slot : Element} (place : slot ∈ children.reverse ++ slots)
      (member : node ∈ slot.nodes) : node.Covers :=
    covers node (mem_nodesAll.mpr ⟨slot, place, member⟩)
  have reach : (∀ span ∈ places slots,
        span.stop ≤ (Node.spanning kind children (.point offset)).span.offset) ∧
      (Node.spanning kind children (.point offset)).span.stop ≤ bound := by
    cases known : places children with
    | nil =>
        rw [Node.span_spanning_of_hollow known]
        exact ⟨behind, within⟩
    | cons first rest =>
        obtain ⟨last, final⟩ : ∃ last, (places children).getLast? = some last :=
          ⟨_, List.getLast?_eq_some_getLast (known ▸ List.cons_ne_nil first rest)⟩
        rw [whole.starts first (by simp [Node.places, known]), whole.stops last final]
        refine ⟨fun span member => before span (by simpa using member) first (by simp [known]), ?_⟩
        have among := List.mem_reverse.mpr (List.mem_of_getLast? final)
        exact ends last (List.mem_append_left _ among)
  have earlier : Laid slots (Node.spanning kind children (.point offset)).span.offset := by
    refine ⟨earlier, reach.1, ?_⟩
    intro node member
    obtain ⟨slot, place, inside⟩ := mem_nodesAll.mp member
    exact below (List.mem_append_right _ place) inside
  refine earlier.push rfl (Nat.le_refl _) reach.2 ?_
  intro node member
  rw [Node.toElement, nodes_node] at member
  cases member with
  | head => exact whole
  | tail _ member =>
      obtain ⟨slot, place, inside⟩ := mem_nodesAll.mp member
      exact below (List.mem_append_left _ (List.mem_reverse.mpr place)) inside

end Laid

end Element

/-- Tokens in order that end by `length`: none reaches into the next one. -/
structure Context.Spaced (context : Context) (length : Nat) : Prop where
  apart : ∀ index, (context.get index).stop ≤ (context.get (index + 1)).start
  within : ∀ index, (context.get index).stop ≤ length

/-- What a reading keeps: its slots are laid out up to where the last token read ends. -/
def State.Laid (context : Context) (state : State) : Prop :=
  Element.Laid state.slots (state.here context).offset

namespace State

/-- What is built without a token takes up no room. -/
theorem here_eq_point (context : Context) (state : State) :
    state.here context = .point (state.here context).offset := by
  unfold here
  split <;> rfl

variable {context : Context} {length : Nat} (spaced : context.Spaced length)

include spaced

theorem here_le_start (state : State) :
    (state.here context).offset ≤ (state.current context).start := by
  unfold here
  split
  · exact Nat.le_refl _
  · have before := spaced.apart (state.position - 1)
    rwa [Nat.sub_add_cancel (by omega)] at before

theorem here_le (state : State) : (state.here context).offset ≤ length := by
  have before := state.here_le_start spaced
  have room := (state.current context).span.offset_le_stop
  have inside := spaced.within state.position
  simp only [current, Token.start, Token.stop] at *
  omega

/-- The current token is read behind everything built so far. -/
theorem laid_takeAny {state : State} (laid : state.Laid context) :
    Element.Laid (state.takeAny context).slots (state.current context).stop :=
  Element.Laid.push laid rfl (state.here_le_start spaced) (Nat.le_refl _) (by simp)

end State

/-- Every sequence of moves keeps the slots laid out, those behind the frame among them. -/
theorem Moves.laid_onto {context : Context} {length : Nat} (spaced : context.Spaced length)
    {before after : State} (moves : Moves context .any before after) (base : List Element)
    (laid : (before.onto base).Laid context) : (after.onto base).Laid context := by
  induction moves generalizing base with
  | refl state => exact laid
  | trans _ _ left right => exact right base (left base laid)
  | @frame before after more _ inner =>
      have joined (state : State) : (state.onto more).onto base = state.onto (more ++ base) := by
        simp [State.onto]
      rw [joined] at laid ⊢
      exact inner (more ++ base) laid
  | @discard before after inner still _ =>
      have same : after.position = before.position := Nat.le_antisymm still inner.forward_any
      have place : after.here context = before.here context := by
        rw [State.here, State.here, State.current, State.current, same]
      change Element.Laid (before.slots ++ base) (after.here context).offset
      rw [place]
      exact laid
  | take state more =>
      have taken : ((state.takeAny context).onto base).here context =
          .point (state.current context).stop := by
        simp [State.here, State.onto, State.position_takeAny more, State.current]
      rw [State.Laid, taken]
      exact State.laid_takeAny spaced laid
  | absent state => exact @Element.Laid.insert_absent _ _ [] laid
  | absentFirst state =>
      change Element.Laid ((state.slots ++ [.absent]) ++ base) (state.here context).offset
      rw [List.append_assoc]
      exact Element.Laid.insert_absent laid
  | dropAbsent state =>
      unfold State.dropAbsent
      split
      · rename_i rest slots
        refine Element.Laid.sublist laid ?_
        simp [State.onto, slots]
      · exact laid
  | dropErrors state => exact laid.sublist (List.Sublist.append_right List.filter_sublist base)
  | missing state kind _ =>
      refine Element.Laid.push laid rfl (Nat.le_refl _) ?_ (by simp)
      change (state.here context).stop ≤ (state.here context).offset
      rw [state.here_eq_point context]
      exact Nat.le_refl _
  | report state error _ => exact laid
  | @close state kind _ =>
      have slots : Element.Laid (state.gathered.reverse ++ base) (state.here context).offset := by
        rw [State.gathered, List.reverse_reverse]
        exact laid
      have closed := slots.close kind
        (fun span member => slots.ends span (by simp [member])) (Nat.le_refl _)
      rw [← state.here_eq_point context] at closed
      exact closed
  | call admitted => exact admitted.elim

theorem Moves.laid {context : Context} {length : Nat} (spaced : context.Spaced length)
    {before after : State} (moves : Moves context .any before after)
    (laid : before.Laid context) : after.Laid context := by
  have whole (state : State) : state.onto [] = state := by simp [State.onto]
  rw [← whole after]
  exact moves.laid_onto spaced [] (by rwa [whole])

/-! ## Whole parses -/

/-- Where a node of a source text of some length stands: it covers its slots, all tokens
below lie in it, and it lies in the text. -/
structure Node.Stands (length : Nat) (node : Node) : Prop where
  covers : node.Covers
  slots : ∀ span ∈ node.places, span.Within node.span
  tokens : ∀ token ∈ node.tokens, token.span.Within node.span
  inside : node.span.Within ⟨0, length⟩

namespace State

variable {context : Context} {length : Nat} (spaced : context.Spaced length)

include spaced

theorem abandon_laid (state : State) (error : SyntaxError) (laid : state.Laid context) :
    (state.abandon context error).Laid context :=
  (sweep_moves _).laid spaced laid

theorem readUnit_laid : (readUnit context ⟨0, [], []⟩).Laid context :=
  readUnit_kept (fun _ read laid => (read_moves _ read).laid spaced laid) (abandon_laid spaced)
    (.nil _)

theorem readExpression_laid : (readExpression context ⟨0, [], []⟩).Laid context := by
  unfold readExpression
  split
  · rename_i after read
    have laid : after.Laid context := (read_moves _ read).laid spaced (.nil _)
    dsimp only
    split
    · exact laid
    · refine (sweep_moves _).laid spaced ?_
      split
      · rename_i reported recorded
        exact (report_moving _ _ _ recorded).laid spaced laid
      · exact laid
  · exact abandon_laid spaced _ _ (.nil _)

/-- Every node of a finished parse stands in its place. -/
theorem stands_finishParse {state : State} (laid : state.Laid context) (kind : NodeKind) :
    ∀ node ∈ (state.finishParse context kind).root.descendants, node.Stands length := by
  have taken := laid_takeAny spaced laid
  have slots : Element.Laid ((state.takeAny context).gathered.reverse ++ []) length := by
    rw [List.append_nil, gathered, List.reverse_reverse]
    exact ⟨taken.ordered,
      fun span member => Nat.le_trans (taken.ends span member) (spaced.within _), taken.covers⟩
  have closed := slots.close kind (by simp [Element.places])
    ((state.takeAny context).here_le spaced)
  rw [← here_eq_point] at closed
  intro node member
  rw [Node.descendants_eq_nodes] at member
  have among : node ∈ Element.nodesAll [(state.finishParse context kind).root.toElement] := by
    simpa [Node.toElement] using member
  have covers := closed.covers node among
  obtain ⟨span, place, inside⟩ := (Element.places_cover _ closed.covers).2 node among
  refine ⟨covers, fun span => covers.within, ?_, ⟨Nat.zero_le _, ?_⟩⟩
  · intro token below
    rw [Node.tokens_eq_yieldAll] at below
    obtain ⟨inner, place, within⟩ := (Element.places_cover node.children fun other inside =>
      closed.covers other (Element.mem_nodesAll_of_below inside _ among)).1 token below
    exact within.trans (covers.within place)
  · have bound := closed.ends span place
    exact Nat.le_trans inside.2 (Nat.le_trans bound (Nat.le_add_left _ _))

end State

/-- The tokens of a source text are spaced. -/
theorem Context.spaced_ofTokens {source : String} {tokens : List Token}
    (lexed : Token.lex source = .ok tokens) (config : Config) :
    (Context.ofTokens tokens config).Spaced source.utf8ByteSize := by
  obtain ⟨apart, last⟩ := Token.lex_apart lexed
  have beyond {index : Nat} (outside : tokens[index]? = none) :
      (ofTokens tokens config).get index = .endMark source.utf8ByteSize := by
    simp [get, ofTokens, Array.getD_eq_getD_getElem?, outside, endMarkOf, last, Token.endMark]
  have among {index : Nat} {token : Token} (found : tokens[index]? = some token) :
      (ofTokens tokens config).get index = token := by
    simp [get, ofTokens, Array.getD_eq_getD_getElem?, found]
  have within (index : Nat) :
      ((ofTokens tokens config).get index).stop ≤ source.utf8ByteSize := by
    cases found : tokens[index]? with
    | none =>
        rw [beyond found]
        exact Nat.le_refl _
    | some token =>
        rw [among found]
        obtain ⟨earlier, rfl⟩ := List.getLast?_eq_some_iff.mp last
        rcases List.mem_append.mp (List.mem_of_getElem? found) with member | member
        · exact (List.pairwise_append.mp apart).2.2 token member _ List.mem_cons_self
        · obtain rfl := List.mem_singleton.mp member
          exact Nat.le_refl _
  refine ⟨?_, within⟩
  intro index
  cases next : tokens[index + 1]? with
  | none =>
      rw [beyond next]
      exact within index
  | some later =>
      obtain ⟨bound, rfl⟩ := List.getElem?_eq_some_iff.mp next
      rw [among next, among (List.getElem?_eq_getElem (Nat.lt_of_succ_lt bound))]
      exact List.pairwise_iff_getElem.mp apart index (index + 1) _ bound (Nat.lt_succ_self index)

/-- In the tree of every source text that lexes, parsed as a source file or as an
expression and with any configuration, the slots of each node stand in order, the node
reaches from the first to the last of them and lies in the text. -/
theorem parse_stands {source : String} {tokens : List Token}
    (lexed : Token.lex source = .ok tokens) (config : Config) :
    (∃ parse, parseUnit source config = .ok parse ∧
      ∀ node ∈ parse.root.descendants, node.Stands source.utf8ByteSize) ∧
    ∃ parse, parseExpression source config = .ok parse ∧
      ∀ node ∈ parse.root.descendants, node.Stands source.utf8ByteSize := by
  have spaced := Context.spaced_ofTokens lexed config
  refine ⟨⟨(Session.start tokens config).parseUnit.1, ?_, ?_⟩,
    ⟨(Session.start tokens config).parseExpression.1, ?_, ?_⟩⟩
  · rw [parseUnit, lexed]
    rfl
  · exact State.stands_finishParse spaced (State.readUnit_laid spaced) .compilationUnit
  · rw [parseExpression, lexed]
    rfl
  · exact State.stands_finishParse spaced (State.readExpression_laid spaced) .expressionRoot

/-- The theorem at a parenthesis that nothing follows: what is made up for stands at the end
of the text. -/
theorem parse_stands_openParenthesis :
    Token.lex "(" = .ok [⟨.lParen, "(", ⟨0, 1⟩⟩, .endMark 1] ∧
      ∃ parse, parseExpression "(" {} = .ok parse ∧
        (∀ node ∈ parse.root.descendants, node.Stands "(".utf8ByteSize) ∧
        ∃ node ∈ parse.root.descendants, .missing .rParen (.point 1) ∈ node.children := by
  have lexed : Token.lex "(" = .ok [⟨.lParen, "(", ⟨0, 1⟩⟩, .endMark 1] := by cbv
  obtain ⟨parse, parsed, stands⟩ := (parse_stands lexed {}).2
  refine ⟨lexed, parse, parsed, stands, ?_⟩
  rw [parseExpression, lexed] at parsed
  obtain rfl := Except.ok.inj parsed
  rw [Node.descendants_eq_nodes]
  decide +kernel

end JavaSyntax
