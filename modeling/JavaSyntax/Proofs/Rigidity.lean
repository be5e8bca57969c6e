import JavaSyntax.Proofs.Spans
import JavaSyntax.Proofs.StableSlots
import JavaSyntax.Proofs.Tree.Sketch
import JavaSyntax.Proofs.Lexing.Splitting

/-!
# Where trees stand

In a tree that is read without errors, each node stands where its tokens stand: it holds some,
nothing in it is made up, and it reaches from the first of them to the last.  So a tree of the
same shape whose tokens stand farther to the right is the same tree farther to the right.
-/

namespace JavaSyntax

theorem Token.map_moved_zero (tokens : List Token) : tokens.map (moved 0) = tokens :=
  (List.map_congr_left fun _ _ => rfl).trans (List.map_id _)

namespace Element

mutual

/-- A slot farther to the right. -/
def moved (distance : Nat) : Element → Element
  | .node kind span children => .node kind (span.moved distance) (movedAll distance children)
  | .token found => .token (found.moved distance)
  | .missing expected span => .missing expected (span.moved distance)
  | .absent => .absent

/-- Some slots farther to the right. -/
def movedAll (distance : Nat) : List Element → List Element
  | [] => []
  | first :: rest => moved distance first :: movedAll distance rest

end

theorem movedAll_eq_map (distance : Nat) (slots : List Element) :
    movedAll distance slots = slots.map (moved distance) := by
  induction slots with
  | nil => simp [movedAll]
  | cons first rest ih => simp [movedAll, ih]

theorem span?_moved (distance : Nat) (slot : Element) :
    (slot.moved distance).span? = slot.span?.map (Span.moved distance) := by
  cases slot <;> rw [moved] <;> rfl

/-- What is moved has its places moved. -/
theorem places_map_moved (distance : Nat) (slots : List Element) :
    places (slots.map (moved distance)) = (places slots).map (Span.moved distance) := by
  induction slots with
  | nil => rfl
  | cons first rest ih =>
      have moves := span?_moved distance first
      cases place : first.span? with
      | none =>
          rw [place] at moves
          simpa [places, place, moves] using ih
      | some span =>
          rw [place] at moves
          rw [List.map_cons, places_cons moves, places_cons place, ih, List.map_cons]

end Element

/-- A node that stands where its tokens stand. -/
structure Node.Rigid (node : Node) : Prop where
  covers : node.Covers
  filled : Element.yieldAll node.children ≠ []
  whole : ∀ slot ∈ node.children, slot.isMissing = false

namespace Node.Rigid

variable {kind : NodeKind} {span span' : Span} {children : List Element} {distance : Nat}

/-- Such a node is where its slots are. -/
theorem span_eq_moved (rigid : Node.Rigid ⟨kind, span, children⟩)
    (below : ∀ node ∈ Element.nodesAll children, node.Covers)
    (rigid' : Node.Rigid ⟨kind, span', children.map (Element.moved distance)⟩) :
    span' = span.moved distance := by
  obtain ⟨token, member⟩ := List.exists_mem_of_ne_nil _ rigid.filled
  obtain ⟨inner, place, -⟩ := (Element.places_cover children below).1 token member
  have filled : Element.places children ≠ [] := List.ne_nil_of_mem place
  have head := List.head?_eq_some_head filled
  have last := List.getLast?_eq_some_getLast filled
  have starts := rigid.covers.starts _ head
  have stops := rigid.covers.stops _ last
  have same : Node.places ⟨kind, span', children.map (Element.moved distance)⟩ =
      (Element.places children).map (Span.moved distance) := Element.places_map_moved _ _
  have starts' := rigid'.covers.starts ((Element.places children).head filled |>.moved distance)
    (by rw [same, List.head?_map, head]; rfl)
  have stops' := rigid'.covers.stops ((Element.places children).getLast filled |>.moved distance)
    (by rw [same, List.getLast?_map, last]; rfl)
  obtain ⟨offset, length⟩ := span
  obtain ⟨offset', length'⟩ := span'
  simp only [Span.moved, Span.stop] at starts stops starts' stops' ⊢
  rw [Span.mk.injEq]
  omega

end Node.Rigid

namespace Element

theorem length_yield_of_sketch {slot slot' : Element} (same : slot'.sketch = slot.sketch) :
    slot'.yield.length = slot.yield.length := by
  have drawn := congrArg (List.length ∘ yield) same
  simpa [sketch, yield_redraw] using drawn

theorem length_yieldAll_of_sketch {slots slots' : List Element}
    (same : slots'.map sketch = slots.map sketch) :
    (yieldAll slots').length = (yieldAll slots).length := by
  have drawn := congrArg (List.length ∘ yieldAll) same
  change (yieldAll (slots'.map (redraw Token.sketch))).length =
    (yieldAll (slots.map (redraw Token.sketch))).length at drawn
  simpa [← redrawAll_eq_map, yieldAll_redraw] using drawn

mutual

/-- A slot of the same shape whose tokens stand farther to the right. -/
theorem eq_moved {distance : Nat} : (slot slot' : Element) → slot'.sketch = slot.sketch →
    slot'.yield = slot.yield.map (Token.moved distance) → slot.isMissing = false →
      Good Node.Rigid [slot] → Good Node.Rigid [slot'] → slot' = slot.moved distance
  | .node kind span children, slot', same, yields, _, good, good' => by
      cases slot' with
      | token | missing | absent => simp [sketch] at same
      | node kind' span' children' =>
          have here : Node.Rigid ⟨kind, span, children⟩ :=
            good _ (List.mem_singleton_self _) _ (by simp)
          have here' : Node.Rigid ⟨kind', span', children'⟩ :=
            good' _ (List.mem_singleton_self _) _ (by simp)
          simp only [sketch, redraw_node, node.injEq, true_and] at same
          obtain ⟨rfl, drawn⟩ := same
          rw [yield_node, yield_node] at yields
          have below :=
            eq_movedAll children children' drawn yields here.whole good.below good'.below
          rw [movedAll_eq_map] at below
          subst below
          have covers : ∀ node ∈ nodesAll children, node.Covers := fun node member => by
            obtain ⟨slot, among, inside⟩ := mem_nodesAll.mp member
            exact (good.below slot among node inside).covers
          rw [moved, movedAll_eq_map, here.span_eq_moved covers here']
  | .token found, slot', same, yields, _, _, _ => by
      cases slot' with
      | node | missing | absent => simp [sketch] at same
      | token found' =>
          obtain rfl : found' = found.moved distance := by simpa using yields
          rw [moved]
  | .missing _ _, _, _, _, whole, _, _ => by cases whole
  | .absent, slot', same, _, _, _, _ => by
      cases slot' with
      | node | token | missing => simp [sketch] at same
      | absent => rw [moved]

/-- Slots of the same shape whose tokens stand farther to the right. -/
theorem eq_movedAll {distance : Nat} : (slots slots' : List Element) →
    slots'.map sketch = slots.map sketch →
    yieldAll slots' = (yieldAll slots).map (Token.moved distance) →
    (∀ slot ∈ slots, slot.isMissing = false) → Good Node.Rigid slots → Good Node.Rigid slots' →
      slots' = movedAll distance slots
  | [], slots', same, _, _, _, _ => by
      rw [movedAll]
      exact List.map_eq_nil_iff.mp same
  | first :: rest, [], same, _, _, _, _ => by cases same
  | first :: rest, first' :: rest', same, yields, whole, good, good' => by
      obtain ⟨one, others⟩ := List.cons.inj same
      rw [yieldAll_cons, yieldAll_cons, List.map_append] at yields
      obtain ⟨front, back⟩ := List.append_inj yields (by
        rw [List.length_map, length_yield_of_sketch one])
      rw [movedAll, eq_moved first first' one front (whole first List.mem_cons_self) good.head
        good'.head, eq_movedAll rest rest' others back
          (fun slot member => whole slot (List.mem_cons_of_mem _ member)) good.tail good'.tail]

end

variable {slots slots' : List Element} (same : slots'.map sketch = slots.map sketch)
  (whole : ∀ slot ∈ slots, slot.isMissing = false) (good : Good Node.Rigid slots)
  (good' : Good Node.Rigid slots')

include same whole good good'

theorem eq_map_moved {distance : Nat}
    (yields : yieldAll slots' = (yieldAll slots).map (Token.moved distance)) :
    slots' = slots.map (moved distance) := by
  rw [eq_movedAll slots slots' same yields whole good good', movedAll_eq_map]

/-- Slots of the same shape with the same tokens are the same. -/
theorem eq_of_sketch (yields : yieldAll slots' = yieldAll slots) : slots' = slots := by
  have still := Token.map_moved_zero (yieldAll slots)
  rw [eq_movedAll slots slots' same (yields.trans still.symm) whole good good']
  exact (eq_movedAll slots slots rfl still.symm whole good good).symm

end Element

/-! ## Readings without errors -/

theorem Fits.not_missing {parts : List Part} {elements : List Element}
    (fits : Fits parts elements) :
    ∀ element ∈ elements, element.isMissing = false := by
  have admits {slot : Slot} {element : Element} (admitted : slot.admits element = true) :
      element.isMissing = false := by
    cases element with
    | missing => cases admitted
    | node | token | absent => rfl
  induction fits with
  | nil => simp
  | one admitted _ ih | more admitted _ ih => exact List.forall_mem_cons.mpr ⟨admits admitted, ih⟩
  | done _ ih => exact ih

/-- Nodes that have the forms of their kinds and cover their slots. -/
theorem Good.rigid {slots : List Element} (formed : Good Node.WellFormed slots)
    (covers : ∀ node ∈ Element.nodesAll slots, node.Covers) : Good Node.Rigid slots := by
  intro slot among node inside
  have here := formed slot among node inside
  refine ⟨covers node (Element.mem_nodesAll.mpr ⟨slot, among, inside⟩), ?_, ?_⟩
  · refine Element.yieldAll_ne_nil node.children here.exists_required ?_
    intro child member below found
    exact formed slot among below
      (Element.mem_nodes_of_below (Element.mem_nodesAll.mpr ⟨child, member, found⟩) slot inside)
  · obtain ⟨form, -, fits⟩ := here
    exact fits.not_missing

/-- What a rule reads without recovery is rigid. -/
theorem rigid_of_readRule {context : Context} {length depth : Nat} {rule : Rule}
    {position : Nat} {errors : List SyntaxError} {after : State} (strict : context.recovery = false)
    (spaced : context.Spaced length) (alone : (formDiscipline.signature rule).takes = [])
    (read : readRule Language.grammar depth rule context ⟨position, errors, []⟩ = .ok after) :
    Good Node.Rigid after.slots := by
  have leads := readRule_leads strict form_sound form_checks depth rule
  rw [alone] at leads
  have start : Outline.Describes ⟨context, position, []⟩ ⟨[], [], false⟩ ⟨position, errors, []⟩ :=
    .unmoved ⟨[], .nil, rfl⟩ (Nat.le_refl _)
  have formed := (leads _ _ _ rfl (absurd · Bool.false_ne_true) start Good.nil read).2
  have moves := readRule_moving Language.grammar depth rule context _ _ read
  exact formed.rigid (moves.laid spaced (Element.Laid.nil _)).covers

/-- The tokens that were read into a frame, one by one. -/
theorem Lossless.yieldAll_eq {context : Context} {position : Nat} {errors : List SyntaxError}
    {after : State} (kept : Lossless context ⟨position, errors, []⟩ after)
    (inside : after.position ≤ context.tokens.size) : Element.yieldAll after.gathered =
      (List.range (after.position - position)).map fun index => context.get (position + index) := by
  have held := kept.held
  have forward := kept.forward
  simp only [State.held, State.gathered, List.reverse_nil, Element.yieldAll_nil, List.nil_append]
    at held forward
  have sizes := congrArg List.length held
  simp only [List.length_append, List.length_drop, Array.length_toList] at sizes
  refine List.ext_getElem (by simp [State.gathered]; omega) fun index bound _ => ?_
  have found := congrArg (·[index]?) held
  simp only [State.gathered] at bound ⊢
  rw [List.getElem?_append_left bound, List.getElem?_drop, List.getElem?_eq_getElem bound] at found
  rw [List.getElem_map, List.getElem_range, Context.get, Array.getD_eq_getD_getElem?,
    ← Array.getElem?_toList, ← found, Option.getD_some]

end JavaSyntax
