import Mathlib.Data.List.Chain
import JavaSyntax.Proofs.ElseIf
import JavaSyntax.Proofs.Reading.Items
import JavaSyntax.Proofs.Tree.Nodes

/-!
# Which `if` an `else` belongs to

A statement is open if it ends with an `if` that has no `else`.  Whoever has read an open
statement does not stand before an `else`: the `if` in it would have read that.  So the
statement in front of the `else` of an `if` is never open.

This is an invariant of states, over the slots and the token to come.  A slot that is absent,
and an error that holds nothing, may be gone by the time the `else` is read, so the slots are
looked at without those.
-/

namespace JavaSyntax

/-- The nodes that end with a statement of their own. -/
def NodeKind.endingInStatement : List NodeKind :=
  [.ifStatement, .whileStatement, .labeledStatement, .basicForStatement, .enhancedForStatement]

namespace Element

/-- A statement that could still take an `else`. -/
inductive Open : Element → Prop
  | withoutElse {span : Span} {children : List Element} :
      children.getLast? = some .absent → Open (.node .ifStatement span children)
  | ending {kind : NodeKind} {span : Span} {children : List Element} {last : Element} :
      kind ∈ NodeKind.endingInStatement → children.getLast? = some last → Open last →
        Open (.node kind span children)

/-- What may follow a slot: no `else` follows an open statement. -/
def Fits (later earlier : Element) : Prop :=
  later.tokenKind? = some .kwElse → ¬Open earlier

/-- Whether a slot may be taken away before the next token is read. -/
def isIdle (slot : Element) : Bool :=
  slot.isAbsent || State.isEmptyError slot

/-- The slots that stay. -/
def lasting (slots : List Element) : List Element :=
  slots.filter (!·.isIdle)

theorem children_of_idle {kind : NodeKind} {span : Span} {children : List Element}
    (idle : (node kind span children).isIdle = true) : children = [] := by
  simp only [isIdle, isAbsent, Bool.false_or] at idle
  unfold State.isEmptyError at idle
  split at idle
  · rename_i same
    cases same
    rfl
  · cases idle

theorem not_idle_of_open {slot : Element} (isOpen : Open slot) : slot.isIdle = false := by
  refine Bool.eq_false_iff.mpr fun idle => ?_
  cases isOpen with
  | withoutElse last =>
      rw [children_of_idle idle] at last
      cases last
  | ending _ last _ =>
      rw [children_of_idle idle] at last
      cases last

theorem fits_token (later : Element) (earlier : Token) : Fits later (.token earlier) :=
  fun _ isOpen => nomatch isOpen

variable {later : Element} {slots base : List Element}

theorem lasting_append : lasting (slots ++ base) = lasting slots ++ lasting base :=
  List.filter_append ..

theorem lasting_cons {slot : Element} (lasts : slot.isIdle = false) :
    lasting (slot :: slots) = slot :: lasting slots := by
  simp [lasting, lasts]

theorem lasting_cons_idle {slot : Element} (idle : slot.isIdle = true) :
    lasting (slot :: slots) = lasting slots := by
  simp [lasting, idle]

/-- A slot that is no `else` may stand for some others, if what comes next fits on it. -/
theorem isChain_put {slot : Element} (chain : (later :: lasting (slots ++ base)).IsChain Fits)
    (lasts : slot.isIdle = false) (other : slot.tokenKind? ≠ some .kwElse)
    (fits : Fits later slot) : (later :: lasting (slot :: base)).IsChain Fits := by
  rw [lasting_append, List.isChain_cons, List.isChain_append] at chain
  rw [lasting_cons lasts, List.isChain_cons_cons, List.isChain_cons]
  exact ⟨fits, fun _ _ isElse => absurd isElse other, chain.2.2.1⟩

/-- What fits on the last slot of a node fits on the node, unless that is an `if` without
`else`. -/
theorem fits_node {kind : NodeKind} {span : Span}
    (chain : (later :: lasting (slots ++ base)).IsChain Fits)
    (complete : kind = .ifStatement → later.tokenKind? = some .kwElse →
      slots.head? ≠ some .absent) :
    Fits later (.node kind span slots.reverse) := by
  intro isElse isOpen
  cases isOpen with
  | withoutElse last => exact complete rfl isElse (by rwa [List.getLast?_reverse] at last)
  | ending _ last below =>
      rw [List.getLast?_reverse] at last
      obtain ⟨rest, rfl⟩ := List.head?_eq_some_iff.mp last
      rw [List.cons_append, lasting_cons (not_idle_of_open below), List.isChain_cons_cons] at chain
      exact chain.1 isElse below

end Element

/-- No `else` of an `if` follows an open statement. -/
def Node.ElseNearest (node : Node) : Prop :=
  node.kind = .ifStatement → ∀ front statement token rest,
    node.children = front ++ statement :: .token token :: rest → token.kind = .kwElse →
      ¬statement.Open

/-- In the nodes of a state no `else` follows an open statement, nor does one among the slots
or at the cursor. -/
structure State.Nearest (context : Context) (state : State) : Prop where
  nodes : ∀ node ∈ Element.nodesAll state.slots, node.ElseNearest
  chain : (Element.token (state.current context) :: Element.lasting state.slots).IsChain
    Element.Fits

/-- No `else` among the slots of a node follows an open statement. -/
theorem Node.elseNearest_of_chain {kind : NodeKind} {span : Span} {slots : List Element}
    (chain : (Element.lasting slots).IsChain Element.Fits) :
    (⟨kind, span, slots.reverse⟩ : Node).ElseNearest := by
  intro _ front statement token rest same isElse isOpen
  have split : slots = rest.reverse ++ (.token token :: statement :: front.reverse) := by
    rw [← List.reverse_reverse slots, show slots.reverse = _ from same]
    simp
  rw [split, Element.lasting_append, Element.lasting_cons rfl,
    Element.lasting_cons (Element.not_idle_of_open isOpen), List.isChain_append] at chain
  exact (List.isChain_cons_cons.mp chain.2.1).1 (congrArg some isElse) isOpen

/-- Whatever stands behind the frame, what is read keeps every `else` with the nearest `if`. -/
structure KeepsNearest (context : Context) (before after : State) : Prop where
  forward : before.position ≤ after.position
  keeps : ∀ base, (before.onto base).Nearest context → (after.onto base).Nearest context

theorem KeepsNearest.ofTrial {context : Context} {before after : State}
    (kept : KeepsNearest context.trial before after) : KeepsNearest context before after := by
  refine ⟨kept.forward, fun base nearest => ?_⟩
  have trial := kept.keeps base ⟨nearest.nodes, nearest.chain⟩
  exact ⟨trial.nodes, trial.chain⟩

/-- Readings that build no `if` but by the rules they call. -/
def Building.besidesIf (context : Context) : Building where
  closes := fun kind => kind != .ifStatement
  calls := KeepsNearest context
  closesError := rfl

namespace State.Nearest

variable {context : Context} {state : State} {base : List Element}

/-- The slots of a frame become one node. -/
theorem close {kind : NodeKind} (nearest : (state.onto base).Nearest context)
    (complete : kind = .ifStatement → state.kindAt context 0 = .kwElse →
      state.slots.head? ≠ some .absent) :
    ((state.close context kind).onto base).Nearest context where
  nodes := by
    intro node member
    obtain ⟨slot, among, inside⟩ := Element.mem_nodesAll.mp member
    rcases List.mem_cons.mp among with rfl | behind
    · simp only [finish, Node.spanning, Node.toElement, Element.nodes_node,
        List.mem_cons] at inside
      rcases inside with rfl | below
      · have slots := nearest.chain.tail
        rw [List.tail_cons, onto, Element.lasting_append] at slots
        exact Node.elseNearest_of_chain (List.isChain_append.mp slots).1
      · obtain ⟨slot, among, inside⟩ := Element.mem_nodesAll.mp below
        exact nearest.nodes node (Element.mem_nodesAll.mpr
          ⟨slot, List.mem_append_left _ (List.mem_reverse.mp among), inside⟩)
    · exact nearest.nodes node
        (Element.mem_nodesAll.mpr ⟨slot, List.mem_append_right _ behind, inside⟩)
  chain := by
    have fits : Element.Fits (.token (state.current context))
        (state.finish context kind state.gathered) :=
      Element.fits_node nearest.chain fun isIf isElse =>
        complete isIf (Option.some.inj isElse)
    change (_ :: Element.lasting (state.finish context kind state.gathered :: base)).IsChain _
    cases idle : (state.finish context kind state.gathered).isIdle with
    | false => exact Element.isChain_put nearest.chain idle (by rintro ⟨⟩) fits
    | true =>
        have none : state.slots = [] :=
          List.reverse_eq_nil_iff.mp (Element.children_of_idle idle)
        rw [Element.lasting_cons_idle idle]
        have chain := nearest.chain
        rwa [onto, none] at chain

/-- A slot is added that is no `else` and no statement. -/
theorem push {slot : Element} (nearest : state.Nearest context)
    (other : slot.tokenKind? ≠ some .kwElse) (closed : ¬slot.Open) (leaf : slot.nodes = []) :
    (state.push slot).Nearest context where
  nodes := by
    intro node member
    rw [State.push, Element.nodesAll_cons, leaf, List.nil_append] at member
    exact nearest.nodes node member
  chain := by
    cases idle : slot.isIdle with
    | true => 
      rw [State.push, Element.lasting_cons_idle idle]
      exact nearest.chain
    | false => exact @Element.isChain_put _ [] _ _ nearest.chain idle other fun _ => closed

/-- The current token is read. -/
theorem takeAny (nearest : state.Nearest context) : (state.takeAny context).Nearest context where
  nodes := by
    intro node member
    exact nearest.nodes node (by simpa [State.takeAny] using member)
  chain := by
    rw [State.takeAny, Element.lasting_cons rfl, List.isChain_cons_cons]
    exact ⟨Element.fits_token _ _, nearest.chain⟩

/-- Slots are left out that do not bear on the others. -/
theorem ofLasting {slots : List Element} (nearest : (state.onto base).Nearest context) 
    (fewer : ∀ slot ∈ slots, slot = .absent ∨ slot ∈ state.slots)
    (same : Element.lasting slots = Element.lasting state.slots) :
    (({ state with slots := slots } : State).onto base).Nearest context where
  nodes := by
    intro node member
    obtain ⟨slot, among, inside⟩ := Element.mem_nodesAll.mp member
    rcases List.mem_append.mp among with front | behind
    · rcases fewer slot front with rfl | front
      · simp at inside
      · exact nearest.nodes node
          (Element.mem_nodesAll.mpr ⟨slot, List.mem_append_left _ front, inside⟩)
    · exact nearest.nodes node
        (Element.mem_nodesAll.mpr ⟨slot, List.mem_append_right _ behind, inside⟩)
  chain := by
    have chain := nearest.chain
    rw [onto, Element.lasting_append] at chain ⊢
    rw [same]
    exact chain

end State.Nearest

/-- Every sequence of moves that builds no `if` keeps each `else` with the nearest one. -/
theorem Moves.keepsNearest {context : Context} {before after : State}
    (moves : Moves context (.besidesIf context) before after) :
    KeepsNearest context before after := by
  refine ⟨moves.forward fun _ _ (call : KeepsNearest context _ _) => call.forward, ?_⟩
  induction moves with
  | refl state => exact fun _ nearest => nearest
  | trans _ _ left right => exact fun base nearest => right base (left base nearest)
  | @frame before after more _ inner =>
      intro base nearest
      have joined (state : State) : (state.onto more).onto base = state.onto (more ++ base) := by
        simp [State.onto]
      rw [joined] at nearest ⊢
      exact inner (more ++ base) nearest
  | @discard before after inner still _ =>
      intro base nearest
      have moved := inner.forward fun _ _ (call : KeepsNearest context _ _) => call.forward
      have same : after.position = before.position := Nat.le_antisymm still moved
      refine ⟨nearest.nodes, ?_⟩
      have chain := nearest.chain
      simp only [State.onto, State.current] at chain ⊢
      rwa [same]
  | take state more => exact fun base nearest => nearest.takeAny
  | absent state => exact fun base nearest => nearest.push (by rintro ⟨⟩) (by rintro ⟨⟩) rfl
  | absentFirst state =>
      refine fun base nearest => nearest.ofLasting (by simp [or_comm]) ?_
      simp [Element.lasting_append, Element.lasting_cons_idle, Element.isIdle, Element.isAbsent]
      rfl
  | dropAbsent state =>
      intro base nearest
      unfold State.dropAbsent
      split
      · rename_i rest slots
        exact nearest.ofLasting (by simp +contextual [slots]) (by rw [slots]; rfl)
      · exact nearest
  | dropErrors state =>
      refine fun base nearest =>
        nearest.ofLasting (fun slot member => .inr (List.mem_filter.mp member).1) ?_
      rw [Element.lasting, List.filter_filter]
      refine List.filter_congr fun slot _ => ?_
      simp only [Element.isIdle]
      cases slot.isAbsent <;> cases State.isEmptyError slot <;> rfl
  | missing state kind _ => exact fun base nearest => nearest.push (by rintro ⟨⟩) (by rintro ⟨⟩) rfl
  | report state error _ => exact fun base nearest => ⟨nearest.nodes, nearest.chain⟩
  | @close state kind admitted =>
      refine fun base nearest => nearest.close fun isIf => ?_
      subst isIf
      exact absurd (show false = true from admitted) Bool.false_ne_true
  | call admitted => exact admitted.keeps

/-! ## Statements -/

/-- Whether a phrase, and the rules that it ends with, ends with a node. -/
def Phrase.endsInNode (rules : Rule → Bool) : Phrase → Bool
  | .noViable _ | .close _ => true
  | .call rule => rules rule
  | .seq _ last => last.endsInNode rules
  | .choose _ yes no => yes.endsInNode rules && no.endsInNode rules
  | .frame _ body => body.endsInNode rules
  | _ => false

/-- The last slot is a node. -/
def State.EndsInNode (state : State) : Prop :=
  ∃ node : Node, state.slots.head? = some node.toElement

theorem Phrase.endsInNode_run {rules : Rule → Context → Step} {context : Context}
    {ends : Rule → Bool} (called : ∀ rule before after, ends rule = true →
      rules rule context before = .ok after → after.EndsInNode) :
    (phrase : Phrase) → phrase.endsInNode ends = true → ∀ {before after : State},
      phrase.run rules context before = .ok after → after.EndsInNode
  | .noViable construct, _ => fun read => by
      obtain ⟨reported, _, rest⟩ := bind_eq_ok.mp read
      obtain ⟨inner, closed, rfl⟩ := State.inFrame_eq_ok.mp rest
      split at closed <;> cases closed <;> exact ⟨_, rfl⟩
  | .close kind, _ => fun read => by
      cases read
      exact ⟨_, rfl⟩
  | .call rule, checked => fun read => called rule _ _ checked read
  | .seq first last, checked => fun read => by
      obtain ⟨middle, _, rest⟩ := bind_eq_ok.mp read
      exact last.endsInNode_run called checked rest
  | .choose condition yes no, checked => fun read => by
      simp only [endsInNode, Bool.and_eq_true] at checked
      simp only [Phrase.run] at read
      split at read
      · exact yes.endsInNode_run called checked.1 read
      · exact no.endsInNode_run called checked.2 read
  | .frame lead body, checked => fun read => by
      obtain ⟨inner, stepped, rfl⟩ := State.inFrame_eq_ok.mp read
      obtain ⟨node, last⟩ := body.endsInNode_run called checked stepped
      exact ⟨node, by simp [State.onto, last]⟩

namespace Language

open State

variable {rules : Rule → Context → Step} {depth : Nat} {context : Context}
  {state before after : State}

/-- One of some alternatives is read. -/
theorem run_alternatives (alternatives : List (TokenKind × Phrase)) (last : Phrase)
    (rules : Rule → Context → Step) (context : Context) (state : State) :
    ∃ body ∈ last :: alternatives.map Prod.snd,
      (alternatives.foldr (fun (kind, body) others => .choose (.is kind) body others) last).run
        rules context state = body.run rules context state := by
  induction alternatives with
  | nil => exact ⟨last, List.mem_cons_self, rfl⟩
  | cons first alternatives ih =>
      obtain ⟨body, member, same⟩ := ih
      cases here : (Condition.is first.1).holds rules context state with
      | true => exact ⟨first.2, by simp, by simp [Phrase.run, here]⟩
      | false =>
          refine ⟨body, ?_, by simpa [Phrase.run, here] using same⟩
          rcases List.mem_cons.mp member with rfl | member
          · exact List.mem_cons_self
          · exact List.mem_cons_of_mem _ (List.mem_cons_of_mem _ member)

/-- A statement that is no `if` ends with a node, and builds no `if` itself. -/
theorem run_statement (rules : Rule → Context → Step) (context : Context) (state : State) :
    statement.run rules context state = ifStatement.run rules context state ∨
      ∃ other : Phrase, other.closesOnly (· != .ifStatement) = true ∧
        other.endsInNode (· == .block) = true ∧
        statement.run rules context state = other.run rules context state := by
  obtain ⟨body, member, same⟩ := run_alternatives keywordStatements _ rules context state
  simp only [keywordStatements, List.map_cons, List.map_nil, List.mem_cons, List.not_mem_nil,
    or_false] at member
  rcases member with rfl | rfl | rfl | rfl | member
  · exact .inr ⟨_, by decide, by decide, same⟩
  · exact .inr ⟨_, by decide, by decide, same⟩
  · exact .inr ⟨_, by decide, by decide, same⟩
  · exact .inl same
  · refine .inr ⟨body, ?_, ?_, same⟩
    · rcases member with rfl | rfl | rfl | rfl | rfl | rfl | rfl | rfl | rfl | rfl | rfl <;> decide
    · rcases member with rfl | rfl | rfl | rfl | rfl | rfl | rfl | rfl | rfl | rfl | rfl <;> decide

/-- The node of an `if` is a node. -/
theorem node_of_nestedIf {slot : Element}
    (read : nestedIf depth context state = .ok (slot, after)) :
    ∃ node : Node, slot = node.toElement := by
  rw [nestedIf_eq] at read
  obtain ⟨head, _, rest⟩ := bind_eq_ok.mp read
  revert rest
  generalize (if startsElseIf context head then _ else _ : Except SyntaxError State) = ended
  intro rest
  cases ended with
  | error error => cases rest
  | ok ended =>
      cases rest
      exact ⟨_, rfl⟩

/-- A statement is one node. -/
theorem statement_endsInNode (read : readRule grammar depth .statement context before = .ok after) :
    after.EndsInNode := by
  cases depth with
  | zero => cases read
  | succ depth =>
      have blocks : ∀ rule before after, (rule == .block) = true →
          readRule grammar depth rule context before = .ok after → after.EndsInNode := by
        intro rule before after isBlock read
        obtain rfl := beq_iff_eq.mp isBlock
        cases depth with
        | zero => cases read
        | succ depth =>
            exact @Phrase.endsInNode_run _ _ (fun _ => false) (by rintro _ _ _ ⟨⟩) block (by decide)
              _ _ read
      rcases run_statement (readRule grammar depth) context before with
        same | ⟨other, _, ends, same⟩
      · rw [readRule, grammar, same, run_ifStatement] at read
        cases nested : nestedIf depth context before with
        | error error =>
            rw [nested] at read
            cases read
        | ok result =>
            rw [nested] at read
            cases read
            obtain ⟨node, isNode⟩ := node_of_nestedIf nested
            exact ⟨node, congrArg some isNode⟩
      · rw [readRule, grammar, same] at read
        exact other.endsInNode_run blocks ends read

/-- The rules, with so many levels left, keep each `else` with the nearest `if`. -/
def RulesKeepNearest (depth : Nat) : Prop :=
  ∀ context rule before after, readRule grammar depth rule context before = .ok after →
    KeepsNearest context before after

/-- So does a phrase that builds no `if` itself. -/
theorem RulesKeepNearest.run (rules : RulesKeepNearest depth) {phrase : Phrase}
    (builds : phrase.closesOnly (· != .ifStatement) = true)
    (read : phrase.run (readRule grammar depth) context before = .ok after) :
    KeepsNearest context before after := by
  have moves : Moves context (.besidesIf context) before after :=
    phrase.run_moving (fun rule before after read => .call (rules context rule before after read))
      (fun rule before after read => .call (rules context.trial rule before after read).ofTrial)
      builds before after read
  exact moves.keepsNearest

/-- The node of an `if` keeps each `else` with the nearest one.  An absent last slot makes it
open, so no `else` may come next then. -/
theorem endIf_nearest {ended : State} {slots : List Element}
    (nearest : (ended.onto slots).Nearest context)
    (complete : ended.kindAt context 0 = .kwElse → ended.slots.head? ≠ some .absent) :
    ((endIf context slots ended).2.push (endIf context slots ended).1).Nearest context :=
  nearest.close fun _ => complete

/-- What ends the last `if` of a chain is read, and then it may be open only if no `else` comes
next. -/
theorem RulesKeepNearest.ifTail (rules : RulesKeepNearest depth)
    (read : ifTail.run (readRule grammar depth) context before = .ok after) :
    KeepsNearest context before after ∧
      (after.kindAt context 0 = .kwElse → after.slots.head? ≠ some .absent) := by
  refine ⟨rules.run (by decide) read, ?_⟩
  simp only [Language.ifTail, Phrase.run, Condition.holds_is] at read
  split at read
  · obtain ⟨joined, _, rest⟩ := bind_eq_ok.mp read
    obtain ⟨node, last⟩ := statement_endsInNode rest
    intro _ absent
    rw [last] at absent
    cases absent
  · rename_i other
    cases read
    intro isElse
    exact absurd (decide_eq_true isElse.symm) other

/-- So does the rule for `if` that calls itself. -/
theorem RulesKeepNearest.nestedIf (rules : RulesKeepNearest depth) {slot : Element}
    (read : nestedIf depth context state = .ok (slot, after)) (nearest : state.Nearest context) :
    (after.push slot).Nearest context := by
  induction left : state.remaining context using Nat.strongRecOn generalizing state slot after with
  | ind left ih =>
      rw [nestedIf_eq] at read
      obtain ⟨head, started, rest⟩ := bind_eq_ok.mp read
      have headNearest : (head.onto state.slots).Nearest context :=
        (rules.run (by decide) started).keeps state.slots nearest
      cases isElse : startsElseIf context head with
      | false =>
          simp only [isElse, Bool.false_eq_true, if_false] at rest
          cases ended : Language.ifTail.run (readRule grammar depth) context head with
          | error error =>
              rw [ended] at rest
              cases rest
          | ok last =>
              rw [ended] at rest
              cases rest
              obtain ⟨kept, complete⟩ := rules.ifTail ended
              exact endIf_nearest (kept.keeps _ headNearest) complete
      | true =>
          simp only [isElse, if_true] at rest
          cases below : Language.nestedIf depth context (head.take context) with
          | error error =>
              rw [below] at rest
              cases rest
          | ok inner =>
              rw [below] at rest
              cases rest
              have joined : ((head.take context).onto state.slots).Nearest context :=
                (Moves.takeUnlessEnded context head).keepsNearest.keeps _ headNearest
              have again := nestedIf_slots depth context (head.take context)
                ((head.take context).slots ++ state.slots)
              rw [below] at again
              have inside : ((inner.2.push inner.1).onto state.slots).Nearest context := by
                have nested := ih _ (left ▸ remaining_else started isElse) again joined rfl
                rwa [← slots_nestedIf below] at nested
              obtain ⟨node, isNode⟩ := node_of_nestedIf below
              refine endIf_nearest inside fun _ absent => ?_
              cases (isNode ▸ absent : (inner.2.push node.toElement).slots.head? = some .absent)

/-- And so does the loop that reads an `if`. -/
theorem RulesKeepNearest.ifStatement (rules : RulesKeepNearest depth)
    (read : ifStatement.run (readRule grammar depth) context before = .ok after) :
    KeepsNearest context before after := by
  refine ⟨Language.forward read, fun base nearest => ?_⟩
  rw [run_ifStatement] at read
  cases nested : Language.nestedIf depth context before with
  | error error =>
      rw [nested] at read
      cases read
  | ok result =>
      rw [nested] at read
      cases read
      have again := nestedIf_slots depth context before (before.slots ++ base)
      rw [nested] at again
      have kept := rules.nestedIf again nearest
      rwa [← slots_nestedIf nested] at kept

/-- Every rule of the language keeps each `else` with the nearest `if`. -/
theorem rulesKeepNearest (depth : Nat) : RulesKeepNearest depth := by
  induction depth with
  | zero =>
      intro context rule before after read
      cases read
  | succ depth ih =>
      intro context rule before after read
      cases rule with
      | statement =>
          rw [readRule, grammar] at read
          rcases run_statement (readRule grammar depth) context before with
            same | ⟨other, builds, _, same⟩
          · exact ih.ifStatement (same ▸ read)
          · exact ih.run builds (same ▸ read)
      | typeArguments diamond => exact ih.run (by cases diamond <;> decide) read
      | memberBody kind => exact ih.run (by cases kind <;> decide) read
      | _ => exact ih.run (by decide) read

end Language

/-! ## Whole parses -/

theorem KeepsNearest.nearest {context : Context} {before after : State}
    (kept : KeepsNearest context before after) (nearest : before.Nearest context) :
    after.Nearest context := by
  have whole (state : State) : state.onto [] = state := by simp [State.onto]
  rw [← whole after]
  exact kept.keeps [] (by rwa [whole])

namespace State

variable {context : Context}

theorem nearest_start (position : Nat) : Nearest context ⟨position, [], []⟩ :=
  ⟨by simp, .singleton _⟩

theorem read_nearest {phrase : Phrase} (builds : phrase.closesOnly (· != .ifStatement) = true)
    {state after : State} (read : Language.read phrase context state = .ok after)
    (nearest : state.Nearest context) : after.Nearest context :=
  ((Language.rulesKeepNearest context.limit).run builds read).nearest nearest

theorem sweep_nearest {state : State} (nearest : state.Nearest context) :
    (state.sweep context).Nearest context := by
  have moves : Moves context (.besidesIf context) state (state.sweep context) := sweep_moves state
  exact moves.keepsNearest.nearest nearest

theorem abandon_nearest (state : State) (error : SyntaxError) (nearest : state.Nearest context) :
    (state.abandon context error).Nearest context :=
  sweep_nearest ⟨nearest.nodes, nearest.chain⟩

theorem readUnit_nearest (position : Nat) :
    (readUnit context ⟨position, [], []⟩).Nearest context := by
  refine readUnit_kept (fun listed read nearest => read_nearest ?_ read nearest) abandon_nearest
    (nearest_start position)
  simp only [Language.items, List.mem_cons, List.not_mem_nil, or_false] at listed
  rcases listed with rfl | rfl | rfl <;> decide

theorem readExpression_nearest (position : Nat) :
    (readExpression context ⟨position, [], []⟩).Nearest context := by
  unfold readExpression
  split
  · rename_i after read
    have nearest : after.Nearest context := read_nearest (by rfl) read (nearest_start position)
    dsimp only
    split
    · exact nearest
    · refine sweep_nearest ?_
      split
      · rename_i reported recorded
        have moves : Moves context (.besidesIf context) after reported :=
          report_moving _ _ _ recorded
        exact moves.keepsNearest.nearest nearest
      · exact ⟨nearest.nodes, nearest.chain⟩
  · exact abandon_nearest _ _ (nearest_start 0)

/-- The tree of a finished parse is no `if`. -/
theorem elseNearest_finishParse {state : State} (nearest : state.Nearest context)
    {kind : NodeKind} (other : kind ≠ .ifStatement) :
    ∀ node ∈ (state.finishParse context kind).root.descendants, node.ElseNearest := by
  intro node member
  have taken : ((state.takeAny context).onto []).Nearest context := by
    simpa [onto] using nearest.takeAny
  have closed := @Nearest.close _ _ _ kind taken fun isIf => absurd isIf other
  refine closed.nodes node ?_
  rw [Node.descendants_eq_nodes] at member
  simpa [finishParse, onto, State.close, finish, Node.spanning, Node.toElement] using member

end State

/-- In the tree of every parse, with or without errors, the statement in front of the `else` of
an `if` could not have taken that `else`: it does not end with an `if` that has none. -/
theorem else_nearest (session : Session) :
    (∀ node ∈ session.parseUnit.1.root.descendants, node.ElseNearest) ∧
      ∀ node ∈ session.parseExpression.1.root.descendants, node.ElseNearest :=
  ⟨State.elseNearest_finishParse (State.readUnit_nearest session.position) (by decide),
    State.elseNearest_finishParse (State.readExpression_nearest session.position) (by decide)⟩

end JavaSyntax
