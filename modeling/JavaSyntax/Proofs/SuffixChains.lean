import JavaSyntax.Proofs.Idle.Loops
import JavaSyntax.Proofs.Reading.Assembled
import JavaSyntax.Proofs.Stretches
import JavaSyntax.Proofs.Tree.Nodes

/-!
# Chains of suffixes

Every suffix of a primary becomes a node around the head and the suffixes before it, and one
`primary` node stands around the whole chain, however long it is and whatever is wrong with
it.  So a `primary` is never the head of another, and the nodes that only suffixes build
stand nowhere but in a chain.

The nodes of a chain are built one around the other in a frame of their own.  All other
readings neither build nodes that belong into a chain nor leave any of them behind.
-/

namespace JavaSyntax

/-- The kinds of nodes that a chain of suffixes is made of. -/
def NodeKind.chained : List NodeKind :=
  [.fieldAccess, .methodInvocation, .classInstanceCreationExpression, .qualifiedThis,
    .classLiteral, .arrayAccess, .methodReference]

theorem NodeKind.ne_primary_of_chained {kind : NodeKind} (chained : kind ∈ NodeKind.chained) :
    kind ≠ .primary := by
  rintro rfl
  exact absurd chained (by decide)

namespace Node

/-- From a node, the first slots of the nodes of a chain lead to another node. -/
inductive LeadsTo : Node → Node → Prop where
  | here (node : Node) : LeadsTo node node
  | down {node first below : Node} : node.kind ∈ NodeKind.chained →
      node.children.head? = some first.toElement → LeadsTo first below → LeadsTo node below

/-- Whether only a suffix can build a node: `a.this`, and a field of something that is a node
itself. -/
def isSuffix (node : Node) : Bool :=
  node.kind == .qualifiedThis ||
    (node.kind == .fieldAccess && node.children.head?.any (·.node?.isSome))

/-- What a node owes to the chains of suffixes around and below it. -/
structure KeepsChains (node : Node) : Prop where
  /-- A primary holds one chain, and no primary starts that chain. -/
  primary : node.kind = .primary → ∃ last : Node, node.children = [last.toElement] ∧
    last.kind ∈ NodeKind.chained ∧ ∀ below, last.LeadsTo below → below.kind ≠ .primary
  /-- A suffix is the last node of a chain, or the first slot of the next one. -/
  suffixes : ∀ (index : Nat) (child : Node), node.children[index]? = some child.toElement →
    child.isSuffix = true → node.kind = .primary ∨ (index = 0 ∧ node.kind ∈ NodeKind.chained)

end Node

namespace Element

/-- A slot that may stand anywhere: all chains below are kept, and it is no suffix itself. -/
structure Settled (slot : Element) : Prop where
  nodes : ∀ node ∈ slot.nodes, node.KeepsChains
  alone : ∀ node : Node, slot = node.toElement → node.isSuffix = false

/-- A slot that a suffix may follow: all chains below are kept, and no primary starts the one
it ends. -/
structure Extensible (slot : Element) : Prop where
  nodes : ∀ node ∈ slot.nodes, node.KeepsChains
  start : ∀ node below : Node, slot = node.toElement → node.LeadsTo below →
    below.kind ≠ .primary

variable {kind : NodeKind} {span : Span} {children : List Element}

theorem eq_of_node_eq {node : Node} (same : Element.node kind span children = node.toElement) :
    node = ⟨kind, span, children⟩ := by
  cases node
  cases same
  rfl

theorem Settled.of_nodes_nil {slot : Element} (none : slot.nodes = []) : slot.Settled where
  nodes := by simp [none]
  alone := by
    rintro node rfl
    simp [Node.toElement] at none

theorem Extensible.of_nodes_nil {slot : Element} (none : slot.nodes = []) : slot.Extensible where
  nodes := by simp [none]
  start := by
    rintro node below rfl
    simp [Node.toElement] at none

/-- The nodes in and below a node keep chains if it does and its slots are settled. -/
theorem keepsChains_nodes (whole : Node.KeepsChains ⟨kind, span, children⟩)
    (settled : ∀ slot ∈ children, ∀ node ∈ slot.nodes, node.KeepsChains) :
    ∀ node ∈ (Element.node kind span children).nodes, node.KeepsChains := by
  intro node member
  rw [nodes_node] at member
  cases member with
  | head => exact whole
  | tail _ member =>
      obtain ⟨slot, among, inside⟩ := mem_nodesAll.mp member
      exact settled slot among node inside

/-- A node that is neither a primary nor a suffix is settled over settled slots. -/
theorem Settled.close (settled : ∀ slot ∈ children, slot.Settled) (other : kind ≠ .primary)
    (free : Node.isSuffix ⟨kind, span, children⟩ = false) :
    (Element.node kind span children).Settled where
  nodes := by
    refine keepsChains_nodes ⟨fun isPrimary => absurd isPrimary other, ?_⟩
      fun slot member => (settled slot member).nodes
    intro index child found isSuffix
    have alone := (settled _ (List.mem_of_getElem? found)).alone child rfl
    rw [alone] at isSuffix
    cases isSuffix
  alone := by
    intro node same
    rw [eq_of_node_eq same]
    exact free

/-- A suffix may be followed by another. -/
theorem Extensible.suffix {first : Element} {rest : List Element} (head : first.Extensible)
    (settled : ∀ slot ∈ rest, slot.Settled) (chained : kind ∈ NodeKind.chained) :
    (Element.node kind span (first :: rest)).Extensible where
  nodes := by
    refine keepsChains_nodes ⟨?_, ?_⟩ ?_
    · exact fun isPrimary => absurd isPrimary (NodeKind.ne_primary_of_chained chained)
    · intro index child found isSuffix
      cases index with
      | zero => exact .inr ⟨rfl, chained⟩
      | succ index =>
          have alone := (settled _ (List.mem_of_getElem? found)).alone child rfl
          rw [alone] at isSuffix
          cases isSuffix
    · intro slot member
      rcases List.mem_cons.mp member with rfl | member
      · exact head.nodes
      · exact (settled slot member).nodes
  start := by
    intro node below same leads
    obtain rfl := eq_of_node_eq same
    cases leads with
    | here => exact NodeKind.ne_primary_of_chained chained
    | down _ isFirst leads => exact head.start _ below (Option.some.inj isFirst) leads

/-- A primary around a chain of at least one suffix is settled. -/
theorem Extensible.close_primary {last : Node} (chain : last.toElement.Extensible)
    (chained : last.kind ∈ NodeKind.chained) :
    (Element.node .primary span [last.toElement]).Settled where
  nodes := by
    have whole : Node.KeepsChains ⟨.primary, span, [last.toElement]⟩ :=
      ⟨fun _ => ⟨last, rfl, chained, fun below => chain.start last below rfl⟩,
        fun _ _ _ _ => .inl rfl⟩
    refine keepsChains_nodes whole ?_
    intro slot member
    obtain rfl := List.mem_singleton.mp member
    exact chain.nodes
  alone := by
    intro node same
    rw [eq_of_node_eq same]
    rfl

/-- A settled node that is neither a primary nor belongs to a chain may be the head of one. -/
theorem Settled.extensible (settled : (Element.node kind span children).Settled)
    (other : kind ≠ .primary) (apart : kind ∉ NodeKind.chained) :
    (Element.node kind span children).Extensible where
  nodes := settled.nodes
  start := by
    intro node below same leads
    obtain rfl := eq_of_node_eq same
    cases leads with
    | here => exact other
    | down chained => exact absurd chained apart

end Element

/-! ## Readings that settle their slots -/

/-- All slots of the frame are settled. -/
def State.HoldsSettled (state : State) : Prop :=
  ∀ slot ∈ state.slots, slot.Settled

/-- A reading adds only slots that are settled. -/
def Settles (before after : State) : Prop :=
  before.HoldsSettled → after.HoldsSettled

/-- Readings that build neither primaries nor suffixes but by the rules they call. -/
def Building.unchained : Building where
  closes := (!·.isOfPrimaries)
  calls := Settles
  closesError := rfl

theorem NodeKind.admitted_of_isOrdinary (kind : NodeKind) (ordinary : kind.isOrdinary = true) :
    Building.unchained.closes kind = true := by
  rw [NodeKind.isOrdinary, Bool.and_eq_true] at ordinary
  exact ordinary.2

/-- What such readings build is neither a primary nor a suffix. -/
theorem Building.unchained_closes {kind : NodeKind}
    (admitted : Building.unchained.closes kind = true) :
    kind ≠ .primary ∧ ∀ span children, Node.isSuffix ⟨kind, span, children⟩ = false := by
  have others : kind ≠ .primary ∧ kind ≠ .qualifiedThis ∧ kind ≠ .fieldAccess := by
    refine ⟨?_, ?_, ?_⟩ <;> rintro rfl <;> exact absurd admitted (by decide)
  exact ⟨others.1, fun span children => by simp [Node.isSuffix, others.2]⟩

/-- Every sequence of moves that builds neither primaries nor suffixes leaves settled slots
settled. -/
theorem Moves.settled {context : Context} {before after : State}
    (moves : Moves context .unchained before after) : Settles before after := by
  refine moves.forall_slots (fun slot leaf => .of_nodes_nil ?_) ?_ fun _ _ settles => settles
  · cases slot with
    | node => cases leaf
    | _ => simp
  · intro kind span children admitted settled
    obtain ⟨other, free⟩ := Building.unchained_closes admitted
    exact .close settled other (free _ _)

/-- A step that leaves the slots of the frame alone and adds settled ones. -/
def AddsSettled (step : Step) : Prop :=
  ∀ before after, step before = .ok after →
    ∃ more, after.slots = more ++ before.slots ∧ ∀ slot ∈ more, slot.Settled

namespace State

variable {context : Context} {step : Step}

theorem take_addsSettled : AddsSettled fun state => .ok (state.take context) := by
  intro before after read
  cases read
  unfold take
  split
  · exact ⟨[], rfl, by simp⟩
  · exact ⟨[_], rfl, List.forall_mem_singleton.mpr (.of_nodes_nil (by simp))⟩

theorem inFrame_addsSettled (moving : Moving context .unchained step) :
    AddsSettled fun state => state.inFrame 0 step := by
  intro before after read
  obtain ⟨inner, stepped, rfl⟩ := inFrame_eq_ok.mp read
  exact ⟨inner.slots, by simp [onto], (moving _ _ stepped).settled (by simp [HoldsSettled])⟩

/-- One step after another adds what both add. -/
theorem addsSettled_trans {before middle after : State}
    (first : ∃ more, middle.slots = more ++ before.slots ∧ ∀ slot ∈ more, slot.Settled)
    (second : ∃ more, after.slots = more ++ middle.slots ∧ ∀ slot ∈ more, slot.Settled) :
    ∃ more, after.slots = more ++ before.slots ∧ ∀ slot ∈ more, slot.Settled := by
  obtain ⟨more, slots, settled⟩ := first
  obtain ⟨most, slots', settled'⟩ := second
  exact ⟨most ++ more, by rw [slots', slots, List.append_assoc],
    List.forall_mem_append.mpr ⟨settled', settled⟩⟩

theorem addsSettled_bind {next : Step} (first : AddsSettled step) (second : AddsSettled next) :
    AddsSettled fun state => step state >>= next := by
  intro before after read
  obtain ⟨middle, started, ended⟩ := bind_eq_ok.mp read
  exact addsSettled_trans (first _ _ started) (second _ _ ended)

theorem report_addsSettled (error : SyntaxError) :
    AddsSettled fun state => state.report context error := by
  intro before after read
  exact ⟨[], slots_report read, by simp⟩

theorem expect_addsSettled (kind : TokenKind) :
    AddsSettled fun state => state.expect context kind := by
  intro before after read
  simp only [expect] at read
  split at read
  · exact take_addsSettled _ _ read
  · refine addsSettled_bind (report_addsSettled _) (fun reported after rest => ?_) _ _ read
    split at rest
    · exact addsSettled_bind (inFrame_addsSettled takeClosed_moving) take_addsSettled _ _ rest
    · cases rest
      exact ⟨[_], rfl, List.forall_mem_singleton.mpr (.of_nodes_nil (by simp))⟩

theorem iterate_addsSettled (adds : AddsSettled step) (rounds : Nat) :
    AddsSettled (iterate step rounds) :=
  iterate_relates _ adds addsSettled_trans rounds

end State

namespace Phrase

/-- Whether a phrase leaves the slots of its frame alone and adds settled ones, given which
rules do. -/
def grows (rules : Rule → Bool) : Phrase → Bool
  | .nothing | .absent | .take | .expect _ => true
  | .call rule => rules rule
  | .seq first second | .choose _ first second => first.grows rules && second.grows rules
  | .frame lead body => lead == 0 && body.closesOnly Building.unchained.closes
  | .many body => body.grows rules
  | _ => false

theorem run_addsSettled {rules : Rule → Context → Step} {extend : Rule → Bool}
    (moving : ∀ context rule, Moving context .unchained (rules rule context))
    (adds : ∀ context rule, extend rule = true → AddsSettled (rules rule context))
    (context : Context) : (phrase : Phrase) → phrase.grows extend = true →
      AddsSettled (phrase.run rules context)
  | .nothing, _ => fun before after read => by
      cases read
      exact ⟨[], rfl, by simp⟩
  | .absent, _ => fun before after read => by
      cases read
      exact ⟨[.absent], rfl, List.forall_mem_singleton.mpr (.of_nodes_nil (by simp))⟩
  | .take, _ => State.take_addsSettled
  | .expect kind, _ => State.expect_addsSettled kind
  | .call rule, checked => adds context rule checked
  | .seq first second, checked => by
      simp only [grows, Bool.and_eq_true] at checked
      exact State.addsSettled_bind (first.run_addsSettled moving adds context checked.1)
        (second.run_addsSettled moving adds context checked.2)
  | .choose condition yes no, checked => fun before after read => by
      simp only [grows, Bool.and_eq_true] at checked
      simp only [Phrase.run] at read
      split at read
      · exact yes.run_addsSettled moving adds context checked.1 _ _ read
      · exact no.run_addsSettled moving adds context checked.2 _ _ read
  | .frame lead body, checked => by
      simp only [grows, Bool.and_eq_true, beq_iff_eq] at checked
      obtain ⟨rfl, builds⟩ := checked
      exact State.inFrame_addsSettled
        (body.run_moving (moving context) (moving context.trial) builds)
  | .many body, checked => fun before after read =>
      State.iterate_addsSettled (body.run_addsSettled moving adds context checked) _ _ _ read

end Phrase

/-! ## One suffix -/

/-- A phrase that does nothing, or makes the last slot of the frame the first one of a node
of some kinds. -/
def ExtendsLast (kinds : List NodeKind) (rules : Rule → Context → Step) (context : Context)
    (phrase : Phrase) : Prop :=
  ∀ before after head rest, phrase.run rules context before = .ok after →
    before.slots = head :: rest → after = before ∨
      ∃ kind ∈ kinds, ∃ span more,
        after.slots = .node kind span (head :: more) :: rest ∧ ∀ slot ∈ more, slot.Settled

namespace ExtendsLast

variable {kinds : List NodeKind} {rules : Rule → Context → Step} {context : Context}

theorem nothing : ExtendsLast kinds rules context .nothing := by
  intro before after head rest read slots
  cases read
  exact .inl rfl

theorem choose (condition : Condition) {yes no : Phrase}
    (first : ExtendsLast kinds rules context yes) (second : ExtendsLast kinds rules context no) :
    ExtendsLast kinds rules context (.choose condition yes no) := by
  intro before after head rest read
  simp only [Phrase.run] at read
  split at read
  · exact first _ _ _ _ read
  · exact second _ _ _ _ read

theorem around {kind : NodeKind} {body : Phrase} (adds : AddsSettled (body.run rules context))
    (listed : kind ∈ kinds) : ExtendsLast kinds rules context (Phrase.around 1 kind body) := by
  intro before after head rest read slots
  obtain ⟨closed, stepped, rfl⟩ := State.inFrame_eq_ok.mp read
  obtain ⟨inner, held, ended⟩ := bind_eq_ok.mp stepped
  cases ended
  obtain ⟨more, added, settled⟩ := adds _ _ held
  refine .inr ⟨kind, listed, Node.spanOf inner.gathered (inner.here context), more.reverse, ?_, ?_⟩
  · simp only [slots, List.take_succ_cons, List.take_zero] at added
    simp [State.onto, slots, State.close, State.finish, Node.spanning, Node.toElement,
      State.gathered, added]
  · simpa using settled

end ExtendsLast

/-- A reading of suffixes that does nothing, or reads on and leaves nothing but their chain. -/
def AddsSuffixes (before after : State) : Prop :=
  after = before ∨ before.position < after.position ∧ ∃ last : Node,
    after.slots = [last.toElement] ∧ last.kind ∈ NodeKind.chained ∧ last.toElement.Extensible

/-! ## Operands that leave something behind -/

/-- A step that leaves the slots of the frame alone and adds settled ones, at least one. -/
def AddsSome (step : Step) : Prop :=
  ∀ before after, step before = .ok after →
    ∃ last more, after.slots = last :: (more ++ before.slots) ∧
      last.Settled ∧ ∀ slot ∈ more, slot.Settled

theorem AddsSome.addsSettled {step : Step} (adds : AddsSome step) : AddsSettled step := by
  intro before after read
  obtain ⟨last, more, slots, settled, others⟩ := adds _ _ read
  exact ⟨last :: more, slots, List.forall_mem_cons.mpr ⟨settled, others⟩⟩

namespace AddsSome

variable {rules : Rule → Context → Step} {context : Context} {phrase : Phrase}

/-- A node around the last slot takes none of the slots below those that were added. -/
theorem seq_around (adds : AddsSome (phrase.run rules context)) {kind : NodeKind} {body : Phrase}
    (moving : Moving context .unchained ((body ++ .close kind).run rules context)) :
    AddsSome ((phrase ++ Phrase.around 1 kind body).run rules context) := by
  intro before after read
  obtain ⟨middle, started, ended⟩ := bind_eq_ok.mp read
  obtain ⟨last, more, slots, settled, others⟩ := adds _ _ started
  obtain ⟨closed, stepped, rfl⟩ := State.inFrame_eq_ok.mp ended
  have whole : closed.HoldsSettled :=
    (moving _ _ stepped).settled (by simpa [State.HoldsSettled, slots])
  obtain ⟨inner, held, closing⟩ := bind_eq_ok.mp stepped
  cases closing
  exact ⟨_, more, by simp [State.onto, State.close, slots], whole _ List.mem_cons_self, others⟩

theorem seq_onlyIf_around (adds : AddsSome (phrase.run rules context)) {condition : Condition}
    {kind : NodeKind} {body : Phrase}
    (moving : Moving context .unchained ((body ++ .close kind).run rules context)) :
    AddsSome ((phrase ++ .onlyIf condition (Phrase.around 1 kind body)).run rules context) := by
  intro before after read
  obtain ⟨middle, started, ended⟩ := bind_eq_ok.mp read
  simp only [Phrase.onlyIf, Phrase.run] at ended
  split at ended
  · exact adds.seq_around moving _ _ (bind_eq_ok.mpr ⟨middle, started, ended⟩)
  · cases ended
    exact adds _ _ started

/-- A slot for repeated parts is one slot, also where there are none. -/
theorem gather {kind : NodeKind} {parts : Phrase}
    (moving : Moving context .unchained ((Phrase.gather kind parts).run rules context)) :
    AddsSome ((Phrase.gather kind parts).run rules context) := by
  intro before after read
  obtain ⟨inner, stepped, rfl⟩ := State.inFrame_eq_ok.mp read
  have alone : ∃ slot, inner.slots = [slot] := by
    obtain ⟨middle, repeated, ended⟩ := bind_eq_ok.mp stepped
    simp only [Phrase.run] at ended
    split at ended
    · rename_i holds
      have empty : middle.slots = [] := List.isEmpty_iff.mp holds
      cases ended
      exact ⟨.absent, congrArg (Element.absent :: ·) empty⟩
    · cases ended
      exact ⟨_, rfl⟩
  obtain ⟨slot, slots⟩ := alone
  have framed := moving { before with slots := [] } (inner.onto [])
    (State.inFrame_eq_ok.mpr ⟨inner, stepped, rfl⟩)
  have settled := framed.settled (by simp [State.HoldsSettled])
  exact ⟨slot, [], by simp [State.onto, slots], settled _ (by simp [State.onto, slots]), by simp⟩

end AddsSome

namespace State

variable {context : Context} {operand type : Step}

theorem collect_onto (step : Step) (state : State) (base : List Element) :
    (state.onto base).collect step =
      (state.collect step).map fun result => (result.1, result.2.onto base) := by
  simp only [collect, onto]
  cases step ⟨state.position, state.errors, []⟩ with
  | error error => rfl
  | ok inner => rfl

theorem reduce_onto (state : State) (base : List Element) (floor : Level) (stack : List Pending)
    (right : List Element) :
    (state.onto base).reduce context floor stack right =
      state.reduce context floor stack right := by
  induction stack generalizing right with
  | nil => rfl
  | cons top stack ih =>
      simp only [reduce, ih]
      rfl

theorem climb_onto (rounds : Nat) (stack : List Pending) (left : List Element) (state : State)
    (base : List Element) :
    climb context operand type rounds stack left (state.onto base) =
      (climb context operand type rounds stack left state).map (·.onto base) := by
  have closed (stack : List Pending) (left : List Element) (state : State) :
      (state.onto base).closeOperators context stack left =
        (state.closeOperators context stack left).onto base := by
    rw [closeOperators, reduce_onto]
    simp [closeOperators, onto]
  induction rounds generalizing stack left state with
  | zero => simp [climb, closed, Except.map]
  | succ rounds ih =>
      simp only [climb]
      have operator : (state.onto base).operator? context = state.operator? context := rfl
      have kind : (state.onto base).kindAt context 0 = state.kindAt context 0 := rfl
      rw [operator, kind]
      split
      · simp [closed, Except.map]
      · rw [reduce_onto, collect_onto, collect_onto]
        split
        · cases state.collect fun inner => type (inner.take context) with
          | error error => rfl
          | ok result => exact ih _ _ _
        · cases state.collect fun inner => .ok (inner.takeMany context _) with
          | error error => rfl
          | ok operator =>
              simp only [Except.map, bind, Except.bind, collect_onto]
              cases operator.2.collect operand with
              | error error => rfl
              | ok result => exact ih _ _ _

/-- Operators and operands are read alike whatever slots stand behind them. -/
theorem operators_onto (state : State) (base : List Element) :
    operators context operand type (state.onto base) =
      (operators context operand type state).map (·.onto base) := by
  simp only [operators, collect_onto]
  cases state.collect operand with
  | error error => rfl
  | ok result => exact climb_onto _ _ _ _ _

end State

/-! ## The head of a chain -/

/-- A reading adds one settled slot, at which a chain may start. -/
def AddsHead (before after : State) : Prop :=
  ∃ head, after.slots = head :: before.slots ∧ head.Settled ∧ head.Extensible

/-- The slots of a frame begin with one that makes of them the head of a chain, if they become
a node of a kind. -/
def State.Opens (kind : NodeKind) (state : State) : Prop :=
  ∃ more first, state.slots = more ++ [first] ∧ first.Settled ∧ first.Extensible ∧
    (∀ span rest, Node.isSuffix ⟨kind, span, first :: rest⟩ = false) ∧
    ∀ slot ∈ more, slot.Settled

section Heads

variable {rules : Rule → Context → Step} {context : Context} {before after : State}
  {kind : NodeKind}

/-- The first slots of a head, read where some state is. -/
def OpensAt (rules : Rule → Context → Step) (context : Context) (before : State)
    (kind : NodeKind) (phrase : Phrase) : Prop :=
  ∀ inner, phrase.run rules context { before with slots := [] } = .ok inner → inner.Opens kind

namespace OpensAt

theorem seq {first second : Phrase} (opens : OpensAt rules context before kind first)
    (adds : AddsSettled (second.run rules context)) :
    OpensAt rules context before kind (first ++ second) := by
  intro inner read
  obtain ⟨middle, started, ended⟩ := bind_eq_ok.mp read
  obtain ⟨more, head, slots, settled, extensible, free, others⟩ := opens _ started
  obtain ⟨most, slots', others'⟩ := adds _ _ ended
  exact ⟨most ++ more, head, by rw [slots', slots, List.append_assoc], settled, extensible, free,
    List.forall_mem_append.mpr ⟨others', others⟩⟩

theorem take (here : before.atEnd context = false) (other : kind ≠ .qualifiedThis) :
    OpensAt rules context before kind .take := by
  intro inner read
  cases read
  have taken : ({ before with slots := [] } : State).take context =
      { before with slots := [] }.takeAny context :=
    if_neg (Bool.eq_false_iff.mp here)
  rw [taken]
  exact ⟨[], _, rfl, .of_nodes_nil (by simp), .of_nodes_nil (by simp),
    by simp [Node.isSuffix, other, Element.node?], by simp⟩

theorem absent (other : kind ≠ .qualifiedThis) : OpensAt rules context before kind .absent := by
  intro inner read
  cases read
  exact ⟨[], .absent, rfl, .of_nodes_nil (by simp), .of_nodes_nil (by simp),
    by simp [Node.isSuffix, other, Element.node?], by simp⟩

end OpensAt

/-- A node that does not belong to a chain is a head. -/
theorem addsHead_node {body : Phrase}
    (moving : Moving context .unchained ((body ++ .close kind).run rules context))
    (other : kind ≠ .primary) (apart : kind ∉ NodeKind.chained)
    (read : (Phrase.node kind body).run rules context before = .ok after) :
    AddsHead before after := by
  obtain ⟨closed, stepped, rfl⟩ := State.inFrame_eq_ok.mp read
  have whole : closed.HoldsSettled := (moving _ _ stepped).settled (by simp [State.HoldsSettled])
  obtain ⟨inner, held, ended⟩ := bind_eq_ok.mp stepped
  cases ended
  have settled := whole _ List.mem_cons_self
  exact ⟨_, rfl, settled, settled.extensible other apart⟩

/-- A node of a chain is a head if its first slot makes it one. -/
theorem addsHead_of_opens {body : Phrase} (opens : OpensAt rules context before kind body)
    (chained : kind ∈ NodeKind.chained)
    (read : (Phrase.node kind body).run rules context before = .ok after) :
    AddsHead before after := by
  obtain ⟨closed, stepped, rfl⟩ := State.inFrame_eq_ok.mp read
  obtain ⟨inner, held, ended⟩ := bind_eq_ok.mp stepped
  cases ended
  obtain ⟨more, first, slots, settled, extensible, free, others⟩ := opens _ held
  have gathered : inner.gathered = first :: more.reverse := by simp [State.gathered, slots]
  have others' : ∀ slot ∈ more.reverse, slot.Settled := by simpa using others
  refine ⟨inner.finish context kind inner.gathered, rfl, ?_⟩
  rw [gathered]
  exact ⟨.close (List.forall_mem_cons.mpr ⟨settled, others'⟩)
    (NodeKind.ne_primary_of_chained chained) (free _ _), .suffix extensible others' chained⟩

end Heads

/-! ## The language -/

namespace Language

open Phrase

/-- The rules that are called between the slots of a suffix. -/
def readsInside : Rule → Bool
  | .typeArguments _ | .memberBody _ | .expression => true
  | _ => false

/-- The rules, with so many levels left, settle what they add. -/
structure RulesSettle (depth : Nat) : Prop where
  moving : ∀ context rule, Moving context .unchained (readRule grammar depth rule context)
  adds : ∀ context rule, readsInside rule = true →
    AddsSettled (readRule grammar depth rule context)

namespace RulesSettle

variable {depth : Nat} (settle : RulesSettle depth) {context : Context} {before after : State}
  {phrase : Phrase} {kinds : List NodeKind}

include settle

theorem run_moving (builds : phrase.closesOnly Building.unchained.closes = true) :
    Moving context .unchained (phrase.run (readRule grammar depth) context) :=
  phrase.run_moving (settle.moving context) (settle.moving context.trial) builds

theorem grows (checked : phrase.grows readsInside = true) :
    AddsSettled (phrase.run (readRule grammar depth) context) :=
  phrase.run_addsSettled settle.moving settle.adds context checked

theorem adds_creationRest :
    AddsSettled (creationRest.run (readRule grammar depth) context) := by
  have classType : AddsSettled ((classType true).run (readRule grammar depth) context) :=
    ((AddsSome.gather (settle.run_moving (by decide))).seq_around
      (settle.run_moving (by decide))).addsSettled
  have start : AddsSettled
      ((Phrase.expect .kwNew ++ optionalTypeArguments).run (readRule grammar depth) context) :=
    settle.grows (by decide)
  exact State.addsSettled_bind (State.addsSettled_bind (State.addsSettled_bind start classType)
    (settle.grows (by decide))) (settle.grows (by decide))

theorem methodReferenceRest (listed : .methodReference ∈ kinds) :
    ExtendsLast kinds (readRule grammar depth) context methodReferenceRest :=
  .around (settle.grows (by decide)) listed

theorem classLiteralRest (listed : .classLiteral ∈ kinds) :
    ExtendsLast kinds (readRule grammar depth) context classLiteralRest :=
  .around (settle.grows (by decide)) listed

theorem pointSuffix :
    ExtendsLast NodeKind.chained (readRule grammar depth) context pointSuffix := by
  have call : ExtendsLast NodeKind.chained (readRule grammar depth) context callSuffix :=
    .around (settle.grows (by decide)) (by decide)
  have field : ExtendsLast NodeKind.chained (readRule grammar depth) context fieldSuffix :=
    .around (settle.grows (by decide)) (by decide)
  have super : ExtendsLast NodeKind.chained (readRule grammar depth) context superSuffix :=
    .choose _ (settle.methodReferenceRest (by decide)) (.choose _ (.choose _ call field) .nothing)
  have creation : AddsSettled
      ((Phrase.take ++ creationRest).run (readRule grammar depth) context) :=
    State.addsSettled_bind (settle.grows rfl) settle.adds_creationRest
  exact .choose _ (.choose _ call field) (.choose _ (.choose _ .nothing call)
    (.choose _ (.around creation (by decide))
      (.choose _ (.around (settle.grows (by decide)) (by decide))
        (.choose _ (settle.classLiteralRest (by decide)) (.choose _ super .nothing)))))

/-- A suffix makes what it follows the first slot of a node of a chain. -/
theorem suffix : ExtendsLast NodeKind.chained (readRule grammar depth) context suffix := by
  have reference : ExtendsLast NodeKind.chained (readRule grammar depth) context
      Language.methodReferenceRest :=
    settle.methodReferenceRest (by decide)
  exact .choose _ settle.pointSuffix
    (.choose _ (.choose _ (.choose _ reference (settle.classLiteralRest (by decide)))
        (.around (settle.grows (by decide)) (by decide)))
      (.choose _ reference (.choose _ (.choose _ reference .nothing)
        (.choose _ (.around (settle.grows (by decide)) (by decide)) .nothing))))

/-- A suffix that reads no token does nothing. -/
theorem suffix_step {head : Element} (extensible : head.Extensible)
    (read : Language.suffix.run (readRule grammar depth) context before = .ok after)
    (slots : before.slots = [head]) : AddsSuffixes before after := by
  have steady := readRule_steady steady_grammar depth
  rcases steady.advances_or_declines (by decide +kernel) read with moved | ⟨-, same⟩
  · rcases settle.suffix _ _ _ _ read slots with same | ⟨kind, chained, span, more, slots, settled⟩
    · rw [same] at moved
      exact absurd moved (Nat.lt_irrefl _)
    · exact .inr ⟨moved, ⟨kind, span, head :: more⟩, slots, chained,
        .suffix extensible settled chained⟩
  · exact .inl same

/-- All suffixes together make one chain. -/
theorem suffixes {head : Element} (extensible : head.Extensible) (rounds : Nat)
    (read : State.iterate (Language.suffix.run (readRule grammar depth) context) rounds before =
      .ok after)
    (slots : before.slots = [head]) : AddsSuffixes before after := by
  induction rounds generalizing before head with
  | zero => exact settle.suffix_step extensible read slots
  | succ rounds ih =>
      obtain ⟨next, stepped, rest⟩ := bind_eq_ok.mp read
      rcases settle.suffix_step extensible stepped slots with
        rfl | ⟨moved, last, slots', chained, longer⟩
      · rw [if_neg (Nat.lt_irrefl _)] at rest
        cases rest
        exact .inl rfl
      · rw [if_pos moved] at rest
        rcases ih longer rest slots' with rfl | ⟨further, more⟩
        · exact .inr ⟨moved, last, slots', chained, longer⟩
        · exact .inr ⟨Nat.lt_trans moved further, more⟩

theorem namedHead (here : before.kindAt context 0 = .identifier)
    (read : namedHead.run (readRule grammar depth) context before = .ok after) :
    AddsHead before after := by
  have more : before.atEnd context = false := by simp [State.atEnd, here]
  simp only [Language.namedHead, Phrase.run] at read
  split at read
  · exact addsHead_of_opens (.seq (.take more (by decide)) (settle.grows (by decide))) (by decide)
      read
  · split at read
    · refine addsHead_of_opens (.seq (.seq (.seq ?_ (settle.grows rfl)) (settle.grows rfl))
        (settle.grows rfl)) (by decide) read
      intro inner named
      obtain ⟨name, slots, settled, extensible⟩ := addsHead_node (settle.run_moving (by decide))
        (by decide) (by decide) named
      exact ⟨[], name, slots, settled, extensible, by simp [Node.isSuffix], by simp⟩
    · exact addsHead_node (settle.run_moving (by decide)) (by decide) (by decide) read

theorem superHead (here : before.kindAt context 0 = .kwSuper)
    (read : superHead.run (readRule grammar depth) context before = .ok after) :
    AddsHead before after := by
  have more : before.atEnd context = false := by simp [State.atEnd, here]
  simp only [Language.superHead, Phrase.run] at read
  split at read
  · exact addsHead_of_opens (.seq (.take more (by decide)) (settle.grows (by decide))) (by decide)
      read
  · split at read
    · exact addsHead_of_opens (.seq (.seq (.take more (by decide)) (settle.grows (by decide)))
        (settle.grows (by decide))) (by decide) read
    · exact addsHead_of_opens (.seq (.seq (.take more (by decide)) (settle.grows (by decide)))
        (settle.grows (by decide))) (by decide) read

theorem newHead (read : newHead.run (readRule grammar depth) context before = .ok after) :
    AddsHead before after := by
  simp only [Language.newHead, Phrase.run] at read
  split at read
  · exact addsHead_node (settle.run_moving (by decide)) (by decide) (by decide) read
  · exact addsHead_of_opens (.seq (.seq (.absent (by decide)) (settle.grows rfl))
      settle.adds_creationRest) (by decide) read

theorem typeLiteral (read : typeLiteral.run (readRule grammar depth) context before = .ok after) :
    AddsHead before after := by
  obtain ⟨middle, started, ended⟩ := bind_eq_ok.mp read
  have type : AddsHead before middle := by
    simp only [Phrase.run, Condition.holds_is, decide_eq_true_eq] at started
    split at started
    · rename_i isVoid
      cases started
      have taken : before.take context = before.takeAny context :=
        if_neg (by simp [State.atEnd, ← isVoid])
      exact ⟨_, by rw [taken]; rfl, .of_nodes_nil (by simp), .of_nodes_nil (by simp)⟩
    · obtain ⟨pushed, pushing, wrapped⟩ := bind_eq_ok.mp started
      cases pushing
      have wraps : ExtendsLast [.primitiveType] (readRule grammar depth) context
          primitiveTypeRest :=
        .around (settle.grows rfl) (by decide)
      rcases wraps _ _ _ _ wrapped rfl with rfl | ⟨kind, listed, span, more, slots, others⟩
      · exact ⟨.absent, rfl, .of_nodes_nil (by simp), .of_nodes_nil (by simp)⟩
      · obtain rfl := List.mem_singleton.mp listed
        have settled : (Element.node .primitiveType span (.absent :: more)).Settled :=
          .close (List.forall_mem_cons.mpr ⟨.of_nodes_nil (by simp), others⟩) (by decide) rfl
        exact ⟨_, slots, settled, settled.extensible (by decide) (by decide)⟩
  obtain ⟨head, slots, settled, extensible⟩ := type
  have suffix : ExtendsLast [.methodReference, .classLiteral] (readRule grammar depth) context
      (.choose (.is .colonColon ||| dimsLeadToReference) Language.methodReferenceRest
        Language.classLiteralRest) :=
    .choose _ (settle.methodReferenceRest (by decide)) (settle.classLiteralRest (by decide))
  rcases suffix _ _ _ _ ended slots with rfl | ⟨kind, listed, span, more, slots', others⟩
  · exact ⟨head, slots, settled, extensible⟩
  · have free : kind ∈ NodeKind.chained ∧ Node.isSuffix ⟨kind, span, head :: more⟩ = false := by
      simp only [List.mem_cons, List.not_mem_nil, or_false] at listed
      rcases listed with rfl | rfl <;> exact ⟨by decide, rfl⟩
    exact ⟨_, slots', .close (List.forall_mem_cons.mpr ⟨settled, others⟩)
      (NodeKind.ne_primary_of_chained free.1) free.2, .suffix extensible others free.1⟩

/-- The head of a primary is one slot, at which a chain may start. -/
theorem primaryHead (read : primaryHead.run (readRule grammar depth) context before = .ok after) :
    AddsHead before after := by
  simp only [Language.primaryHead, Phrase.run, Condition.holds_is, decide_eq_true_eq] at read
  split at read
  · exact addsHead_node (settle.run_moving (by decide)) (by decide) (by decide) read
  · split at read
    · exact addsHead_node (settle.run_moving (by decide)) (by decide) (by decide) read
    · split at read
      · exact addsHead_node (settle.run_moving (by decide)) (by decide) (by decide) read
      · split at read
        · exact settle.namedHead (Eq.symm ‹_›) read
        · split at read
          · exact settle.superHead (Eq.symm ‹_›) read
          · split at read
            · exact settle.newHead read
            · exact settle.typeLiteral read

/-- A primary leaves the head alone, or one node around all of the chain. -/
theorem primary : Moving context .unchained (primary.run (readRule grammar depth) context) := by
  intro before after read
  simp only [Language.primary, Phrase.run] at read
  split at read
  · refine .call fun settled => ?_
    obtain ⟨headed, started, framed⟩ := bind_eq_ok.mp read
    obtain ⟨head, slots, alone, extensible⟩ := settle.primaryHead started
    obtain ⟨inner, stepped, rfl⟩ := State.inFrame_eq_ok.mp framed
    refine List.forall_mem_append.mpr ⟨?_, fun slot member => settled slot ?_⟩
    rotate_left
    · simpa [slots] using member
    obtain ⟨looped, iterated, ended⟩ := bind_eq_ok.mp stepped
    have frame : ({ headed with slots := headed.slots.take 1 } : State).slots = [head] := by
      simp [slots]
    rcases settle.suffixes extensible _ iterated frame with
      rfl | ⟨moved, last, slots', chained, longer⟩
    · rw [if_neg (Nat.lt_irrefl _)] at ended
      cases ended
      simpa [slots] using alone
    · rw [if_pos moved] at ended
      cases ended
      have gathered : looped.gathered = [last.toElement] := by simp [State.gathered, slots']
      refine List.forall_mem_singleton.mpr ?_
      rw [gathered]
      exact longer.close_primary chained
  · exact State.noViable_moving _ _ _ read

/-- Phrases of primaries and of phrases that build neither primaries nor suffixes settle what
they add. -/
theorem assembled (parts : phrase.Assembled Building.unchained.closes (· = Language.primary)) :
    Moving context .unchained (phrase.run (readRule grammar depth) context) := by
  refine parts.moving settle.moving (fun context inner isPrimary => ?_) context
  subst isPrimary
  exact settle.primary

/-- Operands and operators leave at least one slot. -/
theorem binary : AddsSome (binary.run (readRule grammar depth) context) := by
  intro before after read
  have apart : before = ({ before with slots := [] } : State).onto before.slots := rfl
  have steady := readRule_steady steady_grammar depth
  have moving : Moving context .unchained (Language.binary.run (readRule grammar depth) context) :=
    settle.assembled (binary_assembled.mono NodeKind.admitted_of_isOrdinary)
  simp only [Language.binary, Phrase.run] at read moving
  rw [apart, State.operators_onto] at read
  cases alone : State.operators context (unary.run (readRule grammar depth) context)
      (type.run (readRule grammar depth) context) { before with slots := [] } with
  | error error =>
      rw [alone] at read
      cases read
  | ok inner =>
      rw [alone] at read
      cases read
      have settled : inner.HoldsSettled := (moving _ _ alone).settled (by simp [State.HoldsSettled])
      have ran : Language.binary.run (readRule grammar depth) context { before with slots := [] } =
          .ok inner := alone
      have filled : inner.isHollow = false :=
        steady.fills_of_stays (by decide +kernel) (View.fits_nil _ _) ran
      cases slots : inner.slots with
      | nil => simp [State.isHollow, slots] at filled
      | cons last more =>
          rw [State.HoldsSettled, slots, List.forall_mem_cons] at settled
          obtain ⟨first, others⟩ := settled
          exact ⟨last, more, by simp [State.onto, slots], first, others⟩

theorem expression :
    AddsSettled (readRule grammar (depth + 1) .expression context) := by
  intro before after read
  simp only [readRule, grammar, Language.expression, Phrase.run] at read
  split at read
  · have lambda : AddsSettled (lambda.run (readRule grammar depth) context) :=
      settle.grows (by decide)
    exact lambda _ _ read
  · have conditional : AddsSome (conditional.run (readRule grammar depth) context) :=
      settle.binary.seq_onlyIf_around (settle.run_moving (by decide))
    exact (conditional.seq_onlyIf_around (settle.run_moving (by decide))).addsSettled _ _ read

end RulesSettle

/-- Every rule of the language settles what it adds. -/
theorem rulesSettle (depth : Nat) : RulesSettle depth := by
  induction depth with
  | zero =>
      constructor
      · intro context rule before after read
        cases read
      · intro context rule _ before after read
        cases read
  | succ depth ih =>
      constructor
      · intro context rule
        cases rule with
        | expression =>
            exact ih.assembled (expression_assembled.mono NodeKind.admitted_of_isOrdinary)
        | conditional =>
            exact ih.assembled (conditional_assembled.mono NodeKind.admitted_of_isOrdinary)
        | typeArguments diamond => exact ih.run_moving (by cases diamond <;> decide)
        | memberBody kind => exact ih.run_moving (by cases kind <;> decide)
        | constructorBody =>
            refine ih.assembled (.frame 0 (.seq ?_ (.plain rfl)))
            exact constructorBody_assembled.mono NodeKind.admitted_of_isOrdinary
        | _ => exact ih.run_moving (by decide)
      · intro context rule inside
        cases rule with
        | expression => exact ih.expression
        | typeArguments diamond => exact ih.grows (by cases diamond <;> decide)
        | memberBody kind => exact ih.grows (by cases kind <;> decide)
        | _ => cases inside

end Language

/-! ## Whole parses -/

namespace State

variable {context : Context} {phrase : Phrase}

theorem holdsSettled_read (builds : phrase.closesOnly Building.unchained.closes = true)
    {state after : State} (read : Language.read phrase context state = .ok after)
    (settled : state.HoldsSettled) : after.HoldsSettled :=
  ((Language.rulesSettle context.limit).run_moving builds _ _ read).settled settled

theorem holdsSettled_sweep (state : State) (settled : state.HoldsSettled) :
    (state.sweep context).HoldsSettled := by
  have moves : Moves context .unchained state (state.sweep context) := sweep_moves state
  exact moves.settled settled

theorem holdsSettled_readUnit (position : Nat) :
    (readUnit context ⟨position, [], []⟩).HoldsSettled := by
  refine readUnit_kept (fun listed read settled => holdsSettled_read ?_ read settled)
    (fun state error settled => holdsSettled_sweep _ settled) (by simp [HoldsSettled])
  simp only [Language.items, List.mem_cons, List.not_mem_nil, or_false] at listed
  rcases listed with rfl | rfl | rfl <;> decide

theorem holdsSettled_readExpression (position : Nat) :
    (readExpression context ⟨position, [], []⟩).HoldsSettled :=
  readExpression_kept (fun read => holdsSettled_read rfl read (by simp [HoldsSettled]))
    (by simp [HoldsSettled])
    (fun _ _ settled => settled) holdsSettled_sweep

/-- The root of a tree is settled. -/
theorem settled_root {state : State} (settled : state.HoldsSettled) {kind : NodeKind}
    (admitted : Building.unchained.closes kind = true) :
    (state.finishParse context kind).root.toElement.Settled := by
  obtain ⟨other, free⟩ := Building.unchained_closes admitted
  refine .close (fun slot member => ?_) other (free _ _)
  rcases List.mem_cons.mp (List.mem_reverse.mp member) with rfl | member
  · exact .of_nodes_nil (by simp)
  · exact settled slot member

end State

/-- In the tree of every call of a session, a primary holds nothing but a chain of suffixes in
which there is no other primary, and suffixes stand nowhere but in such chains. -/
theorem one_primary_per_chain (session : Session) (entry : Entry) :
    (session.call entry).1.root.isSuffix = false ∧
      ∀ node ∈ (session.call entry).1.root.descendants, node.KeepsChains := by
  have settled : (session.call entry).1.root.toElement.Settled := by
    cases entry with
    | unit => exact State.settled_root (State.holdsSettled_readUnit _) rfl
    | expression => exact State.settled_root (State.holdsSettled_readExpression _) rfl
  refine ⟨settled.alone _ rfl, fun node member => settled.nodes node ?_⟩
  rwa [Node.descendants_eq_nodes] at member

end JavaSyntax
