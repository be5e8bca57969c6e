import JavaSyntax.Proofs.Outline.Leads

/-!
# Inferred outlines hold

A reading without recovery that starts in a state of some outline ends in a state
of one of the outlines inferred, and if all nodes it starts with are good, then
so are all nodes it ends with.
-/

namespace JavaSyntax

/-- A step that, in a frame of its own, reads one slot of a form. -/
def Reads (good : Node → Prop) (slot : Slot) (step : Step) : Prop :=
  ∀ before after, before.slots = [] → step before = .ok after →
    ∃ element, after.slots = [element] ∧ slot.admits element = true ∧ Good good [element]

/-- A discipline is sound for a property of nodes if all nodes it admits have it, and so
do those that it lets operators build. -/
structure Discipline.Sound (discipline : Discipline) (good : Node → Prop) : Prop where
  admitted : ∀ {kind : NodeKind} {parts : List Part} {slots : List Element} (span : Span),
    discipline.admits kind parts = true → Fits parts slots → good ⟨kind, span, slots.reverse⟩
  operators : ∀ {context : Context} {operand type : Step} {slot result : Slot}
    {tests : List Outline}, discipline.operators slot tests = some result →
    Reads good slot operand →
    Leads good context type true ⟨[.one (.ofTokens (.singleton .kwInstanceof))], [], false⟩ tests →
    ∀ before after, State.operators context operand type before = .ok after →
      ∃ element, after.slots = element :: before.slots ∧ result.admits element = true ∧
        Good good [element]

variable {good : Node → Prop} {context : Context} {framed : Bool} {outline : Outline}

/-- The state at the start of a frame of its own. -/
theorem Outline.describes_start {state : State} (empty : state.slots = []) :
    Outline.Describes ⟨context, state.position, []⟩ ⟨[], [], false⟩ state :=
  .unmoved ⟨[], .nil, by simp [empty]⟩ (Nat.le_refl _)

theorem Leads.reads {step : Step} {slot : Slot} {ahead : List TokenSet} {moved : Bool}
    (leads : Leads good context step true ⟨[], [], false⟩ [⟨[.one slot], ahead, moved⟩]) :
    Reads good slot step := by
  intro before after empty read
  obtain ⟨⟨found, member, fits⟩, kept⟩ := leads _ before after rfl (fun _ => rfl)
    (Outline.describes_start empty) (empty ▸ Good.nil) read
  obtain rfl := List.mem_singleton.mp member
  obtain ⟨top, parts, slots⟩ := fits.slots
  obtain ⟨element, rfl, admitted⟩ := parts.of_single
  rw [List.append_nil] at slots
  exact ⟨element, slots, admitted, slots ▸ kept⟩

theorem Leads.advances {step : Step} {outlines : List Outline}
    (leads : Leads good context step true ⟨[], [], false⟩ outlines)
    (moved : outlines.all (·.moved) = true) {before after : State} (empty : before.slots = [])
    (read : step before = .ok after) : before.position < after.position := by
  obtain ⟨⟨found, member, fits⟩, _⟩ := leads _ before after rfl (fun _ => rfl)
    (Outline.describes_start empty) (empty ▸ Good.nil) read
  exact fits.moved (List.all_eq_true.mp moved found member)

/-- A step that appends one slot of a form to any frame. -/
theorem Leads.of_appends {step : Step} {slot : Slot} {moved : Bool}
    (appends : ∀ before after, step before = .ok after →
      ∃ element, after.slots = element :: before.slots ∧ slot.admits element = true ∧
        Good good [element])
    (forward : ∀ before after, step before = .ok after → before.position ≤ after.position)
    (advances : moved = true → ∀ before after, step before = .ok after →
      before.position < after.position) :
    Leads good context step framed outline
      [⟨.one slot :: outline.parts, [], moved || outline.moved⟩] := by
  intro base before after here whole fits all read
  obtain ⟨element, slots, admitted, fresh⟩ := appends before after read
  obtain ⟨top, parts, under⟩ := fits.slots
  have started := fits.start
  have going := forward before after read
  constructor
  · refine Outline.Describes.any
      (.ofParts ⟨element :: top, .one admitted parts, ?_⟩ (by omega) ?_)
    · rw [slots, under, List.cons_append]
    · intro isMoved
      rcases Bool.or_eq_true _ _ ▸ isMoved with isMoved | isMoved
      · have advanced := advances isMoved before after read
        omega
      · have advanced := fits.moved isMoved
        omega
  · rw [slots]
    exact fresh.cons all

section Nesting

variable {kinds : List NodeKind}

/-- The slots of an unfinished node that is good around any node of some kinds. -/
structure Encloses (good : Node → Prop) (kinds : List NodeKind) (kind : NodeKind)
    (slots : List Element) : Prop where
  listed : kind ∈ kinds
  kept : Good good slots
  around : ∀ (span : Span) (below : Element), (Slot.ofNodes kinds).admits below = true →
    good ⟨kind, span, slots ++ [below]⟩

theorem admits_finish {state : State} {kind : NodeKind} (listed : kind ∈ kinds)
    (children : List Element) :
    (Slot.ofNodes kinds).admits (state.finish context kind children) = true := by
  simpa [State.finish, Node.toElement, Node.spanning, Slot.admits, Slot.ofNodes] using listed

/-- Nodes nested to the right are good from the inside out. -/
theorem nestRight_good {state : State} {kind : List Element → NodeKind}
    {frames : List (List Element)} {inmost : Element}
    (enclose : ∀ slots ∈ frames, Encloses good kinds (kind slots) slots)
    (admitted : (Slot.ofNodes kinds).admits inmost = true) (kept : Good good [inmost]) :
    (Slot.ofNodes kinds).admits (state.nestRight context kind frames inmost) = true ∧
      Good good [state.nestRight context kind frames inmost] := by
  induction frames generalizing inmost with
  | nil => exact ⟨admitted, kept⟩
  | cons slots frames ih =>
      have outer := enclose slots List.mem_cons_self
      refine ih (fun others member => enclose others (List.mem_cons_of_mem _ member)) ?_ ?_
      · exact admits_finish outer.listed _
      · exact Good.node (outer.around _ inmost admitted) (outer.kept.append kept)

end Nesting

section Prefixes

/-- The slots of a prefix, whose node is good around a further prefix and around an
operand. -/
structure IsPrefix (good : Node → Prop) (last : Step) (slots : List Element) : Prop where
  encloses : Encloses good Outline.prefixNodes (State.prefixKind slots) slots
  ends : ∀ before after, before.slots = slots.reverse → last before = .ok after →
    Good good after.slots ∧ ∀ span, good ⟨State.prefixKind slots, span, after.gathered⟩

variable {link last : Step} {slot : Slot}

theorem closePrefixes_appends (lastReads : Reads good slot last) {prefixes : List (List Element)}
    (arePrefixes : ∀ slots ∈ prefixes, IsPrefix good last slots) {state after : State}
    (read : state.closePrefixes context last prefixes = .ok after) :
    ∃ element, after.slots = element :: state.slots ∧
      (slot.join (.ofNodes Outline.prefixNodes)).admits element = true ∧ Good good [element] := by
  cases prefixes with
  | nil =>
      obtain ⟨inner, stepped, rfl⟩ := State.inFrame_eq_ok.mp read
      obtain ⟨element, slots, admitted, kept⟩ := lastReads _ inner rfl stepped
      refine ⟨element, by simp [State.onto, slots], ?_, kept⟩
      rw [Slot.admits_join, admitted, Bool.true_or]
  | cons inmost outer =>
      obtain ⟨inner, stepped, rest⟩ := bind_eq_ok.mp read
      cases rest
      have first := arePrefixes inmost List.mem_cons_self
      obtain ⟨kept, here⟩ := first.ends _ inner rfl stepped
      have enclose : ∀ slots ∈ outer,
          Encloses good Outline.prefixNodes (State.prefixKind slots) slots :=
        fun slots member => (arePrefixes slots (List.mem_cons_of_mem _ member)).encloses
      have operand : Good good [inner.finish context (State.prefixKind inmost) inner.gathered] :=
        Good.node (here _) kept.reverse
      obtain ⟨admitted, all⟩ :=
        nestRight_good enclose (admits_finish first.encloses.listed inner.gathered) operand
      refine ⟨_, rfl, ?_, all⟩
      rw [Slot.admits_join, admitted, Bool.or_true]

/-- The loop over prefixes appends one slot: the operand, or the outermost prefix. -/
theorem prefixed_appends (lastReads : Reads good slot last)
    (linkReads : ∀ before after, before.slots = [] → link before = .ok after →
      before.position < after.position → IsPrefix good last after.gathered)
    (rounds : Nat) {prefixes : List (List Element)}
    (arePrefixes : ∀ slots ∈ prefixes, IsPrefix good last slots) {state after : State}
    (read : State.prefixed context link last rounds prefixes state = .ok after) :
    ∃ element, after.slots = element :: state.slots ∧
      (slot.join (.ofNodes Outline.prefixNodes)).admits element = true ∧ Good good [element] := by
  induction rounds generalizing prefixes state with
  | zero => exact closePrefixes_appends lastReads arePrefixes read
  | succ rounds ih =>
      obtain ⟨⟨slots, next⟩, collected, rest⟩ := bind_eq_ok.mp read
      have kept := State.slots_collect collected
      obtain ⟨inner, stepped, rfl, rfl⟩ := State.collect_eq_ok.mp collected
      simp only at rest
      split at rest
      · rename_i advanced
        have extended : ∀ others ∈ inner.gathered :: prefixes, IsPrefix good last others := by
          intro others member
          cases member with
          | head => exact linkReads _ inner rfl stepped advanced
          | tail _ member => exact arePrefixes others member
        have appended := ih extended rest
        exact appended
      · have appended := closePrefixes_appends lastReads arePrefixes rest
        exact appended

theorem prefixed_advances (linkMoves : Moving context .any link)
    (lastMoves : Moving context .any last)
    (advances : ∀ before after, before.slots = [] → last before = .ok after →
      before.position < after.position)
    (rounds : Nat) {state after : State}
    (read : State.prefixed context link last rounds [] state = .ok after) :
    state.position < after.position := by
  have direct : ∀ state : State, state.closePrefixes context last [] = .ok after →
      state.position < after.position := by
    intro state read
    obtain ⟨inner, stepped, rfl⟩ := State.inFrame_eq_ok.mp read
    exact advances { state with slots := [] } inner rfl stepped
  cases rounds with
  | zero => exact direct state read
  | succ rounds =>
      obtain ⟨⟨slots, next⟩, collected, rest⟩ := bind_eq_ok.mp read
      obtain ⟨inner, stepped, rfl, rfl⟩ := State.collect_eq_ok.mp collected
      simp only at rest
      split at rest
      · rename_i advanced
        have moves := State.prefixed_moves (fun _ => rfl) linkMoves lastMoves rounds _ _ _ rest
        have further := moves.forward_any
        exact Nat.lt_of_lt_of_le advanced further
      · have forward := (linkMoves _ inner stepped).forward_any
        have further := direct _ rest
        exact Nat.lt_of_le_of_lt forward further

/-- The last part, if it is one slot, says what the first slot in source order is. -/
theorem Fits.getLast? {parts : List Part} {elements : List Element} (fits : Fits parts elements)
    {first : Slot} (one : parts.getLast? = some (.one first)) :
    ∃ element, elements.getLast? = some element ∧ first.admits element = true := by
  induction fits with
  | nil => cases one
  | @one slot parts element elements admitted rest ih =>
      cases parts with
      | nil =>
          cases rest
          cases one
          exact ⟨element, rfl, admitted⟩
      | cons part parts =>
          obtain ⟨last, found, holds⟩ := ih (by simpa using one)
          exact ⟨last, by simp [List.getLast?_cons, found], holds⟩
  | @done slot parts elements rest ih =>
      cases parts with
      | nil => cases one
      | cons part parts => exact ih (by simpa using one)
  | more admitted rest ih =>
      obtain ⟨last, found, holds⟩ := ih one
      exact ⟨last, by simp [List.getLast?_cons, found], holds⟩

theorem prefixKind_mem_prefixNodes (slots : List Element) :
    State.prefixKind slots ∈ Outline.prefixNodes := by
  unfold State.prefixKind
  split <;> decide

theorem mayStart_prefixKind {first : Slot} {slots : List Element} {element : Element}
    (head : slots.head? = some element) (admitted : first.admits element = true) :
    Outline.mayStart first (State.prefixKind slots) = true := by
  have tokens : ∀ kind, element.tokenKind? = some kind → first.tokens.contains kind = true := by
    intro kind known
    cases element with
    | token found =>
        cases known
        exact admitted
    | node | missing | absent => cases known
  rw [State.prefixKind, head, Option.bind_some]
  split
  · rename_i known
    exact tokens _ known
  · rename_i known
    exact tokens _ known
  · rename_i known
    exact tokens _ known
  · rename_i increments decrements casts
    simp only [Outline.mayStart, Bool.not_eq_true']
    apply Bool.eq_false_iff.mpr
    intro inside
    have other := Slot.admits_of_within inside admitted
    cases element with
    | token found =>
        simp only [Slot.admits, Slot.ofTokens, TokenSet.contains_ofList, List.mem_cons,
          decide_eq_true_iff] at other
        rcases other with same | same | same | none
        · exact increments (congrArg some same)
        · exact decrements (congrArg some same)
        · exact casts (congrArg some same)
        · cases none
    | node | missing | absent => simp [Slot.admits, Slot.ofTokens, NodeSet.contains] at other

theorem prefixKind_mem_prefixKinds {parts : List Part} {elements : List Element}
    (fits : Fits parts elements) (filled : elements ≠ []) :
    State.prefixKind elements.reverse ∈ Outline.prefixKinds parts := by
  unfold Outline.prefixKinds
  split
  · rename_i first one
    obtain ⟨element, last, admitted⟩ := fits.getLast? one
    have head : elements.reverse.head? = some element := by rw [List.head?_reverse, last]
    exact List.mem_filter.mpr
      ⟨prefixKind_mem_prefixNodes _, mayStart_prefixKind head admitted⟩
  · exact prefixKind_mem_prefixNodes _
  · rename_i none
    obtain rfl := List.getLast?_eq_none_iff.mp none
    cases fits
    exact absurd rfl filled

/-- What the inference checks of a prefix is enough. -/
theorem isPrefix_of_fits {discipline : Discipline} (sound : discipline.Sound good)
    {outline : Outline} {ends : List Outline}
    (lastLeads : Leads good context last true ⟨outline.parts, [], false⟩ ends)
    (admitted : ((Outline.prefixKinds outline.parts).all fun kind =>
      discipline.admits kind (.one (.ofNodes Outline.prefixNodes) :: outline.parts) &&
        ends.all (discipline.admits kind ·.parts)) = true)
    {elements : List Element} (fits : Fits outline.parts elements) (filled : elements ≠ [])
    (kept : Good good elements) : IsPrefix good last elements.reverse := by
  have here := List.all_eq_true.mp admitted _ (prefixKind_mem_prefixKinds fits filled)
  rw [Bool.and_eq_true] at here
  obtain ⟨nests, closes⟩ := here
  refine ⟨⟨prefixKind_mem_prefixNodes _, kept.reverse, ?_⟩, ?_⟩
  · intro span below isPrefix
    simpa using sound.admitted span nests (.one isPrefix fits)
  · intro before after slots read
    rw [List.reverse_reverse] at slots
    have start : Outline.Describes ⟨context, before.position, []⟩ ⟨outline.parts, [], false⟩
        before := .unmoved ⟨elements, fits, by simp [slots]⟩ (Nat.le_refl _)
    obtain ⟨⟨found, member, holds⟩, all⟩ := lastLeads _ before after rfl (fun _ => rfl) start
      (slots ▸ kept) read
    obtain ⟨top, parts, reached⟩ := holds.slots
    rw [List.append_nil] at reached
    refine ⟨all, fun span => ?_⟩
    rw [State.gathered, reached]
    exact sound.admitted span (List.all_eq_true.mp closes found member) parts

end Prefixes

section Chains

/-- The frame of a link, whose node is good around a further link and when it is the
innermost one. -/
structure IsLink (good : Node → Prop) (context : Context) (kind : NodeKind) (more : State → Bool)
    (last : Step) (inner : State) : Prop where
  joins : more inner = true → Encloses good [kind] kind (inner.take context).gathered
  closes : ∀ ended, last inner = .ok ended →
    Good good ended.slots ∧ ∀ span, good ⟨kind, span, ended.gathered⟩

variable {kind : NodeKind} {link last : Step} {more : State → Bool}

theorem closeChain_appends {outer : List (List Element)} {slots : List Element}
    (enclose : ∀ slots ∈ outer, Encloses good [kind] kind slots) {inner after : State}
    (isLink : IsLink good context kind more last inner)
    (read : State.closeChain context kind last outer slots inner = .ok after) :
    ∃ element, after.slots = element :: slots ∧
      (Slot.ofNodes [kind]).admits element = true ∧ Good good [element] := by
  obtain ⟨ended, stepped, rest⟩ := bind_eq_ok.mp read
  cases rest
  obtain ⟨all, here⟩ := isLink.closes ended stepped
  have inmost : Good good [ended.finish context kind ended.gathered] :=
    Good.node (here _) all.reverse
  obtain ⟨admitted, nested⟩ :=
    nestRight_good enclose (admits_finish (List.mem_singleton_self kind) ended.gathered) inmost
  exact ⟨_, rfl, admitted, nested⟩

/-- The loop over links appends one slot, the outermost link. -/
theorem chain_appends
    (linkReads : ∀ before after, before.slots = [] → link before = .ok after →
      IsLink good context kind more last after)
    (rounds : Nat) {outer : List (List Element)}
    (enclose : ∀ slots ∈ outer, Encloses good [kind] kind slots) {state after : State}
    (read : State.chain context kind link more last rounds outer state = .ok after) :
    ∃ element, after.slots = element :: state.slots ∧
      (Slot.ofNodes [kind]).admits element = true ∧ Good good [element] := by
  induction rounds generalizing outer state with
  | zero =>
      obtain ⟨inner, linked, rest⟩ := bind_eq_ok.mp read
      exact closeChain_appends enclose (linkReads _ inner rfl linked) rest
  | succ rounds ih =>
      obtain ⟨inner, linked, rest⟩ := bind_eq_ok.mp read
      have isLink := linkReads _ inner rfl linked
      split at rest
      · rename_i goesOn
        have extended : ∀ slots ∈ (inner.take context).gathered :: outer,
            Encloses good [kind] kind slots := by
          intro slots member
          cases member with
          | head => exact isLink.joins goesOn
          | tail _ member => exact enclose slots member
        have appended := ih extended rest
        exact appended
      · exact closeChain_appends enclose isLink rest

theorem chain_advances (linkMoves : Moving context .any link) (lastMoves : Moving context .any last)
    (advances : ∀ before after, before.slots = [] → link before = .ok after →
      before.position < after.position)
    (rounds : Nat) {outer : List (List Element)} {state after : State}
    (read : State.chain context kind link more last rounds outer state = .ok after) :
    state.position < after.position := by
  cases rounds with
  | zero =>
      obtain ⟨inner, linked, rest⟩ := bind_eq_ok.mp read
      have closed : Moves context .any _ _ :=
        State.closeChain_moves rfl lastMoves outer state.slots inner after rest
      have first := advances _ inner rfl linked
      have further := closed.forward_any
      exact Nat.lt_of_lt_of_le first further
  | succ rounds =>
      obtain ⟨inner, linked, rest⟩ := bind_eq_ok.mp read
      have first := advances _ inner rfl linked
      split at rest
      · have taken : Moves context .any inner _ := .takeUnlessEnded context inner
        have chained : Moves context .any _ _ :=
          State.chain_moves rfl more linkMoves lastMoves rounds _ _ _ rest
        have further := chained.forward_any
        exact Nat.lt_of_lt_of_le first (Nat.le_trans taken.forward_any further)
      · have closed : Moves context .any _ _ :=
          State.closeChain_moves rfl lastMoves outer state.slots inner after rest
        have further := closed.forward_any
        exact Nat.lt_of_lt_of_le first further

end Chains

/-- Without recovery, a trial is read like anything else. -/
theorem Context.trial_of_strict {context : Context} (strict : context.recovery = false) :
    context.trial = context := by
  cases context
  cases strict
  rfl

namespace Leads

theorem nothing : Leads good context (fun state => .ok state) framed outline [outline] := by
  intro base before after here whole fits all read
  cases read
  exact ⟨fits.any, all⟩

theorem absent : Leads good context (fun state => .ok (state.push .absent)) framed outline
    [outline.push .ofAbsent] := by
  intro base before after here whole fits all read
  cases read
  exact ⟨(fits.push rfl).any, Good.absent.cons all⟩

/-- A slot below all others can be told only where the outline is that of a whole frame. -/
theorem absentFirst (isFramed : framed = true) :
    Leads good context (fun state => .ok { state with slots := state.slots ++ [.absent] }) framed
      outline [{ outline with parts := outline.parts ++ [.one .ofAbsent] }] := by
  intro base before after here whole fits all read
  cases read
  obtain ⟨top, parts, slots⟩ := fits.slots
  rw [whole isFramed, List.append_nil] at slots
  refine ⟨Outline.Describes.any ⟨⟨top ++ [.absent], parts.append (.one rfl .nil), ?_⟩,
    fits.ahead, fits.start, fits.moved⟩, all.append Good.absent⟩
  simp [slots, whole isFramed]

theorem noViable (strict : context.recovery = false) (construct : Construct)
    (outlines : List Outline) :
    Leads good context (fun state => state.noViable context construct) framed outline
      outlines := by
  intro base before after here whole fits all read
  obtain ⟨reported, recorded, _⟩ := bind_eq_ok.mp read
  exact absurd recorded (State.report_ne_ok strict)

theorem require {rules : Rule → Context → Step} (strict : context.recovery = false)
    (requirement : Requirement) :
    Leads good context ((Phrase.require requirement).run rules context) framed outline
      [outline] := by
  intro base before after here whole fits all read
  simp only [Phrase.run] at read
  split at read
  · exact absurd read (State.report_ne_ok strict)
  · cases read
    exact ⟨fits.any, all⟩

theorem seq {first second : Step} {middle outlines : List Outline}
    {infer : Outline → Option (List Outline)}
    (leads : Leads good context first framed outline middle)
    (follow : ∀ outline outlines, infer outline = some outlines →
      Leads good context second framed outline outlines)
    (followed : Outline.each infer middle = some outlines) :
    Leads good context (fun state => (first state).bind second) framed outline outlines := by
  intro base before after here whole fits all read
  obtain ⟨between, one, two⟩ := bind_eq_ok.mp read
  obtain ⟨reached, kept⟩ := leads base before between here whole fits all one
  exact Leads.each followed follow base here whole reached kept two

/-- Each branch starts from what its side of the condition tells of the outline. -/
theorem choose {rules : Rule → Context → Step} {condition : Condition} {yes no : Step}
    {yeses noes : List Outline} {inferYes inferNo : Outline → Option (List Outline)}
    (yesLeads : ∀ outline outlines, inferYes outline = some outlines →
      Leads good context yes framed outline outlines)
    (noLeads : ∀ outline outlines, inferNo outline = some outlines →
      Leads good context no framed outline outlines)
    (taken : Outline.each inferYes (condition.assume framed true outline) = some yeses)
    (refused : Outline.each inferNo (condition.assume framed false outline) = some noes) :
    Leads good context
      (fun state => if condition.holds rules context state then yes state else no state) framed
      outline (Outline.merge yeses noes) := by
  intro base before after here whole fits all read
  simp only at read
  split at read
  · rename_i holds
    rw [← here] at holds
    obtain ⟨reached, kept⟩ := Leads.each taken yesLeads base here whole
      (condition.any_assume whole true outline holds fits) all read
    exact ⟨Outline.any_merge (.inl reached), kept⟩
  · rename_i fails
    rw [← here, Bool.not_eq_true] at fails
    obtain ⟨reached, kept⟩ := Leads.each refused noLeads base here whole
      (condition.any_assume whole false outline fails fits) all read
    exact ⟨Outline.any_merge (.inr reached), kept⟩

/-- A trial that is refused leaves nothing behind: the other way starts where it did. -/
theorem attempt {rules : Rule → Context → Step} (strict : context.recovery = false)
    {trial yes no : Phrase} {accept : Condition} {tried yeses noes : List Outline}
    {infer : Outline → Option (List Outline)}
    (trialLeads : Leads good context (trial.run rules context) framed outline tried)
    (yesLeads : ∀ outline outlines, infer outline = some outlines →
      Leads good context (yes.run rules context) framed outline outlines)
    (noLeads : Leads good context (no.run rules context) framed outline noes)
    (taken : Outline.each infer (tried.flatMap (accept.assume framed true)) = some yeses) :
    Leads good context ((Phrase.attempt trial accept yes no).run rules context) framed outline
      (Outline.merge yeses noes) := by
  have refusing : Leads good context (no.run rules context) framed outline
      (Outline.merge yeses noes) :=
    noLeads.mono fun _ _ some => Outline.any_merge (.inr some)
  intro base before after here whole fits all read
  simp only [Phrase.run, Context.trial_of_strict strict] at read
  split at read
  · rename_i middle fitted
    split at read
    · rename_i accepted
      obtain ⟨reached, kept⟩ := trialLeads base before middle here whole fits all fitted
      rw [← here] at accepted
      obtain ⟨ended, good⟩ := Leads.each taken yesLeads base here whole
        (reached.flatMap fun found fits => accept.any_assume whole true found accepted fits)
        kept read
      exact ⟨Outline.any_merge (.inl ended), good⟩
    · exact refusing base before after here whole fits all read
  · exact refusing base before after here whole fits all read

theorem dropAbsent {last : Slot} {below : List Part} (known : outline.parts = .one last :: below) :
    Leads good context (fun state => .ok state.dropAbsent) framed outline
      ((if last.absent then [{ outline with parts := below }] else []) ++
        if last.within .ofAbsent then [] else [outline]) := by
  intro base before after here whole fits all read
  cases read
  obtain ⟨top, parts, slots⟩ := fits.slots
  rw [known] at parts
  obtain ⟨element, lower, rfl, admitted, rest⟩ := parts.of_cons_one
  cases element with
  | absent =>
      have dropped : before.dropAbsent = { before with slots := lower ++ base.rest } := by
        simp [State.dropAbsent, slots]
      have isAbsent : last.absent = true := admitted
      rw [dropped, isAbsent]
      refine ⟨⟨_, List.mem_append_left _ (List.mem_singleton_self _), ⟨lower, rest, rfl⟩,
        fits.ahead, fits.start, fits.moved⟩, ?_⟩
      rw [slots] at all
      exact all.of_subset (List.subset_cons_self ..)
  | node | token | missing =>
      have same : before.dropAbsent = before := by simp [State.dropAbsent, slots]
      rw [same]
      refine ⟨⟨outline, List.mem_append_right _ ?_, fits⟩, all⟩
      split
      · rename_i inside
        have impossible := Slot.admits_of_within inside admitted
        simp [Slot.admits, Slot.ofAbsent, NodeSet.contains] at impossible
      · exact List.mem_singleton_self _

/-- A called rule takes its slots and leaves one. -/
theorem call {step : Step} {signature : Signature} {below : List Part}
    (leads : Leads good context step false ⟨signature.takes.map .one, [], false⟩
      [⟨[.one signature.gives], [], true⟩])
    (dropped : Outline.dropSlots? signature.takes outline.parts = some below) :
    Leads good context step framed outline [⟨.one signature.gives :: below, [], true⟩] := by
  intro base before after here whole fits all read
  obtain ⟨top, parts, slots⟩ := fits.slots
  obtain ⟨upper, lower, rfl, taken, kept⟩ := Outline.fits_of_dropSlots? dropped parts
  have started := fits.start
  have start : Outline.Describes ⟨context, before.position, lower ++ base.rest⟩
      ⟨signature.takes.map .one, [], false⟩ before :=
    .unmoved ⟨upper, taken, by rw [slots, List.append_assoc]⟩ (Nat.le_refl _)
  obtain ⟨⟨found, member, holds⟩, good⟩ :=
    leads _ before after rfl (absurd · Bool.false_ne_true) start all read
  obtain rfl := List.mem_singleton.mp member
  obtain ⟨result, one, reached⟩ := holds.slots
  have forward : before.position < after.position := holds.moved rfl
  obtain ⟨element, rfl, admitted⟩ := one.of_single
  refine ⟨Outline.Describes.any (.ofParts ⟨element :: lower, .one admitted kept, ?_⟩ (by omega)
    (fun _ => by omega)), good⟩
  rw [reached]
  rfl

/-- Closing a frame makes one slot of it. -/
theorem close {discipline : Discipline} (sound : discipline.Sound good) {kind : NodeKind}
    {base : Base} {state : State} (admitted : discipline.admits kind outline.parts = true)
    (whole : base.rest = []) (fits : outline.Describes base state) (all : Good good state.slots) :
    Outline.Describes base { outline with parts := [.one (.ofNodes [kind])] }
        (state.close context kind) ∧
      Good good (state.close context kind).slots := by
  obtain ⟨top, parts, slots⟩ := fits.slots
  rw [whole, List.append_nil] at slots
  constructor
  · refine ⟨⟨[state.finish context kind state.gathered], .one ?_ .nil, ?_⟩, fits.ahead, fits.start,
      fits.moved⟩
    · exact admits_finish (List.mem_singleton_self kind) _
    · simp [State.close, whole]
  · refine Good.node ?_ all.reverse
    rw [State.gathered, slots]
    exact sound.admitted _ admitted parts

theorem closed {discipline : Discipline} (sound : discipline.Sound good) {kind : NodeKind}
    (admitted : discipline.admits kind outline.parts = true) (isFramed : framed = true) :
    Leads good context (fun state => .ok (state.close context kind)) framed outline
      [{ outline with parts := [.one (.ofNodes [kind])] }] := by
  intro base before after here whole fits all read
  cases read
  obtain ⟨closed, kept⟩ := close sound admitted (whole isFramed) fits all
  exact ⟨closed.any, kept⟩

/-- What is put away in an error node is what was read, without some of it, and at most
one token more. -/
theorem swallow {discipline : Discipline} (sound : discipline.Sound good)
    {read : List Outline} {base : Base} {result : State} (whole : base.rest = [])
    (admitted : discipline.admits .error
      [.run ((Outline.anySlot read).join (.ofTokens .full))] = true)
    (member : outline ∈ read) (holds : outline.Describes base result)
    (kept : Good good result.slots) :
    Outline.Describes base ⟨[.one (.ofNodes [.error])], [], false⟩ (result.swallow context) ∧
      Good good (result.swallow context).slots := by
  let slot := (Outline.anySlot read).join (.ofTokens .full)
  obtain ⟨top, parts, slots⟩ := holds.slots
  rw [whole, List.append_nil] at slots
  let hollow : State := { result with slots := result.slots.filter (!State.isEmptyError ·) }
  have fewer : hollow.slots ⊆ result.slots := fun _ => (List.mem_filter.mp · |>.1)
  have admits : ∀ element ∈ (hollow.take context).slots, slot.admits element = true := by
    have old : ∀ element ∈ hollow.slots, slot.admits element = true := by
      intro element among
      have known := Outline.admits_anySlot member parts (slots ▸ fewer among)
      rw [Slot.admits_join, known, Bool.true_or]
    unfold State.take
    split
    · exact old
    · intro element among
      cases among with
      | head =>
          rw [Slot.admits_join, Slot.admits.eq_def (.ofTokens .full)]
          simp [Slot.ofTokens]
      | tail _ among => exact old element among
  have old : Good good hollow.slots := kept.of_subset fewer
  have further : result.position ≤ (hollow.take context).position := by
    have taken : Moves context .any hollow _ := .takeUnlessEnded context hollow
    exact taken.forward_any
  have fits : Outline.Describes base ⟨[.run slot], [], false⟩ (hollow.take context) := by
    refine .unmoved ⟨(hollow.take context).slots, ?_, by simp [whole]⟩
      (Nat.le_trans holds.start further)
    simpa using Fits.run_append admits (.done .nil)
  exact close sound admitted whole fits old.take

theorem progress {discipline : Discipline} (sound : discipline.Sound good) {step : Step}
    {read inner : List Outline}
    (leads : Leads good context step true ⟨[], outline.ahead, false⟩ read)
    (covered : ∀ (base : Base) (state : State), Outline.Any base read state →
      Outline.Any base inner state)
    (swallows : read.all (·.moved) = true ∨
      discipline.admits .error
          [.run ((Outline.anySlot read).join (.ofTokens .full))] = true ∧
        ∀ (base : Base) (state : State),
          Outline.Describes base ⟨[.one (.ofNodes [.error])], [], false⟩ state →
          Outline.Any base inner state) :
    Leads good context (fun state => state.progress context step) framed outline
      (Outline.since outline.moved (Outline.above outline.parts inner)) := by
  intro base before after here whole fits all stepped
  subst here
  obtain ⟨ended, looped, rfl⟩ := State.inFrame_eq_ok.mp stepped
  obtain ⟨result, first, rest⟩ := bind_eq_ok.mp looped
  have start : Outline.Describes ⟨base.context, before.position, []⟩
      ⟨[], outline.ahead, false⟩ { before with slots := [] } :=
    ⟨⟨[], .nil, rfl⟩, fits.ahead, Nat.le_refl _, (absurd · Bool.false_ne_true)⟩
  obtain ⟨reached, kept⟩ := leads ⟨base.context, before.position, []⟩ _ result rfl
    (fun _ => rfl) start Good.nil first
  obtain ⟨top, below, slots⟩ := fits.slots
  have outside : ∀ state : State, Outline.Any ⟨base.context, before.position, []⟩ inner state →
      Outline.Any base (Outline.since outline.moved (Outline.above outline.parts inner))
        (state.onto (before.slots.drop 0)) := by
    intro state known
    have raised := Outline.Any.onto before.slots known
    rw [slots] at raised
    rw [List.drop_zero, slots]
    exact .since fits (Outline.Any.above raised below)
  split at rest
  · cases rest
    exact ⟨outside _ (covered _ _ reached), kept.append (all.of_subset (List.drop_subset ..))⟩
  · rename_i still
    cases rest
    have unmoved : result.position = before.position :=
      Decidable.byContradiction fun moved => still (.inl moved)
    obtain ⟨found, member, holds⟩ := reached
    rcases swallows with moved | ⟨admitted, joined⟩
    · have advanced : before.position < result.position :=
        holds.moved (List.all_eq_true.mp moved found member)
      omega
    · obtain ⟨swallowed, kept⟩ := swallow sound rfl admitted member holds kept
      exact ⟨outside _ (joined _ _ swallowed), kept.append (all.of_subset (List.drop_subset ..))⟩

theorem operators {discipline : Discipline} (sound : discipline.Sound good) {operand type : Step}
    {slot result : Slot} {ahead : List TokenSet} {moved : Bool} {tests : List Outline}
    (operates : discipline.operators slot tests = some result)
    (operandMoves : Moving context .any operand) (typeMoves : Moving context .any type)
    (operandLeads : Leads good context operand true ⟨[], [], false⟩ [⟨[.one slot], ahead, moved⟩])
    (typeLeads : Leads good context type true
      ⟨[.one (.ofTokens (.singleton .kwInstanceof))], [], false⟩ tests) :
    Leads good context (State.operators context operand type) framed outline
      [⟨.one result :: outline.parts, [], moved || outline.moved⟩] := by
  have moves : Moving context .any (State.operators context operand type) :=
    State.operators_moving (fun _ => rfl) rfl operandMoves typeMoves
  refine of_appends (sound.operators operates operandLeads.reads typeLeads) ?_ ?_
  · intro before after read
    exact (moves before after read).forward_any
  · intro isMoved before after read
    obtain ⟨⟨left, next⟩, collected, rest⟩ := bind_eq_ok.mp read
    obtain ⟨inner, stepped, rfl, rfl⟩ := State.collect_eq_ok.mp collected
    have first := operandLeads.advances (by simpa using isMoved) rfl stepped
    have climbed : Moves context .any _ _ :=
      State.climb_moves (fun _ => rfl) rfl operandMoves typeMoves _ _ _ _ _ rest
    have further := climbed.forward_any
    exact Nat.lt_of_lt_of_le first further

theorem prefixed {discipline : Discipline} (sound : discipline.Sound good) {link last : Step}
    {slot : Slot} {ahead : List TokenSet} {moved : Bool} {links : List Outline}
    (linkMoves : Moving context .any link) (lastMoves : Moving context .any last)
    (linkLeads : Leads good context link true ⟨[], [], false⟩ links)
    (lastLeads : Leads good context last true ⟨[], [], false⟩ [⟨[.one slot], ahead, moved⟩])
    (admitted : ∀ outline ∈ links, ∃ ends,
      Leads good context last true ⟨outline.parts, [], false⟩ ends ∧
      ((Outline.prefixKinds outline.parts).all fun kind =>
        discipline.admits kind (.one (.ofNodes Outline.prefixNodes) :: outline.parts) &&
          ends.all (discipline.admits kind ·.parts)) = true)
    (rounds : State → Nat) :
    Leads good context (fun state => state.prefixed context link last (rounds state) []) framed
      outline [⟨.one (slot.join (.ofNodes Outline.prefixNodes)) :: outline.parts, [],
        moved || outline.moved⟩] := by
  have linkReads : ∀ before after, before.slots = [] → link before = .ok after →
      before.position < after.position → IsPrefix good last after.gathered := by
    intro before after empty read advanced
    obtain ⟨⟨found, member, fits⟩, kept⟩ := linkLeads _ before after rfl (fun _ => rfl)
      (Outline.describes_start empty) (empty ▸ Good.nil) read
    obtain ⟨ends, leads, checked⟩ := admitted found member
    obtain ⟨top, parts, slots⟩ := fits.slots
    rw [List.append_nil] at slots
    have filled : top ≠ [] := by
      rintro rfl
      have still := (linkMoves before after read).lossless.still (by simp [State.gathered, slots])
      omega
    rw [State.gathered, slots]
    exact isPrefix_of_fits sound leads checked parts filled (slots ▸ kept)
  refine of_appends ?_ ?_ ?_
  · intro before after read
    exact prefixed_appends lastLeads.reads linkReads _ (List.forall_mem_nil _) read
  · intro before after read
    have moves : Moves context .any _ _ :=
      State.prefixed_moves (fun _ => rfl) linkMoves lastMoves _ _ _ _ read
    exact moves.forward_any
  · intro isMoved before after read
    refine prefixed_advances linkMoves lastMoves ?_ _ read
    intro before after empty read
    exact lastLeads.advances (by simpa using isMoved) empty read

theorem chain {discipline : Discipline} (sound : discipline.Sound good)
    {rules : Rule → Context → Step} {kind : NodeKind} {link last : Step} {more : Condition}
    {links ends : List Outline} {infer : Outline → Option (List Outline)}
    (linkMoves : Moving context .any link) (lastMoves : Moving context .any last)
    (linkLeads : Leads good context link true ⟨[], [], false⟩ links)
    (lastLeads : ∀ outline outlines, infer outline = some outlines →
      Leads good context last true outline outlines)
    (ended : Outline.each infer links = some ends)
    (nests : ((links.flatMap (more.assume true true)).flatMap Outline.advance).all
      (discipline.admits kind <| .one (.ofNodes [kind]) :: ·.parts) = true)
    (closes : ends.all (discipline.admits kind ·.parts) = true) (rounds : State → Nat) :
    Leads good context
      (fun state => state.chain context kind link (more.holds rules context) last
        (rounds state) []) framed outline
      [⟨.one (.ofNodes [kind]) :: outline.parts, [], links.all (·.moved) || outline.moved⟩] := by
  have linkReads : ∀ before after, before.slots = [] → link before = .ok after →
      IsLink good context kind (more.holds rules context) last after := by
    intro before after empty read
    obtain ⟨reached, kept⟩ := linkLeads _ before after rfl (fun _ => rfl)
      (Outline.describes_start empty) (empty ▸ Good.nil) read
    constructor
    · intro goesOn
      have joined : Outline.Any _ (links.flatMap (more.assume true true)) after :=
        reached.flatMap fun found fits => more.any_assume (fun _ => rfl) true found goesOn fits
      obtain ⟨found, member, fits⟩ := joined.flatMap fun _ fits => fits.advance
      obtain ⟨top, parts, slots⟩ := fits.slots
      rw [List.append_nil] at slots
      refine ⟨List.mem_singleton_self kind, kept.take.reverse, ?_⟩
      intro span below admitted
      have good := sound.admitted span (List.all_eq_true.mp nests found member)
        (.one admitted parts)
      rw [State.gathered, slots]
      simpa using good
    · intro last closed
      obtain ⟨⟨found, member, fits⟩, good⟩ :=
        Leads.each ended lastLeads _ rfl (fun _ => rfl) reached kept closed
      obtain ⟨top, parts, slots⟩ := fits.slots
      rw [List.append_nil] at slots
      refine ⟨good, fun span => ?_⟩
      rw [State.gathered, slots]
      exact sound.admitted span (List.all_eq_true.mp closes found member) parts
  refine of_appends ?_ ?_ ?_
  · intro before after read
    exact chain_appends linkReads _ (List.forall_mem_nil _) read
  · intro before after read
    have moves : Moves context .any _ _ :=
      State.chain_moves rfl _ linkMoves lastMoves _ _ _ _ read
    exact moves.forward_any
  · intro isMoved before after read
    refine chain_advances linkMoves lastMoves ?_ _ read
    intro before after empty read
    exact linkLeads.advances isMoved empty read

end Leads

/-- The outlines inferred for a phrase are those it leads to, if this holds of the rules it
calls.  The induction is over the phrase. -/
theorem Phrase.infer_sound {rules : Rule → Context → Step} {discipline : Discipline}
    (strict : context.recovery = false) (sound : discipline.Sound good)
    (rulesLead : ∀ rule, Leads good context (rules rule context) false
      ⟨(discipline.signature rule).takes.map .one, [], false⟩
      [⟨[.one (discipline.signature rule).gives], [], true⟩])
    (phrasesMove : ∀ phrase : Phrase, Moving context .any (phrase.run rules context)) :
    (phrase : Phrase) → (framed : Bool) → (outline : Outline) → (outlines : List Outline) →
      phrase.infer discipline framed outline = some outlines →
      Leads good context (phrase.run rules context) framed outline outlines
  | .nothing, framed, outline, outlines, inferred => by
      cases inferred
      exact .nothing
  | .absent, framed, outline, outlines, inferred => by
      cases inferred
      exact .absent
  | .absentFirst, framed, outline, outlines, inferred => by
      simp only [Phrase.infer] at inferred
      split at inferred
      · rename_i isFramed
        cases inferred
        exact .absentFirst isFramed
      · cases inferred
  | .dropAbsent, framed, outline, outlines, inferred => by
      simp only [Phrase.infer] at inferred
      split at inferred
      · rename_i last below known
        cases inferred
        exact .dropAbsent known
      · cases inferred
  | .take, framed, outline, outlines, inferred => by
      cases inferred
      exact .take
  | .expect kind, framed, outline, outlines, inferred => by
      cases inferred
      exact .expect strict kind
  | .noViable construct, framed, outline, outlines, inferred =>
      .noViable strict construct outlines
  | .require requirement, framed, outline, outlines, inferred => by
      cases inferred
      exact .require strict requirement
  | .call rule, framed, outline, outlines, inferred => by
      obtain ⟨below, dropped, same⟩ := Option.bind_eq_some_iff.mp inferred
      cases same
      exact .call (rulesLead rule) dropped
  | .seq first second, framed, outline, outlines, inferred => by
      obtain ⟨middle, started, followed⟩ := Option.bind_eq_some_iff.mp inferred
      exact .seq (first.infer_sound strict sound rulesLead phrasesMove framed _ middle started)
        (second.infer_sound strict sound rulesLead phrasesMove framed) followed
  | .choose condition yes no, framed, outline, outlines, inferred => by
      obtain ⟨yeses, taken, inferred⟩ := Option.bind_eq_some_iff.mp inferred
      obtain ⟨noes, refused, same⟩ := Option.bind_eq_some_iff.mp inferred
      cases same
      exact .choose (yes.infer_sound strict sound rulesLead phrasesMove framed)
        (no.infer_sound strict sound rulesLead phrasesMove framed) taken refused
  | .frame lead body, framed, outline, outlines, inferred => by
      obtain ⟨⟨top, below⟩, split, inferred⟩ := Option.bind_eq_some_iff.mp inferred
      obtain ⟨inner, found, same⟩ := Option.bind_eq_some_iff.mp inferred
      cases same
      exact .inFrame split
        (body.infer_sound strict sound rulesLead phrasesMove true _ inner found)
  | .close kind, framed, outline, outlines, inferred => by
      simp only [Phrase.infer] at inferred
      split at inferred
      · rename_i admitted
        rw [Bool.and_eq_true] at admitted
        cases inferred
        exact .closed sound admitted.2 admitted.1
      · cases inferred
  | .many body, framed, outline, outlines, inferred =>
      Leads.repeated (phrasesMove body) (body.infer_sound strict sound rulesLead phrasesMove)
        (State.remaining context) inferred
  | .whenAdvanced body next, framed, outline, outlines, inferred => by
      simp only [Phrase.infer] at inferred
      split at inferred
      · rename_i pushed started
        obtain ⟨reached, followed, same⟩ := Option.bind_eq_some_iff.mp inferred
        cases same
        exact .whenAdvanced_appended (phrasesMove body)
          (body.infer_sound strict sound rulesLead phrasesMove false _ pushed started)
          (next.infer_sound strict sound rulesLead phrasesMove framed) followed
      · obtain ⟨read, started, inferred⟩ := Option.bind_eq_some_iff.mp inferred
        obtain ⟨reached, followed, same⟩ := Option.bind_eq_some_iff.mp inferred
        cases same
        exact .whenAdvanced
          (body.infer_sound strict sound rulesLead phrasesMove framed _ read started)
          (next.infer_sound strict sound rulesLead phrasesMove framed) followed
  | .progress body, framed, outline, outlines, inferred => by
      obtain ⟨read, started, inferred⟩ := Option.bind_eq_some_iff.mp inferred
      have leads := body.infer_sound strict sound rulesLead phrasesMove true _ read started
      split at inferred
      · rename_i moved
        cases inferred
        exact .progress sound leads (fun _ _ some => some) (.inl moved)
      · split at inferred
        · rename_i admitted
          cases inferred
          exact .progress sound leads (fun _ _ some => Outline.any_merge (.inl some))
            (.inr ⟨admitted, fun _ _ fits => Outline.any_merge (.inr fits.any)⟩)
        · cases inferred
  | .attempt trial accept yes no, framed, outline, outlines, inferred => by
      obtain ⟨tried, started, inferred⟩ := Option.bind_eq_some_iff.mp inferred
      obtain ⟨yeses, taken, inferred⟩ := Option.bind_eq_some_iff.mp inferred
      obtain ⟨noes, refused, same⟩ := Option.bind_eq_some_iff.mp inferred
      cases same
      exact .attempt strict
        (trial.infer_sound strict sound rulesLead phrasesMove framed _ tried started)
        (yes.infer_sound strict sound rulesLead phrasesMove framed)
        (no.infer_sound strict sound rulesLead phrasesMove framed _ noes refused) taken
  | .operators operand type, framed, outline, outlines, inferred => by
      obtain ⟨operands, started, inferred⟩ := Option.bind_eq_some_iff.mp inferred
      split at inferred
      · obtain ⟨tests, tested, inferred⟩ := Option.bind_eq_some_iff.mp inferred
        obtain ⟨result, operates, same⟩ := Option.bind_eq_some_iff.mp inferred
        cases same
        exact .operators sound operates (phrasesMove operand) (phrasesMove type)
          (operand.infer_sound strict sound rulesLead phrasesMove true _ _ started)
          (type.infer_sound strict sound rulesLead phrasesMove true _ _ tested)
      · cases inferred
  | .prefixed link last, framed, outline, outlines, inferred => by
      obtain ⟨links, linked, inferred⟩ := Option.bind_eq_some_iff.mp inferred
      obtain ⟨lasts, ended, inferred⟩ := Option.bind_eq_some_iff.mp inferred
      split at inferred
      · simp only at inferred
        split at inferred
        · rename_i checked
          cases inferred
          refine .prefixed sound (phrasesMove link) (phrasesMove last)
            (link.infer_sound strict sound rulesLead phrasesMove true _ _ linked)
            (last.infer_sound strict sound rulesLead phrasesMove true _ _ ended) ?_
            (State.remaining context)
          intro found member
          have admitted := List.all_eq_true.mp checked found member
          obtain ⟨ends, reached, admitted⟩ := (Option.any_eq_true _ _).mp admitted
          exact ⟨ends, last.infer_sound strict sound rulesLead phrasesMove true _ _ reached,
            admitted⟩
        · cases inferred
      · cases inferred
  | .chain kind link more last, framed, outline, outlines, inferred => by
      obtain ⟨links, linked, inferred⟩ := Option.bind_eq_some_iff.mp inferred
      obtain ⟨ends, ended, inferred⟩ := Option.bind_eq_some_iff.mp inferred
      split at inferred
      · rename_i admitted
        rw [Bool.and_eq_true] at admitted
        cases inferred
        exact .chain sound (phrasesMove link) (phrasesMove last)
          (link.infer_sound strict sound rulesLead phrasesMove true _ _ linked)
          (last.infer_sound strict sound rulesLead phrasesMove true) ended admitted.1 admitted.2
          (State.remaining context)
      · cases inferred

end JavaSyntax
