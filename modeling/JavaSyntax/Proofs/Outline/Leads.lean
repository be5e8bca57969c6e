import JavaSyntax.Proofs.Lossless
import JavaSyntax.Proofs.Outline.Infer
import JavaSyntax.Proofs.Tree.Nodes

/-!
# Steps from outline to outline

What it means that a step leads from the states of one outline to those of some
others and keeps all nodes good, and how this composes: along sequences, in
frames and in loops.
-/

namespace JavaSyntax

/-- All nodes in and below some slots are good. -/
def Good (good : Node → Prop) (slots : List Element) : Prop :=
  ∀ slot ∈ slots, ∀ node ∈ slot.nodes, good node

namespace Good

variable {good : Node → Prop}

theorem of_subset {slots others : List Element} (all : Good good slots) (subset : others ⊆ slots) :
    Good good others :=
  fun slot member => all slot (subset member)

theorem nil : Good good [] := by
  intro slot member
  cases member

theorem append {slots others : List Element} (left : Good good slots) (right : Good good others) :
    Good good (slots ++ others) := by
  intro slot member
  exact (List.mem_append.mp member).elim (left slot) (right slot)

theorem cons {slot : Element} {slots : List Element} (first : Good good [slot])
    (others : Good good slots) : Good good (slot :: slots) :=
  first.append others

theorem head {slot : Element} {slots : List Element} (all : Good good (slot :: slots)) :
    Good good [slot] :=
  all.of_subset (List.cons_subset_cons slot (List.nil_subset slots))

theorem tail {slot : Element} {slots : List Element} (all : Good good (slot :: slots)) :
    Good good slots :=
  all.of_subset (List.subset_cons_self slot slots)

/-- The slots of a node over which all nodes are good. -/
theorem below {kind : NodeKind} {span : Span} {children : List Element}
    (all : Good good [.node kind span children]) : Good good children := by
  intro child member node found
  refine all _ (List.mem_singleton_self _) node ?_
  rw [Element.nodes_node]
  exact List.mem_cons_of_mem _ (Element.mem_nodesAll.mpr ⟨child, member, found⟩)

theorem reverse {slots : List Element} (all : Good good slots) : Good good slots.reverse :=
  all.of_subset fun _ member => List.mem_reverse.mp member

theorem absent : Good good [.absent] := by
  intro slot member node below
  rw [List.mem_singleton.mp member] at below
  simp at below

theorem token (found : Token) : Good good [.token found] := by
  intro slot member node below
  rw [List.mem_singleton.mp member] at below
  simp at below

theorem take {context : Context} {state : State} (all : Good good state.slots) :
    Good good (state.take context).slots := by
  unfold State.take
  split
  · exact all
  · exact (token _).cons all

/-- A good node over good slots. -/
theorem node {kind : NodeKind} {span : Span} {children : List Element}
    (here : good ⟨kind, span, children⟩) (all : Good good children) :
    Good good [.node kind span children] := by
  intro slot member node below
  rw [List.mem_singleton.mp member, Element.nodes_node] at below
  cases below with
  | head => exact here
  | tail _ deeper =>
      obtain ⟨child, among, found⟩ := Element.mem_nodesAll.mp deeper
      exact all child among node found

end Good

namespace Outline

variable {base : Base} {state : State}

/-- The same place seen from another start. -/
theorem Describes.restart {outline : Outline} (fits : outline.Describes base state) :
    ({ outline with moved := false } : Outline).Describes { base with origin := state.position }
      state :=
  ⟨fits.slots, fits.ahead, Nat.le_refl _, (absurd · Bool.false_ne_true)⟩

/-- What holds since a later start, seen from the first one. -/
theorem Any.since {outline : Outline} {outlines : List Outline} {after : State}
    (fits : outline.Describes base state)
    (later : Any { base with origin := state.position } outlines after) :
    Any base (since outline.moved outlines) after := by
  obtain ⟨found, member, holds⟩ := later
  have started := fits.start
  have going : state.position ≤ after.position := holds.start
  refine ⟨_, List.mem_map_of_mem member, holds.slots, holds.ahead, by omega, ?_⟩
  intro moved
  rcases Bool.or_eq_true _ _ ▸ moved with moved | moved
  · have advanced : state.position < after.position := holds.moved moved
    omega
  · have advanced := fits.moved moved
    omega

/-- What is known of a frame is known of it when it has slots below. -/
theorem Any.onto {context : Context} {origin : Nat} {outlines : List Outline}
    (lower : List Element) (inner : Any ⟨context, origin, []⟩ outlines state) :
    Any ⟨context, origin, lower⟩ outlines (state.onto lower) := by
  obtain ⟨found, member, holds⟩ := inner
  obtain ⟨top, parts, slots⟩ := holds.slots
  refine ⟨found, member, ⟨top, parts, ?_⟩, holds.ahead, holds.start, holds.moved⟩
  simp [State.onto, slots]

/-- What is known above some slots, when these are known as well. -/
theorem Any.above {context : Context} {origin : Nat} {below : List Part}
    {outlines : List Outline} {lower rest : List Element}
    (upper : Any ⟨context, origin, lower ++ rest⟩ outlines state) (fits : Fits below lower) :
    Any ⟨context, origin, rest⟩ (above below outlines) state := by
  obtain ⟨found, member, holds⟩ := upper
  obtain ⟨top, parts, slots⟩ := holds.slots
  refine ⟨_, List.mem_map_of_mem member, ⟨top ++ lower, parts.append fits, ?_⟩, holds.ahead,
    holds.start, holds.moved⟩
  rw [slots, List.append_assoc]

theorem each_eq_some {next : Outline → Option (List Outline)} {outlines results : List Outline}
    (all : each next outlines = some results) {outline : Outline} (member : outline ∈ outlines) :
    ∃ reached, next outline = some reached ∧
      ∀ (base : Base) (state : State), Any base reached state → Any base results state := by
  induction outlines generalizing results with
  | nil => cases member
  | cons first others ih =>
      simp only [each, Option.bind_eq_bind, Option.bind_eq_some_iff, Option.pure_def,
        Option.some.injEq] at all
      obtain ⟨reached, here, rest, later, rfl⟩ := all
      cases member with
      | head => exact ⟨reached, here, fun base state some => any_merge (.inl some)⟩
      | tail _ member =>
          obtain ⟨found, known, covered⟩ := ih later member
          exact ⟨found, known, fun base state some => any_merge (.inr (covered base state some))⟩

theorem fits_of_splitLead? {lead : Nat} {parts top below : List Part} {elements : List Element}
    (split : splitLead? lead parts = some (top, below)) (fits : Fits parts elements) :
    Fits top (elements.take lead) ∧ Fits below (elements.drop lead) ∧ lead ≤ elements.length := by
  fun_induction splitLead? lead parts generalizing top below elements with
  | case1 parts =>
      cases split
      exact ⟨.nil, fits, Nat.zero_le _⟩
  | case2 lead last parts ih =>
      obtain ⟨⟨top, below⟩, known, same⟩ := Option.map_eq_some_iff.mp split
      cases same
      obtain ⟨element, lower, rfl, admitted, rest⟩ := fits.of_cons_one
      obtain ⟨upper, under, long⟩ := ih known rest
      exact ⟨.one admitted upper, under, Nat.succ_le_succ long⟩
  | case3 => cases split

theorem fits_of_dropSlots? {slots : List Slot} {parts below : List Part}
    {elements : List Element} (dropped : dropSlots? slots parts = some below)
    (fits : Fits parts elements) :
    ∃ upper lower, elements = upper ++ lower ∧ Fits (slots.map .one) upper ∧ Fits below lower := by
  fun_induction dropSlots? slots parts generalizing below elements with
  | case1 parts =>
      cases dropped
      exact ⟨[], elements, rfl, .nil, fits⟩
  | case2 slot slots last parts inside ih =>
      obtain ⟨element, lower, rfl, admitted, rest⟩ := fits.of_cons_one
      obtain ⟨upper, under, rfl, taken, kept⟩ := ih dropped rest
      exact ⟨element :: upper, under, rfl, .one (Slot.admits_of_within inside admitted) taken, kept⟩
  | case3 => cases dropped
  | case4 => cases dropped

theorem fits_of_withinParts {parts looser : List Part} {elements : List Element}
    (inside : withinParts parts looser = true) (fits : Fits parts elements) :
    Fits looser elements := by
  fun_induction withinParts parts looser generalizing elements with
  | case1 => exact fits
  | case2 left lefts right rights ih =>
      obtain ⟨within, below⟩ := Bool.and_eq_true _ _ ▸ inside
      obtain ⟨element, lower, rfl, admitted, rest⟩ := fits.of_cons_one
      exact .one (Slot.admits_of_within within admitted) (ih below rest)
  | case3 left lefts right rights ih =>
      obtain ⟨within, below⟩ := Bool.and_eq_true _ _ ▸ inside
      exact fits.run_imp (fun _ => Slot.admits_of_within within) (fun _ => ih below)
  | case4 => cases inside

/-- Every slot of the outlines is among the slots they may have. -/
theorem admits_anySlot {outlines : List Outline} {outline : Outline} (member : outline ∈ outlines)
    {elements : List Element} (fits : Fits outline.parts elements) {element : Element}
    (among : element ∈ elements) : (anySlot outlines).admits element = true := by
  obtain ⟨part, known, holds⟩ := fits.admits_of_mem among
  have listed : part ∈ outlines.flatMap (·.parts) := List.mem_flatMap.mpr ⟨outline, member, known⟩
  unfold anySlot
  generalize outlines.flatMap (·.parts) = parts at listed
  induction parts with
  | nil => cases listed
  | cons first others ih =>
      rw [List.foldr_cons, Slot.admits_join]
      cases listed with
      | head => rw [holds, Bool.true_or]
      | tail _ listed => rw [ih listed, Bool.or_true]

end Outline

/-- Wherever a step starts in a state of an outline, it ends in a state of one of some
outlines, and it keeps all nodes good.  With `framed`, the outline is that of a whole
frame. -/
def Leads (good : Node → Prop) (context : Context) (step : Step) (framed : Bool)
    (outline : Outline) (outlines : List Outline) : Prop :=
  ∀ (base : Base) (before after : State), base.context = context →
    (framed = true → base.rest = []) → outline.Describes base before →
    Good good before.slots → step before = .ok after →
    Outline.Any base outlines after ∧ Good good after.slots

namespace Leads

variable {good : Node → Prop} {context : Context} {framed : Bool} {outline : Outline}

theorem mono {step : Step} {outlines others : List Outline}
    (leads : Leads good context step framed outline outlines)
    (covered : ∀ (base : Base) (state : State), Outline.Any base outlines state →
      Outline.Any base others state) : Leads good context step framed outline others := by
  intro base before after here whole fits all read
  obtain ⟨reached, kept⟩ := leads base before after here whole fits all read
  exact ⟨covered base after reached, kept⟩

/-- A step from a state of one of some outlines that are all followed. -/
theorem each {step : Step} {next : Outline → Option (List Outline)}
    {outlines results : List Outline} (all : Outline.each next outlines = some results)
    (follow : ∀ outline reached, next outline = some reached →
      Leads good context step framed outline reached)
    (base : Base) {before after : State} (here : base.context = context)
    (whole : framed = true → base.rest = []) (some : Outline.Any base outlines before)
    (kept : Good good before.slots) (read : step before = .ok after) :
    Outline.Any base results after ∧ Good good after.slots := by
  obtain ⟨outline, member, fits⟩ := some
  obtain ⟨reached, found, covered⟩ := Outline.each_eq_some all member
  obtain ⟨ended, good⟩ := follow outline reached found base before after here whole fits kept read
  exact ⟨covered base after ended, good⟩

theorem take : Leads good context (fun state => .ok (state.take context)) framed outline
    outline.advance := by
  intro base before after here whole fits all read
  cases read
  subst here
  exact ⟨fits.advance, all.take⟩

theorem expect (strict : context.recovery = false) (kind : TokenKind) :
    Leads good context (fun state => state.expect context kind) framed outline
      ((outline.narrow 0 (.singleton kind)).flatMap Outline.advance) := by
  intro base before after here whole fits all read
  simp only [State.expect] at read
  split at read
  · rename_i found
    subst here
    have current : (TokenSet.singleton kind).contains (before.kindAt base.context 0) = true := by
      rw [TokenSet.contains_singleton, decide_eq_true_iff]
      exact found.symm
    obtain ⟨narrowed, member, known⟩ := fits.narrow current
    obtain ⟨ended, kept⟩ := take base before after rfl whole known all read
    obtain ⟨result, among, holds⟩ := ended
    exact ⟨⟨result, List.mem_flatMap.mpr ⟨narrowed, member, among⟩, holds⟩, kept⟩
  · obtain ⟨reported, recorded, _⟩ := bind_eq_ok.mp read
    exact absurd recorded (State.report_ne_ok strict)

theorem inFrame {lead : Nat} {body : Step} {top below : List Part} {outlines : List Outline}
    (split : Outline.splitLead? lead outline.parts = some (top, below))
    (leads : Leads good context body true { outline with parts := top } outlines) :
    Leads good context (fun state => state.inFrame lead body) framed outline
      (Outline.above below outlines) := by
  intro base before after here whole fits all read
  obtain ⟨inner, stepped, rfl⟩ := State.inFrame_eq_ok.mp read
  obtain ⟨elements, parts, slots⟩ := fits.slots
  obtain ⟨upper, lower, long⟩ := Outline.fits_of_splitLead? split parts
  have front : before.slots.take lead = elements.take lead := by
    rw [slots, List.take_append_of_le_length long]
  have back : before.slots.drop lead = elements.drop lead ++ base.rest := by
    rw [slots, List.drop_append_of_le_length long]
  have started : Outline.Describes { base with rest := [] } { outline with parts := top }
      { before with slots := before.slots.take lead } :=
    ⟨⟨_, upper, by simp [front]⟩, fits.ahead, fits.start, fits.moved⟩
  obtain ⟨ended, kept⟩ := leads { base with rest := [] } _ inner here (fun _ => rfl) started
    (all.of_subset (List.take_subset ..)) stepped
  refine ⟨?_, kept.append (all.of_subset (List.drop_subset ..))⟩
  rw [back]
  exact (ended.onto _).above lower

end Leads

/-- What one or more rounds of a loop do that leaves alone the slots that are there:
`pushed` are the outlines of what one round appends. -/
structure Pushed (good : Node → Prop) (pushed : List Outline) (before after : State) : Prop where
  slots : ∃ top, after.slots = top ++ before.slots ∧
    ∀ element ∈ top, (Outline.anySlot pushed).admits element = true
  forward : before.position ≤ after.position
  kept : Good good after.slots

theorem Pushed.trans {good : Node → Prop} {pushed : List Outline} {before middle after : State}
    (first : Pushed good pushed before middle) (rest : Pushed good pushed middle after) :
    Pushed good pushed before after := by
  obtain ⟨top, slots, tops⟩ := first.slots
  obtain ⟨upper, slots', uppers⟩ := rest.slots
  refine ⟨⟨upper ++ top, by rw [slots', slots, List.append_assoc], ?_⟩,
    Nat.le_trans first.forward rest.forward, rest.kept⟩
  intro element member
  exact (List.mem_append.mp member).elim (uppers element) (tops element)

namespace Leads

variable {good : Node → Prop} {context : Context} {framed : Bool} {outline : Outline}

/-- A step that leaves alone the slots that are there.  Where it reads a token, it appends
a slot. -/
theorem appended {step : Step} {ahead : List TokenSet} {pushed : List Outline}
    (moving : Moving context .any step)
    (leads : Leads good context step false ⟨[], ahead, false⟩ pushed) {before after : State}
    (seen : ∀ (distance : Nat) (kinds : TokenSet), ahead[distance]? = some kinds →
      kinds.contains (before.kindAt context distance) = true)
    (all : Good good before.slots) (read : step before = .ok after) :
    ∃ round ∈ pushed, round.Describes ⟨context, before.position, before.slots⟩ after ∧
      (before.position < after.position → round ∈ Outline.filled pushed) ∧
      Good good after.slots := by
  have here : Outline.Describes ⟨context, before.position, before.slots⟩ ⟨[], ahead, false⟩
      before :=
    ⟨⟨[], .nil, rfl⟩, seen, Nat.le_refl _, (absurd · Bool.false_ne_true)⟩
  obtain ⟨⟨round, member, fits⟩, kept⟩ :=
    leads _ before after rfl (absurd · Bool.false_ne_true) here all read
  refine ⟨round, member, fits, fun advanced => List.mem_filter.mpr ⟨member, ?_⟩, kept⟩
  cases listed : round.parts with
  | cons first rest => rfl
  | nil =>
      obtain ⟨top, parts, slots⟩ := fits.slots
      rw [listed] at parts
      cases parts
      have same : after.gathered = before.gathered := congrArg List.reverse slots
      have still := (moving before after read).lossless.still (by simp [same])
      exact absurd advanced (by omega)

theorem pushes {step : Step} {pushed : List Outline}
    (leads : Leads good context step false ⟨[], [], false⟩ pushed) {before after : State}
    (all : Good good before.slots) (read : step before = .ok after) :
    Pushed good pushed before after := by
  have here : Outline.Describes ⟨context, before.position, before.slots⟩ ⟨[], [], false⟩ before :=
    .unmoved ⟨[], .nil, rfl⟩ (Nat.le_refl _)
  obtain ⟨⟨found, member, fits⟩, kept⟩ :=
    leads _ before after rfl (absurd · Bool.false_ne_true) here all read
  obtain ⟨top, parts, slots⟩ := fits.slots
  exact ⟨⟨top, slots, fun element => Outline.admits_anySlot member parts⟩, fits.start, kept⟩

theorem iterate_pushes {step : Step} {pushed : List Outline}
    (leads : Leads good context step false ⟨[], [], false⟩ pushed) (rounds : Nat)
    {before after : State} (all : Good good before.slots)
    (read : State.iterate step rounds before = .ok after) :
    Pushed good pushed before after := by
  refine State.iterate_relates
    (fun before after => Good good before.slots → Pushed good pushed before after)
    (fun _ _ once all => leads.pushes all once) ?_ rounds _ _ read all
  intro before middle after first rest all
  have first := first all
  exact first.trans (rest first.kept)

/-- A loop whose every round keeps the parts of the outline. -/
theorem iterate_keeps {step : Step} {parts : List Part} {again : List Outline}
    (leads : Leads good context step framed ⟨parts, [], false⟩ again)
    (same : again.all (Outline.withinParts ·.parts parts) = true) (rounds : Nat) (moved : Bool)
    {base : Base} {before after : State} (here : base.context = context)
    (whole : framed = true → base.rest = [])
    (fits : Outline.Describes base ⟨parts, [], moved⟩ before) (all : Good good before.slots)
    (read : State.iterate step rounds before = .ok after) :
    Outline.Describes base ⟨parts, [], moved⟩ after ∧ Good good after.slots := by
  have single : ∀ before after, Outline.Describes base ⟨parts, [], moved⟩ before →
      Good good before.slots → step before = .ok after →
      Outline.Describes base ⟨parts, [], moved⟩ after ∧ Good good after.slots := by
    intro before after fits all read
    obtain ⟨⟨found, member, holds⟩, kept⟩ :=
      leads { base with origin := before.position } before after here whole fits.restart all read
    obtain ⟨top, known, slots⟩ := holds.slots
    have inside := List.all_eq_true.mp same found member
    have started := fits.start
    have forward : before.position ≤ after.position := holds.start
    refine ⟨.ofParts ⟨top, Outline.fits_of_withinParts inside known, slots⟩ (by omega) ?_, kept⟩
    intro isMoved
    have advanced := fits.moved isMoved
    omega
  refine State.iterate_relates
    (fun before after => Outline.Describes base ⟨parts, [], moved⟩ before →
      Good good before.slots → Outline.Describes base ⟨parts, [], moved⟩ after ∧
        Good good after.slots)
    (fun before after once fits all => single before after fits all once) ?_
    rounds _ _ read fits all
  intro before middle after first rest fits all
  obtain ⟨holds, kept⟩ := first fits all
  exact rest holds kept

/-- A loop whose rounds leave alone the slots that are there: its first round is known
from the tokens ahead, and all others append slots of one form. -/
theorem iterate_appended {step : Step} {ahead : List TokenSet} {pushed first : List Outline}
    (moving : Moving context .any step)
    (leads : Leads good context step false ⟨[], [], false⟩ pushed)
    (firstLeads : Leads good context step false ⟨[], ahead, false⟩ first) (rounds : Nat)
    {before after : State}
    (seen : ∀ (distance : Nat) (kinds : TokenSet), ahead[distance]? = some kinds →
      kinds.contains (before.kindAt context distance) = true)
    (all : Good good before.slots) (read : State.iterate step rounds before = .ok after) :
    (Outline.Any ⟨context, before.position, before.slots⟩ (first.filter (!·.moved)) after ∨
      Outline.Any ⟨context, before.position, before.slots⟩
        (Outline.onward (Outline.anySlot pushed) first) after) ∧ Good good after.slots := by
  obtain ⟨next, stepped, rest⟩ := State.iterate_first read
  obtain ⟨round, member, fits, advances, kept⟩ := firstLeads.appended moving seen all stepped
  obtain ⟨top, parts, slots⟩ := fits.slots
  -- the rounds after the first one, if any, are a run above its slots
  have runs (advanced : before.position < next.position)
      (others : Pushed good pushed next after) :
      Outline.Any ⟨context, before.position, before.slots⟩
        (Outline.onward (Outline.anySlot pushed) first) after := by
    obtain ⟨upper, above, uppers⟩ := others.slots
    have forward := others.forward
    refine ⟨_, List.mem_map_of_mem (advances advanced),
      .ofParts ⟨upper ++ top, .run_append uppers (.done parts), ?_⟩ ?_ fun _ => ?_⟩
    · rw [above, slots, List.append_assoc]
    · show before.position ≤ after.position
      omega
    · show before.position < after.position
      omega
  rcases rest with rfl | ⟨advanced, fewer, rest⟩
  · refine ⟨?_, kept⟩
    by_cases advanced : before.position < after.position
    · exact .inr (runs advanced ⟨⟨[], rfl, List.forall_mem_nil _⟩, Nat.le_refl _, kept⟩)
    · refine .inl ⟨round, List.mem_filter.mpr ⟨member, ?_⟩, fits⟩
      cases moved : round.moved with
      | false => rfl
      | true => exact absurd (fits.moved moved) advanced
  · have others := leads.iterate_pushes fewer kept rest
    exact ⟨.inr (runs advanced others), others.kept⟩

theorem repeated {step : Step} {infer : Bool → Outline → Option (List Outline)}
    (moving : Moving context .any step)
    (sound : ∀ framed outline outlines, infer framed outline = some outlines →
      Leads good context step framed outline outlines)
    {outlines : List Outline} (rounds : State → Nat)
    (found : Outline.repeated infer framed outline = some outlines) :
    Leads good context (fun state => State.iterate step (rounds state) state) framed outline
      outlines := by
  intro base before after here whole fits all read
  unfold Outline.repeated at found
  split at found
  · rename_i pushed inferred
    obtain ⟨first, inferredFirst, rfl⟩ := Option.map_eq_some_iff.mp found
    subst here
    obtain ⟨reached, kept⟩ :
        (Outline.Any ⟨base.context, before.position, before.slots⟩ (first.filter (!·.moved)) after ∨
          Outline.Any ⟨base.context, before.position, before.slots⟩
            (Outline.onward (Outline.anySlot pushed) first) after) ∧ Good good after.slots := by
      have leads := sound _ _ _ inferred
      split at inferredFirst
      · exact leads.iterate_appended moving (sound _ _ _ inferredFirst) _ fits.ahead all read
      · cases inferredFirst
        exact leads.iterate_appended moving leads _ (by simp) all read
    obtain ⟨lower, below, under⟩ := fits.slots
    rw [under] at reached
    exact ⟨.since fits (Outline.Any.above (Outline.any_merge reached) below), kept⟩
  · simp only [Option.bind_eq_bind, Option.bind_eq_some_iff] at found
    obtain ⟨stepped, _, found⟩ := found
    split at found
    · rename_i kept merged
      simp only [Option.bind_eq_some_iff] at found
      obtain ⟨again, inferred, found⟩ := found
      split at found
      · rename_i same
        cases found
        have start : Outline.Describes base ⟨outline.parts, [], false⟩ before :=
          .unmoved fits.slots fits.start
        obtain ⟨other, member, holds⟩ := merged ▸ Outline.any_merge (.inr start.any)
        obtain rfl := List.mem_singleton.mp member
        have fits' : Outline.Describes base ⟨other.parts, [], outline.moved⟩ before :=
          .ofParts holds.slots fits.start fits.moved
        obtain ⟨ended, good⟩ :=
          (sound _ _ _ inferred).iterate_keeps same _ _ here whole fits' all read
        exact ⟨ended.any, good⟩
      · cases found
    · cases found

theorem whenAdvanced {body next : Step} {infer : Outline → Option (List Outline)}
    {read reached : List Outline}
    (bodyLeads : Leads good context body framed { outline with moved := false } read)
    (nextLeads : ∀ outline outlines, infer outline = some outlines →
      Leads good context next framed outline outlines)
    (followed : Outline.each infer (Outline.since true read) = some reached) :
    Leads good context
      (fun state => do
        let after ← body state
        if state.position < after.position then next after else return after)
      framed outline
      (Outline.since outline.moved (Outline.merge (read.filter (!·.moved)) reached)) := by
  intro base before after here whole fits all stepped
  obtain ⟨middle, started, ended⟩ := bind_eq_ok.mp stepped
  obtain ⟨⟨found, member, holds⟩, kept⟩ := bodyLeads { base with origin := before.position }
    before middle here whole fits.restart all started
  split at ended
  · rename_i advanced
    have moved : Outline.Any { base with origin := before.position }
        (Outline.since true read) middle := by
      refine ⟨_, List.mem_map_of_mem member, holds.slots, holds.ahead, holds.start, ?_⟩
      exact fun _ => advanced
    obtain ⟨last, good⟩ := Leads.each followed nextLeads { base with origin := before.position }
      here whole moved kept ended
    exact ⟨.since fits (Outline.any_merge (.inr last)), good⟩
  · rename_i still
    cases ended
    have unmoved : found.moved = false := by
      cases moved : found.moved with
      | false => rfl
      | true => exact absurd (holds.moved moved) still
    have last : Outline.Any { base with origin := before.position }
        (read.filter (!·.moved)) after :=
      ⟨found, List.mem_filter.mpr ⟨member, by simp [unmoved]⟩, holds⟩
    exact ⟨.since fits (Outline.any_merge (.inl last)), kept⟩

/-- The same where the body leaves alone the slots that are there. -/
theorem whenAdvanced_appended {body next : Step} {infer : Outline → Option (List Outline)}
    {pushed reached : List Outline} (moving : Moving context .any body)
    (bodyLeads : Leads good context body false ⟨[], outline.ahead, false⟩ pushed)
    (nextLeads : ∀ outline outlines, infer outline = some outlines →
      Leads good context next framed outline outlines)
    (followed : Outline.each infer
      (Outline.above outline.parts (Outline.since true (Outline.filled pushed))) = some reached) :
    Leads good context
      (fun state => do
        let after ← body state
        if state.position < after.position then next after else return after)
      framed outline
      (Outline.since outline.moved
        (Outline.merge (Outline.above outline.parts (pushed.filter (!·.moved))) reached)) := by
  intro base before after here whole fits all stepped
  subst here
  obtain ⟨middle, started, ended⟩ := bind_eq_ok.mp stepped
  obtain ⟨round, member, holds, advances, kept⟩ := bodyLeads.appended moving fits.ahead all started
  obtain ⟨lower, below, under⟩ := fits.slots
  split at ended
  · rename_i advanced
    have moved : Outline.Any ⟨base.context, before.position, before.slots⟩
        (Outline.since true (Outline.filled pushed)) middle :=
      ⟨_, List.mem_map_of_mem (advances advanced), holds.slots, holds.ahead, holds.start,
        fun _ => advanced⟩
    rw [under] at moved
    obtain ⟨last, good⟩ := Leads.each followed nextLeads { base with origin := before.position }
      rfl whole (Outline.Any.above moved below) kept ended
    exact ⟨.since fits (Outline.any_merge (.inr last)), good⟩
  · rename_i still
    cases ended
    have unmoved : round.moved = false := by
      cases moved : round.moved with
      | false => rfl
      | true => exact absurd (holds.moved moved) still
    have last : Outline.Any ⟨base.context, before.position, before.slots⟩
        (pushed.filter (!·.moved)) after :=
      ⟨round, List.mem_filter.mpr ⟨member, by simp [unmoved]⟩, holds⟩
    rw [under] at last
    exact ⟨.since fits (Outline.any_merge (.inl (Outline.Any.above last below))), kept⟩

end Leads

end JavaSyntax
