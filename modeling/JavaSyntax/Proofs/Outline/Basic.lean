import JavaSyntax.Proofs.Lists
import JavaSyntax.Proofs.Outline.Slots

/-!
# What conditions tell

The outlines of a state before and after a condition is decided.  Where paths
meet again, outlines of the same form are joined, so a list of outlines stays
short.
-/

namespace JavaSyntax

/-- What is known of a state: the last slots of its frame, latest first, the kinds of
the tokens from the cursor on, and whether a token has been read. -/
structure Outline where
  parts : List Part
  ahead : List TokenSet := []
  moved : Bool := false

/-- Where an outline starts: at a place in the tokens, and above the slots `rest`. -/
structure Base where
  context : Context
  origin : Nat
  rest : List Element

namespace Outline

/-- A state fits an outline. -/
structure Describes (base : Base) (outline : Outline) (state : State) : Prop where
  slots : ∃ top, Fits outline.parts top ∧ state.slots = top ++ base.rest
  ahead : ∀ (distance : Nat) (kinds : TokenSet), outline.ahead[distance]? = some kinds →
    kinds.contains (state.kindAt base.context distance) = true
  start : base.origin ≤ state.position
  moved : outline.moved = true → base.origin < state.position

/-- A state fits one of some outlines. -/
def Any (base : Base) (outlines : List Outline) (state : State) : Prop :=
  ∃ outline ∈ outlines, outline.Describes base state

variable {base : Base} {state : State}

theorem Describes.any {outline : Outline} (fits : outline.Describes base state) :
    Any base [outline] state :=
  ⟨outline, List.mem_singleton_self outline, fits⟩

/-- A state of which nothing ahead is known. -/
theorem Describes.ofParts {parts : List Part} {moved : Bool}
    (slots : ∃ top, Fits parts top ∧ state.slots = top ++ base.rest)
    (start : base.origin ≤ state.position)
    (forward : moved = true → base.origin < state.position) :
    Describes base ⟨parts, [], moved⟩ state where
  slots := slots
  ahead := by
    intro distance kinds found
    cases found
  start := start
  moved := forward

/-- A state of which only slots are known. -/
theorem Describes.unmoved {parts : List Part}
    (slots : ∃ top, Fits parts top ∧ state.slots = top ++ base.rest)
    (start : base.origin ≤ state.position) : Describes base ⟨parts, [], false⟩ state :=
  .ofParts slots start (absurd · Bool.false_ne_true)

/-- The outline with one more slot. -/
def push (outline : Outline) (slot : Slot) : Outline :=
  { outline with parts := .one slot :: outline.parts }

theorem Describes.push {outline : Outline} (fits : outline.Describes base state)
    {slot : Slot} {element : Element} (admitted : slot.admits element = true) :
    (outline.push slot).Describes base (state.push element) := by
  obtain ⟨top, parts, slots⟩ := fits.slots
  refine ⟨⟨element :: top, .one admitted parts, ?_⟩, fits.ahead, fits.start, fits.moved⟩
  simp [State.push, slots]

/-- The kinds that the token some places ahead may have. -/
def kindsAt (outline : Outline) (distance : Nat) : TokenSet :=
  outline.ahead.getD distance .full

theorem Describes.kindsAt {outline : Outline} (fits : outline.Describes base state)
    (distance : Nat) :
    (outline.kindsAt distance).contains (state.kindAt base.context distance) = true := by
  rw [Outline.kindsAt, List.getD_eq_getElem?_getD]
  cases known : outline.ahead[distance]? with
  | none => exact TokenSet.contains_full _
  | some kinds => exact fits.ahead distance kinds known

/-- The kinds of so many tokens from the cursor on. -/
def reveal (outline : Outline) (count : Nat) : List TokenSet :=
  (List.range count).map outline.kindsAt

theorem Describes.reveal {outline : Outline} (fits : outline.Describes base state)
    (count : Nat) : ({ outline with ahead := outline.reveal count } : Outline).Describes
      base state := by
  refine ⟨fits.slots, ?_, fits.start, fits.moved⟩
  intro distance kinds known
  simp only [Outline.reveal, List.getElem?_map, Option.map_eq_some_iff] at known
  obtain ⟨index, found, rfl⟩ := known
  obtain ⟨_, rfl⟩ := List.getElem?_eq_some_iff.mp found
  simpa using fits.kindsAt distance

/-- The outline when the token some places ahead is known to be of some kinds. -/
def narrow (outline : Outline) (distance : Nat) (kinds : TokenSet) : List Outline :=
  let known := (outline.kindsAt distance).inter kinds
  if known.isEmpty then []
  else [{ outline with
    ahead := (outline.reveal (max outline.ahead.length (distance + 1))).set distance known }]

theorem Describes.narrow {outline : Outline} (fits : outline.Describes base state)
    {distance : Nat} {kinds : TokenSet}
    (holds : kinds.contains (state.kindAt base.context distance) = true) :
    Any base (outline.narrow distance kinds) state := by
  have known : ((outline.kindsAt distance).inter kinds).contains
      (state.kindAt base.context distance) = true := by
    rw [TokenSet.contains_inter, fits.kindsAt distance, holds]
    rfl
  simp only [Outline.narrow]
  split
  · rename_i none
    have bits : ((outline.kindsAt distance).inter kinds).bits = 0 := by
      simpa [TokenSet.isEmpty] using none
    simp [TokenSet.contains, bits] at known
  · refine Describes.any ⟨fits.slots, ?_, fits.start, fits.moved⟩
    intro other members found
    simp only [List.getElem?_set] at found
    split at found
    · rename_i same
      subst same
      split at found
      · cases found
        exact known
      · cases found
    · exact (fits.reveal _).ahead other members found

/-- The outline when the current token, which is no end mark, has been read. -/
def read (outline : Outline) : Outline where
  parts := .one (.ofTokens ((outline.kindsAt 0).inter (TokenSet.singleton .eof).compl)) ::
    outline.parts
  ahead := outline.ahead.tail
  moved := true

/-- The outlines after the current token is read.  An end mark stays where it is. -/
def advance (outline : Outline) : List Outline :=
  if (outline.kindsAt 0).contains .eof then [outline, outline.read] else [outline.read]

theorem Describes.read {outline : Outline} (fits : outline.Describes base state)
    (more : state.atEnd base.context = false) :
    outline.read.Describes base (state.takeAny base.context) := by
  have next := State.position_takeAny more
  have started := fits.start
  have current : (outline.kindsAt 0).contains (state.current base.context).kind = true :=
    fits.kindsAt 0
  have notEnd : ¬TokenKind.eof = (state.current base.context).kind := by
    intro isEnd
    have ended : state.atEnd base.context = true := beq_iff_eq.mpr isEnd.symm
    simp [more] at ended
  obtain ⟨top, parts, slots⟩ := fits.slots
  refine ⟨⟨.token (state.current base.context) :: top, .one ?_ parts, ?_⟩, ?_, ?_, ?_⟩
  · simp [Slot.admits, Slot.ofTokens, current, notEnd]
  · simp [State.takeAny, slots]
  · intro distance kinds known
    have ahead := fits.ahead (distance + 1) kinds (by simpa [Outline.read] using known)
    simpa [State.kindAt, next, Nat.add_assoc, Nat.add_comm 1] using ahead
  · omega
  · omega

theorem Describes.advance {outline : Outline} (fits : outline.Describes base state) :
    Any base outline.advance (state.take base.context) := by
  have current := fits.kindsAt 0
  unfold Outline.advance
  cases ended : state.atEnd base.context with
  | true =>
      have isEnd : state.kindAt base.context 0 = .eof := by simpa [State.atEnd] using ended
      rw [isEnd] at current
      rw [State.take_of_atEnd ended, if_pos current]
      exact ⟨outline, List.mem_cons_self, fits⟩
  | false =>
      have taken : state.take base.context = state.takeAny base.context := by
        simp [State.take, ended]
      rw [taken]
      split
      · exact ⟨outline.read, by simp, fits.read ended⟩
      · exact (fits.read ended).any

/-- Parts that say what two lists of parts of the same form say. -/
def joinParts? : List Part → List Part → Option (List Part)
  | [], [] => some []
  | .one left :: lefts, .one right :: rights =>
      (joinParts? lefts rights).map (.one (left.join right) :: ·)
  | .run left :: lefts, .run right :: rights =>
      (joinParts? lefts rights).map (.run (left.join right) :: ·)
  | _, _ => none

theorem fits_joinParts? {left right joined : List Part} {elements : List Element}
    (same : joinParts? left right = some joined)
    (fits : Fits left elements ∨ Fits right elements) : Fits joined elements := by
  fun_induction joinParts? left right generalizing joined elements with
  | case1 =>
      cases same
      exact fits.elim id id
  | case2 left lefts right rights ih =>
      obtain ⟨below, known, rfl⟩ := Option.map_eq_some_iff.mp same
      rcases fits with fits | fits
      · obtain ⟨element, lower, rfl, admitted, rest⟩ := fits.of_cons_one
        exact .one (by rw [Slot.admits_join, admitted, Bool.true_or]) (ih known (.inl rest))
      · obtain ⟨element, lower, rfl, admitted, rest⟩ := fits.of_cons_one
        exact .one (by rw [Slot.admits_join, admitted, Bool.or_true]) (ih known (.inr rest))
  | case3 left lefts right rights ih =>
      obtain ⟨below, known, rfl⟩ := Option.map_eq_some_iff.mp same
      rcases fits with fits | fits
      · refine fits.run_imp ?_ (fun _ below => ih known (.inl below))
        intro element admitted
        rw [Slot.admits_join, admitted, Bool.true_or]
      · refine fits.run_imp ?_ (fun _ below => ih known (.inr below))
        intro element admitted
        rw [Slot.admits_join, admitted, Bool.or_true]
  | case4 => cases same

/-- One outline for the states of two, if they have the same form. -/
def join? (left right : Outline) : Option Outline :=
  if left.moved = right.moved then
    (joinParts? left.parts right.parts).map
      (⟨·, List.zipWith TokenSet.union left.ahead right.ahead, left.moved⟩)
  else none

theorem describes_join? {left right joined : Outline} (same : left.join? right = some joined)
    (fits : left.Describes base state ∨ right.Describes base state) :
    joined.Describes base state := by
  unfold join? at same
  split at same
  · rename_i alike
    obtain ⟨parts, known, rfl⟩ := Option.map_eq_some_iff.mp same
    refine ⟨?_, ?_, fits.elim (·.start) (·.start), ?_⟩
    · rcases fits with fits | fits
      · obtain ⟨top, fits, slots⟩ := fits.slots
        exact ⟨top, fits_joinParts? known (.inl fits), slots⟩
      · obtain ⟨top, fits, slots⟩ := fits.slots
        exact ⟨top, fits_joinParts? known (.inr fits), slots⟩
    · intro distance kinds found
      obtain ⟨first, second, one, two, rfl⟩ := List.getElem?_zipWith_eq_some.mp found
      rw [TokenSet.contains_union]
      rcases fits with fits | fits
      · rw [fits.ahead distance first one, Bool.true_or]
      · rw [fits.ahead distance second two, Bool.or_true]
    · intro moved
      rcases fits with fits | fits
      · exact fits.moved moved
      · exact fits.moved (alike ▸ moved)
  · cases same

/-- Add an outline to some others, joined to one of its form. -/
def insert (outline : Outline) : List Outline → List Outline
  | [] => [outline]
  | first :: others =>
      match outline.join? first with
      | some joined => joined :: others
      | none => first :: insert outline others

theorem any_insert {outline : Outline} {others : List Outline}
    (fits : outline.Describes base state ∨ Any base others state) :
    Any base (insert outline others) state := by
  induction others with
  | nil =>
      rcases fits with fits | ⟨_, member, _⟩
      · exact ⟨outline, List.mem_singleton_self _, fits⟩
      · cases member
  | cons first others ih =>
      simp only [insert]
      split
      · rename_i joined same
        rcases fits with fits | ⟨other, member, fits⟩
        · exact ⟨joined, List.mem_cons_self, describes_join? same (.inl fits)⟩
        · cases member with
          | head => exact ⟨joined, List.mem_cons_self, describes_join? same (.inr fits)⟩
          | tail _ member => exact ⟨other, List.mem_cons_of_mem _ member, fits⟩
      · rcases fits with fits | ⟨other, member, fits⟩
        · obtain ⟨found, known, holds⟩ := ih (.inl fits)
          exact ⟨found, List.mem_cons_of_mem _ known, holds⟩
        · cases member with
          | head => exact ⟨first, List.mem_cons_self, fits⟩
          | tail _ member =>
              obtain ⟨found, known, holds⟩ := ih (.inr ⟨other, member, fits⟩)
              exact ⟨found, List.mem_cons_of_mem _ known, holds⟩

/-- The outlines of two lists, joined where they have the same form. -/
def merge (left right : List Outline) : List Outline :=
  left.foldr insert right

theorem any_merge {left right : List Outline}
    (fits : Any base left state ∨ Any base right state) :
    Any base (merge left right) state :=
  @exists_mem_foldr Outline (·.Describes base state) insert any_insert left right fits

/-- The outline when the frame has no slots. -/
def whenEmpty (framed : Bool) (outline : Outline) : List Outline :=
  if framed then
    if outline.parts.all (· matches .run _) then [{ outline with parts := [] }] else []
  else [outline]

/-- The outline when the frame has slots. -/
def whenFilled (framed : Bool) (outline : Outline) : List Outline :=
  match framed, outline.parts with
  | true, [] => []
  | true, [.run slot] => [{ outline with parts := [.one slot, .run slot] }]
  | _, _ => [outline]

/-- What some parts become when the last slot is of a form: the runs that have no slot of
that form are over. -/
def endsInParts (framed : Bool) (slot : Slot) : List Part → List (List Part)
  | [] => if framed then [] else [[]]
  | .one last :: below =>
      if last.meet slot = .never then [] else [.one (last.meet slot) :: below]
  | .run last :: below =>
      if last.meet slot = .never then endsInParts framed slot below else [.run last :: below]

/-- The outline when the last slot is of a form. -/
def endsIn (framed : Bool) (slot : Slot) (outline : Outline) : List Outline :=
  (endsInParts framed slot outline.parts).map fun parts => { outline with parts }

/-- If there are no slots, then no part is a single one. -/
theorem all_run_of_fits_nil {parts : List Part} (fits : Fits parts []) :
    parts.all (· matches .run _) = true := by
  generalize none : ([] : List Element) = elements at fits
  induction fits with
  | nil => rfl
  | one | more => cases none
  | done _ ih => simpa using ih none

variable {framed : Bool} (whole : framed = true → base.rest = [])

include whole

theorem Describes.whenEmpty {outline : Outline} (fits : outline.Describes base state)
    (empty : state.slots = []) : Any base (outline.whenEmpty framed) state := by
  unfold Outline.whenEmpty
  split
  · rename_i isFramed
    obtain ⟨top, parts, slots⟩ := fits.slots
    rw [whole isFramed, empty] at slots
    obtain rfl : top = [] := by simpa using slots.symm
    rw [if_pos (all_run_of_fits_nil parts)]
    exact Describes.any ⟨⟨[], .nil, by rw [whole isFramed, empty]; rfl⟩, fits.ahead, fits.start,
      fits.moved⟩
  · exact fits.any

theorem Describes.whenFilled {outline : Outline} (fits : outline.Describes base state)
    (filled : state.slots ≠ []) : Any base (outline.whenFilled framed) state := by
  obtain ⟨top, parts, slots⟩ := fits.slots
  unfold Outline.whenFilled
  split
  · rename_i none
    rw [none] at parts
    cases parts
    rw [whole rfl] at slots
    exact absurd slots filled
  · rename_i slot one
    rw [one] at parts
    rw [whole rfl, List.append_nil] at slots
    cases parts with
    | done rest =>
        cases rest
        exact absurd slots filled
    | more admitted rest =>
        exact Describes.any ⟨⟨_, .one admitted rest, by rw [slots, whole rfl, List.append_nil]⟩,
          fits.ahead, fits.start, fits.moved⟩
  · exact fits.any

theorem fits_endsInParts {slot : Slot} {parts : List Part} {top : List Element}
    (fits : Fits parts top) {last : Element} (head : (top ++ base.rest).head? = some last)
    (holds : slot.admits last = true) :
    ∃ ending ∈ endsInParts framed slot parts, Fits ending top := by
  fun_induction endsInParts framed slot parts with
  | case1 isFramed =>
      cases fits
      rw [whole isFramed] at head
      cases head
  | case2 unframed => exact ⟨[], by simp, fits⟩
  | case3 first below none =>
      obtain ⟨element, lower, rfl, admitted, others⟩ := fits.of_cons_one
      obtain rfl : element = last := by simpa using head
      have both := Slot.admits_meet first slot element
      rw [none, Slot.admits_never, admitted, holds] at both
      cases both
  | case4 first below some =>
      obtain ⟨element, lower, rfl, admitted, others⟩ := fits.of_cons_one
      obtain rfl : element = last := by simpa using head
      refine ⟨_, List.mem_singleton_self _, .one ?_ others⟩
      rw [Slot.admits_meet, admitted, holds]
      rfl
  | case5 first below none ih =>
      cases fits with
      | done others => exact ih others
      | @more _ _ element _ admitted _ =>
          obtain rfl : element = last := by simpa using head
          have both := Slot.admits_meet first slot element
          rw [none, Slot.admits_never, admitted, holds] at both
          cases both
  | case6 first below some => exact ⟨_, List.mem_singleton_self _, fits⟩

theorem Describes.endsIn {outline : Outline} (fits : outline.Describes base state)
    {slot : Slot} (ends : ∃ last, state.slots.head? = some last ∧ slot.admits last = true) :
    Any base (outline.endsIn framed slot) state := by
  obtain ⟨last, head, holds⟩ := ends
  obtain ⟨top, parts, slots⟩ := fits.slots
  obtain ⟨ending, member, known⟩ := fits_endsInParts whole parts (slots ▸ head) holds
  exact ⟨_, List.mem_map_of_mem member, ⟨top, known, slots⟩, fits.ahead, fits.start, fits.moved⟩

end Outline

/-- What the last slot is in a frame of a shape, where the shape tells. -/
def Shape.last? : Shape → Option Slot
  | .endsAbsent => some .ofAbsent
  | .endsInLabel => some (.ofNodes [.switchLabel])
  | .endsInName => some (.ofNodes [.expressionName, .fieldAccess])
  | .endsInParentheses => some (.ofNodes [.parenthesizedExpression])
  | .endsInClosing => some (.ofTokens (.singleton .rParen))
  | .empty | .primitiveInParentheses | .plainName | .capitalizedName => none

theorem Shape.admits_last? {shape : Shape} {slots : List Element} {slot : Slot}
    (known : shape.last? = some slot) (holds : shape.holds slots = true) :
    ∃ last, slots.head? = some last ∧ slot.admits last = true := by
  cases slots with
  | nil => cases shape <;> simp [Shape.holds, Shape.last?] at holds known
  | cons last below =>
      refine ⟨last, rfl, ?_⟩
      cases shape with
      | empty | primitiveInParentheses | plainName | capitalizedName => cases known
      | endsAbsent =>
          cases known
          cases last <;> first | rfl | cases holds
      | endsInLabel | endsInParentheses =>
          cases known
          cases last <;>
            simp_all [Shape.holds, Element.nodeKind?, Element.node?, Slot.admits, Slot.ofNodes]
      | endsInClosing =>
          cases known
          cases last <;>
            simp_all [Shape.holds, Element.tokenKind?, Element.token?, Slot.admits, Slot.ofTokens]
      | endsInName =>
          cases known
          simp only [Shape.holds, List.head?_cons, Option.any_some] at holds
          unfold Element.isNameChain at holds
          split at holds
          · simp [Slot.admits, Slot.ofNodes]
          · simp [Slot.admits, Slot.ofNodes]
          · cases holds

/-- The outlines of a state whose frame has a shape. -/
def Shape.assume (framed : Bool) (shape : Shape) (outline : Outline) : List Outline :=
  if shape = .empty then outline.whenEmpty framed
  else
    match shape.last? with
    | some slot => outline.endsIn framed slot
    | none => [outline]

theorem Shape.any_assume {base : Base} {state : State} {framed : Bool}
    (whole : framed = true → base.rest = []) {shape : Shape} {outline : Outline}
    (holds : shape.holds state.slots = true) (fits : outline.Describes base state) :
    Outline.Any base (shape.assume framed outline) state := by
  unfold Shape.assume
  split
  · rename_i isEmpty
    subst isEmpty
    exact fits.whenEmpty whole (List.isEmpty_iff.mp holds)
  · split
    · rename_i slot known
      exact fits.endsIn whole (Shape.admits_last? known holds)
    · exact fits.any

/-- The outlines of a state whose frame does not have a shape. -/
def Shape.deny (framed : Bool) (shape : Shape) (outline : Outline) : List Outline :=
  if shape = .empty then outline.whenFilled framed else [outline]

theorem Shape.any_deny {base : Base} {state : State} {framed : Bool}
    (whole : framed = true → base.rest = []) {shape : Shape} {outline : Outline}
    (fails : shape.holds state.slots = false) (fits : outline.Describes base state) :
    Outline.Any base (shape.deny framed outline) state := by
  unfold Shape.deny
  split
  · rename_i isEmpty
    subst isEmpty
    refine fits.whenFilled whole ?_
    rintro none
    simp [Shape.holds, none] at fails
  · exact fits.any

/-- The outlines of a state in which a condition has been decided. -/
def Condition.assume (framed : Bool) : Condition → Bool → Outline → List Outline
  | .next distance kinds, true => fun outline => outline.narrow distance kinds
  | .next distance kinds, false => fun outline => outline.narrow distance kinds.compl
  | .shape form, true => form.assume framed
  | .shape form, false => form.deny framed
  | .not condition, decided => condition.assume framed !decided
  | .and left right, true => fun outline =>
      (left.assume framed true outline).flatMap (right.assume framed true)
  | .and left right, false => fun outline =>
      Outline.merge (left.assume framed false outline) (right.assume framed false outline)
  | .or left right, true => fun outline =>
      Outline.merge (left.assume framed true outline) (right.assume framed true outline)
  | .or left right, false => fun outline =>
      (left.assume framed false outline).flatMap (right.assume framed false)
  | .ahead _ _, _ => fun outline => [outline]

theorem Outline.Any.flatMap {base : Base} {state after : State} {outlines : List Outline}
    {next : Outline → List Outline} (some : Any base outlines state)
    (follows : ∀ outline, outline.Describes base state → Any base (next outline) after) :
    Any base (outlines.flatMap next) after := by
  obtain ⟨outline, member, fits⟩ := some
  obtain ⟨found, known, holds⟩ := follows outline fits
  exact ⟨found, List.mem_flatMap.mpr ⟨outline, member, known⟩, holds⟩

/-- A state still fits when a condition has been decided on it.  The induction is over
the condition; trial readings tell nothing. -/
theorem Condition.any_assume {rules : Rule → Context → Step} {base : Base} {state : State}
    {framed : Bool} (whole : framed = true → base.rest = []) :
    (condition : Condition) → (decided : Bool) → (outline : Outline) →
      condition.holds rules base.context state = decided → outline.Describes base state →
      Outline.Any base (condition.assume framed decided outline) state
  | .next distance kinds, true, outline, holds, fits => fits.narrow holds
  | .next distance kinds, false, outline, fails, fits => by
      refine fits.narrow ?_
      rw [TokenSet.contains_compl, Bool.not_eq_true']
      exact fails
  | .shape form, true, outline, holds, fits => Shape.any_assume whole holds fits
  | .shape form, false, outline, fails, fits => Shape.any_deny whole fails fits
  | .not condition, decided, outline, holds, fits => by
      have opposite : condition.holds rules base.context state = !decided := by
        rw [← holds, Condition.holds, Bool.not_not]
      rw [Condition.assume]
      exact condition.any_assume whole (!decided) outline opposite fits
  | .and left right, true, outline, holds, fits => by
      rw [Condition.holds, Bool.and_eq_true] at holds
      exact (left.any_assume whole true outline holds.1 fits).flatMap fun middle fits =>
        right.any_assume whole true middle holds.2 fits
  | .and left right, false, outline, fails, fits => by
      rw [Condition.holds, Bool.and_eq_false_iff] at fails
      rcases fails with fails | fails
      · exact Outline.any_merge (.inl (left.any_assume whole false outline fails fits))
      · exact Outline.any_merge (.inr (right.any_assume whole false outline fails fits))
  | .or left right, true, outline, holds, fits => by
      rw [Condition.holds, Bool.or_eq_true] at holds
      rcases holds with holds | holds
      · exact Outline.any_merge (.inl (left.any_assume whole true outline holds fits))
      · exact Outline.any_merge (.inr (right.any_assume whole true outline holds fits))
  | .or left right, false, outline, fails, fits => by
      rw [Condition.holds, Bool.or_eq_false_iff] at fails
      exact (left.any_assume whole false outline fails.1 fits).flatMap fun middle fits =>
        right.any_assume whole false middle fails.2 fits
  | .ahead _ _, _, outline, _, fits => fits.any

end JavaSyntax
