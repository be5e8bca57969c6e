import Mathlib.Data.List.Chain
import JavaSyntax.Proofs.Idle.Stays
import JavaSyntax.Proofs.Tree.Damage

/-!
# Sound states

What holds of every state of a reading whose tokens stand in order and end with a
mark.  A slot without damage stands where its first token does.  Damage in a slot
has been reported, and as long as none is, all errors point before the current
token; so an error at that token is not taken for one that follows from another.
-/

namespace JavaSyntax

/-- Faults that leave an error node or a missing token behind. -/
def SyntaxFault.damages : SyntaxFault → Bool
  | .notAStatement | .missingCatchOrFinally => false
  | .noViableAlternative _ _ | .unexpectedToken _ _ | .tooDeeplyNested _ => true

/-- Whether one of some errors leaves damage behind. -/
def reportsDamage (errors : List SyntaxError) : Bool :=
  errors.any (·.fault.damages)

@[simp] theorem reportsDamage_nil : reportsDamage [] = false := rfl

@[simp] theorem reportsDamage_cons (error : SyntaxError) (errors : List SyntaxError) :
    reportsDamage (error :: errors) = (error.fault.damages || reportsDamage errors) := rfl

/-- The tokens stand in order, and the last one is a mark. -/
structure Context.Ordered (context : Context) : Prop where
  increasing : context.tokens.toList.Pairwise fun left right => left.start < right.start
  some : 0 < context.tokens.size
  ended : (context.get (context.tokens.size - 1)).kind = .eof

namespace Context

variable {context : Context}

theorem get_eq_getElem {index : Nat} (inside : index < context.tokens.size) :
    context.get index = context.tokens[index] := by
  simp [get, Array.getD_eq_getD_getElem?, inside]

theorem Ordered.start_lt (ordered : context.Ordered) {left right : Nat} (before : left < right)
    (inside : right < context.tokens.size) :
    (context.get left).start < (context.get right).start := by
  have pair := List.pairwise_iff_getElem.mp ordered.increasing left right
    (by simp only [Array.length_toList]; omega) (by simpa using inside) before
  rwa [get_eq_getElem (Nat.lt_trans before inside), get_eq_getElem inside]

/-- Tokens that start at the same place are the same. -/
theorem Ordered.start_inj (ordered : context.Ordered) {left right : Nat}
    (first : left < context.tokens.size) (second : right < context.tokens.size) :
    (context.get left).start = (context.get right).start ↔ left = right := by
  constructor
  · intro same
    rcases Nat.lt_trichotomy left right with before | equal | after
    · have less := ordered.start_lt before second
      omega
    · exact equal
    · have less := ordered.start_lt after first
      omega
  · intro same
    rw [same]

/-- The cursor does not pass the last token. -/
theorem Ordered.next_lt (ordered : context.Ordered) {state : State}
    (more : state.atEnd context = false) : state.position + 1 < context.tokens.size := by
  have inside := Context.lt_size_of_kind_ne (State.current_kind_ne more)
  apply Decidable.byContradiction
  intro last
  have same : state.position = context.tokens.size - 1 := by omega
  exact State.current_kind_ne more (same ▸ ordered.ended)

/-- The token behind the current one starts later. -/
theorem Ordered.start_lt_takeAny (ordered : context.Ordered) {state : State}
    (more : state.atEnd context = false) :
    (state.current context).start < ((state.takeAny context).current context).start := by
  rw [State.current, State.current, State.position_takeAny more]
  exact ordered.start_lt (Nat.lt_succ_self _) (ordered.next_lt more)

end Context

/-- A slot without damage that is there stands where its first token does. -/
def Element.Anchored (slot : Element) : Prop :=
  slot.isDamaged = false → slot.isAbsent = false →
    ∃ first rest, slot.yield = first :: rest ∧ slot.span?.map Span.offset = some first.start

namespace Element

theorem anchored_absent : absent.Anchored :=
  fun _ present => by cases present

theorem anchored_token (found : Token) : (token found).Anchored :=
  fun _ _ => ⟨found, [], by simp, rfl⟩

theorem anchored_of_isDamaged {slot : Element} (damaged : slot.isDamaged = true) :
    slot.Anchored := by
  intro whole
  rw [damaged] at whole
  cases whole

section Children

variable {children : List Element} (anchored : ∀ slot ∈ children, slot.Anchored)
  (whole : anyDamaged children = false)

include anchored whole

/-- The first slot with a place stands where the first token does. -/
theorem findSome?_span? (filled : children.all isAbsent = false) :
    ∃ span first rest, children.findSome? span? = some span ∧
      yieldAll children = first :: rest ∧ span.offset = first.start := by
  induction children with
  | nil => cases filled
  | cons slot others ih =>
      rw [anyDamaged_cons, Bool.or_eq_false_iff] at whole
      rw [List.all_cons] at filled
      cases present : slot.isAbsent with
      | true =>
          obtain rfl : slot = absent := by cases slot <;> first | rfl | cases present
          rw [present, Bool.true_and] at filled
          obtain ⟨span, first, rest, known, yields, offset⟩ :=
            ih (fun other member => anchored other (List.mem_cons_of_mem _ member)) whole.2 filled
          exact ⟨span, first, rest, known, by simpa using yields, offset⟩
      | false =>
          obtain ⟨first, rest, yields, place⟩ := anchored slot List.mem_cons_self whole.1 present
          obtain ⟨span, known, offset⟩ := Option.map_eq_some_iff.mp place
          exact ⟨span, first, rest ++ yieldAll others, by simp [known], by simp [yields], offset⟩

/-- Every slot with a place stands where one of the tokens does. -/
theorem mem_of_findSome?_reverse {span : Span}
    (found : children.reverse.findSome? span? = some span) :
    ∃ token ∈ yieldAll children, span.offset = token.start := by
  obtain ⟨slot, member, place⟩ := List.exists_of_findSome?_eq_some found
  rw [List.mem_reverse] at member
  have present : slot.isAbsent = false := by
    cases slot <;> first | rfl | cases place
  obtain ⟨first, rest, yields, offset⟩ :=
    anchored slot member (isDamaged_of_mem whole member) present
  rw [place] at offset
  refine ⟨first, ?_, Option.some.inj offset⟩
  obtain ⟨before, after, rfl⟩ := List.append_of_mem member
  simp [yields]

/-- Slots in order make a node that stands where its first token does. -/
theorem spanOf_offset (ordered : (yieldAll children).Pairwise fun left right =>
      left.start < right.start) (filled : children.all isAbsent = false) (fallback : Span) :
    ∃ first rest, yieldAll children = first :: rest ∧
      (Node.spanOf children fallback).offset = first.start := by
  obtain ⟨span, first, rest, found, yields, offset⟩ := findSome?_span? anchored whole filled
  refine ⟨first, rest, yields, ?_⟩
  cases last : children.reverse.findSome? span? with
  | none =>
      have nowhere := List.findSome?_eq_none_iff.mp last
      obtain ⟨slot, member, place⟩ := List.exists_of_findSome?_eq_some found
      rw [nowhere slot (List.mem_reverse.mpr member)] at place
      cases place
  | some other =>
      obtain ⟨token, member, place⟩ := mem_of_findSome?_reverse anchored whole last
      rw [yields] at ordered member
      simp only [Node.spanOf, found, last, Span.offset_join, offset, place]
      cases member with
      | head => exact Nat.min_self _
      | tail _ member =>
          have later := List.rel_of_pairwise_cons ordered member
          exact Nat.min_eq_left (Nat.le_of_lt later)

end Children

end Element

/-- When errors are recorded: none behind the cursor, and one that leaves damage behind not
before those that were recorded earlier.  Neighbours point at different places, and none is
fatal. -/
structure State.Timely (context : Context) (state : State) : Prop where
  reached : ∀ error ∈ state.errors, error.offset ≤ (state.current context).start
  increasing : state.errors.Pairwise fun later earlier =>
    later.fault.damages = true → earlier.offset ≤ later.offset
  apart : state.errors.IsChain fun later earlier => later.offset ≠ earlier.offset
  mild : ∀ error ∈ state.errors, error.isFatal = false

/-- What holds of every state of a reading of tokens in order. -/
structure Sound (context : Context) (state : State) : Prop where
  inside : state.position < context.tokens.size
  held : state.held context <:+ context.tokens.toList
  anchored : ∀ slot ∈ state.slots, slot.Anchored
  reported : Element.anyDamaged state.slots = true → reportsDamage state.errors = true
  earlier : reportsDamage state.errors = true ∨
    ∀ error ∈ state.errors, error.offset < (state.current context).start
  timely : state.Timely context

/-- What a reading does to damage and to the errors that report it: neither goes away,
and what is reported can be seen in the frame. -/
structure Honest (before after : State) : Prop where
  damaged : Element.anyDamaged before.slots = true → Element.anyDamaged after.slots = true
  grows : reportsDamage before.errors = true → reportsDamage after.errors = true
  shown : reportsDamage after.errors = true →
    reportsDamage before.errors = true ∨ Element.anyDamaged after.slots = true

namespace Honest

variable {first second third : State}

theorem refl (state : State) : Honest state state :=
  ⟨id, id, .inl⟩

theorem trans (left : Honest first second) (right : Honest second third) :
    Honest first third where
  damaged := right.damaged ∘ left.damaged
  grows := right.grows ∘ left.grows
  shown := by
    intro reports
    rcases right.shown reports with earlier | shown
    · exact (left.shown earlier).imp id right.damaged
    · exact .inr shown

/-- A change of slots that keeps damage. -/
theorem ofSlots {before after : State} (errors : after.errors = before.errors)
    (damaged : Element.anyDamaged before.slots = true → Element.anyDamaged after.slots = true) :
    Honest before after :=
  ⟨damaged, errors ▸ id, errors ▸ .inl⟩

/-- Damage that is reported and can be seen. -/
theorem ofDamage {before after : State} (damaged : Element.anyDamaged after.slots = true)
    (reports : reportsDamage after.errors = true) : Honest before after :=
  ⟨fun _ => damaged, fun _ => reports, fun _ => .inr damaged⟩

/-- What happens in a frame happens above the slots below it. -/
theorem onto {before after : State} (inner : Honest before after) (base : List Element) :
    Honest (before.onto base) (after.onto base) where
  damaged := by
    simp only [State.onto, Element.anyDamaged_append, Bool.or_eq_true]
    exact Or.imp_left inner.damaged
  grows := inner.grows
  shown := by
    simp only [State.onto, Element.anyDamaged_append, Bool.or_eq_true]
    intro reports
    exact (inner.shown reports).imp id .inl

end Honest

/-- An error is dropped, or it comes first and points elsewhere than the one before it. -/
theorem State.report_apart {context : Context} {state after : State} {error : SyntaxError}
    (read : state.report context error = .ok after) :
    after = state ∨ (after = { state with errors := error :: state.errors } ∧
      ∀ last ∈ state.errors.head?, error.offset ≠ last.offset) := by
  simp only [State.report] at read
  split at read
  · split at read
    · rename_i last others errors
      split at read
      · exact .inl (Except.ok.inj read).symm
      · rename_i other
        refine .inr ⟨(Except.ok.inj read).symm, fun first member => ?_⟩
        rw [errors] at member
        obtain rfl := Option.some.inj member
        exact Ne.symm other
    · rename_i none
      refine .inr ⟨?_, by simp [none]⟩
      rw [none]
      exact (Except.ok.inj read).symm
  · cases read

theorem State.report_eq_ok {context : Context} {state after : State} {error : SyntaxError}
    (read : state.report context error = .ok after) :
    after = state ∨ after = { state with errors := error :: state.errors } :=
  (report_apart read).imp id And.left

/-- Where an error may be recorded: at the current token if it leaves damage behind, and before
it otherwise. -/
def SyntaxError.Placed (context : Context) (state : State) (error : SyntaxError) : Prop :=
  (error.fault.damages = true ∧ error.isFatal = false ∧
      error.offset = (state.current context).start) ∨
    (error.fault.damages = false ∧ error.offset < (state.current context).start)

/-- What does no damage is not fatal. -/
theorem SyntaxError.isFatal_of_harmless {error : SyntaxError}
    (harmless : error.fault.damages = false) : error.isFatal = false := by
  unfold SyntaxError.isFatal
  split
  · rename_i nested
    rw [nested] at harmless
    cases harmless
  · rfl

namespace State.Timely

variable {context : Context} {state after : State}

/-- Errors stay timely when the cursor moves on. -/
theorem ofErrors (timely : state.Timely context) (same : after.errors = state.errors)
    (moved : (state.current context).start ≤ (after.current context).start) :
    after.Timely context where
  reached := fun error member => Nat.le_trans (timely.reached error (same ▸ member)) moved
  increasing := same ▸ timely.increasing
  apart := same ▸ timely.apart
  mild := same ▸ timely.mild

theorem trial (timely : state.Timely context) : state.Timely context.trial :=
  ⟨timely.reached, timely.increasing, timely.apart, timely.mild⟩

theorem ofTrial (timely : state.Timely context.trial) : state.Timely context :=
  ⟨timely.reached, timely.increasing, timely.apart, timely.mild⟩

/-- An error is dropped if it points where the one before it does. -/
theorem report (timely : state.Timely context) {error : SyntaxError}
    (placed : error.Placed context state) (read : state.report context error = .ok after) :
    after.Timely context := by
  rcases State.report_apart read with rfl | ⟨rfl, apart⟩
  · exact timely
  refine ⟨?_, ?_, List.isChain_cons.mpr ⟨apart, timely.apart⟩, ?_⟩
  · refine List.forall_mem_cons.mpr ⟨?_, timely.reached⟩
    rcases placed with ⟨_, _, place⟩ | ⟨_, before⟩
    · exact Nat.le_of_eq place
    · exact Nat.le_of_lt before
  · refine List.pairwise_cons.mpr ⟨fun earlier member damages => ?_, timely.increasing⟩
    rcases placed with ⟨_, _, place⟩ | ⟨harmless, _⟩
    · exact place ▸ timely.reached earlier member
    · rw [harmless] at damages
      cases damages
  · refine List.forall_mem_cons.mpr ⟨?_, timely.mild⟩
    rcases placed with ⟨_, mild, _⟩ | ⟨harmless, _⟩
    · exact mild
    · exact SyntaxError.isFatal_of_harmless harmless

end State.Timely

namespace Sound

variable {context : Context} {state after : State}

/-- Nothing has been read yet. -/
theorem start (ordered : context.Ordered) : Sound context ⟨0, [], []⟩ where
  inside := ordered.some
  held := by simp [State.held, State.gathered]
  anchored := by simp
  reported := by simp
  earlier := .inr (by simp)
  timely := ⟨by simp, .nil, .nil, by simp⟩

/-- A trial is made of the same tokens. -/
theorem trial (sound : Sound context state) : Sound context.trial state :=
  ⟨sound.inside, sound.held, sound.anchored, sound.reported, sound.earlier, sound.timely.trial⟩

/-- The tokens of a frame stand in order, before the current one. -/
theorem pairwise (sound : Sound context state) (ordered : context.Ordered) :
    (Element.yieldAll state.gathered).Pairwise fun left right => left.start < right.start := by
  have whole := ordered.increasing.sublist sound.held.sublist
  exact (List.pairwise_append.mp whole).1

/-- A frame holds a part of the slots. -/
theorem ofSlots (sound : Sound context state) (top : List Element)
    (part : top <+: state.slots) : Sound context { state with slots := top } := by
  obtain ⟨below, slots⟩ := part
  refine ⟨sound.inside, ?_, ?_, ?_, sound.earlier, sound.timely.ofErrors rfl (Nat.le_refl _)⟩
  · have split : state.held context =
        Element.yieldAll below.reverse ++ ({ state with slots := top } : State).held context := by
      simp [State.held, State.gathered, ← slots]
    exact List.IsSuffix.trans ⟨_, split.symm⟩ sound.held
  · intro slot member
    exact sound.anchored slot (slots ▸ List.mem_append_left _ member)
  · intro damaged
    refine sound.reported ?_
    rw [← slots, Element.anyDamaged_append, damaged, Bool.true_or]

/-- What was read in a frame, above the slots below it. -/
theorem onto {start : State} {base : List Element} (sound : Sound context (start.onto base))
    (inner : Sound context after) (kept : Lossless context start after)
    (honest : Honest start after) : Sound context (after.onto base) where
  inside := inner.inside
  held := by
    rw [State.held_onto, kept.held, ← State.held_onto]
    exact sound.held
  anchored := by
    intro slot member
    rcases List.mem_append.mp member with above | below
    · exact inner.anchored slot above
    · exact sound.anchored slot (List.mem_append_right _ below)
  reported := by
    intro damaged
    rw [State.onto, Element.anyDamaged_append, Bool.or_eq_true] at damaged
    rcases damaged with above | below
    · exact inner.reported above
    · refine honest.grows (sound.reported ?_)
      rw [State.onto, Element.anyDamaged_append, below, Bool.or_true]
  earlier := inner.earlier
  timely := inner.timely.ofErrors rfl (Nat.le_refl _)

/-- A slot without tokens comes or goes. -/
theorem replace (sound : Sound context state) {slots : List Element}
    (yields : Element.yieldAll slots.reverse = Element.yieldAll state.gathered)
    (anchored : ∀ slot ∈ slots, slot.Anchored)
    (damaged : Element.anyDamaged slots = true → Element.anyDamaged state.slots = true) :
    Sound context { state with slots := slots } where
  inside := sound.inside
  held := by
    have same : ({ state with slots := slots } : State).held context = state.held context := by
      simp only [State.held, State.gathered] at yields ⊢
      rw [yields]
    exact same ▸ sound.held
  anchored := anchored
  reported := sound.reported ∘ damaged
  earlier := sound.earlier
  timely := sound.timely.ofErrors rfl (Nat.le_refl _)

theorem push_absent (sound : Sound context state) : Sound context (state.push .absent) := by
  refine sound.replace ?_ ?_ ?_
  · simp [State.gathered]
  · intro slot member
    cases member with
    | head => exact Element.anchored_absent
    | tail _ member => exact sound.anchored slot member
  · simp

theorem absentFirst (sound : Sound context state) :
    Sound context { state with slots := state.slots ++ [.absent] } := by
  refine sound.replace ?_ ?_ ?_
  · simp [State.gathered]
  · intro slot member
    rcases List.mem_append.mp member with member | member
    · exact sound.anchored slot member
    · rw [List.mem_singleton.mp member]
      exact Element.anchored_absent
  · simp

theorem dropAbsent (sound : Sound context state) : Sound context state.dropAbsent := by
  unfold State.dropAbsent
  split
  · rename_i rest slots
    refine sound.replace ?_ ?_ ?_
    · simp [State.gathered, slots]
    · intro slot member
      exact sound.anchored slot (slots ▸ List.mem_cons_of_mem _ member)
    · simp [slots]
  · exact sound

theorem takeAny (sound : Sound context state) (ordered : context.Ordered)
    (more : state.atEnd context = false) : Sound context (state.takeAny context) where
  inside := by
    rw [State.position_takeAny more]
    exact ordered.next_lt more
  held := (Lossless.takeAny state more).held ▸ sound.held
  anchored := by
    intro slot member
    cases member with
    | head => exact Element.anchored_token _
    | tail _ member => exact sound.anchored slot member
  reported := by
    intro damaged
    exact sound.reported (by simpa [State.takeAny] using damaged)
  earlier := by
    refine sound.earlier.imp id ?_
    intro before error member
    exact Nat.lt_trans (before error member) (ordered.start_lt_takeAny more)
  timely := sound.timely.ofErrors rfl (Nat.le_of_lt (ordered.start_lt_takeAny more))

/-- Where the tokens of the last slots start. -/
theorem get_of_yield (sound : Sound context state) {before rest : List Token} {first : Token}
    (yields : Element.yieldAll state.gathered = before ++ first :: rest) :
    rest.length < state.position ∧
      context.get (state.position - (rest.length + 1)) = first := by
  obtain ⟨earlier, whole⟩ := sound.held
  rw [State.held, yields] at whole
  have inside := sound.inside
  have sizes := congrArg List.length whole
  simp only [List.length_append, List.length_cons, List.length_drop, Array.length_toList] at sizes
  refine ⟨by omega, ?_⟩
  have place : state.position - (rest.length + 1) = earlier.length + before.length := by omega
  have found : context.tokens.toList[earlier.length + before.length]? = some first := by
    rw [← whole, List.getElem?_append_right (Nat.le_add_right _ _)]
    simp
  rw [place, Context.get, Array.getD_eq_getD_getElem?, ← Array.getElem?_toList, found]
  rfl

theorem take (sound : Sound context state) (ordered : context.Ordered) :
    Sound context (state.take context) := by
  unfold State.take
  split
  · exact sound
  · rename_i more
    exact sound.takeAny ordered (by simpa using more)

/-- Once damage is reported, any frame may be put away as an error. -/
theorem close_error (sound : Sound context state) (reports : reportsDamage state.errors = true) :
    Sound context (state.close context .error) where
  inside := sound.inside
  held := by
    have same : (state.close context .error).held context = state.held context := by
      simp [State.held, State.finish, Node.toElement, Node.spanning]
    exact same ▸ sound.held
  anchored := by
    intro slot member
    rw [List.mem_singleton.mp member]
    exact Element.anchored_of_isDamaged (by simp [State.finish, Node.toElement])
  reported := fun _ => reports
  earlier := .inl reports
  timely := sound.timely.ofErrors rfl (Nat.le_refl _)

/-- A frame that is not hollow is closed. -/
theorem close (sound : Sound context state) (ordered : context.Ordered) {kind : NodeKind}
    (filled : state.isHollow = false) (proper : kind ≠ .error) :
    Sound context (state.close context kind) := by
  refine sound.replace ?_ ?_ ?_
  · simp [State.finish, Node.toElement, Node.spanning, State.gathered]
  · intro slot member
    rw [List.mem_singleton.mp member]
    intro whole _
    simp only [State.finish, Node.toElement, Node.spanning, Element.isDamaged_node,
      Bool.or_eq_false_iff] at whole
    have present : state.gathered.all Element.isAbsent = false := by
      rw [State.gathered, List.all_reverse]
      exact filled
    obtain ⟨first, rest, yields, offset⟩ := Element.spanOf_offset
      (fun slot member => sound.anchored slot (List.mem_reverse.mp member)) whole.2
      (sound.pairwise ordered) present (state.here context)
    refine ⟨first, rest, ?_, congrArg some offset⟩
    rw [State.finish, Node.toElement, Element.yield_node]
    exact yields
  · intro broken
    simp only [State.finish, Node.toElement, Node.spanning, Element.anyDamaged_cons,
      Element.isDamaged_node, Element.anyDamaged_nil, Bool.or_false, Bool.or_eq_true,
      beq_iff_eq, State.gathered, Element.anyDamaged_reverse, proper, false_or] at broken
    exact broken

/-- Damage that is reported may stand in the frame. -/
theorem push_damaged (sound : Sound context state) {slot : Element}
    (damaged : slot.isDamaged = true) (reports : reportsDamage state.errors = true)
    (yields : slot.yield = []) : Sound context (state.push slot) where
  inside := sound.inside
  held := by
    have same : (state.push slot).held context = state.held context := by
      simp [State.held, State.push, State.gathered, yields]
    exact same ▸ sound.held
  anchored := by
    intro other member
    cases member with
    | head => exact Element.anchored_of_isDamaged damaged
    | tail _ member => exact sound.anchored other member
  reported := fun _ => reports
  earlier := .inl reports
  timely := sound.timely.ofErrors rfl (Nat.le_refl _)

/-- Whatever is reported at the current token, or before it when it does no damage. -/
theorem report (sound : Sound context state) {error : SyntaxError}
    (placed : error.Placed context state)
    (read : state.report context error = .ok after) : Sound context after := by
  have recorded : after = { state with errors := error :: state.errors } → Sound context after := by
    intro same
    refine ⟨?_, ?_, ?_, ?_, ?_, sound.timely.report placed read⟩ <;> rw [same]
    · exact sound.inside
    · exact sound.held
    · exact sound.anchored
    · intro damaged
      rw [reportsDamage_cons, sound.reported damaged, Bool.or_true]
    · rw [reportsDamage_cons, Bool.or_eq_true]
      rcases placed with ⟨damages, _⟩ | ⟨_, before⟩
      · exact .inl (.inl damages)
      · refine sound.earlier.imp .inr ?_
        intro others other member
        cases member with
        | head => exact before
        | tail _ member => exact others other member
  rcases State.report_eq_ok read with same | same
  · exact same ▸ sound
  · exact recorded same

/-- Damage at the current token is reported, now or before: the error is not dropped
because of one that does no damage. -/
theorem reports_of_report (sound : Sound context state) {error : SyntaxError}
    (damages : error.fault.damages = true)
    (place : error.offset = (state.current context).start)
    (read : state.report context error = .ok after) : reportsDamage after.errors = true := by
  simp only [State.report] at read
  split at read
  · split at read
    · rename_i last others errors
      split at read
      · rename_i same
        cases read
        refine sound.earlier.resolve_right ?_
        intro before
        have less := before last (errors ▸ List.mem_cons_self)
        omega
      · cases read
        simp [damages]
    · cases read
      simp [damages]
  · cases read

/-- What is built without reading a token holds damage, and that is reported. -/
theorem reports_of_still (sound : Sound context after)
    (kept : Lossless context { state with slots := [] } after)
    (still : after.position = state.position) (filled : after.isHollow = false) :
    reportsDamage after.errors = true := by
  have nothing : Element.yieldAll after.gathered = [] := by
    have held := kept.held
    rw [State.held, State.held, still] at held
    simpa [State.gathered] using held
  have present : ∃ slot ∈ after.slots, slot.isAbsent = false := by
    simpa [State.isHollow] using filled
  obtain ⟨slot, member, present⟩ := present
  refine sound.reported ?_
  apply Decidable.byContradiction
  intro whole
  rw [Bool.not_eq_true] at whole
  obtain ⟨first, rest, yields, _⟩ :=
    sound.anchored slot member (Element.isDamaged_of_mem whole member) present
  obtain ⟨above, below, slots⟩ := List.append_of_mem member
  simp [State.gathered, slots, yields] at nothing

end Sound

/-- What a reading of tokens in order comes to: it keeps the tokens, is honest about
damage, and ends in a sound state. -/
structure Course (context : Context) (before after : State) : Prop where
  kept : Lossless context before after
  honest : Honest before after
  sound : Sound context after

namespace Course

variable {context : Context} {before middle after : State}

/-- A trial is made of the same tokens. -/
theorem ofTrial (course : Course context.trial before after) : Course context before after where
  kept := ⟨course.kept.forward, course.kept.held, course.kept.inside⟩
  honest := course.honest
  sound := ⟨course.sound.inside, course.sound.held, course.sound.anchored, course.sound.reported,
    course.sound.earlier, course.sound.timely.ofTrial⟩

theorem refl (sound : Sound context before) : Course context before before :=
  ⟨.refl _, .refl _, sound⟩

theorem trans (first : Course context before middle) (second : Course context middle after) :
    Course context before after :=
  ⟨first.kept.trans second.kept, first.honest.trans second.honest, second.sound⟩

theorem onto (inner : Course context before after) (base : List Element)
    (sound : Sound context (before.onto base)) :
    Course context (before.onto base) (after.onto base) :=
  ⟨inner.kept.onto base, inner.honest.onto base, sound.onto inner.sound inner.kept inner.honest⟩

/-- A token that was read is in the frame. -/
theorem filled (course : Course context before after) (moved : before.position < after.position) :
    after.isHollow = false := by
  rw [Bool.eq_false_iff]
  intro hollow
  have still := State.position_of_hollow course.kept hollow
  omega

/-- What happens in a frame that starts with the last slots. -/
theorem inFrame (sound : Sound context before) {lead : Nat}
    (inner : Course context { before with slots := before.slots.take lead } after) :
    Course context before (after.onto (before.slots.drop lead)) := by
  have whole : ({ before with slots := before.slots.take lead } : State).onto
      (before.slots.drop lead) = before := by simp [State.onto]
  have course := inner.onto (before.slots.drop lead) (by rwa [whole])
  rwa [whole] at course

/-- A change of slots that keeps damage. -/
theorem ofMoves (moves : Moves context .any before after) (sound : Sound context after)
    (errors : after.errors = before.errors)
    (damaged : Element.anyDamaged before.slots = true → Element.anyDamaged after.slots = true) :
    Course context before after :=
  ⟨moves.lossless, .ofSlots errors damaged, sound⟩

theorem take (sound : Sound context before) (ordered : context.Ordered) :
    Course context before (before.take context) := by
  refine ofMoves (.takeUnlessEnded context before) (sound.take ordered) (State.errors_take _ _) ?_
  intro damaged
  have appends : before.slots <:+ (before.take context).slots := State.take_appends before
  obtain ⟨newer, slots⟩ := appends
  rw [← slots, Element.anyDamaged_append, damaged, Bool.or_true]

theorem takeMany (sound : Sound context before) (ordered : context.Ordered) (count : Nat) :
    Course context before (before.takeMany context count) := by
  induction count generalizing before with
  | zero => exact refl sound
  | succ count ih => exact (take sound ordered).trans (ih (sound.take ordered))

theorem absent (sound : Sound context before) : Course context before (before.push .absent) :=
  ofMoves (.absent before) sound.push_absent rfl (by simp [State.push])

theorem absentFirst (sound : Sound context before) :
    Course context before { before with slots := before.slots ++ [.absent] } :=
  ofMoves (.absentFirst before) sound.absentFirst rfl (by simp)

theorem dropAbsent (sound : Sound context before) : Course context before before.dropAbsent := by
  refine ofMoves (.dropAbsent before) sound.dropAbsent ?_ ?_ <;> unfold State.dropAbsent <;> split
  · rfl
  · rfl
  · rename_i rest slots
    simp [slots]
  · exact id

theorem close (sound : Sound context before) (ordered : context.Ordered) {kind : NodeKind}
    (filled : before.isHollow = false) (proper : kind ≠ .error) :
    Course context before (before.close context kind) := by
  refine ofMoves (.close before rfl) (sound.close ordered filled proper) rfl ?_
  intro damaged
  simp [State.close, State.finish, Node.toElement, Node.spanning, State.gathered, damaged]

/-- A frame that is closed before some other slots. -/
theorem closeOver (kind : NodeKind) {state : State} {children base : List Element}
    (sound : Sound context { state with slots := children.reverse ++ base })
    (ordered : context.Ordered) (filled : children.all Element.isAbsent = false)
    (proper : kind ≠ .error) :
    Course context { state with slots := children.reverse ++ base }
      { state with slots := state.finish context kind children :: base } := by
  have inner : Sound context { state with slots := children.reverse } :=
    sound.ofSlots _ (List.prefix_append _ _)
  have closed : Course context _ (State.close context _ kind) :=
    close inner ordered (by simpa [State.isHollow] using filled) proper
  have whole := closed.onto base sound
  simpa [State.onto, State.close, State.gathered, State.finish, State.here, State.current]
    using whole

/-- Damage that is reported is put into the frame. -/
theorem ofDamage (moves : Moves context .any before after) (sound : Sound context after)
    (damaged : Element.anyDamaged after.slots = true) : Course context before after :=
  ⟨moves.lossless, .ofDamage damaged (sound.reported damaged), sound⟩

theorem close_error (sound : Sound context before)
    (reports : reportsDamage before.errors = true) :
    Course context before (before.close context .error) :=
  ofDamage (.close before rfl) (sound.close_error reports)
    (by simp [State.close, State.finish, Node.toElement])

/-- Some slots of a frame of its own are put away as an error. -/
theorem putAway {opened : State} (sound : Sound context before)
    (reports : reportsDamage before.errors = true)
    (course : Course context { before with slots := [] } opened) :
    Course context before ((opened.close context .error).onto before.slots) :=
  (course.trans (close_error course.sound (course.honest.grows reports))).onto before.slots sound

end Course

namespace State

variable {context : Context} {before after : State}

/-- With damage at the current token, what follows the report leaves damage behind. -/
theorem course_of_report {reported : State} {error : SyntaxError}
    (recorded : before.report context error = .ok reported)
    (rest : Course context reported after) (damaged : Element.anyDamaged after.slots = true) :
    Course context before after :=
  ⟨Lossless.trans (Moves.lossless (report_moving error _ _ recorded)) rest.kept,
    .ofDamage damaged (rest.sound.reported damaged), rest.sound⟩

/-- An error that does no damage is recorded before the current token. -/
theorem report_course (sound : Sound context before) {error : SyntaxError}
    (harmless : error.fault.damages = false)
    (place : error.offset < (before.current context).start)
    (read : before.report context error = .ok after) : Course context before after := by
  refine ⟨Moves.lossless (report_moving error _ _ read), ?_,
    sound.report (.inr ⟨harmless, place⟩) read⟩
  rcases report_eq_ok read with rfl | rfl
  · exact .refl _
  · refine ⟨id, ?_, ?_⟩ <;> rw [reportsDamage_cons, harmless, Bool.false_or]
    · exact id
    · exact .inl

theorem expect_course (sound : Sound context before) (ordered : context.Ordered)
    {kind : TokenKind} (read : before.expect context kind = .ok after) :
    Course context before after := by
  simp only [expect] at read
  split at read
  · cases read
    exact .take sound ordered
  · obtain ⟨reported, recorded, rest⟩ := bind_eq_ok.mp read
    have reports := sound.reports_of_report rfl rfl recorded
    have sound := sound.report (.inl ⟨rfl, rfl, rfl⟩) recorded
    split at rest
    · obtain ⟨skipped, stepped, taken⟩ := bind_eq_ok.mp rest
      cases taken
      obtain ⟨inner, closed, rfl⟩ := inFrame_eq_ok.mp stepped
      obtain rfl := Except.ok.inj closed
      have away := Course.putAway sound reports (.take (sound.ofSlots [] List.nil_prefix) ordered)
      have taken := Course.take away.sound ordered
      refine course_of_report recorded (away.trans taken) (taken.honest.damaged ?_)
      simp [onto, close, finish, Node.toElement]
    · cases rest
      refine course_of_report recorded
        (.ofDamage (.missing _ kind (lacks_of_report recorded ‹_› ‹_›))
        (sound.push_damaged ?_ reports ?_) ?_) ?_ <;> simp [push]

theorem noViable_course (sound : Sound context before) (ordered : context.Ordered)
    {construct : Construct} (read : before.noViable context construct = .ok after) :
    Course context before after ∧ reportsDamage after.errors = true := by
  obtain ⟨reported, recorded, rest⟩ := bind_eq_ok.mp read
  have reports := sound.reports_of_report rfl rfl recorded
  have sound := sound.report (.inl ⟨rfl, rfl, rfl⟩) recorded
  have opened : Sound context { reported with slots := [] } := sound.ofSlots [] List.nil_prefix
  obtain ⟨inner, stepped, rfl⟩ := inFrame_eq_ok.mp rest
  have away : Course context reported (inner.onto (reported.slots.drop 0)) ∧
      Element.anyDamaged (inner.onto (reported.slots.drop 0)).slots = true := by
    split at stepped
    · cases stepped
      exact ⟨.putAway sound reports (.refl opened), by simp [onto, close, finish, Node.toElement]⟩
    · cases stepped
      exact ⟨.putAway sound reports (.take opened ordered),
        by simp [onto, close, finish, Node.toElement]⟩
  exact ⟨course_of_report recorded away.1 away.2, away.1.sound.reported away.2⟩

/-- The current token is put away together with damage that is reported. -/
theorem swallow_course (sound : Sound context before) (ordered : context.Ordered)
    (reports : reportsDamage before.errors = true) :
    Course context before (before.swallow context) := by
  have fewer : Sound context
      { before with slots := before.slots.filter (!isEmptyError ·) } := by
    refine sound.replace (yieldAll_filter_errors _) ?_ ?_
    · intro slot member
      exact sound.anchored slot (List.mem_filter.mp member).1
    · intro damaged
      exact Element.anyDamaged_of_sublist List.filter_sublist damaged
  have taken := Course.take fewer ordered
  exact .ofDamage (swallow_moves before)
    (taken.sound.close_error (taken.honest.grows reports))
    (by simp [swallow, close, finish, Node.toElement])

end State

end JavaSyntax
