import JavaSyntax.Proofs.Locality.Grammar

/-!
# Readings of a shared prefix

Two token lists may agree up to a place, the seam, and differ from there on.  What is read of
the first one without getting beyond the seam is kept if the second one reads the same.

Most of what is read ends with a wall before the seam, so it is kept whatever stands behind.
A statement may also end right at the seam where no wall is; then it is kept as long as the
tokens at the seam do not carry it on, as an `else` does.
-/

namespace JavaSyntax

open JavaSyntax.Language

/-- How phrases are grouped does not matter. -/
theorem Phrase.run_assoc (rules : Rule → Context → Step) (first second third : Phrase)
    (context : Context) (state : State) : (first ++ second ++ third).run rules context state =
      (first ++ (second ++ third)).run rules context state := by
  rw [Phrase.run_append, Phrase.run_append, Phrase.run_append]
  cases first.run rules context state <;> rfl

/-- The token that was required is there. -/
theorem State.kind_of_expect {rules : Rule → Context → Step} {context : Context}
    (strict : context.recovery = false) {kind : TokenKind} {state after : State}
    (read : (Phrase.expect kind).run rules context state = .ok after) :
    (context.get state.position).kind = kind ∧ after = state.take context := by
  simp only [Phrase.run, State.expect] at read
  split at read
  · rename_i found
    cases read
    exact ⟨found, rfl⟩
  · rw [State.report_of_strict strict] at read
    cases read

/-- Whether a phrase keeps to some walls and leaves no bracket open. -/
def Language.keepsTo (walls : Walls) (view : View) (phrase : Phrase) : Bool :=
  phrase.keepsTo bounds walls view

/-- Whether a phrase reads tokens, the last of which may end a statement. -/
def Language.endsStatement (view : View) (phrase : Phrase) : Bool :=
  phrase.heeds bounds (bounds .statement) view

/-- A token list that is read without recovery and ends with an end mark. -/
structure Context.Sealed (context : Context) : Prop where
  strict : context.recovery = false
  filled : 0 < context.tokens.size
  ended : (context.get (context.tokens.size - 1)).kind = .eof

namespace Context.Sealed

variable {context : Context} (sealed : context.Sealed)

/-- A token list agrees with itself up to its end mark. -/
def fence : Fence where
  left := context
  right := context
  shift := 0
  low := 0
  high := context.tokens.size - 1
  strict := sealed.strict
  strict' := sealed.strict
  size := Nat.sub_lt sealed.filled Nat.one_pos
  size' := Nat.sub_lt sealed.filled Nat.one_pos
  sketch := fun _ _ _ => rfl
  touching := fun _ _ _ => Iff.rfl

variable {depth : Nat} {phrase : Phrase} {walls : Walls} {stack : List Bracket} {view : View}
  {effects : List Effect} {state after : State} (fits : view.Fits context state)
  (inside : state.position < context.tokens.size)
  (read : phrase.run (readRule grammar depth) context state = .ok after)

include fits inside read

/-- What is known of a reading that has succeeded. -/
theorem led (follows : sealed.fence.Follows walls stack view effects
      (phrase.run (readRule grammar depth) context) (phrase.run (readRule grammar depth) context)) :
    sealed.fence.Any walls stack state.position effects after after := by
  have leads := follows state state ⟨⟨rfl, rfl, rfl⟩, Nat.zero_le _,
    .ofEnd walls stack (Nat.le_sub_one_of_lt inside) sealed.ended, fits⟩
  rw [read] at leads
  exact leads

include sealed

theorem passes (kept : keepsTo walls view phrase = true) :
    Passes walls context [] state.position [] after.position := by
  obtain ⟨effects, found, all⟩ := (Option.any_eq_true _ _).mp kept
  obtain ⟨effect, member, led⟩ := sealed.led fits inside read
    ((phrase.confine_follows (guards_grammar sealed.fence depth)).follows found)
  have passes := led.passes
  rw [Fence.stack_eq_of_allLeave all member] at passes
  exact passes

theorem passes_statement (ends : endsStatement view phrase = true) :
    Passes .empty context [] state.position [] after.position ∧ state.position < after.position ∧
      ((context.get (after.position - 1)).kind = .semi ∨
        (context.get (after.position - 1)).kind = .rBrace) := by
  obtain ⟨effect, member, led⟩ := sealed.led fits inside read
    (Phrase.heeds_follows (guards_grammar sealed.fence depth) ends)
  obtain rfl := List.mem_singleton.mp member
  have moved := led.moved rfl
  have ending : statementEnds.contains (context.get (after.position - 1)).kind = true :=
    led.last moved
  refine ⟨led.passes, moved, ?_⟩
  simpa [statementEnds] using ending

/-- What surely fails does not succeed. -/
theorem not_fails (fails : phrase.confine bounds walls [] view = some []) : False := by
  obtain ⟨_, member, _⟩ := sealed.led fits inside read
    ((phrase.confine_follows (guards_grammar sealed.fence depth)).follows fails)
  cases member

end Context.Sealed

/-- Tokens that carry on a statement which could also end before them. -/
def Language.dangling : TokenSet :=
  .ofList [.kwElse, .kwCatch, .kwFinally]

/-- Two token lists, both read without recovery, that agree before a place. -/
structure Seam where
  left : Context
  right : Context
  place : Nat
  sealed : left.Sealed
  strict' : right.recovery = false
  size : place < left.tokens.size
  size' : place < right.tokens.size
  sketch : ∀ index < place, (right.get index).sketch = (left.get index).sketch
  touching : ∀ index, index + 1 < place →
    ((right.get index).stop = (right.get (index + 1)).start ↔
      (left.get index).stop = (left.get (index + 1)).start)
  /-- What was read of the left list ends at the seam. -/
  closes : (left.get place).kind = .rBrace
  /-- What follows in the right list does not carry on what was read before. -/
  starts : dangling.contains (right.get place).kind = false

namespace Seam

/-- The lists agree up to each place before the seam. -/
def fence (seam : Seam) {high : Nat} (before : high < seam.place) : Fence where
  left := seam.left
  right := seam.right
  shift := 0
  low := 0
  high := high
  strict := seam.sealed.strict
  strict' := seam.strict'
  size := Nat.lt_trans before seam.size
  size' := Nat.lt_trans before seam.size'
  sketch := fun index _ within => seam.sketch index (Nat.lt_of_le_of_lt within before)
  touching := fun index _ within => seam.touching index (Nat.lt_of_le_of_lt within before)

variable {seam : Seam} {depth : Nat}

theorem kindAt {state state' : State} (twins : Twins 0 state state') (distance : Nat)
    (before : state.position + distance < seam.place) :
    state'.kindAt seam.right distance = state.kindAt seam.left distance := by
  have same := congrArg Token.kind (seam.sketch _ before)
  rw [State.kindAt, State.kindAt, twins.position]
  exact same

/-- A condition on the current token. -/
theorem holds_next {state state' : State} (twins : Twins 0 state state')
    (before : state.position < seam.place) (kinds : TokenSet) {rules : Rule → Context → Step} :
    (Condition.next 0 kinds).holds rules seam.right state' =
      (Condition.next 0 kinds).holds rules seam.left state := by
  simp only [Condition.holds, seam.kindAt twins 0 before]

/-- Nothing that would carry on a statement stands at the seam. -/
theorem holds_dangling {state state' : State} (twins : Twins 0 state state')
    (within : state.position ≤ seam.place) {kind : TokenKind}
    (dangles : dangling.contains kind = true) {rules : Rule → Context → Step} :
    (Condition.is kind).holds rules seam.right state' =
      (Condition.is kind).holds rules seam.left state := by
  rcases Nat.lt_or_eq_of_le within with before | ends
  · exact seam.holds_next twins before _
  · have closed : state.kindAt seam.left 0 = .rBrace := by
      rw [State.kindAt, ends]
      exact seam.closes
    have started : dangling.contains (state'.kindAt seam.right 0) = false := by
      rw [State.kindAt, twins.position, ends]
      exact seam.starts
    have notStarted : kind ≠ state'.kindAt seam.right 0 := by
      rintro rfl
      rw [dangles] at started
      cases started
    have notClosed : kind ≠ .rBrace := by
      rintro rfl
      exact absurd dangles (by decide)
    rw [Condition.holds_is, Condition.holds_is, closed, decide_eq_false notStarted,
      decide_eq_false notClosed]

/-- What the left list comes to before the seam, the right list comes to as well. -/
def Keeps (seam : Seam) (result result' : Except SyntaxError State) : Prop :=
  ∀ after, result = .ok after → after.position ≤ seam.place →
    ∃ after', result' = .ok after' ∧ Twins 0 after after'

theorem Keeps.ok {after after' : State} (twins : Twins 0 after after') :
    seam.Keeps (.ok after) (.ok after') := by
  rintro _ ⟨⟩ -
  exact ⟨after', rfl, twins⟩

theorem Keeps.bind {result result' : Except SyntaxError State} {next next' : Step}
    (first : seam.Keeps result result')
    (forward : ∀ middle after, next middle = .ok after → middle.position ≤ after.position)
    (rest : ∀ middle middle', result = .ok middle → middle.position ≤ seam.place →
      Twins 0 middle middle' → seam.Keeps (next middle) (next' middle')) :
    seam.Keeps (result >>= next) (result' >>= next') := by
  intro after read within
  obtain ⟨middle, started, ended⟩ := bind_eq_ok.mp read
  have inside := Nat.le_trans (forward middle after ended) within
  obtain ⟨middle', started', twins⟩ := first middle started inside
  obtain ⟨after', ended', twins⟩ := rest middle middle' started inside twins after ended within
  exact ⟨after', bind_eq_ok.mpr ⟨middle', started', ended'⟩, twins⟩

/-- A phrase that both lists read alike before the seam, where a view fits. -/
def Carries (seam : Seam) (depth : Nat) (view : View) (phrase : Phrase) : Prop :=
  ∀ state state', Twins 0 state state' → view.Fits seam.left state →
    seam.Keeps (phrase.run (readRule grammar depth) seam.left state)
      (phrase.run (readRule grammar depth) seam.right state')

/-- Before a wall that is before the seam. -/
theorem keeps_of_blocked {phrase : Phrase} {walls : Walls} {view : View}
    (kept : keepsTo walls view phrase = true) {state state' : State} (twins : Twins 0 state state')
    (fits : view.Fits seam.left state) {high : Nat} (before : high < seam.place)
    (blocked : Blocked walls seam.left [] state.position high) :
    seam.Keeps (phrase.run (readRule grammar depth) seam.left state)
      (phrase.run (readRule grammar depth) seam.right state') := by
  have leads := (guards_grammar (seam.fence before) depth).keepsTo_follows kept _ _
    ⟨twins, Nat.zero_le _, blocked, fits⟩
  intro after read _
  obtain ⟨_, _, failed, -⟩ | ⟨_, after', fitted, fitted', _, -, led⟩ := leads.cases
  · exact absurd (read.symm.trans failed) (by simp)
  · obtain rfl := Except.ok.inj (read.symm.trans fitted)
    exact ⟨after', fitted', led.toTwins⟩

theorem carries_unseen {view : View} {phrase : Phrase} (carries : seam.Carries depth [] phrase) :
    seam.Carries depth view phrase :=
  fun state state' twins _ => carries state state' twins (View.fits_nil _ _)

/-! ## Single steps -/

theorem twins_take {state state' : State} (twins : Twins 0 state state')
    (before : state.position < seam.place) :
    Twins 0 (state.take seam.left) (state'.take seam.right) := by
  have kinds : state'.atEnd seam.right = state.atEnd seam.left := by
    rw [State.atEnd, State.atEnd, seam.kindAt twins 0 before]
  rw [State.take, State.take, kinds]
  split
  · exact twins
  · rename_i more
    have more' := more
    rw [← kinds] at more'
    refine ⟨?_, ?_, twins.errors⟩
    · rw [State.position_takeAny (Bool.eq_false_iff.mpr more),
        State.position_takeAny (Bool.eq_false_iff.mpr more'), twins.position]
    · have same : (state'.current seam.right).sketch = (state.current seam.left).sketch := by
        rw [State.current, State.current, twins.position]
        exact seam.sketch _ before
      simp only [State.takeAny, List.map_cons, twins.slots, Element.sketch, Element.redraw_token,
        same]

/-- A token that was read stands before the seam. -/
theorem lt_place_of_take {state : State}
    (within : (state.take seam.left).position ≤ seam.place) : state.position < seam.place := by
  by_cases ended : state.atEnd seam.left = true
  · rw [State.take_of_atEnd ended] at within
    refine Nat.lt_of_le_of_ne within fun there => ?_
    rw [State.atEnd_iff, State.kindAt, there] at ended
    cases ended.symm.trans seam.closes
  · have more := Bool.eq_false_iff.mpr ended
    rw [State.take, more, if_neg Bool.false_ne_true, State.position_takeAny more] at within
    exact within

theorem position_take {context : Context} {state : State}
    (more : (context.get state.position).kind ≠ .eof) :
    (state.take context).position = state.position + 1 := by
  have further : state.atEnd context = false := beq_eq_false_iff_ne.mpr more
  rw [State.take, further, if_neg Bool.false_ne_true, State.position_takeAny further]

theorem carries_take {view : View} : seam.Carries depth view .take := by
  intro state state' twins _ after read within
  cases read
  exact ⟨_, rfl, seam.twins_take twins (lt_place_of_take within)⟩

theorem carries_expect {view : View} (kind : TokenKind) :
    seam.Carries depth view (.expect kind) := by
  intro state state' twins _ after read within
  simp only [Phrase.run, State.expect] at read ⊢
  split at read
  · rename_i found
    cases read
    have before := lt_place_of_take within
    have found' : (state'.current seam.right).kind = kind :=
      (seam.kindAt twins 0 before).trans found
    rw [if_pos found']
    exact ⟨_, rfl, seam.twins_take twins before⟩
  · rw [State.report_of_strict seam.sealed.strict] at read
    cases read

theorem carries_absent {view : View} : seam.Carries depth view .absent :=
  fun _ _ twins _ => .ok (twins.push rfl)

theorem carries_close {view : View} (kind : NodeKind) : seam.Carries depth view (.close kind) :=
  fun _ _ twins _ => .ok (twins.close _ _ kind)

theorem carries_require {view : View} (requirement : Requirement) :
    seam.Carries depth view (.require requirement) := by
  intro state state' twins _ after read _
  have same := twins.violation? requirement
  simp only [Phrase.run] at read ⊢
  cases violated : requirement.violation? state.slots with
  | none =>
      rw [violated] at read same
      cases read
      rw [Option.isSome_eq_false_iff.mp same |> Option.isNone_iff_eq_none.mp]
      exact ⟨state', rfl, twins⟩
  | some error =>
      simp only [violated, State.report_of_strict seam.sealed.strict] at read
      cases read

/-! ## Phrases made of others -/

theorem carries_seq {view : View} {first second : Phrase} (starts : seam.Carries depth view first)
    (rest : seam.Carries depth [] second) : seam.Carries depth view (first ++ second) := by
  intro state state' twins fits
  refine (starts state state' twins fits).bind (fun _ _ => Language.forward) ?_
  exact fun middle middle' _ _ twins => rest middle middle' twins (View.fits_nil _ _)

theorem carries_assoc {view : View} {first second third : Phrase}
    (carries : seam.Carries depth view (first ++ (second ++ third))) :
    seam.Carries depth view (first ++ second ++ third) := by
  intro state state' twins fits
  rw [Phrase.run_assoc, Phrase.run_assoc]
  exact carries state state' twins fits

theorem Keeps.inFrame {step step' : Step} {state state' : State} (lead : Nat)
    (twins : Twins 0 state state')
    (keeps : seam.Keeps (step { state with slots := state.slots.take lead })
      (step' { state' with slots := state'.slots.take lead })) :
    seam.Keeps (state.inFrame lead step) (state'.inFrame lead step') := by
  intro after read within
  obtain ⟨inner, started, rfl⟩ := State.inFrame_eq_ok.mp read
  obtain ⟨inner', started', alike⟩ := keeps inner started within
  refine ⟨_, State.inFrame_eq_ok.mpr ⟨inner', started', rfl⟩, alike.withSlots ?_⟩
  rw [List.map_append, List.map_append, List.map_drop, List.map_drop, alike.slots, twins.slots]

theorem carries_frame {view : View} {body : Phrase} (lead : Nat)
    (carries : seam.Carries depth view body) : seam.Carries depth view (.frame lead body) := by
  intro state state' twins fits
  refine .inFrame lead twins (carries _ _ (twins.withSlots ?_) fits)
  rw [List.map_take, List.map_take, twins.slots]

theorem carries_around {view : View} {body : Phrase} (lead : Nat) (kind : NodeKind)
    (carries : seam.Carries depth view body) : seam.Carries depth view (.around lead kind body) :=
  carries_frame lead (carries_seq carries (carries_close kind))

theorem carries_node {view : View} {body : Phrase} (kind : NodeKind)
    (carries : seam.Carries depth view body) : seam.Carries depth view (.node kind body) :=
  carries_around 0 kind carries

theorem Keeps.choose {condition : Condition} {yes no : Phrase} {state state' : State}
    (same : condition.holds (readRule grammar depth) seam.right state' =
      condition.holds (readRule grammar depth) seam.left state)
    (taken : condition.holds (readRule grammar depth) seam.left state = true →
      seam.Keeps (yes.run (readRule grammar depth) seam.left state)
        (yes.run (readRule grammar depth) seam.right state'))
    (skipped : seam.Keeps (no.run (readRule grammar depth) seam.left state)
      (no.run (readRule grammar depth) seam.right state')) :
    seam.Keeps ((Phrase.choose condition yes no).run (readRule grammar depth) seam.left state)
      ((Phrase.choose condition yes no).run (readRule grammar depth) seam.right state') := by
  simp only [Phrase.run, same]
  split
  · rename_i holds
    exact taken holds
  · exact skipped

theorem fits_of_is {rules : Rule → Context → Step} {context : Context} {kind : TokenKind}
    {state : State} (holds : (Condition.is kind).holds rules context state = true) :
    View.Fits context [.singleton kind] state :=
  .cons holds (View.fits_nil _ _)

/-- What starts with a token that ends no statement, and ends as statements do, has more than
one token. -/
theorem second_lt_place {kind : TokenKind} {phrase : Phrase} {state after : State}
    (other : statementEnds.contains kind = false)
    (ends : endsStatement [.singleton kind] phrase = true)
    (fits : View.Fits seam.left [.singleton kind] state)
    (read : phrase.run (readRule grammar depth) seam.left state = .ok after)
    (within : after.position ≤ seam.place) : state.position + 1 < seam.place := by
  have inside : state.position < seam.left.tokens.size :=
    Nat.lt_of_le_of_lt (Nat.le_trans (Language.forward read) within) seam.size
  obtain ⟨_, moved, last⟩ := seam.sealed.passes_statement fits inside read ends
  have first : (seam.left.get state.position).kind = kind := by
    have known : (TokenSet.singleton kind).contains (state.kindAt seam.left 0) = true := fits.first
    rw [TokenSet.contains_singleton, decide_eq_true_eq] at known
    exact known.symm
  refine Nat.lt_of_lt_of_le (Nat.lt_of_le_of_ne moved fun same => ?_) within
  rw [← same, Nat.succ_sub_one, first] at last
  rcases last with rfl | rfl <;> exact absurd other (by decide)

/-- A choice that is made by a token which would carry on a statement. -/
theorem carries_dangling {view : View} {kind : TokenKind} {yes no : Phrase}
    (dangles : dangling.contains kind = true) (taken : seam.Carries depth [.singleton kind] yes)
    (skipped : seam.Carries depth [] no) :
    seam.Carries depth view (.choose (.is kind) yes no) := by
  intro state state' twins _ after read within
  have inside := Nat.le_trans (Language.forward read) within
  exact Keeps.choose (seam.holds_dangling twins inside dangles)
    (fun holds => taken state state' twins (fits_of_is holds))
    (skipped state state' twins (View.fits_nil _ _)) after read within

theorem carries_shape {view : View} {shape : Shape} {yes no : Phrase}
    (taken : seam.Carries depth view yes) (skipped : seam.Carries depth view no) :
    seam.Carries depth view (.choose (.shape shape) yes no) := by
  intro state state' twins fits
  refine Keeps.choose ?_ (fun _ => taken state state' twins fits) (skipped state state' twins fits)
  simp only [Condition.holds]
  exact twins.shape shape

/-- Rounds of a loop before the seam. -/
theorem iterate_keeps {step step' : Step}
    (moving : Moving seam.left .any step)
    (round : ∀ state state', Twins 0 state state' → seam.Keeps (step state) (step' state'))
    (count count' : Nat) {state state' : State} (twins : Twins 0 state state')
    (enough : seam.place - state.position < count)
    (enough' : seam.place - state.position < count') :
    seam.Keeps (State.iterate step count state) (State.iterate step' count' state') := by
  induction count generalizing count' state state' with
  | zero => omega
  | succ count ih =>
      obtain ⟨count', rfl⟩ : ∃ fewer, count' = fewer + 1 := ⟨count' - 1, by omega⟩
      refine (round state state' twins).bind ?_ ?_
      · intro middle after read
        split at read
        · exact (State.iterate_moving moving count _ _ read).forward_any
        · cases read
          exact Nat.le_refl _
      · intro middle middle' _ inside later
        simp only [twins.moved later]
        split
        · exact ih count' later (by omega) (by omega)
        · exact .ok later

theorem carries_many {view : View} {body : Phrase} (carries : seam.Carries depth [] body) :
    seam.Carries depth view (.many body) := by
  intro state state' twins _ after read within
  have inside := Nat.le_trans (Language.forward read) within
  have size := seam.size
  have size' := seam.size'
  have same := twins.position
  refine iterate_keeps (Language.moving body depth seam.left)
    (fun state state' twins => carries state state' twins (View.fits_nil _ _)) _ _ twins ?_ ?_
    after read within
  · rw [State.remaining]
    omega
  · rw [State.remaining]
    omega

section Chain

variable {kind : NodeKind} {link link' last last' : Step} {more more' : State → Bool}
  (linksMove : Moving seam.left .any link) (lastMoves : Moving seam.left .any last)

include linksMove lastMoves

/-- What follows a link does not move the cursor back. -/
theorem chain_forward {count : Nat} {outer : List (List Element)} {base : List Element}
    {inner after : State}
    (read : (if more inner then
        State.chain seam.left kind link more last count ((inner.take seam.left).gathered :: outer)
          { inner.take seam.left with slots := base }
      else State.closeChain seam.left kind last outer base inner) = .ok after) :
    inner.position ≤ after.position := by
  split at read
  · have taken : Moves seam.left .any inner (inner.take seam.left) := .takeUnlessEnded _ _
    have rest := State.chain_moves rfl more linksMove lastMoves _ _ _ _ read
    exact Nat.le_trans taken.forward_any rest.forward_any
  · exact (State.closeChain_moves rfl lastMoves _ _ _ _ read).forward_any

variable
  (links : ∀ state state', Twins 0 state state' → seam.Keeps (link state) (link' state'))
  (ends : ∀ state state', Twins 0 state state' → seam.Keeps (last state) (last' state'))
  (advances : ∀ state after, link state = .ok after → after.position ≤ seam.place →
    state.position < after.position)
  (goes : ∀ state state' next after, Twins 0 state state' → more state = true →
    next.position = (state.take seam.left).position → link next = .ok after →
      after.position ≤ seam.place → more' state' = true)
  (stops : ∀ state state' after, Twins 0 state state' → more state = false →
    last state = .ok after → after.position ≤ seam.place → more' state' = false)

include links ends advances goes stops

/-- Links of a chain before the seam. -/
theorem chain_keeps (count count' : Nat) {outer outer' : List (List Element)}
    {state state' : State} (twins : Twins 0 state state')
    (drawn : outer'.map (·.map Element.sketch) = outer.map (·.map Element.sketch))
    (enough : seam.place - state.position < count)
    (enough' : seam.place - state.position < count') :
    seam.Keeps (state.chain seam.left kind link more last count outer)
      (state'.chain seam.right kind link' more' last' count' outer') := by
  induction count generalizing count' outer outer' state state' with
  | zero => omega
  | succ count ih =>
      obtain ⟨count', rfl⟩ : ∃ fewer, count' = fewer + 1 := ⟨count' - 1, by omega⟩
      refine (links _ _ (twins.withSlots rfl)).bind
        (fun _ _ => chain_forward linksMove lastMoves) ?_
      intro inner inner' linked inside alike
      have moved := advances _ _ linked inside
      intro after read within
      simp only at read moved
      split at read
      · rename_i goesOn
        have taken : Moves seam.left .any inner (inner.take seam.left) := .takeUnlessEnded _ _
        have onward := taken.forward_any
        obtain ⟨fewer, rfl⟩ : ∃ fewer, count = fewer + 1 := ⟨count - 1, by omega⟩
        obtain ⟨next, following, rest⟩ := bind_eq_ok.mp read
        have ahead := Nat.le_trans (chain_forward linksMove lastMoves rest) within
        have further := advances _ _ following ahead
        have same := goes inner inner' { inner.take seam.left with slots := [] } next alike goesOn
          rfl following ahead
        have before : inner.position < seam.place := by
          simp only at further
          omega
        rw [if_pos same]
        have joined := seam.twins_take alike before
        refine ih count' (joined.withSlots twins.slots) ?_ ?_ ?_ after read within
        · rw [List.map_cons, List.map_cons, drawn, joined.gathered]
        · simp only
          omega
        · simp only
          omega
      · rename_i stopped
        obtain ⟨ended, closed, rest⟩ := bind_eq_ok.mp read
        cases rest
        have same := stops inner inner' ended alike (Bool.eq_false_iff.mpr stopped) closed within
        obtain ⟨ended', closed', later⟩ := ends inner inner' alike ended closed within
        rw [if_neg (Bool.eq_false_iff.mp same)]
        refine ⟨_, bind_eq_ok.mpr ⟨ended', closed', rfl⟩, later.withSlots ?_⟩
        rw [List.map_cons, List.map_cons, twins.slots,
          later.nestRight _ _ (fun _ => rfl) drawn]

end Chain

/-! ## Phrases that end with a wall -/

/-- What ends with a wall before the seam is blocked before the seam. -/
theorem exists_blocked {walls : Walls} {view : View} {body : Phrase} {kind : TokenKind}
    (kept : keepsTo walls view body = true) (wall : (walls.stops []).contains kind = true)
    {state after : State} (fits : view.Fits seam.left state)
    (read : (body ++ .expect kind).run (readRule grammar depth) seam.left state = .ok after)
    (within : after.position ≤ seam.place) :
    ∃ high < seam.place, Blocked walls seam.left [] state.position high := by
  obtain ⟨middle, started, ended⟩ := bind_eq_ok.mp read
  obtain ⟨found, rfl⟩ := State.kind_of_expect seam.sealed.strict ended
  have before := lt_place_of_take within
  have inside : state.position < seam.left.tokens.size :=
    Nat.lt_of_le_of_lt (Language.forward started) (Nat.lt_trans before seam.size)
  refine ⟨middle.position, before, (seam.sealed.passes fits inside started kept).blocked ?_⟩
  rw [found]
  exact wall

theorem carries_walled {view : View} {body : Phrase} {kind : TokenKind} (walls : Walls)
    (kept : keepsTo walls view body = true) (wall : (walls.stops []).contains kind = true) :
    seam.Carries depth view (body ++ .expect kind) := by
  intro state state' twins fits after read within
  obtain ⟨high, before, blocked⟩ := exists_blocked kept wall fits read within
  refine (keeps_of_blocked kept twins fits before blocked).bind (fun _ _ => Language.forward) ?_
    after read within
  exact fun middle middle' _ _ twins => carries_expect kind middle middle' twins (View.fits_nil _ _)

/-- What stands between braces before the seam. -/
theorem carries_braced {rule : Rule} (braced : (grammar rule).Braced bounds) (view : View) :
    seam.Carries depth view (.call rule) := by
  obtain ⟨kind, body, kept, same⟩ := braced
  cases depth with
  | zero => exact fun _ _ _ _ _ read => nomatch read
  | succ depth =>
      intro state state' twins fits
      simp only [Phrase.run, readRule, same]
      exact carries_node kind (carries_assoc (carries_seq (carries_expect .lBrace)
        (carries_walled .empty kept (by decide)))) state state' twins fits

theorem kind_of_braced {rule : Rule} (braced : (grammar rule).Braced bounds)
    {state after : State}
    (read : (Phrase.call rule).run (readRule grammar depth) seam.left state = .ok after) :
    (seam.left.get state.position).kind = .lBrace ∧ state.position < after.position := by
  obtain ⟨kind, body, -, same⟩ := braced
  cases depth with
  | zero => cases read
  | succ depth =>
      simp only [Phrase.run, readRule, same] at read
      obtain ⟨inner, framed, rfl⟩ := State.inFrame_eq_ok.mp read
      obtain ⟨ended, filled, closed⟩ := bind_eq_ok.mp framed
      cases closed
      obtain ⟨middle, started, ending⟩ := bind_eq_ok.mp filled
      obtain ⟨opened, taken, rest⟩ := bind_eq_ok.mp started
      obtain ⟨found, rfl⟩ := State.kind_of_expect seam.sealed.strict taken
      refine ⟨found, ?_⟩
      have onward := Nat.le_trans (Language.forward rest) (Language.forward ending)
      rwa [position_take (by rw [found]; decide)] at onward

/-- A head and something between braces. -/
theorem carries_headed {view : View} {head : Phrase} {rule : Rule}
    (braced : (grammar rule).Braced bounds)
    (kept : keepsTo headWalls view head = true) :
    seam.Carries depth view (head ++ .call rule) := by
  intro state state' twins fits after read within
  obtain ⟨middle, started, ended⟩ := bind_eq_ok.mp read
  obtain ⟨found, moved⟩ := kind_of_braced braced ended
  have inside : state.position < seam.left.tokens.size :=
    Nat.lt_of_le_of_lt (Nat.le_trans (Language.forward read) within) seam.size
  have blocked : Blocked headWalls seam.left [] state.position middle.position := by
    refine (seam.sealed.passes fits inside started kept).blocked ?_
    rw [found]
    decide
  refine (keeps_of_blocked kept twins fits (Nat.lt_of_lt_of_le moved within) blocked).bind
    (fun _ _ => Language.forward) ?_ after read within
  exact fun middle middle' _ _ twins =>
    carries_braced braced [] middle middle' twins (View.fits_nil _ _)

end Seam

end JavaSyntax
