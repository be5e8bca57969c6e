import JavaSyntax.Proofs.Locality.Loops

/-!
# Readings depend on nothing behind a wall

A phrase whose effects can be computed reads the same before the same wall, whatever stands
behind it.  The induction is over phrases and conditions together; rules are compared one
nesting level deeper, so the whole grammar follows by induction on the nesting that is left.
-/

namespace JavaSyntax

/-- If all kinds of a set agree on the open brackets, each of them leaves those. -/
theorem TokenSet.shift_eq {kinds : TokenSet} {stack next : List Bracket} {kind : TokenKind}
    (known : kinds.shift? stack = some next) (member : kinds.contains kind = true) :
    kind.shift stack = next := by
  unfold shift? at known
  split at known
  · rename_i apart
    cases known
    have other := contains_eq_false_of_disjoint apart member
    have unmarked : kind.mark? = none := by
      cases marks : kind.mark? with
      | none => rfl
      | some mark =>
          rw [contains_ofList, decide_eq_false_iff_not] at other
          exact absurd (TokenKind.mem_brackets marks) other
    rw [TokenKind.shift, unmarked]
  · obtain ⟨bracket, found, rfl⟩ := Option.map_eq_some_iff.mp known
    have same : kinds = singleton bracket := by simpa using List.find?_some found
    rw [same, contains_singleton, decide_eq_true_eq] at member
    rw [member]

theorem State.report_of_strict {context : Context} (strict : context.recovery = false)
    (state : State) (error : SyntaxError) : state.report context error = .error error := by
  simp [State.report, strict]

/-- The first token that might be a wall is one or is none. -/
theorem View.Fits.stopped_or_going {view : View} {context : Context} {state : State}
    (fits : view.Fits context state) (walls : Walls) (stack : List Bracket) :
    (∃ known ∈ view.stopped walls stack, known.Fits context state) ∨
      ∃ known ∈ view.going walls stack, known.Fits context state := by
  generalize reached : view.frontier walls stack = pair
  obtain ⟨distance, inner⟩ := pair
  simp only [View.stopped, View.going, reached]
  by_cases wall : (walls.stops inner).contains (state.kindAt context distance) = true
  · exact .inl (fits.narrowAt wall)
  · refine .inr (fits.narrowAt ?_)
    rw [TokenSet.contains_compl, Bool.not_eq_true']
    exact Bool.eq_false_iff.mpr wall

namespace Fence

variable {fence : Fence} {walls : Walls} {stack : List Bracket} {view : View}
  {state state' : State}

theorem Stands.passable (stands : fence.Stands walls stack view state state')
    (known : view.isPassable walls stack = true) :
    (walls.stops stack).contains (state.kindAt fence.left 0) = false :=
  TokenSet.contains_eq_false_of_disjoint known stands.fits.first

/-- A token that is known to be no wall. -/
theorem Stands.led_step (stands : fence.Stands walls stack view state state')
    {next : List Bracket} (known : view.step? walls stack = some next) :
    fence.Led walls stack state.position ⟨next, view.tail, true, view.first⟩
      (state.take fence.left) (state'.take fence.right) := by
  unfold View.step? at known
  split at known
  · rename_i passable
    exact .take stands (stands.passable passable) (TokenSet.shift_eq known stands.fits.first)
      stands.fits.first
  · cases known

theorem Stands.reaches {distance : Nat} (stands : fence.Stands walls stack view state state')
    (known : view.reaches walls stack distance = true) :
    state.position + distance ≤ fence.high := by
  fun_induction View.reaches walls stack view distance generalizing state state' with
  | case1 => exact stands.inside
  | case2 stack view => exact stands.lt_high (stands.passable known)
  | case3 stack view distance ih =>
      obtain ⟨next, steps, rest⟩ := (Option.any_eq_true _ _).mp known
      have led := stands.led_step steps
      have moved := led.moved rfl
      have beyond := ih next (led.stands stands) rest
      omega

/-- What is relied on of the rules that a phrase calls: each keeps to its walls and reads a
token. -/
def Guards (fence : Fence) (bounds : Rule → Bounds) (rules : Rule → Context → Step) : Prop :=
  ∀ rule, fence.Follows (bounds rule).walls [] [] [⟨[], [], true, (bounds rule).last⟩]
    (rules rule fence.left) (rules rule fence.right)

/-- What a rule reads on its own, it reads among open brackets. -/
theorem Follows.among {outer : Walls} {moved : Bool} {last : TokenSet} {step step' : Step}
    (follows : fence.Follows outer [] [] [⟨[], [], moved, last⟩] step step')
    (weaker : stack = [] → walls.within outer = true) :
    fence.Follows walls stack view [⟨stack, [], moved, last⟩] step step' := by
  intro state state' stands
  have alone : fence.Stands outer [] [] state state' :=
    ⟨stands.toTwins, stands.above, stands.blocked.alone weaker, View.fits_nil _ _⟩
  obtain ⟨_, _, failed, failed'⟩ | ⟨_, _, read, read', effect, member, led⟩ :=
    (follows _ _ alone).cases
  · rw [failed, failed']
    trivial
  · rw [read, read']
    obtain rfl := List.mem_singleton.mp member
    exact ⟨_, List.mem_singleton_self _,
      led.toTwins, led.passes.among weaker, led.fits, led.moved, led.last⟩

/-- One step after the other. -/
theorem Follows.andThen {first second : Effect} {step step' next next' : Step}
    (starts : fence.Follows walls stack view [first] step step')
    (ends : fence.Follows walls first.stack first.view [second] next next') :
    fence.Follows walls stack view [first.andThen second] (fun state => step state >>= next)
      (fun state' => step' state' >>= next') := by
  intro state state' stands
  refine (starts _ _ stands).bind fun effect member after after' led => ?_
  obtain rfl := List.mem_singleton.mp member
  exact (ends _ _ (led.stands stands)).since led

theorem Stands.stays {view : View} (stands : fence.Stands walls stack view state state')
    {after after' : State} (twins : Twins fence.shift after after')
    (still : after.position = state.position) :
    fence.Leads walls stack state.position [.stay stack view] (.ok after) (.ok after') :=
  ⟨_, List.mem_singleton_self _, .stay stands twins still⟩

/-- Without recovery an error ends both readings. -/
theorem report_leads {start : Nat} {effects : List Effect} (error error' : SyntaxError)
    {next next' : Step} :
    fence.Leads walls stack start effects (state.report fence.left error >>= next)
      (state'.report fence.right error' >>= next') := by
  rw [State.report_of_strict fence.strict, State.report_of_strict fence.strict']
  trivial

theorem expect_follows {bounds : Rule → Bounds} {kind : TokenKind} {effects : List Effect}
    (found : (Phrase.expect kind).confine bounds walls stack view = some effects) :
    fence.Follows walls stack view effects (State.expect fence.left · kind)
      (State.expect fence.right · kind) := by
  intro state state' stands
  have current : (state'.current fence.right).kind = (state.current fence.left).kind :=
    stands.kindAt_zero
  simp only [State.expect, current]
  split
  · rename_i same
    have here : state.kindAt fence.left 0 = kind := same
    have known := stands.fits.first
    rw [here] at known
    simp only [Phrase.confine, known, Bool.not_true, if_neg Bool.false_ne_true] at found
    split at found
    · cases found
    · rename_i passable
      cases found
      refine ⟨_, List.mem_singleton_self _, .take stands ?_ (by rw [here]) (by simp [here])⟩
      rw [here]
      exact Bool.eq_false_iff.mpr passable
  · exact report_leads _ _

theorem noViable_leads {start : Nat} {effects : List Effect} (construct : Construct) :
    fence.Leads walls stack start effects (state.noViable fence.left construct)
      (state'.noViable fence.right construct) :=
  report_leads _ _

theorem progress_follows {step step' : Step} {effects : List Effect}
    (follows : fence.Follows walls stack view effects step step')
    (advances : effects.all (·.moved) = true) :
    fence.Follows walls stack view effects (State.progress fence.left · step)
      (State.progress fence.right · step') := by
  intro state state' stands
  have inner : fence.Follows walls stack view effects
      (fun inner => do
        let result ← step inner
        if result.position ≠ inner.position ∨ result.atEnd fence.left then return result
        else return result.swallow fence.left)
      (fun inner => do
        let result ← step' inner
        if result.position ≠ inner.position ∨ result.atEnd fence.right then return result
        else return result.swallow fence.right) := by
    intro state state' stands
    refine (follows _ _ stands).bind fun effect member after after' led => ?_
    have moved := led.moved (List.all_eq_true.mp advances effect member)
    have moved' := (stands.toTwins.moved led.toTwins).mpr moved
    rw [if_pos (.inl (by omega)), if_pos (.inl (by omega))]
    exact ⟨effect, member, led⟩
  exact inner.inFrame 0 _ _ stands

/-! ## Phrase by phrase -/

/-- What is shown of a phrase: where its effects are known, it reads the same before the same
wall. -/
structure Confines (fence : Fence) (bounds : Rule → Bounds) (rules : Rule → Context → Step)
    (walls : Walls) (phrase : Phrase) : Prop where
  follows : ∀ {stack : List Bracket} {view : View} {effects : List Effect},
    phrase.confine bounds walls stack view = some effects →
      fence.Follows walls stack view effects (phrase.run rules fence.left)
        (phrase.run rules fence.right)

/-- What is shown of a condition: where its sight is bounded, it holds alike before the same
wall. -/
structure Decides (fence : Fence) (bounds : Rule → Bounds) (rules : Rule → Context → Step)
    (walls : Walls) (condition : Condition) : Prop where
  alike : ∀ {stack : List Bracket} {view : View} {state state' : State},
    condition.bounded bounds walls stack view = true →
      fence.Stands walls stack view state state' →
        condition.holds rules fence.right state' = condition.holds rules fence.left state

section Phrases

variable {bounds : Rule → Bounds} {rules : Rule → Context → Step}

namespace Confines

theorem absentFirst : fence.Confines bounds rules walls .absentFirst := by
  constructor
  intro stack view effects found state state' stands
  cases found
  refine stands.stays (stands.toTwins.withSlots ?_) rfl
  rw [List.map_append, List.map_append, stands.slots]

theorem take : fence.Confines bounds rules walls .take := by
  constructor
  intro stack view effects found state state' stands
  obtain ⟨next, steps, rfl⟩ := Option.map_eq_some_iff.mp found
  exact ⟨_, List.mem_singleton_self _, stands.led_step steps⟩

/-- Twins violate the same requirements, so that both readings fail or neither does. -/
theorem require (requirement : Requirement) :
    fence.Confines bounds rules walls (.require requirement) := by
  constructor
  intro stack view effects found state state' stands
  cases found
  have same := stands.toTwins.violation? requirement
  simp only [Phrase.run]
  cases violated : requirement.violation? state.slots <;>
    cases violated' : requirement.violation? state'.slots <;>
    simp only [violated, violated', Option.isSome_none, Option.isSome_some,
      reduceCtorEq] at same
  · exact stands.stays stands.toTwins rfl
  · simp only [State.report_of_strict fence.strict, State.report_of_strict fence.strict']
    trivial

theorem call (guards : fence.Guards bounds rules) (rule : Rule) :
    fence.Confines bounds rules walls (.call rule) := by
  constructor
  intro stack view effects found
  simp only [Phrase.confine] at found
  split at found
  · rename_i weaker
    cases found
    refine (guards rule).among ?_
    rintro rfl
    simpa using weaker
  · cases found

variable {body next yes no trial operand type link last : Phrase}
  {condition accept more : Condition}

theorem seq (first : fence.Confines bounds rules walls body)
    (second : fence.Confines bounds rules walls next) :
    fence.Confines bounds rules walls (.seq body next) := by
  constructor
  intro stack view effects found state state' stands
  obtain ⟨firsts, read, further⟩ := Option.bind_eq_some_iff.mp found
  refine (first.follows read _ _ stands).follow further ?_
  intro effect after after' own led isOwn
  exact second.follows isOwn _ _ (led.stands stands)

/-- A choice, where the condition holds alike in both readings. -/
theorem branch_leads (taken : fence.Confines bounds rules walls yes)
    (left : fence.Confines bounds rules walls no) {effects : List Effect}
    (stands : fence.Stands walls stack view state state')
    (same : condition.holds rules fence.right state' = condition.holds rules fence.left state)
    (found : condition.branch (yes.confine bounds walls stack) (no.confine bounds walls stack)
      view = some effects) :
    fence.Leads walls stack state.position effects
      ((Phrase.choose condition yes no).run rules fence.left state)
      ((Phrase.choose condition yes no).run rules fence.right state') := by
  obtain ⟨yeses, isTaken, found⟩ := Option.bind_eq_some_iff.mp found
  obtain ⟨noes, isLeft, found⟩ := Option.bind_eq_some_iff.mp found
  cases found
  simp only [Phrase.run, same]
  split
  · rename_i holds
    obtain ⟨known, own, fits, isOwn, among⟩ := any_decide fence walls isTaken holds stands.fits
    exact (taken.follows isOwn _ _ (stands.withView fits)).mono
      fun led => any_merge (.inl (among led))
  · rename_i fails
    obtain ⟨known, own, fits, isOwn, among⟩ :=
      any_decide fence walls isLeft (Bool.eq_false_iff.mpr fails) stands.fits
    exact (left.follows isOwn _ _ (stands.withView fits)).mono
      fun led => any_merge (.inr (among led))

/-- A phrase without effects fails in both readings. -/
theorem fails (confines : fence.Confines bounds rules walls body)
    (stands : fence.Stands walls stack view state state')
    (dead : (body.confine bounds walls stack view).any (·.isEmpty) = true) :
    (∃ error, body.run rules fence.left state = .error error) ∧
      ∃ error, body.run rules fence.right state' = .error error := by
  obtain ⟨effects, found, empty⟩ := (Option.any_eq_true _ _).mp dead
  obtain rfl := List.isEmpty_iff.mp empty
  exact (confines.follows found _ _ stands).none

/-- What lies behind a wall may decide a choice if both alternatives fail at the wall, however it
is decided.  Otherwise the condition sees no farther than the wall. -/
theorem choose (decides : fence.Decides bounds rules walls condition)
    (taken : fence.Confines bounds rules walls yes)
    (left : fence.Confines bounds rules walls no) :
    fence.Confines bounds rules walls (.choose condition yes no) := by
  constructor
  intro stack view effects found state state' stands
  simp only [Phrase.confine] at found
  split at found
  · rename_i bounded
    exact taken.branch_leads left stands (decides.alike bounded stands) found
  · split at found
    · rename_i dead
      split at found
      · rename_i bounded
        rcases stands.fits.stopped_or_going walls stack with
          ⟨known, member, fits⟩ | ⟨known, member, fits⟩
        · have standing := stands.withView fits
          obtain ⟨noYes, noNo⟩ :=
            (Bool.and_eq_true _ _).mp (List.all_eq_true.mp dead known member)
          obtain ⟨⟨_, one⟩, _, two⟩ := taken.fails standing noYes
          obtain ⟨⟨_, three⟩, _, four⟩ := left.fails standing noNo
          simp only [Phrase.run, one, two, three, four]
          split <;> split <;> trivial
        · obtain ⟨own, isOwn, among⟩ := any_each fence walls found member
          have standing := stands.withView fits
          have same := decides.alike (List.all_eq_true.mp bounded known member) standing
          exact (taken.branch_leads left standing same isOwn).mono among
      · cases found
    · cases found

theorem many (confines : fence.Confines bounds rules walls body) :
    fence.Confines bounds rules walls (.many body) := by
  constructor
  intro stack view effects found state state' stands
  obtain ⟨rounds, read, found⟩ := Option.bind_eq_some_iff.mp found
  split at found
  · rename_i kept
    cases found
    have enough := stands.remaining
    exact iterate_leads (confines.follows read) kept _ _ stands.unseen enough.1 enough.2
  · cases found

theorem whenAdvanced (first : fence.Confines bounds rules walls body)
    (second : fence.Confines bounds rules walls next) :
    fence.Confines bounds rules walls (.whenAdvanced body next) := by
  constructor
  intro stack view effects found state state' stands
  obtain ⟨read, started, found⟩ := Option.bind_eq_some_iff.mp found
  obtain ⟨advanced, further, found⟩ := Option.bind_eq_some_iff.mp found
  cases found
  refine (first.follows started _ _ stands).bind fun effect member after after' led => ?_
  simp only [stands.toTwins.moved led.toTwins]
  split
  · rename_i moved
    have some : (!effect.last.isEmpty) = true := by
      rw [Bool.not_eq_true', Bool.eq_false_iff]
      intro empty
      have known := led.last moved
      have bits : effect.last.bits = 0 := by simpa [TokenSet.isEmpty] using empty
      simp [TokenSet.contains, bits] at known
    obtain ⟨all, followed, among⟩ :=
      any_each fence walls further (List.mem_filter.mpr ⟨member, some⟩)
    obtain ⟨own, isOwn, rfl⟩ := Option.map_eq_some_iff.mp followed
    have forth : fence.Led walls stack state.position { effect with moved := true } after
        after' := { led with moved := fun _ => moved }
    exact ((second.follows isOwn _ _ (led.stands stands)).since forth).mono
      fun led => any_merge (.inr (among led))
  · rename_i still
    have stays : (!effect.moved) = true := by
      rw [Bool.not_eq_true', Bool.eq_false_iff]
      exact fun moved => still (led.moved moved)
    exact any_merge (.inl ⟨effect, List.mem_filter.mpr ⟨member, stays⟩, led⟩)

theorem progress (confines : fence.Confines bounds rules walls body) :
    fence.Confines bounds rules walls (.progress body) := by
  constructor
  intro stack view effects found
  obtain ⟨read, started, found⟩ := Option.bind_eq_some_iff.mp found
  split at found
  · rename_i advances
    cases found
    exact progress_follows (confines.follows started) advances
  · cases found

theorem attempt (tries : fence.Confines bounds rules walls trial)
    (decides : fence.Decides bounds rules walls accept)
    (taken : fence.Confines bounds rules walls yes)
    (left : fence.Confines bounds rules walls no) :
    fence.Confines bounds rules walls (.attempt trial accept yes no) := by
  constructor
  intro stack view effects found state state' stands
  obtain ⟨tried, started, found⟩ := Option.bind_eq_some_iff.mp found
  obtain ⟨kept, accepts, found⟩ := Option.bind_eq_some_iff.mp found
  split at found
  · rename_i bounded
    obtain ⟨others, refuses, found⟩ := Option.bind_eq_some_iff.mp found
    cases found
    have skipped : fence.Leads walls stack state.position (Effect.merge kept others)
        (no.run rules fence.left state) (no.run rules fence.right state') :=
      (left.follows refuses _ _ stands).mono fun led => any_merge (.inr led)
    simp only [Phrase.run, Context.trial_of_strict fence.strict,
      Context.trial_of_strict fence.strict']
    obtain ⟨_, _, failed, failed'⟩ | ⟨_, _, fitted, fitted', effect, member, led⟩ :=
      (tries.follows started _ _ stands).cases
    · rw [failed, failed']
      exact skipped
    · rw [fitted, fitted']
      have reached := led.stands stands
      simp only [decides.alike (List.all_eq_true.mp bounded effect member) reached]
      split
      · rename_i accepted
        obtain ⟨all, followed, among⟩ := any_each fence walls accepts member
        obtain ⟨first, isFirst, rfl⟩ := Option.map_eq_some_iff.mp followed
        obtain ⟨known, own, fits, isOwn, within⟩ :=
          any_decide fence walls isFirst accepted reached.fits
        have further := (taken.follows isOwn _ _ (reached.withView fits)).mono within
        exact (further.since led).mono fun led => any_merge (.inl (among led))
      · exact skipped
  · cases found

theorem operators (operands : fence.Confines bounds rules walls operand)
    (types : fence.Confines bounds rules walls type) :
    fence.Confines bounds rules walls (.operators operand type) := by
  constructor
  intro stack view effects found
  obtain ⟨reads, started, found⟩ := Option.bind_eq_some_iff.mp found
  obtain ⟨tests, typed, found⟩ := Option.bind_eq_some_iff.mp found
  split at found
  · rename_i checked
    obtain ⟨free, kept⟩ := (Bool.and_eq_true _ _).mp checked
    cases found
    exact operators_follow (operands.follows started) (types.follows typed) free kept
  · cases found

theorem prefixed (links : fence.Confines bounds rules walls link)
    (lasts : fence.Confines bounds rules walls last) :
    fence.Confines bounds rules walls (.prefixed link last) := by
  constructor
  intro stack view effects found state state' stands
  obtain ⟨reads, linked, found⟩ := Option.bind_eq_some_iff.mp found
  obtain ⟨ends, ended, found⟩ := Option.bind_eq_some_iff.mp found
  split at found
  · rename_i kept
    cases found
    have enough := stands.remaining
    exact prefixed_leads (links.follows linked) (lasts.follows ended) kept _ _ stands.unseen rfl
      enough.1 enough.2
  · cases found

/-- The token that joins two links of a chain is no wall. -/
theorem chain {kind : NodeKind} (links : fence.Confines bounds rules walls link)
    (decides : fence.Decides bounds rules walls more)
    (lasts : fence.Confines bounds rules walls last) :
    fence.Confines bounds rules walls (.chain kind link more last) := by
  constructor
  intro stack view effects found state state' stands
  obtain ⟨reads, linked, found⟩ := Option.bind_eq_some_iff.mp found
  obtain ⟨ends, ended, found⟩ := Option.bind_eq_some_iff.mp found
  simp only at found
  split at found
  · rename_i checked
    obtain ⟨joins, kept⟩ := (Bool.and_eq_true _ _).mp checked
    cases found
    have each {effect : Effect} (member : effect ∈ reads) := by
      simpa only [Bool.and_eq_true, and_assoc] using List.all_eq_true.mp joins effect member
    have enough := stands.remaining
    refine chain_leads (links.follows linked) lasts.follows ended kept
      (fun effect member => (each member).1) ?_ _ _ stands.unseen rfl enough.1 enough.2
    intro effect member state state' stands
    obtain ⟨_, bounded, passes⟩ := each member
    refine ⟨decides.alike bounded stands, fun goesOn => ?_⟩
    obtain ⟨known, among, fits⟩ := View.Fits.views more goesOn stands.fits
    have steps : known.step? walls stack = some stack := by
      simpa using List.all_eq_true.mp passes known among
    exact ((stands.withView fits).led_step steps).weaken rfl rfl (fun _ => rfl)
      fun _ _ => TokenSet.contains_full _
  · cases found

end Confines

namespace Decides

variable {left right afterwards : Condition} {trial : Phrase}

theorem and (first : fence.Decides bounds rules walls left)
    (second : fence.Decides bounds rules walls right) :
    fence.Decides bounds rules walls (.and left right) := by
  constructor
  intro stack view state state' known stands
  obtain ⟨bounded, further⟩ := (Bool.and_eq_true _ _).mp known
  have same := first.alike bounded stands
  cases holds : left.holds rules fence.left state with
  | false => simp only [Condition.holds, same, holds, Bool.false_and]
  | true =>
      obtain ⟨seen, member, fits⟩ := View.Fits.views left holds stands.fits
      have rest := second.alike (List.all_eq_true.mp further seen member) (stands.withView fits)
      simp only [Condition.holds, same, rest]

theorem or (first : fence.Decides bounds rules walls left)
    (second : fence.Decides bounds rules walls right) :
    fence.Decides bounds rules walls (.or left right) := by
  constructor
  intro stack view state state' known stands
  obtain ⟨bounded, further⟩ := (Bool.and_eq_true _ _).mp known
  have same := first.alike bounded stands
  cases holds : left.holds rules fence.left state with
  | true => simp only [Condition.holds, same, holds, Bool.true_or]
  | false =>
      obtain ⟨seen, member, fits⟩ := View.Fits.views left holds stands.fits
      have rest := second.alike (List.all_eq_true.mp further seen member) (stands.withView fits)
      simp only [Condition.holds, same, rest]

theorem ahead (tries : fence.Confines bounds rules walls trial)
    (decides : fence.Decides bounds rules walls afterwards) :
    fence.Decides bounds rules walls (.ahead trial afterwards) := by
  constructor
  intro stack view state state' known stands
  obtain ⟨effects, tried, bounded⟩ := (Option.any_eq_true _ _).mp known
  simp only [Condition.holds, Context.trial_of_strict fence.strict,
    Context.trial_of_strict fence.strict']
  obtain ⟨_, _, failed, failed'⟩ | ⟨_, _, fitted, fitted', effect, member, led⟩ :=
    (tries.follows tried _ _ stands).cases
  · rw [failed, failed']
  · rw [fitted, fitted']
    exact decides.alike (List.all_eq_true.mp bounded effect member) (led.stands stands)

end Decides

end Phrases

end Fence

section Soundness

open Fence

variable {fence : Fence} {bounds : Rule → Bounds} {rules : Rule → Context → Step} {walls : Walls}

mutual

/-- A phrase whose effects are known reads the same before the same wall. -/
theorem Phrase.confine_follows (guards : fence.Guards bounds rules) :
    (phrase : Phrase) → fence.Confines bounds rules walls phrase
  | .nothing => ⟨fun found _ _ stands => by
      cases found
      exact stands.stays stands.toTwins rfl⟩
  | .absent => ⟨fun found _ _ stands => by
      cases found
      exact stands.stays (stands.toTwins.push rfl) rfl⟩
  | .absentFirst => .absentFirst
  | .dropAbsent => ⟨fun found state _ stands => by
      cases found
      exact stands.stays stands.toTwins.dropAbsent (State.position_dropAbsent state)⟩
  | .take => .take
  | .expect _ => ⟨expect_follows⟩
  | .noViable construct => ⟨fun _ _ _ _ => noViable_leads construct⟩
  | .require requirement => .require requirement
  | .call rule => .call guards rule
  | .seq first second => .seq (first.confine_follows guards) (second.confine_follows guards)
  | .choose condition yes no =>
      .choose (condition.holds_of_bounded guards) (yes.confine_follows guards)
        (no.confine_follows guards)
  | .frame lead body =>
      ⟨fun found => ((body.confine_follows guards).follows found).inFrame lead⟩
  | .close kind => ⟨fun found _ _ stands => by
      cases found
      exact stands.stays (stands.toTwins.close _ _ kind) rfl⟩
  | .many body => .many (body.confine_follows guards)
  | .whenAdvanced body next =>
      .whenAdvanced (body.confine_follows guards) (next.confine_follows guards)
  | .progress body => .progress (body.confine_follows guards)
  | .attempt trial accept yes no =>
      .attempt (trial.confine_follows guards) (accept.holds_of_bounded guards)
        (yes.confine_follows guards) (no.confine_follows guards)
  | .operators operand type =>
      .operators (operand.confine_follows guards) (type.confine_follows guards)
  | .prefixed link last => .prefixed (link.confine_follows guards) (last.confine_follows guards)
  | .chain _ link more last =>
      .chain (link.confine_follows guards) (more.holds_of_bounded guards)
        (last.confine_follows guards)

/-- A condition whose sight is bounded holds alike before the same wall. -/
theorem Condition.holds_of_bounded (guards : fence.Guards bounds rules) :
    (condition : Condition) → fence.Decides bounds rules walls condition
  | .next _ _ => ⟨fun known stands => by
      simp only [Condition.holds, stands.kindAt (stands.reaches known)]⟩
  | .shape shape => ⟨fun _ stands => stands.toTwins.shape shape⟩
  | .not condition =>
      ⟨fun known stands => congrArg (!·) ((condition.holds_of_bounded guards).alike known stands)⟩
  | .and left right => .and (left.holds_of_bounded guards) (right.holds_of_bounded guards)
  | .or left right => .or (left.holds_of_bounded guards) (right.holds_of_bounded guards)
  | .ahead trial afterwards =>
      .ahead (trial.confine_follows guards) (afterwards.holds_of_bounded guards)

end

end Soundness

/-! ## The rules of a grammar -/

/-- What is checked of a phrase: it keeps to some walls, leaves no bracket open, reads a token,
and its last token is of one of the kinds it should be of. -/
def Phrase.heeds (bounds : Rule → Bounds) (own : Bounds) (view : View) (phrase : Phrase) : Bool :=
  (phrase.confine bounds own.walls [] view).any (·.all fun effect =>
    effect.stack.isEmpty && effect.moved && effect.last.within own.last)

/-- Whether a rule heeds its own bounds. -/
def confinedRule (grammar : Rule → Phrase) (bounds : Rule → Bounds) (rule : Rule) : Bool :=
  (grammar rule).heeds bounds (bounds rule) []

theorem Phrase.heeds_follows {fence : Fence} {bounds : Rule → Bounds}
    {rules : Rule → Context → Step} (guards : fence.Guards bounds rules) {phrase : Phrase}
    {own : Bounds} {view : View} (checked : phrase.heeds bounds own view = true) :
    fence.Follows own.walls [] view [⟨[], [], true, own.last⟩] (phrase.run rules fence.left)
      (phrase.run rules fence.right) := by
  intro state state' stands
  obtain ⟨effects, found, all⟩ := (Option.any_eq_true _ _).mp checked
  refine ((phrase.confine_follows guards).follows found _ _ stands).mono ?_
  rintro after after' ⟨effect, member, led⟩
  have known := List.all_eq_true.mp all effect member
  simp only [Bool.and_eq_true, List.isEmpty_iff] at known
  obtain ⟨⟨closed, moved⟩, ends⟩ := known
  exact ⟨_, List.mem_singleton_self _, led.weaken closed.symm rfl (fun _ => moved)
    fun _ => TokenSet.contains_of_within ends⟩

/-! ## What stands between braces -/

/-- Whether a phrase keeps to some walls and leaves no bracket open. -/
def Phrase.keepsTo (bounds : Rule → Bounds) (walls : Walls) (view : View) (phrase : Phrase) :
    Bool :=
  (phrase.confine bounds walls [] view).any (Effect.allLeave [])

/-- A phrase that reads something between braces. -/
def Phrase.Braced (bounds : Rule → Bounds) (phrase : Phrase) : Prop :=
  ∃ kind body, body.keepsTo bounds .empty [] = true ∧ ∀ rules context, phrase.run rules context =
    (Phrase.node kind (.expect .lBrace ++ body ++ .expect .rBrace)).run rules context

theorem Phrase.Braced.of_eq {bounds : Rule → Bounds} {phrase body : Phrase} {kind : NodeKind}
    (same : phrase = .node kind (.expect .lBrace ++ body ++ .expect .rBrace))
    (kept : body.keepsTo bounds .empty [] = true) : phrase.Braced bounds :=
  ⟨kind, body, kept, fun _ _ => by rw [same]⟩

namespace Fence

variable {fence : Fence} {bounds : Rule → Bounds} {rules : Rule → Context → Step} {walls : Walls}

theorem Guards.keepsTo_follows (guards : fence.Guards bounds rules) {phrase : Phrase} {view : View}
    (kept : phrase.keepsTo bounds walls view = true) :
    fence.Follows walls [] view [⟨[], [], false, .full⟩] (phrase.run rules fence.left)
      (phrase.run rules fence.right) := by
  intro state state' stands
  obtain ⟨effects, found, all⟩ := (Option.any_eq_true _ _).mp kept
  refine ((phrase.confine_follows guards).follows found _ _ stands).mono ?_
  rintro after after' ⟨effect, member, led⟩
  exact ⟨_, List.mem_singleton_self _, led.weaken (stack_eq_of_allLeave all member).symm rfl
    (absurd · Bool.false_ne_true) fun _ _ => TokenSet.contains_full _⟩

/-- What gets past no closing bracket that it has not opened, stays between braces. -/
theorem Guards.braced_follows (guards : fence.Guards bounds rules) {phrase : Phrase}
    (braced : phrase.Braced bounds) (open' : walls.contains .lBrace = false) :
    fence.Follows walls [] [] [⟨[], [], true, .singleton .rBrace⟩] (phrase.run rules fence.left)
      (phrase.run rules fence.right) := by
  obtain ⟨kind, body, kept, same⟩ := braced
  rw [same, same]
  have passable : (walls.stops []).contains .lBrace = false := by
    rw [Walls.contains_stops_nil, open']
    decide
  have opens : (Phrase.expect .lBrace).confine bounds walls [] [] =
      some [⟨[.curly], [], true, .singleton .lBrace⟩] := by
    simp only [Phrase.confine, passable]
    rfl
  have closes : (Phrase.expect .rBrace).confine bounds walls [.curly] [] =
      some [⟨[], [], true, .singleton .rBrace⟩] := by
    have shut : (walls.stops [.curly]).contains .rBrace = false := by
      simp only [Walls.stops]
      decide
    simp only [Phrase.confine, shut]
    rfl
  have inside : fence.Follows walls [.curly] [] [⟨[.curly], [], false, .full⟩]
      (body.run rules fence.left) (body.run rules fence.right) :=
    (guards.keepsTo_follows kept).among (fun none => by cases none)
  have whole := ((expect_follows opens).andThen inside).andThen (expect_follows closes)
  refine Follows.inFrame (fun state state' stands => ?_) 0
  exact (whole _ _ stands).withSlots fun after after' twins => (twins.close _ _ kind).slots

end Fence

/-- What is checked of a rule: it heeds its own bounds, or reads something between braces
that are no walls. -/
def Fenced (grammar : Rule → Phrase) (bounds : Rule → Bounds) (rule : Rule) : Prop :=
  confinedRule grammar bounds rule = true ∨
    (grammar rule).Braced bounds ∧ (bounds rule).walls.contains .lBrace = false ∧
      (bounds rule).last = .singleton .rBrace

theorem readRule_guards {grammar : Rule → Phrase} {bounds : Rule → Bounds}
    (checked : ∀ rule, Fenced grammar bounds rule) (fence : Fence) (depth : Nat) :
    fence.Guards bounds (readRule grammar depth) := by
  induction depth with
  | zero => exact fun _ _ _ _ => trivial
  | succ depth ih =>
      intro rule
      rcases checked rule with confined | ⟨braced, open', last⟩
      · exact Phrase.heeds_follows ih confined
      · rw [last]
        exact ih.braced_follows braced open'

end JavaSyntax
