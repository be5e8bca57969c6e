import JavaSyntax.Proofs.Tandem.Loops

/-!
# Frames in order

Two things can go wrong with a frame.  If it is closed while it holds nothing but
absent slots, the node has no place of its own.  If it is put away as an error, the
error must have been reported.  Both are checked on the phrases of a grammar, with
the views in which they are read; then its rules can be read in tandem.
-/

namespace JavaSyntax

namespace Phrase

/-- Whether a phrase leaves a frame without slots as it is, or fills it. -/
def keepsBare (reads : Rule → TokenSet) : Phrase → Bool
  | .nothing => true
  | .many body => (body.stirs reads []).isNone
  | _ => false

/-- Whether a phrase never closes a frame that is hollow.  With `bare`, the frame it starts
in has no slots at all. -/
def closesFilled (reads : Rule → TokenSet) : Phrase → Bool → View → Bool
  | .close _, _, _ => false
  | .seq first second, bare, view =>
      first.closesFilled reads bare view &&
        (first.stays reads true view).all
          (second.closesFilled reads (bare && first.keepsBare reads))
  | .choose (.shape .empty) yes no, bare, view =>
      yes.closesFilled reads bare view && (bare || no.closesFilled reads bare view)
  | .choose condition yes no, bare, view =>
      (condition.glimpse true view).all (yes.closesFilled reads bare) &&
        (condition.glimpse false view).all (no.closesFilled reads bare)
  | .many body, _, view => body.closesFilled reads false view
  | .whenAdvanced body _, bare, view => body.closesFilled reads bare view
  | .attempt trial accept yes no, bare, view =>
      trial.closesFilled reads bare view &&
        ((trial.stays reads true view).bind (accept.glimpse true)).all
          (yes.closesFilled reads false) &&
        no.closesFilled reads bare view
  | .nothing, _, _ | .absent, _, _ | .absentFirst, _, _ | .dropAbsent, _, _ | .take, _, _
  | .expect _, _, _ | .noViable _, _, _ | .require _, _, _ | .call _, _, _ | .frame _ _, _, _
  | .progress _, _, _ | .operators _ _, _, _ | .prefixed _ _, _, _ | .chain _ _ _ _, _, _ => true

theorem closesFilled_choose {reads : Rule → TokenSet} {condition : Condition} {yes no : Phrase}
    (other : condition ≠ .shape .empty) :
    (choose condition yes no).closesFilled reads = fun bare view =>
      (condition.glimpse true view).all (yes.closesFilled reads bare) &&
        (condition.glimpse false view).all (no.closesFilled reads bare) := by
  funext bare view
  rw [closesFilled]
  exact other

/-- Whether a phrase starts a frame with a token and leaves it there. -/
def opens (appends : Rule → Bool) : Phrase → View → Bool
  | .take, view => !view.first.contains .eof
  | .seq first second, view => first.opens appends view && second.appends appends
  | _, _ => false

/-- Whether one phrase may follow another though it could not stand anywhere: an error
is put away after it was reported, and handlers are required of a frame that starts with a
token. -/
def excuses (appends : Rule → Bool) (fresh : Bool) (view : View) : Phrase → Phrase → Bool
  | .noViable _, .close .error => true
  | first, .require .handler => fresh && first.opens appends view
  | _, _ => false

/-- What is known after a phrase of which is known that it reads nothing. -/
def onward : Phrase → View → View
  | .absent, view => view
  | _, _ => []

end Phrase

mutual

/-- Whether all frames of a phrase are in order.  With `fresh`, the frame it starts in has
no slots. -/
def Phrase.wellFramed (reads : Rule → TokenSet) (appends : Rule → Bool) :
    Phrase → Bool → View → Bool
  | .close kind, _, _ => kind != .error
  | .require requirement, _, _ => requirement != .handler
  | .seq first second, fresh, view =>
      first.wellFramed reads appends fresh view &&
        (second.wellFramed reads appends false (first.onward view) ||
          Phrase.excuses appends fresh view first second)
  | .choose condition yes no, fresh, view =>
      condition.wellFramed reads appends view &&
        (condition.glimpse true view).all (yes.wellFramed reads appends fresh) &&
        (condition.glimpse false view).all (no.wellFramed reads appends fresh)
  | .frame lead body, _, view =>
      body.closesFilled reads (lead == 0) view && body.wellFramed reads appends (lead == 0) view
  | .many body, _, _ => body.wellFramed reads appends false []
  | .progress body, _, view =>
      ((body.stays reads true view).bind (View.narrow · (TokenSet.singleton .eof).compl)).isNone &&
        body.closesFilled reads true view && body.wellFramed reads appends true view
  | .whenAdvanced body next, fresh, view =>
      body.wellFramed reads appends fresh view && next.wellFramed reads appends false []
  | .attempt trial accept yes no, fresh, view =>
      trial.wellFramed reads appends fresh view && accept.wellFramed reads appends [] &&
        (accept.glimpse true []).all (yes.wellFramed reads appends false) &&
        no.wellFramed reads appends fresh view
  | .operators operand type, _, _ =>
      operand.closesFilled reads true [] && operand.wellFramed reads appends false [] &&
        type.wellFramed reads appends false []
  | .prefixed link last, _, _ =>
      (link.stirs reads []).isNone && link.closesFilled reads true [] &&
        link.wellFramed reads appends false [] && last.closesFilled reads true [] &&
        last.wellFramed reads appends false []
  | .chain kind link more last, _, _ =>
      kind != .error && (link.stays reads true []).isNone && link.closesFilled reads true [] &&
        link.wellFramed reads appends false [] && more.wellFramed reads appends [] &&
        last.wellFramed reads appends false []
  | .nothing, _, _ | .absent, _, _ | .absentFirst, _, _ | .dropAbsent, _, _ | .take, _, _
  | .expect _, _, _ | .noViable _, _, _ | .call _, _, _ => true

/-- Whether all frames in the trials of a condition are in order. -/
def Condition.wellFramed (reads : Rule → TokenSet) (appends : Rule → Bool) :
    Condition → View → Bool
  | .next _ _, _ | .shape _, _ => true
  | .not condition, view => condition.wellFramed reads appends view
  | .and left right, view =>
      left.wellFramed reads appends view &&
        (left.glimpse true view).all (right.wellFramed reads appends)
  | .or left right, view =>
      left.wellFramed reads appends view &&
        (left.glimpse false view).all (right.wellFramed reads appends)
  | .ahead trial afterwards, view =>
      trial.closesFilled reads false view && trial.wellFramed reads appends false view &&
        afterwards.wellFramed reads appends []

end

/-- A state that is not hollow, or in which a check passes: for a view of the state, and
for a frame without slots only if this one has none. -/
def Guarded (context : Context) (check : Bool → View → Bool) (state : State) : Prop :=
  state.isHollow = true → ∃ (bare : Bool) (view : View), (bare = true → state.slots = []) ∧
    view.Fits context state ∧ check bare view = true

namespace Guarded

variable {context : Context} {check check' : Bool → View → Bool} {state after : State}

theorem ofFilled (filled : state.isHollow = false) : Guarded context check state := by
  intro hollow
  rw [filled] at hollow
  cases hollow

theorem ofBare {view : View} (none : state.slots = []) (fits : view.Fits context state)
    (checked : check true view = true) : Guarded context check state :=
  fun _ => ⟨true, view, fun _ => none, fits, checked⟩

theorem imp (guarded : Guarded context check state)
    (weaker : ∀ bare view, check bare view = true → check' bare view = true) :
    Guarded context check' state := by
  intro hollow
  obtain ⟨bare, view, none, fits, checked⟩ := guarded hollow
  exact ⟨bare, view, none, fits, weaker bare view checked⟩

/-- Two checks in one. -/
theorem both (guarded : Guarded context (fun bare view => check bare view && check' bare view)
    state) : Guarded context check state ∧ Guarded context check' state :=
  ⟨guarded.imp fun _ _ checked => (Bool.and_eq_true_iff.mp checked).1,
    guarded.imp fun _ _ checked => (Bool.and_eq_true_iff.mp checked).2⟩

theorem glimpse {rules : Rule → Context → Step} {condition : Condition} {decided : Bool}
    (guarded : Guarded context
      (fun bare view => (condition.glimpse decided view).all (check bare)) state)
    (holds : condition.holds rules context state = decided) : Guarded context check state := by
  intro hollow
  obtain ⟨bare, view, none, fits, checked⟩ := guarded hollow
  obtain ⟨view, fits, checked⟩ := (fits.glimpse holds).all checked
  exact ⟨bare, view, none, fits, checked⟩

/-- Where a frame without slots is told apart, that of the other choice has slots. -/
theorem yes {reads : Rule → TokenSet} {rules : Rule → Context → Step} {condition : Condition}
    {yes no : Phrase}
    (guarded : Guarded context ((Phrase.choose condition yes no).closesFilled reads) state)
    (holds : condition.holds rules context state = true) :
    Guarded context (yes.closesFilled reads) state := by
  by_cases empty : condition = .shape .empty
  · subst empty
    exact guarded.both.1
  · rw [Phrase.closesFilled_choose empty] at guarded
    exact guarded.both.1.glimpse holds

theorem no {reads : Rule → TokenSet} {rules : Rule → Context → Step} {condition : Condition}
    {yes no : Phrase}
    (guarded : Guarded context ((Phrase.choose condition yes no).closesFilled reads) state)
    (fails : condition.holds rules context state = false) :
    Guarded context (no.closesFilled reads) state := by
  by_cases empty : condition = .shape .empty
  · subst empty
    intro hollow
    obtain ⟨bare, view, none, fits, checked⟩ := guarded.both.2 hollow
    refine ⟨bare, view, none, fits, ?_⟩
    rw [Bool.or_eq_true] at checked
    refine checked.resolve_left ?_
    intro isBare
    simp [Condition.holds, Shape.holds, none isBare] at fails
  · rw [Phrase.closesFilled_choose empty] at guarded
    exact guarded.both.2.glimpse fails

end Guarded

section Steady

variable {reads : Rule → TokenSet} {rules : Rule → Context → Step} {context : Context}
  {before after : State} (steady : Steady reads rules)

include steady

theorem Steady.keepsBare_of_run {phrase : Phrase} (keeps : phrase.keepsBare reads = true)
    (none : before.slots = []) (read : phrase.run rules context before = .ok after)
    (hollow : after.isHollow = true) : after.slots = [] := by
  have still := State.position_of_hollow (steady.lossless phrase read) hollow
  cases phrase with
  | nothing =>
      cases read
      exact none
  | many body =>
      have once := State.iterate_still (steady.forward body) read still
      rcases steady.advances_or_declines keeps once with moved | ⟨_, rfl⟩
      · omega
      · exact none
  | _ => cases keeps

theorem Steady.filled_of_advance {phrase : Phrase}
    (read : phrase.run rules context before = .ok after)
    (moved : before.position < after.position) : after.isHollow = false := by
  rw [Bool.eq_false_iff]
  intro hollow
  have still := State.position_of_hollow (steady.lossless phrase read) hollow
  omega

theorem Steady.filled_of_run {phrase : Phrase} (read : phrase.run rules context before = .ok after)
    (filled : before.isHollow = false) : after.isHollow = false := by
  rw [Bool.eq_false_iff] at filled ⊢
  exact mt (steady.hollow_of_run phrase read) filled

/-- What is checked of a phrase in the view in which another stays and leaves the frame
hollow holds after that one. -/
theorem Guarded.next {phrase : Phrase} {check : Bool → View → Bool}
    (guarded : Guarded context (fun bare view =>
      (phrase.stays reads true view).all (check (bare && phrase.keepsBare reads))) before)
    (read : phrase.run rules context before = .ok after) : Guarded context check after := by
  intro hollow
  have still := State.position_of_hollow (steady.lossless phrase read) hollow
  obtain ⟨bare, view, none, fits, checked⟩ := guarded (steady.hollow_of_run phrase read hollow)
  obtain ⟨view, fits, checked⟩ :=
    (steady.stays_of_run true phrase read ⟨still, fun _ => hollow⟩ fits).all checked
  refine ⟨_, view, ?_, fits, checked⟩
  intro both
  rw [Bool.and_eq_true] at both
  exact steady.keepsBare_of_run both.2 (none both.1) read hollow

theorem Guarded.accepted {trial : Phrase} {accept : Condition} {check : Bool → View → Bool}
    (guarded : Guarded context (fun _ view =>
      ((trial.stays reads true view).bind (accept.glimpse true)).all (check false)) before)
    (read : trial.run rules context.trial before = .ok after)
    (holds : accept.holds rules context after = true) : Guarded context check after := by
  intro hollow
  have still := State.position_of_hollow (steady.lossless trial read) hollow
  obtain ⟨_, view, _, fits, checked⟩ := guarded (steady.hollow_of_run trial read hollow)
  have stays := View.possible_trial.mp
    (steady.stays_of_run true trial read ⟨still, fun _ => hollow⟩ fits)
  obtain ⟨view, fits, checked⟩ := (stays.bind fun view known => known.glimpse holds).all checked
  exact ⟨false, view, (absurd · Bool.false_ne_true), fits, checked⟩

end Steady

/-- A frame that a phrase opens starts with a token. -/
theorem Phrase.getLast?_of_opens {rules : Rule → Context → Step} {appends : Rule → Bool}
    (rulesAppend : ∀ rule context, appends rule = true → Appending (rules rule context)) :
    (phrase : Phrase) → ∀ {context : Context} {view : View} {before after : State},
      phrase.opens appends view = true → view.Fits context before → before.slots = [] →
      phrase.run rules context before = .ok after →
        ∃ first, after.slots.getLast? = some (.token first)
  | .take, context, view, before, after, opens, fits, bare, read => by
      have more := fits.not_atEnd (by simpa [Phrase.opens] using opens)
      cases read
      exact ⟨before.current context, by simp [State.take, more, State.takeAny, bare]⟩
  | .seq first second, context, view, before, after, opens, fits, bare, read => by
      simp only [Phrase.opens, Bool.and_eq_true] at opens
      obtain ⟨middle, started, ended⟩ := bind_eq_ok.mp read
      obtain ⟨token, last⟩ := getLast?_of_opens rulesAppend first opens.1 fits bare started
      obtain ⟨newer, slots⟩ := second.run_appending rulesAppend context opens.2 _ _ ended
      exact ⟨token, by rw [← slots, List.getLast?_append, last, Option.some_or]⟩
  | .nothing, _, _, _, _, opens, _, _, _ | .absent, _, _, _, _, opens, _, _, _
  | .absentFirst, _, _, _, _, opens, _, _, _ | .dropAbsent, _, _, _, _, opens, _, _, _
  | .expect _, _, _, _, _, opens, _, _, _ | .noViable _, _, _, _, _, opens, _, _, _
  | .require _, _, _, _, _, opens, _, _, _ | .call _, _, _, _, _, opens, _, _, _
  | .choose _ _ _, _, _, _, _, opens, _, _, _ | .frame _ _, _, _, _, _, opens, _, _, _
  | .close _, _, _, _, _, opens, _, _, _ | .many _, _, _, _, _, opens, _, _, _
  | .whenAdvanced _ _, _, _, _, _, opens, _, _, _ | .progress _, _, _, _, _, opens, _, _, _
  | .attempt _ _ _ _, _, _, _, _, opens, _, _, _ | .operators _ _, _, _, _, _, opens, _, _, _
  | .prefixed _ _, _, _, _, _, opens, _, _, _ | .chain _ _ _ _, _, _, _, _, opens, _, _, _ => by
      cases opens

/-- What is relied on of the rules that two readings call. -/
structure Coupled (reads : Rule → TokenSet) (appends : Rule → Bool)
    (rules : Rule → Context → Step) : Prop where
  steady : Steady reads rules
  appending : ∀ rule context, appends rule = true → Appending (rules rule context)
  paired : ∀ rule {left right : Context} {state state' : State}, left.Matches right →
    Tandem left right state state' →
      Paired left right state state' (rules rule left state) (rules rule right state')

/-- What may follow only after certain phrases is read in tandem there. -/
theorem Coupled.excused_paired {reads : Rule → TokenSet} {appends : Rule → Bool}
    {rules : Rule → Context → Step} (coupled : Coupled reads appends rules) {fresh : Bool}
    {view : View} {first second : Phrase}
    (excused : Phrase.excuses appends fresh view first second = true) {left right : Context}
    (alike : left.Matches right) {state after after' : State}
    (next : Tandem left right after after') (isFresh : fresh = true → state.slots = [])
    (fits : view.Fits left state) (sound : Sound left state)
    (read : first.run rules left state = .ok after) :
    Paired left right after after'
      (second.run rules left after) (second.run rules right after') := by
  unfold Phrase.excuses at excused
  split at excused
  · have reports := (State.noViable_course sound alike.ordered read).2
    exact .ok (next.close .error) (.close_error next.sound reports)
      (.close_error next.sound' (next.reportsDamage.trans reports))
  · rw [Bool.and_eq_true] at excused
    exact State.require_paired next alike fun _ =>
      first.getLast?_of_opens coupled.appending excused.2 fits (isFresh excused.1) read
  · cases excused

section Phrases

variable {reads : Rule → TokenSet} {appends : Rule → Bool} {rules : Rule → Context → Step}
  {fresh : Bool} {view : View}

/-- Two readings in tandem read the phrase in tandem, wherever the view fits.  With `fresh`,
the frame they start in has no slots. -/
def Phrase.InTandem (reads : Rule → TokenSet) (rules : Rule → Context → Step) (phrase : Phrase)
    (fresh : Bool) (view : View) : Prop :=
  ∀ ⦃left right : Context⦄, left.Matches right → ∀ ⦃state state' : State⦄,
    Tandem left right state state' → (fresh = true → state.slots = []) → view.Fits left state →
    Guarded left (phrase.closesFilled reads) state →
      Paired left right state state' (phrase.run rules left state) (phrase.run rules right state')

/-- Two readings in tandem decide the condition alike, wherever the view fits. -/
def Condition.InTandem (rules : Rule → Context → Step) (condition : Condition) (view : View) :
    Prop :=
  ∀ ⦃left right : Context⦄, left.Matches right → ∀ ⦃state state' : State⦄,
    Tandem left right state state' → view.Fits left state →
      condition.holds rules right state' = condition.holds rules left state

namespace Phrase.InTandem

variable {phrase first second body next yes no trial operand type link last : Phrase}
  {condition accept more : Condition} {left right : Context} {state state' : State}

theorem onFilled (inTandem : phrase.InTandem reads rules false []) (alike : left.Matches right)
    (tandem : Tandem left right state state') (filled : state.isHollow = false) :
    Paired left right state state' (phrase.run rules left state) (phrase.run rules right state') :=
  inTandem alike tandem (absurd · Bool.false_ne_true) (View.fits_nil _ _) (.ofFilled filled)

theorem onBare (inTandem : phrase.InTandem reads rules false [])
    (closes : phrase.closesFilled reads true [] = true) (alike : left.Matches right)
    (tandem : Tandem left right state state') (bare : state.slots = []) :
    Paired left right state state' (phrase.run rules left state) (phrase.run rules right state') :=
  inTandem alike tandem (absurd · Bool.false_ne_true) (View.fits_nil _ _)
    (.ofBare bare (View.fits_nil _ _) closes)

theorem close {kind : NodeKind} (noError : kind ≠ .error) :
    (Phrase.close kind).InTandem reads rules fresh view := by
  intro left right alike state state' tandem _ _ guarded
  have filled : state.isHollow = false := by
    rw [Bool.eq_false_iff]
    intro hollow
    obtain ⟨bare, view, _, _, checked⟩ := guarded hollow
    cases checked
  exact .ok (tandem.close kind) (.close tandem.sound alike.ordered filled noError)
    (.close tandem.sound' alike.ordered' (tandem.isHollow.trans filled) noError)

/-- The second phrase may start anywhere, or the first one excuses it. -/
theorem seq (coupled : Coupled reads appends rules)
    (started : first.InTandem reads rules fresh view)
    (follows : second.InTandem reads rules false (first.onward view) ∨
      excuses appends fresh view first second = true) :
    (Phrase.seq first second).InTandem reads rules fresh view := by
  intro left right alike state state' tandem isFresh fits guarded
  simp only [closesFilled] at guarded
  obtain ⟨now, later⟩ := guarded.both
  refine (started alike tandem isFresh fits now).bind ?_
  intro after after' read read' next
  rcases follows with follows | excused
  · refine follows alike next (absurd · Bool.false_ne_true) ?_ (later.next coupled.steady read)
    cases first with
    | absent =>
        cases read
        exact fits
    | _ => exact View.fits_nil _ _
  · exact coupled.excused_paired excused alike next isFresh fits tandem.sound read

/-- Each choice is read with what its side of the condition tells of the view. -/
theorem choose {taken refused : View → Bool} (decides : condition.InTandem rules view)
    (yesPaired : ∀ {view}, taken view = true → yes.InTandem reads rules fresh view)
    (noPaired : ∀ {view}, refused view = true → no.InTandem reads rules fresh view)
    (takes : (condition.glimpse true view).all taken = true)
    (refuses : (condition.glimpse false view).all refused = true) :
    (Phrase.choose condition yes no).InTandem reads rules fresh view := by
  intro left right alike state state' tandem isFresh fits guarded
  simp only [Phrase.run, decides alike tandem fits]
  split
  · rename_i holds
    obtain ⟨view, known, framed⟩ := (fits.glimpse holds).all takes
    exact yesPaired framed alike tandem isFresh known (guarded.yes holds)
  · rename_i fails
    have fails := Bool.eq_false_iff.mpr fails
    obtain ⟨view, known, framed⟩ := (fits.glimpse fails).all refuses
    exact noPaired framed alike tandem isFresh known (guarded.no fails)

theorem frame {lead : Nat} (inner : body.InTandem reads rules (lead == 0) view)
    (closes : body.closesFilled reads (lead == 0) view = true) :
    (Phrase.frame lead body).InTandem reads rules fresh view := by
  intro left right alike state state' tandem _ fits _
  have bare : (lead == 0) = true → state.slots.take lead = [] := by
    intro zero
    rw [beq_iff_eq.mp zero, List.take_zero]
  exact State.inFrame_paired tandem (inner alike (tandem.withLast lead) bare (fits.atPosition rfl)
    fun _ => ⟨lead == 0, view, bare, fits.atPosition rfl, closes⟩)

/-- A round that goes on has read something, so the frame of the next one is not hollow. -/
theorem many (coupled : Coupled reads appends rules) (once : body.InTandem reads rules false []) :
    (Phrase.many body).InTandem reads rules fresh view := by
  intro left right alike state state' tandem _ _ guarded
  simp only [Phrase.run, tandem.remaining alike]
  refine State.iterate_paired (Guarded left (body.closesFilled reads)) ?_ ?_ _ _ _ tandem ?_
  · intro state state' tandem guarded
    exact once alike tandem (absurd · Bool.false_ne_true) (View.fits_nil _ _) guarded
  · intro state after read moved
    exact .ofFilled (coupled.steady.filled_of_advance read moved)
  · intro hollow
    obtain ⟨bare, view, _, fits, checked⟩ := guarded hollow
    exact ⟨false, view, (absurd · Bool.false_ne_true), fits, checked⟩

theorem whenAdvanced (coupled : Coupled reads appends rules)
    (started : body.InTandem reads rules fresh view)
    (followed : next.InTandem reads rules false []) :
    (Phrase.whenAdvanced body next).InTandem reads rules fresh view := by
  intro left right alike state state' tandem isFresh fits guarded
  refine (started alike tandem isFresh fits guarded).bind ?_
  intro after after' read _ reached
  rw [reached.position, tandem.position]
  split
  · rename_i moved
    exact followed.onFilled alike reached (coupled.steady.filled_of_advance read moved)
  · exact .refl reached

/-- Where nothing was read before the end of the file, the frame is not hollow, so that what
is put away there was reported. -/
theorem progress (coupled : Coupled reads appends rules)
    (stuck : (body.stays reads true view).bind (View.narrow · (TokenSet.singleton .eof).compl) =
      none)
    (closes : body.closesFilled reads true view = true)
    (inner : body.InTandem reads rules true view) :
    (Phrase.progress body).InTandem reads rules fresh view := by
  intro left right alike state state' tandem _ fits _
  have here : view.Fits left { state with slots := [] } := fits.atPosition rfl
  have paired := inner alike tandem.bare (fun _ => rfl) here (.ofBare rfl here closes)
  refine State.progress_paired tandem alike paired ?_
  intro result read still more
  have course := paired.course read
  refine course.sound.reports_of_still course.kept still ?_
  rw [Bool.eq_false_iff]
  intro hollow
  have stays := coupled.steady.stays_of_run true body read ⟨still, fun _ => hollow⟩ here
  have further : result.kindAt left 0 ≠ .eof := State.current_kind_ne more
  have possible := stays.bind fun view known => known.narrow
    (show (TokenSet.singleton .eof).compl.contains (result.kindAt left 0) = true by
      simp [further.symm])
  rw [stuck] at possible
  exact View.not_possible_none possible

theorem attempt (coupled : Coupled reads appends rules) {taken : View → Bool}
    (tried : trial.InTandem reads rules fresh view) (decides : accept.InTandem rules [])
    (yesPaired : ∀ {view}, taken view = true → yes.InTandem reads rules false view)
    (takes : (accept.glimpse true []).all taken = true)
    (noPaired : no.InTandem reads rules fresh view) :
    (Phrase.attempt trial accept yes no).InTandem reads rules fresh view := by
  intro left right alike state state' tandem isFresh fits guarded
  simp only [closesFilled] at guarded
  obtain ⟨guarded, otherwise⟩ := guarded.both
  obtain ⟨now, later⟩ := guarded.both
  have tried := tried alike.trial tandem.trial isFresh fits now
  have skipped := noPaired alike tandem isFresh fits otherwise
  simp only [Phrase.run]
  rcases tried.cases with ⟨after, after', read, read', _⟩ | ⟨_, _, failed, failed', _⟩
  · rw [read, read'] at tried
    have kept := tried.ofTrial
    have next : Tandem left right after after' :=
      ⟨kept.alike, (kept.course rfl).sound, (kept.course' rfl).sound⟩
    simp only [read, read', decides alike next (View.fits_nil _ _)]
    split
    · rename_i accepted
      obtain ⟨view, known, framed⟩ := ((View.fits_nil left after).glimpse accepted).all takes
      have passed := later.accepted coupled.steady read accepted
      exact (yesPaired framed alike next (absurd · Bool.false_ne_true) known passed).after
        (kept.course rfl) (kept.course' rfl)
    · exact skipped
  · simpa only [failed, failed'] using skipped

theorem operators (operandPaired : operand.InTandem reads rules false [])
    (closes : operand.closesFilled reads true [] = true)
    (typePaired : type.InTandem reads rules false []) :
    (Phrase.operators operand type).InTandem reads rules fresh view := by
  intro left right alike state state' tandem _ _ _
  refine State.operators_paired alike ?_ ?_ tandem
  · intro state state' tandem bare
    exact operandPaired.onBare closes alike tandem bare
  · intro state state' tandem filled
    exact typePaired.onFilled alike tandem filled

theorem prefixed (coupled : Coupled reads appends rules) (moves : link.stirs reads [] = none)
    (linkCloses : link.closesFilled reads true [] = true)
    (linkPaired : link.InTandem reads rules false [])
    (lastCloses : last.closesFilled reads true [] = true)
    (lastPaired : last.InTandem reads rules false []) :
    (Phrase.prefixed link last).InTandem reads rules fresh view := by
  intro left right alike state state' tandem _ _ _
  have keeps (state after : State) (read : last.run rules left state = .ok after)
      (filled : state.isHollow = false) : after.isHollow = false :=
    coupled.steady.filled_of_run read filled
  have ends (state state' : State) (tandem : Tandem left right state state')
      (start : state.slots = [] ∨ state.isHollow = false) :
      Paired left right state state' (last.run rules left state) (last.run rules right state') := by
    rcases start with bare | filled
    · exact lastPaired.onBare lastCloses alike tandem bare
    · exact lastPaired.onFilled alike tandem filled
  have links (state state' : State) (tandem : Tandem left right state state')
      (bare : state.slots = []) : Paired left right state state' (link.run rules left state)
        (link.run rules right state') :=
    linkPaired.onBare linkCloses alike tandem bare
  have still (state after : State) (read : link.run rules left state = .ok after)
      (stuck : ¬state.position < after.position) : after = state :=
    ((coupled.steady.advances_or_declines (by rw [moves]; rfl) read).resolve_left stuck).2
  simp only [Phrase.run, tandem.remaining alike]
  exact State.prefixed_paired alike ends keeps links still _ .nil state state' tandem.slots tandem

theorem chain (coupled : Coupled reads appends rules) {kind : NodeKind} (noError : kind ≠ .error)
    (fills : link.stays reads true [] = none)
    (linkCloses : link.closesFilled reads true [] = true)
    (linkPaired : link.InTandem reads rules false []) (decides : more.InTandem rules [])
    (lastPaired : last.InTandem reads rules false []) :
    (Phrase.chain kind link more last).InTandem reads rules fresh view := by
  intro left right alike state state' tandem _ _ _
  have keeps (state after : State) (read : last.run rules left state = .ok after)
      (filled : state.isHollow = false) : after.isHollow = false :=
    coupled.steady.filled_of_run read filled
  have links (state state' : State) (tandem : Tandem left right state state')
      (bare : state.slots = []) : Paired left right state state' (link.run rules left state)
        (link.run rules right state') :=
    linkPaired.onBare linkCloses alike tandem bare
  have filled (state after : State) (read : link.run rules left state = .ok after) :
      after.isHollow = false :=
    coupled.steady.fills_of_stays fills (View.fits_nil _ _) read
  have decided (state state' : State) (tandem : Tandem left right state state') :
      more.holds rules right state' = more.holds rules left state :=
    decides alike tandem (View.fits_nil _ _)
  have ends (state state' : State) (tandem : Tandem left right state state')
      (filled : state.isHollow = false) : Paired left right state state'
        (last.run rules left state) (last.run rules right state') :=
    lastPaired.onFilled alike tandem filled
  simp only [Phrase.run, tandem.remaining alike]
  exact State.chain_paired alike noError links filled decided ends keeps _ .nil state state'
    tandem.slots tandem

end Phrase.InTandem

namespace Condition.InTandem

variable {first second afterwards : Condition} {trial : Phrase}

theorem and {known : View → Bool} (decides : first.InTandem rules view)
    (follows : ∀ {view}, known view = true → second.InTandem rules view)
    (checked : (first.glimpse true view).all known = true) :
    (Condition.and first second).InTandem rules view := by
  intro left right alike state state' tandem fits
  simp only [Condition.holds, decides alike tandem fits]
  cases holds : first.holds rules _ _ with
  | false => rfl
  | true =>
      obtain ⟨view, fits, framed⟩ := (fits.glimpse holds).all checked
      rw [follows framed alike tandem fits]

theorem or {known : View → Bool} (decides : first.InTandem rules view)
    (follows : ∀ {view}, known view = true → second.InTandem rules view)
    (checked : (first.glimpse false view).all known = true) :
    (Condition.or first second).InTandem rules view := by
  intro left right alike state state' tandem fits
  simp only [Condition.holds, decides alike tandem fits]
  cases holds : first.holds rules _ _ with
  | true => rfl
  | false =>
      obtain ⟨view, fits, framed⟩ := (fits.glimpse holds).all checked
      rw [follows framed alike tandem fits]

theorem ahead (closes : trial.closesFilled reads false view = true)
    (tried : trial.InTandem reads rules false view) (decides : afterwards.InTandem rules []) :
    (Condition.ahead trial afterwards).InTandem rules view := by
  intro left right alike state state' tandem fits
  have tried := tried alike.trial tandem.trial (absurd · Bool.false_ne_true) fits
    fun _ => ⟨false, view, (absurd · Bool.false_ne_true), fits, closes⟩
  simp only [Condition.holds]
  rcases tried.cases with ⟨after, after', read, read', next⟩ | ⟨_, _, failed, failed', _⟩
  · simp only [read, read']
    exact decides alike.trial next (View.fits_nil _ _)
  · simp only [failed, failed']

end Condition.InTandem

mutual

/-- A phrase in order is read in tandem. -/
theorem Phrase.run_paired (coupled : Coupled reads appends rules) :
    (phrase : Phrase) → ∀ {fresh : Bool} {view : View},
      phrase.wellFramed reads appends fresh view = true → phrase.InTandem reads rules fresh view
  | .nothing, _, _, _ => fun _ _ _ _ _ tandem _ _ _ => .refl tandem
  | .absent, _, _, _ => fun _ _ _ _ _ tandem _ _ _ =>
      .ok (tandem.push rfl) (.absent tandem.sound) (.absent tandem.sound')
  | .absentFirst, _, _, _ => fun _ _ _ _ _ tandem _ _ _ =>
      .ok (tandem.withSlots (by rw [List.map_append, List.map_append, tandem.slots]))
        (.absentFirst tandem.sound) (.absentFirst tandem.sound')
  | .dropAbsent, _, _, _ => fun _ _ _ _ _ tandem _ _ _ =>
      .ok tandem.dropAbsent (.dropAbsent tandem.sound) (.dropAbsent tandem.sound')
  | .take, _, _, _ => fun _ _ alike _ _ tandem _ _ _ =>
      .ok (tandem.take alike) (.take tandem.sound alike.ordered)
        (.take tandem.sound' alike.ordered')
  | .expect kind, _, _, _ => fun _ _ alike _ _ tandem _ _ _ =>
      State.expect_paired tandem alike kind
  | .noViable construct, _, _, _ => fun _ _ alike _ _ tandem _ _ _ =>
      State.noViable_paired tandem alike construct
  | .require requirement, _, _, framed => by
      simp only [Phrase.wellFramed, bne_iff_ne] at framed
      exact fun _ _ alike _ _ tandem _ _ _ => State.require_paired tandem alike (absurd · framed)
  | .call rule, _, _, _ => fun _ _ alike _ _ tandem _ _ _ => coupled.paired rule alike tandem
  | .close kind, _, _, framed => by
      simp only [Phrase.wellFramed, bne_iff_ne] at framed
      exact .close framed
  | .seq first second, _, _, framed => by
      simp only [Phrase.wellFramed, Bool.and_eq_true, Bool.or_eq_true] at framed
      exact .seq coupled (first.run_paired coupled framed.1)
        (framed.2.imp_left (second.run_paired coupled))
  | .choose condition yes no, _, _, framed => by
      simp only [Phrase.wellFramed, Bool.and_eq_true] at framed
      exact .choose (condition.holds_paired coupled framed.1.1) (yes.run_paired coupled)
        (no.run_paired coupled) framed.1.2 framed.2
  | .frame lead body, _, _, framed => by
      simp only [Phrase.wellFramed, Bool.and_eq_true] at framed
      exact .frame (body.run_paired coupled framed.2) framed.1
  | .many body, _, _, framed => by
      simp only [Phrase.wellFramed] at framed
      exact .many coupled (body.run_paired coupled framed)
  | .whenAdvanced body next, _, _, framed => by
      simp only [Phrase.wellFramed, Bool.and_eq_true] at framed
      exact .whenAdvanced coupled (body.run_paired coupled framed.1)
        (next.run_paired coupled framed.2)
  | .progress body, _, _, framed => by
      simp only [Phrase.wellFramed, Bool.and_eq_true, Option.isNone_iff_eq_none] at framed
      exact .progress coupled framed.1.1 framed.1.2 (body.run_paired coupled framed.2)
  | .attempt trial accept yes no, _, _, framed => by
      simp only [Phrase.wellFramed, Bool.and_eq_true] at framed
      exact .attempt coupled (trial.run_paired coupled framed.1.1.1)
        (accept.holds_paired coupled framed.1.1.2) (yes.run_paired coupled) framed.1.2
        (no.run_paired coupled framed.2)
  | .operators operand type, _, _, framed => by
      simp only [Phrase.wellFramed, Bool.and_eq_true] at framed
      exact .operators (operand.run_paired coupled framed.1.2) framed.1.1
        (type.run_paired coupled framed.2)
  | .prefixed link last, _, _, framed => by
      simp only [Phrase.wellFramed, Bool.and_eq_true, Option.isNone_iff_eq_none] at framed
      obtain ⟨⟨⟨⟨moves, linkCloses⟩, linkFramed⟩, lastCloses⟩, lastFramed⟩ := framed
      exact .prefixed coupled moves linkCloses (link.run_paired coupled linkFramed) lastCloses
        (last.run_paired coupled lastFramed)
  | .chain kind link more last, _, _, framed => by
      simp only [Phrase.wellFramed, Bool.and_eq_true, bne_iff_ne, Option.isNone_iff_eq_none]
        at framed
      obtain ⟨⟨⟨⟨⟨noError, fills⟩, linkCloses⟩, linkFramed⟩, moreFramed⟩, lastFramed⟩ := framed
      exact .chain coupled noError fills linkCloses (link.run_paired coupled linkFramed)
        (more.holds_paired coupled moreFramed) (last.run_paired coupled lastFramed)

/-- A condition in order is decided alike in both readings. -/
theorem Condition.holds_paired (coupled : Coupled reads appends rules) :
    (condition : Condition) → ∀ {view : View},
      condition.wellFramed reads appends view = true → condition.InTandem rules view
  | .next distance kinds, _, _ => by
      intro left right alike state state' tandem _
      simp only [Condition.holds, tandem.kindAt alike]
  | .shape shape, _, _ => fun _ _ _ _ _ tandem _ => tandem.shape shape
  | .not condition, _, framed => by
      intro left right alike state state' tandem fits
      simp only [Condition.holds, condition.holds_paired coupled framed alike tandem fits]
  | .and first second, _, framed => by
      simp only [Condition.wellFramed, Bool.and_eq_true] at framed
      exact .and (first.holds_paired coupled framed.1) (second.holds_paired coupled) framed.2
  | .or first second, _, framed => by
      simp only [Condition.wellFramed, Bool.and_eq_true] at framed
      exact .or (first.holds_paired coupled framed.1) (second.holds_paired coupled) framed.2
  | .ahead trial afterwards, _, framed => by
      simp only [Condition.wellFramed, Bool.and_eq_true] at framed
      exact .ahead framed.1.1 (trial.run_paired coupled framed.1.2)
        (afterwards.holds_paired coupled framed.2)

end

end Phrases

end JavaSyntax
