import JavaSyntax.Proofs.Outline.Basic

/-!
# What is known at the cursor

As long as no token is read, whatever was found out about the tokens ahead stays
true.  A view is that knowledge: the kinds that the tokens from the cursor on may
have.  A phrase that is read at a place turns one view into another, or into none
when it cannot end where it started.
-/

namespace JavaSyntax

/-- The kinds that the tokens from the cursor on may have.  Of those beyond the list
nothing is known. -/
abbrev View := List TokenSet

namespace View

/-- The tokens ahead of a state are as a view says. -/
def Fits (context : Context) (view : View) (state : State) : Prop :=
  ∀ (distance : Nat) (kinds : TokenSet), view[distance]? = some kinds →
    kinds.contains (state.kindAt context distance) = true

/-- A state fits the view that is left, so there is one. -/
def Possible (context : Context) (left : Option View) (state : State) : Prop :=
  ∃ view, left = some view ∧ view.Fits context state

variable {context : Context} {state after : State}

theorem fits_nil (context : Context) (state : State) : Fits context [] state := by
  intro distance kinds known
  cases known

theorem fits_singleton {kinds : TokenSet}
    (holds : kinds.contains (state.kindAt context 0) = true) : Fits context [kinds] state := by
  intro distance others known
  cases distance with
  | zero =>
      cases known
      exact holds
  | succ distance => cases known

/-- What is known at a place is known of every state there. -/
theorem Fits.atPosition {view : View} (fits : view.Fits context state)
    (same : after.position = state.position) : view.Fits context after := by
  intro distance kinds known
  have holds := fits distance kinds known
  rwa [State.kindAt, ← same] at holds

theorem Fits.possible {view : View} (fits : view.Fits context state) :
    Possible context (some view) state :=
  ⟨view, rfl, fits⟩

theorem Possible.atPosition {left : Option View} (fits : Possible context left state)
    (same : after.position = state.position) : Possible context left after := by
  obtain ⟨view, known, fits⟩ := fits
  exact ⟨view, known, fits.atPosition same⟩

/-- A trial is made of the same tokens. -/
theorem possible_trial {left : Option View} :
    Possible context.trial left state ↔ Possible context left state :=
  Iff.rfl

theorem not_possible_none : ¬Possible context none state := by
  rintro ⟨view, known, _⟩
  cases known

theorem Possible.bind {left : Option View} {next : View → Option View}
    (first : Possible context left state)
    (second : ∀ view : View, view.Fits context state → Possible context (next view) after) :
    Possible context (left.bind next) after := by
  obtain ⟨view, rfl, fits⟩ := first
  exact second view fits

/-- What is checked of the view that is left holds of one that the state fits. -/
theorem Possible.all {left : Option View} {check : View → Bool}
    (fits : Possible context left state) (checked : left.all check = true) :
    ∃ view : View, view.Fits context state ∧ check view = true := by
  obtain ⟨view, rfl, fits⟩ := fits
  exact ⟨view, fits, by simpa using checked⟩

/-- What is known when one of two views is. -/
def join : Option View → Option View → Option View
  | none, right => right
  | left, none => left
  | some left, some right => some (List.zipWith TokenSet.union left right)

theorem possible_join {left right : Option View}
    (fits : Possible context left state ∨ Possible context right state) :
    Possible context (join left right) state := by
  cases left with
  | none => exact fits.resolve_left not_possible_none
  | some first =>
      cases right with
      | none => exact fits.resolve_right not_possible_none
      | some second =>
          refine ⟨_, rfl, ?_⟩
          intro distance kinds found
          obtain ⟨one, two, isFirst, isSecond, rfl⟩ := List.getElem?_zipWith_eq_some.mp found
          rw [TokenSet.contains_union]
          rcases fits with ⟨_, same, fits⟩ | ⟨_, same, fits⟩
          · cases same
            rw [fits distance one isFirst, Bool.true_or]
          · cases same
            rw [fits distance two isSecond, Bool.or_true]

/-! Conditions are decided on outlines; a view is an outline without slots. -/

/-- The outline that says of the tokens ahead what a view says. -/
def outline (view : View) : Outline :=
  ⟨[], view, false⟩

/-- What some outlines say of the tokens ahead. -/
def ofOutlines (outlines : List Outline) : Option View :=
  outlines.foldr (fun outline known => join (some outline.ahead) known) none

theorem Fits.describes {view : View} (fits : view.Fits context state) :
    view.outline.Describes ⟨context, state.position, state.slots⟩ state where
  slots := ⟨[], .nil, rfl⟩
  ahead := fits
  start := Nat.le_refl _
  moved := (absurd · Bool.false_ne_true)

theorem possible_ofOutlines {base : Base} {outlines : List Outline}
    (fits : Outline.Any base outlines state) :
    Possible base.context (ofOutlines outlines) state := by
  obtain ⟨outline, member, fits⟩ := fits
  induction member with
  | head => exact possible_join (.inl ⟨outline.ahead, rfl, fits.ahead⟩)
  | tail _ _ ih => exact possible_join (.inr ih)

/-- The view when the current token is known to be of some kinds. -/
def narrow (view : View) (kinds : TokenSet) : Option View :=
  ofOutlines (view.outline.narrow 0 kinds)

theorem Fits.narrow {view : View} (fits : view.Fits context state) {kinds : TokenSet}
    (holds : kinds.contains (state.kindAt context 0) = true) :
    Possible context (view.narrow kinds) state :=
  possible_ofOutlines (fits.describes.narrow holds)

/-- The kinds that the current token may have. -/
def first (view : View) : TokenSet :=
  view.outline.kindsAt 0

theorem Fits.first {view : View} (fits : view.Fits context state) :
    view.first.contains (state.kindAt context 0) = true :=
  fits.describes.kindsAt 0

/-- A view in which the end mark cannot come next is no view of the end. -/
theorem Fits.not_atEnd {view : View} (fits : view.Fits context state)
    (more : view.first.contains .eof = false) : state.atEnd context = false := by
  cases ended : state.atEnd context with
  | false => rfl
  | true =>
      have isEnd : state.kindAt context 0 = .eof := by simpa [State.atEnd] using ended
      rw [← isEnd, fits.first] at more
      cases more

end View

/-- The view of a state in which a condition has been decided. -/
def Condition.glimpse (condition : Condition) (decided : Bool) (view : View) : Option View :=
  View.ofOutlines (condition.assume false decided view.outline)

theorem View.Fits.glimpse {rules : Rule → Context → Step} {context : Context} {state : State}
    {view : View} (fits : view.Fits context state) {condition : Condition} {decided : Bool}
    (holds : condition.holds rules context state = decided) :
    Possible context (condition.glimpse decided view) state :=
  possible_ofOutlines
    (condition.any_assume (absurd · Bool.false_ne_true) decided _ holds fits.describes)

end JavaSyntax
