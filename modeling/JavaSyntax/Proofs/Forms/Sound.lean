import JavaSyntax.Proofs.Forms.Table
import JavaSyntax.Proofs.Outline.Operators

/-!
# Building nodes of their forms

The discipline that admits a node only if all that is known of its slots keeps to one of
the forms of its kind, and what it vouches for: every node that is built has one of the
forms of its kind.
-/

namespace JavaSyntax

/-- A node has one of the forms of its kind. -/
def Node.WellFormed (node : Node) : Prop :=
  ∃ form ∈ node.kind.forms, Fits form node.children

namespace Part

/-- Whether some parts begin with parts of a run of slots, and go on with others that
`rest` accepts. -/
def absorbs (slot : Slot) (rest : List Part → Bool) : List Part → Bool
  | [] => rest []
  | part :: parts => rest (part :: parts) || (part.slot.within slot && absorbs slot rest parts)

/-- Whether slots of some parts keep to a form. -/
def covers : List Part → List Part → Bool
  | [], parts => parts.isEmpty
  | .one slot :: form, .one found :: parts => found.within slot && covers form parts
  | .one _ :: _, _ => false
  | .run slot :: form, parts => absorbs slot (covers form) parts

end Part

namespace Fits

theorem of_absorbs {slot : Slot} {rest : List Part → Bool} {form parts : List Part}
    {elements : List Element}
    (loosens : ∀ parts elements, rest parts = true → Fits parts elements → Fits form elements)
    (absorbed : Part.absorbs slot rest parts = true) (fits : Fits parts elements) :
    Fits (.run slot :: form) elements := by
  induction parts generalizing elements with
  | nil => exact .done (loosens [] elements absorbed fits)
  | cons part parts ih =>
      rcases (Bool.or_eq_true _ _).mp absorbed with ends | goes
      · exact .done (loosens _ elements ends fits)
      · obtain ⟨inside, others⟩ := (Bool.and_eq_true _ _).mp goes
        cases part with
        | one found =>
            obtain ⟨element, lower, rfl, admitted, rest⟩ := fits.of_cons_one
            exact .more (Slot.admits_of_within inside admitted) (ih others rest)
        | run found =>
            exact fits.run_absorb (fun _ => Slot.admits_of_within inside) (fun _ => ih others)

theorem of_covers {form parts : List Part} {elements : List Element}
    (covered : Part.covers form parts = true) (fits : Fits parts elements) :
    Fits form elements := by
  induction form generalizing parts elements with
  | nil =>
      obtain rfl := List.isEmpty_iff.mp covered
      exact fits
  | cons expected form ih =>
      cases expected with
      | run slot => exact of_absorbs (fun _ _ => ih) covered fits
      | one slot =>
          cases parts with
          | nil => cases covered
          | cons part parts =>
              cases part with
              | run found => cases covered
              | one found =>
                  obtain ⟨inside, others⟩ := (Bool.and_eq_true _ _).mp covered
                  obtain ⟨element, lower, rfl, admitted, rest⟩ := fits.of_cons_one
                  exact .one (Slot.admits_of_within inside admitted) (ih others rest)

end Fits

open NodeKind in
/-- What the rules read, and the forms that are demanded of nodes. -/
def formDiscipline : Discipline where
  signature
    | .typeRest => ⟨[⟨.empty, .ofList [.annotations], true⟩], .ofNodes types⟩
    | .typeArguments _ => ⟨[], .ofNodes [.typeArguments]⟩
    | .expression => ⟨[], .ofNodes expressions⟩
    | .conditional => ⟨[], .ofNodes conditionals⟩
    | .lambda => ⟨[], .ofNodes [.lambdaExpression]⟩
    | .elementValue => ⟨[], .ofNodes elementValues⟩
    | .block => ⟨[], .ofNodes [.block]⟩
    | .statement => ⟨[], .ofNodes statements⟩
    | .switchBlock => ⟨[], .ofNodes [.switchBlock]⟩
    | .memberBody body => ⟨[], .ofNodes [body.nodeKind]⟩
    | .constructorBody => ⟨[], .ofNodes [.constructorBody]⟩
    | .enumBody => ⟨[], .ofNodes [.enumBody]⟩
    | .arrayInitializer => ⟨[], .ofNodes [.arrayInitializer]⟩
  admits kind parts := kind.forms.any (Part.covers · parts.reverse)
  operators slot tests :=
    if slot.within (.ofNodes unaries) && tests.all
        (Outline.withinParts ·.parts [Part.type, Part.token .kwInstanceof]) then
      some (.ofNodes binaries)
    else none

theorem wellFormed_of_admits {kind : NodeKind} {parts : List Part} {slots : List Element}
    (span : Span) (admitted : formDiscipline.admits kind parts = true) (fits : Fits parts slots) :
    Node.WellFormed ⟨kind, span, slots.reverse⟩ := by
  obtain ⟨form, listed, covered⟩ := List.any_eq_true.mp admitted
  exact ⟨form, listed, .of_covers covered fits.reverse⟩

section Operators

variable {context : Context}

/-- Tokens of one kind at the cursor, which are no end marks, are read as they stand. -/
theorem fits_takeMany {kind : TokenKind} {width : Nat} {state : State}
    (ahead : ∀ distance < width, state.kindAt context distance = kind) (unended : kind ≠ .eof) :
    ∃ tokens, (state.takeMany context width).slots = tokens.reverse ++ state.slots ∧
      Fits (List.replicate width (Part.token kind)) tokens := by
  induction width generalizing state with
  | zero => exact ⟨[], rfl, .nil⟩
  | succ width ih =>
      have first : (state.current context).kind = kind := ahead 0 (Nat.zero_lt_succ width)
      have more : state.atEnd context = false := by
        rw [State.atEnd, ahead 0 (Nat.zero_lt_succ width)]
        exact beq_eq_false_iff_ne.mpr unended
      have next := State.position_takeAny more
      have later : ∀ distance < width, (state.takeAny context).kindAt context distance = kind := by
        intro distance within
        have same := ahead (distance + 1) (Nat.succ_lt_succ within)
        simpa [State.kindAt, next, Nat.add_assoc, Nat.add_comm 1] using same
      obtain ⟨tokens, slots, fits⟩ := ih later
      refine ⟨.token (state.current context) :: tokens, ?_, .one ?_ fits⟩
      · rw [State.takeMany, State.take, more, if_neg Bool.false_ne_true, slots]
        simp [State.takeAny]
      · simp [Slot.admits, Slot.ofTokens, first]

theorem fits_operatorTokens_of_ahead (kind : TokenKind) {width : Nat} (state : State)
    (ahead : ∀ distance < width, state.kindAt context distance = kind) (unended : kind ≠ .eof) :
    Fits (List.replicate width (Part.token kind)) (state.operatorTokens context width) := by
  have opened : ∀ distance < width,
      State.kindAt context { state with slots := [] } distance = kind := ahead
  obtain ⟨tokens, slots, fits⟩ := fits_takeMany opened unended
  simpa [State.operatorTokens, State.gathered, slots] using fits

/-- An operator that is one token stands between its operands. -/
theorem form_of_ofKind? {kind : TokenKind} {level : Level} (known : Level.ofKind? kind = some level)
    (other : kind ≠ .kwInstanceof) :
    ∃ kinds, (Slot.ofTokens (.singleton kind)).within (.ofTokens kinds) = true ∧
      [Part.operand, Part.tokenOf kinds, Part.operand] ∈ level.nodeKind.forms := by
  unfold Level.ofKind? at known
  split at known
  case h_12 => exact absurd rfl other
  case h_18 => cases known
  all_goals
    cases known
    refine ⟨_, ?_, List.mem_singleton_self _⟩
    decide

theorem ahead_of_doubled {state : State} {kind : TokenKind} {start : Nat}
    (doubled : state.doubled context kind start = true)
    (before : ∀ distance < start, state.kindAt context distance = kind) :
    ∀ distance < start + 2, state.kindAt context distance = kind := by
  simp only [State.doubled, Bool.and_eq_true, beq_iff_eq] at doubled
  intro distance within
  obtain earlier | rfl | rfl : distance < start ∨ distance = start ∨ distance = start + 1 := by
    omega
  · exact before distance earlier
  · exact doubled.1.1
  · exact doubled.1.2

/-- The tokens of an operator are those of a form of its node. -/
theorem fits_operatorTokens {state : State} {level : Level} {width : Nat}
    (found : state.operator? context = some (level, width))
    (other : state.kindAt context 0 ≠ .kwInstanceof) :
    ∃ operator : List Part, Fits operator (state.operatorTokens context width) ∧
      [Part.operand] ++ operator ++ [Part.operand] ∈ level.nodeKind.forms := by
  unfold State.operator? at found
  split at found
  · rename_i left
    cases found
    have ahead := ahead_of_doubled left (fun _ none => absurd none (Nat.not_lt_zero _))
    exact ⟨_, fits_operatorTokens_of_ahead .lt state ahead (by decide), by decide⟩
  · split at found
    · rename_i right
      cases found
      have ahead := ahead_of_doubled right (fun _ none => absurd none (Nat.not_lt_zero _))
      split
      · rename_i further
        have ahead := ahead_of_doubled further fun distance within => ahead distance (by omega)
        exact ⟨_, fits_operatorTokens_of_ahead .gt state ahead (by decide), by decide⟩
      · exact ⟨_, fits_operatorTokens_of_ahead .gt state ahead (by decide), by decide⟩
    · obtain ⟨level, known, same⟩ := Option.map_eq_some_iff.mp found
      cases same
      obtain ⟨kinds, inside, listed⟩ := form_of_ofKind? known other
      have unended : state.kindAt context 0 ≠ .eof := by
        rintro ended
        rw [ended] at known
        cases known
      have ahead : ∀ distance < 1, state.kindAt context distance = state.kindAt context 0 :=
        fun distance within => by rw [Nat.lt_one_iff.mp within]
      obtain ⟨element, one, admitted⟩ :=
        (fits_operatorTokens_of_ahead _ state ahead unended).of_single
      rw [one]
      exact ⟨[Part.tokenOf kinds], .one (Slot.admits_of_within inside admitted) .nil, listed⟩

/-- What waits on the stack, and the operand at hand: all are nodes of their forms. -/
def Joining (stack : List Pending) (operand : Element) : Prop :=
  (∀ pending ∈ stack, Encloses Node.WellFormed NodeKind.binaries pending.level.nodeKind
    (pending.left ++ pending.operator)) ∧
  (Slot.ofNodes NodeKind.binaries).admits operand = true ∧ Good Node.WellFormed [operand]

theorem Level.nodeKind_mem_binaries (level : Level) : level.nodeKind ∈ NodeKind.binaries := by
  cases level <;> decide

theorem reduce_joining (state : State) (floor : Level) {stack : List Pending} {operand : Element}
    (joining : Joining stack operand) :
    ∃ rest result, state.reduce context floor stack [operand] = (rest, [result]) ∧
      Joining rest result := by
  induction stack generalizing operand with
  | nil => exact ⟨[], operand, rfl, joining⟩
  | cons top stack ih =>
      obtain ⟨waiting, admitted, kept⟩ := joining
      simp only [State.reduce]
      split
      · have encloses := waiting top List.mem_cons_self
        refine ih ⟨fun pending below => waiting pending (List.mem_cons_of_mem _ below), ?_, ?_⟩
        · exact admits_finish top.level.nodeKind_mem_binaries _
        · exact Good.node (encloses.around _ operand admitted) (encloses.kept.append kept)
      · exact ⟨top :: stack, operand, rfl, waiting, admitted, kept⟩

theorem admits_binaries {slot : Slot} (operands : slot.within (.ofNodes NodeKind.unaries) = true)
    {element : Element} (admitted : slot.admits element = true) :
    (Slot.ofNodes NodeKind.binaries).admits element = true := by
  have unary := Slot.admits_of_within operands admitted
  exact Slot.admits_of_within (by decide) unary

/-- What is kept while operators are read. -/
theorem form_climbs {slot : Slot} {tests : List Outline}
    (operands : slot.within (.ofNodes NodeKind.unaries) = true)
    (types : tests.all (Outline.withinParts ·.parts [Part.type, Part.token .kwInstanceof]) = true) :
    Climbs Node.WellFormed context slot (.ofNodes NodeKind.binaries) tests Joining
      (fun _ => Joining) where
  start := by
    intro operand admitted kept
    exact ⟨List.forall_mem_nil _, admits_binaries operands admitted, kept⟩
  fold := by
    intro state level stack operand joining
    exact reduce_joining state level joining
  test := by
    rintro state stack left outline slots ⟨waiting, admitted, kept⟩ member fits typeKept
    refine ⟨waiting, admits_finish (by decide) _, Good.node ?_ (kept.append typeKept.reverse)⟩
    have tested := Outline.fits_of_withinParts (List.all_eq_true.mp types outline member) fits
    exact ⟨_, List.mem_singleton_self _, .one admitted tested.reverse⟩
  join := by
    rintro state level width stack left right ⟨waiting, admitted, kept⟩ found other ends rightKept
    refine ⟨?_, admits_binaries operands ends, rightKept⟩
    rintro pending (_ | ⟨_, below⟩)
    · obtain ⟨operator, fits, listed⟩ := fits_operatorTokens found other
      have operatorKept : Good Node.WellFormed (state.operatorTokens context width) :=
        (Good.takeMany width Good.nil).reverse
      refine ⟨level.nodeKind_mem_binaries, kept.append operatorKept, ?_⟩
      intro span below isOperand
      have operand : Fits [Part.operand] [left] := .one admitted .nil
      exact ⟨_, listed, (operand.append fits).append (.one isOperand .nil)⟩
    · exact waiting pending below
  close := And.right

end Operators

/-- Whatever the discipline lets be built has one of the forms of its kind. -/
theorem form_sound : formDiscipline.Sound Node.WellFormed where
  admitted := wellFormed_of_admits
  operators := by
    intro context operand type slot result tests operates operandReads typeLeads before after read
    simp only [formDiscipline] at operates
    split at operates
    · rename_i checked
      cases operates
      obtain ⟨operands, types⟩ := (Bool.and_eq_true _ _).mp checked
      exact (form_climbs operands types).operators_appends operandReads typeLeads read
    · cases operates

end JavaSyntax
