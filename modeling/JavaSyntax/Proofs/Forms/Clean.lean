import JavaSyntax.Proofs.Forms.Sound
import JavaSyntax.Proofs.Outline.Clean

/-!
# The forms of clean trees

Every node of a tree that is parsed without errors has one of the forms of its kind.
The rules are checked one by one; the top of a tree is put together from what is read
item by item.
-/

namespace JavaSyntax

/-- Whether a phrase reads one slot of a form, where all that it builds is admitted. -/
def Discipline.gives (discipline : Discipline) (slot : Slot) (phrase : Phrase) : Bool :=
  (phrase.infer discipline false ⟨[], [], false⟩).any fun outlines =>
    outlines.all (Outline.withinParts ·.parts [.one slot])

theorem read_gives {good : Node → Prop} {context : Context} {discipline : Discipline}
    (strict : context.recovery = false) (sound : discipline.Sound good)
    (rules : ∀ rule, discipline.checks rule (Language.grammar rule) = true)
    {slot : Slot} {phrase : Phrase} (given : discipline.gives slot phrase = true)
    {before after : State} (all : Good good before.slots)
    (read : Language.read phrase context before = .ok after) :
    ∃ element, after.slots = element :: before.slots ∧ slot.admits element = true ∧
      Good good after.slots := by
  obtain ⟨outlines, inferred, inside⟩ := (Option.any_eq_true _ _).mp given
  have here : Outline.Describes ⟨context, before.position, before.slots⟩ ⟨[], [], false⟩ before :=
    .unmoved ⟨[], .nil, rfl⟩ (Nat.le_refl _)
  obtain ⟨⟨outline, member, fits⟩, kept⟩ := read_leads strict sound rules inferred _ before after
    rfl (absurd · Bool.false_ne_true) here all read
  obtain ⟨top, parts, slots⟩ := fits.slots
  obtain ⟨element, rfl, admitted⟩ :=
    (Outline.fits_of_withinParts (List.all_eq_true.mp inside outline member) parts).of_single
  exact ⟨element, slots, admitted, kept⟩

/-! ## The checks -/

theorem form_checks (rule : Rule) :
    formDiscipline.checks rule (Language.grammar rule) = true := by
  cases rule with
  | typeArguments diamond => cases diamond <;> decide +kernel
  | memberBody body => cases body <;> decide +kernel
  | _ => decide +kernel

/-! ## The tops of trees -/

/-- Slots of some parts, in and below which all nodes have forms of their kinds. -/
def FormedAs (parts : List Part) (slots : List Element) : Prop :=
  Fits parts slots ∧ Good Node.WellFormed slots

namespace FormedAs

variable {context : Context} {parts : List Part} {slot : Slot} {phrase : Phrase}
  {before after : State}

theorem one (strict : context.recovery = false) (formed : FormedAs parts before.slots)
    (given : formDiscipline.gives slot phrase = true)
    (read : Language.read phrase context before = .ok after) :
    FormedAs (.one slot :: parts) after.slots := by
  obtain ⟨element, slots, admitted, kept⟩ :=
    read_gives strict form_sound form_checks given formed.2 read
  exact ⟨slots ▸ .one admitted formed.1, kept⟩

theorem more (strict : context.recovery = false)
    (formed : FormedAs (.run slot :: parts) before.slots)
    (given : formDiscipline.gives slot phrase = true)
    (read : Language.read phrase context before = .ok after) :
    FormedAs (.run slot :: parts) after.slots := by
  obtain ⟨element, slots, admitted, kept⟩ :=
    read_gives strict form_sound form_checks given formed.2 read
  exact ⟨slots ▸ .more admitted formed.1, kept⟩

theorem start : FormedAs [] [] :=
  ⟨.nil, Good.nil⟩

theorem run {slots : List Element} (formed : FormedAs parts slots) :
    FormedAs (.run slot :: parts) slots :=
  ⟨.done formed.1, formed.2⟩

/-- At the end mark, the top node is put over the slots. -/
theorem finishParse {kind : NodeKind} {state : State} (formed : FormedAs parts state.slots)
    (ended : state.atEnd context = true)
    (listed : (Part.token .eof :: parts).reverse ∈ kind.forms) :
    ∀ node ∈ (state.finishParse context kind).root.descendants, node.WellFormed := by
  refine State.finishParse_good (fun span => ⟨_, listed, Fits.reverse (.one ?_ formed.1)⟩) formed.2
  have isEnd : (state.current context).kind = .eof := beq_iff_eq.mp ended
  simp [Slot.admits, Slot.ofTokens, isEnd]

end FormedAs

/-- The slots of a source file that is read without errors and without recovery. -/
theorem formed_readUnit {context : Context} (strict : context.recovery = false)
    (clean : (State.readUnit context ⟨0, [], []⟩).errors = []) :
    FormedAs [.run (.ofNodes NodeKind.topDeclarations), .run (.ofNodes NodeKind.imports),
      .optional (.node .packageDeclaration)] (State.readUnit context ⟨0, [], []⟩).slots := by
  have package : ∀ after,
      Language.read Language.packageDeclaration context ⟨0, [], []⟩ = .ok after →
        FormedAs [.optional (.node .packageDeclaration)] after.slots :=
    fun after => FormedAs.start.one strict (by decide +kernel)
  exact State.readUnit_clean package
    (fun state after formed => formed.more strict (by decide +kernel))
    (fun state after formed => formed.more strict (by decide +kernel))
    (fun slots => FormedAs.run) (fun slots => FormedAs.run) clean

/-- The slot of an expression that is read without errors and without recovery. -/
theorem formed_readExpression {context : Context} (strict : context.recovery = false)
    (clean : (State.readExpression context ⟨0, [], []⟩).errors = []) :
    FormedAs [.expression] (State.readExpression context ⟨0, [], []⟩).slots :=
  State.readExpression_clean strict
    (fun after => FormedAs.start.one strict (by decide)) clean

/-- Every node of every tree parsed without errors has one of the forms of its kind. -/
theorem wellFormed_of_clean (tokens : List Token) (config : Config) :
    ((Session.start tokens config).parseUnit.1.errors = [] →
      ∀ node ∈ (Session.start tokens config).parseUnit.1.root.descendants, node.WellFormed) ∧
    ((Session.start tokens config).parseExpression.1.errors = [] →
      ∀ node ∈ (Session.start tokens config).parseExpression.1.root.descendants,
        node.WellFormed) := by
  have strict : (Context.ofTokens tokens config).trial.recovery = false := rfl
  constructor
  · intro clean
    obtain ⟨state, same, clean, parsed⟩ := Session.parseUnit_of_clean clean
    rw [parsed]
    rw [same] at clean
    have ended : state.atEnd (.ofTokens tokens config) = true := same ▸ State.readUnit_atEnd _
    exact (same ▸ formed_readUnit strict clean).finishParse ended (List.mem_singleton_self _)
  · intro clean
    obtain ⟨state, same, clean, parsed⟩ := Session.parseExpression_of_clean clean
    rw [parsed]
    rw [same] at clean
    have ended : state.atEnd (.ofTokens tokens config) = true := same ▸ State.readExpression_atEnd _
    exact (same ▸ formed_readExpression strict clean).finishParse ended (List.mem_singleton_self _)

end JavaSyntax
