import JavaSyntax.Proofs.FirstError
import JavaSyntax.Proofs.Outline.Sound

/-!
# The trees of clean parses

A property of nodes that a discipline vouches for holds of all nodes of every tree
that is parsed without errors.  By then no step has recovered from anything, so
the tree is the one that is read without recovery.
-/

namespace JavaSyntax

namespace Discipline

/-- Whether the phrase of a rule keeps to the signature of the rule. -/
def checks (discipline : Discipline) (rule : Rule) (phrase : Phrase) : Bool :=
  let signature := discipline.signature rule
  (phrase.infer discipline false ⟨signature.takes.map .one, [], false⟩).any fun outlines =>
    outlines.all fun outline =>
      outline.moved && Outline.withinParts outline.parts [.one signature.gives]

/-- Whether all that a phrase builds at the top of a file is admitted. -/
def checksItem (discipline : Discipline) (phrase : Phrase) : Bool :=
  (phrase.infer discipline false ⟨[], [], false⟩).isSome

/-- What is to be checked of the whole grammar. -/
structure Checked (discipline : Discipline) : Prop where
  rules : ∀ rule, discipline.checks rule (Language.grammar rule) = true
  package : discipline.checksItem Language.packageDeclaration = true
  imports : discipline.checksItem Language.importDeclaration = true
  types : discipline.checksItem (.progress Language.typeDeclaration) = true
  expression : discipline.checksItem (.call .expression) = true

end Discipline

section Clean

variable {good : Node → Prop} {context : Context} {discipline : Discipline}
  (strict : context.recovery = false) (sound : discipline.Sound good)

include strict

theorem phrase_moving (grammar : Rule → Phrase) (depth : Nat) (phrase : Phrase) :
    Moving context .any (phrase.run (readRule grammar depth) context) := by
  refine phrase.run_moving (readRule_moving grammar depth · context) ?_ phrase.closesOnly_any
  rw [Context.trial_of_strict strict]
  exact (readRule_moving grammar depth · context)

include sound

/-- Every rule keeps to its signature, at any depth. -/
theorem readRule_leads {grammar : Rule → Phrase}
    (checked : ∀ rule, discipline.checks rule (grammar rule) = true) (depth : Nat) (rule : Rule) :
    Leads good context (readRule grammar depth rule context) false
      ⟨(discipline.signature rule).takes.map .one, [], false⟩
      [⟨[.one (discipline.signature rule).gives], [], true⟩] := by
  induction depth generalizing rule with
  | zero =>
      intro base before after here whole fits all read
      cases read
  | succ depth ih =>
      obtain ⟨outlines, inferred, kept⟩ := (Option.any_eq_true _ _).mp (checked rule)
      have leads := (grammar rule).infer_sound strict sound ih (phrase_moving strict grammar depth)
        false _ outlines inferred
      refine leads.mono ?_
      rintro base state ⟨outline, member, fits⟩
      have here := List.all_eq_true.mp kept outline member
      rw [Bool.and_eq_true] at here
      obtain ⟨top, parts, slots⟩ := fits.slots
      exact Outline.Describes.any
        (.ofParts ⟨top, Outline.fits_of_withinParts here.2 parts, slots⟩ fits.start
          (fun _ => fits.moved here.1))

/-- What is inferred of a phrase of the language holds, if the rules are checked. -/
theorem read_leads (rules : ∀ rule, discipline.checks rule (Language.grammar rule) = true)
    {phrase : Phrase} {outlines : List Outline}
    (inferred : phrase.infer discipline false ⟨[], [], false⟩ = some outlines) :
    Leads good context (Language.read phrase context) false ⟨[], [], false⟩ outlines :=
  phrase.infer_sound strict sound (readRule_leads strict sound rules context.limit)
    (phrase_moving strict Language.grammar context.limit) false _ outlines inferred

/-- A phrase of the language that is checked keeps all nodes good. -/
theorem read_good (checked : discipline.Checked) {phrase : Phrase}
    (admitted : discipline.checksItem phrase = true) {before after : State}
    (all : Good good before.slots) (read : Language.read phrase context before = .ok after) :
    Good good after.slots := by
  obtain ⟨outlines, inferred⟩ := Option.isSome_iff_exists.mp admitted
  exact ((read_leads strict sound checked.rules inferred).pushes all read).kept

end Clean

namespace State

/-- An outcome of reading items: something is kept of all slots, or the reading has stopped
at an error. -/
def CleanOutcome (kept : List Element → Prop) (outcome : State × Bool) : Prop :=
  (outcome.2 = true ∧ kept outcome.1.slots) ∨ (outcome.2 = false ∧ outcome.1.errors ≠ [])

namespace CleanOutcome

variable {kept kept' : List Element → Prop} {outcome : State × Bool}

theorem followedBy {next : State → State × Bool} (stage : CleanOutcome kept outcome)
    (follows : ∀ state, kept state.slots → CleanOutcome kept' (next state)) :
    CleanOutcome kept' (followedBy outcome next) := by
  obtain ⟨state, goes⟩ := outcome
  rcases stage with ⟨rfl, all⟩ | ⟨rfl, failed⟩
  · exact follows state all
  · exact .inr ⟨rfl, failed⟩

theorem of_clean (stage : CleanOutcome kept outcome) (clean : outcome.1.errors = []) :
    kept outcome.1.slots := by
  rcases stage with ⟨_, all⟩ | ⟨_, failed⟩
  · exact all
  · exact absurd clean failed

end CleanOutcome

section Items

variable {context : Context} {kept : List Element → Prop} {item : Phrase}

theorem readItem_clean {state : State}
    (reads : ∀ after, Language.read item context state = .ok after → kept after.slots) :
    CleanOutcome kept (state.readItem context item) := by
  unfold readItem
  split
  · rename_i after read
    exact .inl ⟨rfl, reads after read⟩
  · exact .inr ⟨rfl, by simp⟩

theorem readItems_clean {continues : TokenKind → Bool}
    (reads : ∀ state after, kept state.slots → Language.read item context state = .ok after →
      kept after.slots) (rounds : Nat) {state : State} (all : kept state.slots) :
    CleanOutcome kept (state.readItems context continues item rounds) := by
  induction rounds generalizing state with
  | zero => exact .inl ⟨rfl, all⟩
  | succ rounds ih =>
      rw [readItems_succ]
      split
      · exact (readItem_clean (reads state · all)).followedBy fun _ => ih
      · exact .inl ⟨rfl, all⟩

/-- What is kept of the slots of a source file, stage by stage. -/
theorem readUnit_clean {packaged imported declared : List Element → Prop} {state : State}
    (package : ∀ after, Language.read Language.packageDeclaration context state = .ok after →
      packaged after.slots)
    (imports : ∀ state after, imported state.slots →
      Language.read Language.importDeclaration context state = .ok after → imported after.slots)
    (types : ∀ state after, declared state.slots →
      Language.read (.progress Language.typeDeclaration) context state = .ok after →
        declared after.slots)
    (importing : ∀ slots, packaged slots → imported slots)
    (declaring : ∀ slots, imported slots → declared slots)
    (clean : (state.readUnit context).errors = []) : declared (state.readUnit context).slots := by
  rw [readUnit_eq] at clean ⊢
  refine CleanOutcome.of_clean ?_ clean
  have first : CleanOutcome imported (followedBy
      (state.readItem context Language.packageDeclaration) fun packaged =>
        packaged.readItems context (· == .kwImport) Language.importDeclaration
          (packaged.remaining context)) :=
    (readItem_clean package).followedBy fun middle all =>
      readItems_clean imports _ (importing _ all)
  exact first.followedBy fun middle all => readItems_clean types _ (declaring _ all)

/-- What is kept of the slots of an expression that is read without recovery. -/
theorem readExpression_clean (strict : context.recovery = false) {state : State}
    (reads : ∀ after, Language.read (.call .expression) context state = .ok after →
      kept after.slots)
    (clean : (state.readExpression context).errors = []) :
    kept (state.readExpression context).slots := by
  unfold readExpression at clean ⊢
  split
  · rename_i after read
    rw [read] at clean
    simp only at clean ⊢
    split
    · exact reads after read
    · rename_i more
      simp [more, report, strict] at clean
  · rename_i error failed
    rw [failed] at clean
    simp at clean

end Items

end State

/-- A reading that ends without errors is the one that does not recover. -/
theorem State.eq_strict_of_clean {context : Context} {read : Context → State → State}
    {state : State}
    (agree : context.recovery = true → StatesAgree (read context.trial state) (read context state))
    (clean : (read context state).errors = []) :
    read context state = read context.trial state := by
  cases recovers : context.recovery with
  | false => rw [Context.trial_of_strict recovers]
  | true =>
      rcases agree recovers with ⟨same, _⟩ | ⟨error, first, _, found, _⟩
      · exact same
      · simp [clean] at found

/-- A source file that is read without errors is read without recovery. -/
theorem Session.parseUnit_of_clean {tokens : List Token} {config : Config}
    (clean : (Session.start tokens config).parseUnit.1.errors = []) :
    ∃ state : State,
      state = State.readUnit (Context.ofTokens tokens config).trial ⟨0, [], []⟩ ∧
      state.errors = [] ∧
      (Session.start tokens config).parseUnit.1 =
        state.finishParse (.ofTokens tokens config) .compilationUnit := by
  have clean : (State.readUnit (.ofTokens tokens config) ⟨0, [], []⟩).errors = [] :=
    List.reverse_eq_nil_iff.mp clean
  have same := State.eq_strict_of_clean
    (fun recovers => State.readUnit_agree recovers _ rfl) clean
  exact ⟨_, same, clean, rfl⟩

/-- An expression that is read without errors is read without recovery. -/
theorem Session.parseExpression_of_clean {tokens : List Token} {config : Config}
    (clean : (Session.start tokens config).parseExpression.1.errors = []) :
    ∃ state : State,
      state = State.readExpression (Context.ofTokens tokens config).trial ⟨0, [], []⟩ ∧
      state.errors = [] ∧
      (Session.start tokens config).parseExpression.1 =
        state.finishParse (.ofTokens tokens config) .expressionRoot := by
  have clean : (State.readExpression (.ofTokens tokens config) ⟨0, [], []⟩).errors = [] :=
    List.reverse_eq_nil_iff.mp clean
  have same := State.eq_strict_of_clean
    (fun recovers => State.readExpression_agree recovers _ rfl) clean
  exact ⟨_, same, clean, rfl⟩

/-- All nodes of a finished parse are good if the top one is and those read are. -/
theorem State.finishParse_good {good : Node → Prop} {context : Context} {state : State}
    {kind : NodeKind} (top : ∀ span, good ⟨kind, span, (state.takeAny context).gathered⟩)
    (all : Good good state.slots) :
    ∀ node ∈ (state.finishParse context kind).root.descendants, good node := by
  intro node member
  rw [Node.descendants_eq_nodes] at member
  cases member with
  | head => exact top _
  | tail _ below =>
      obtain ⟨slot, among, found⟩ := Element.mem_nodesAll.mp below
      have ended : Good good (state.takeAny context).slots := (Good.token _).cons all
      exact ended.reverse slot among node found

/-- What a discipline vouches for holds of all nodes of every tree parsed without
errors. -/
theorem good_of_clean {good : Node → Prop} {discipline : Discipline}
    (sound : discipline.Sound good) (checked : discipline.Checked)
    (unit : ∀ span children, good ⟨.compilationUnit, span, children⟩)
    (expression : ∀ span children, good ⟨.expressionRoot, span, children⟩)
    (tokens : List Token) (config : Config) :
    ((Session.start tokens config).parseUnit.1.errors = [] →
      ∀ node ∈ (Session.start tokens config).parseUnit.1.root.descendants, good node) ∧
    ((Session.start tokens config).parseExpression.1.errors = [] →
      ∀ node ∈ (Session.start tokens config).parseExpression.1.root.descendants, good node) := by
  have strict : (Context.ofTokens tokens config).trial.recovery = false := rfl
  constructor
  · intro clean
    obtain ⟨state, same, clean, parsed⟩ := Session.parseUnit_of_clean clean
    rw [parsed]
    refine State.finishParse_good (unit · _) ?_
    rw [same] at clean ⊢
    exact State.readUnit_clean
      (fun after => read_good strict sound checked checked.package Good.nil)
      (fun state after => read_good strict sound checked checked.imports)
      (fun state after => read_good strict sound checked checked.types)
      (fun _ => id) (fun _ => id) clean
  · intro clean
    obtain ⟨state, same, clean, parsed⟩ := Session.parseExpression_of_clean clean
    rw [parsed]
    refine State.finishParse_good (expression · _) ?_
    rw [same] at clean ⊢
    exact State.readExpression_clean strict
      (fun after => read_good strict sound checked checked.expression Good.nil) clean

end JavaSyntax
