import JavaSyntax.Proofs.Reading.Escalating
import JavaSyntax.Proofs.Reading.Items

/-!
# Parses under a larger nesting limit

A trial that nests too deeply is refused like one that does not fit.  Mostly the text
then fails again where it is read for good, but a declaration whose type is too deep
for a trial may also read as an expression, and then a larger limit gives a different
tree without an error on either side.

This is the only way in which the limit matters.  A parse without errors is the parse
under every larger limit whose trials are held to the smaller one.  And if none of its
trials meets the limit, it is simply the parse under every larger limit.
-/

namespace JavaSyntax

/-- Read a phrase of the language up to the limit of the context, with the trials held to
a smaller one. -/
def Language.readHeld (limit : Nat) (phrase : Phrase) (context : Context) : Step :=
  phrase.runHeld limit (readRule grammar limit)
    (readRuleHeld grammar limit (context.limit - limit) context.limit) context

/-- Read a phrase of the language; the first trial that meets the limit ends the reading. -/
def Language.readEscalating (phrase : Phrase) (context : Context) : Step :=
  phrase.runEscalating (readRuleEscalating grammar context.limit) context

namespace State

variable (read : Phrase → Context → Step)

/-- Read one item in some way. -/
def readItemBy (context : Context) (item : Phrase) (state : State) : State × Bool :=
  match read item context state with
  | .ok after => (after, true)
  | .error error => (state.abandon context error, false)

/-- Read items in some way while a condition on the current token holds. -/
def readItemsBy (context : Context) (continues : TokenKind → Bool) (item : Phrase) :
    Nat → State → State × Bool
  | 0, state => (state, true)
  | rounds + 1, state =>
      if continues (state.kindAt context 0) then
        followedBy (state.readItemBy read context item)
          (readItemsBy context continues item rounds)
      else (state, true)

/-- Read the items of a source file in some way. -/
def readUnitBy (context : Context) (state : State) : State × Bool :=
  followedBy
    (followedBy (state.readItemBy read context Language.packageDeclaration) fun packaged =>
      packaged.readItemsBy read context (· == .kwImport) Language.importDeclaration
        (packaged.remaining context))
    fun imported =>
      imported.readItemsBy read context (· != .eof) (.progress Language.typeDeclaration)
        (imported.remaining context)

theorem readItems_eq_readItemsBy (context : Context) (continues : TokenKind → Bool)
    (item : Phrase) (rounds : Nat) (state : State) :
    state.readItems context continues item rounds =
      state.readItemsBy Language.read context continues item rounds := by
  induction rounds generalizing state with
  | zero => rfl
  | succ rounds ih =>
      rw [readItems_succ, readItemsBy, funext ih]
      rfl

/-- Source files are read by reading phrases of the language. -/
theorem readUnit_eq_readUnitBy (context : Context) (state : State) :
    state.readUnit context = (state.readUnitBy Language.read context).1 := by
  simp only [readUnit_eq, readItems_eq_readItemsBy]
  rfl

end State

namespace Session

/-- The parse of a source file, with the phrases of the language read in some way. -/
def parseUnitBy (read : Phrase → Context → Step) (session : Session) : Parse :=
  (session.parseWith .compilationUnit fun context state =>
    (state.readUnitBy read context).1).1

/-- The parse of a source file under the limit of the session, with the trials held to a
smaller one. -/
def parseUnitHeld (session : Session) (limit : Nat) : Parse :=
  session.parseUnitBy (Language.readHeld limit)

/-- The parse of a source file that gives up on the first item in which something nests too
deeply, be it only in a trial. -/
def parseUnitEscalating (session : Session) : Parse :=
  session.parseUnitBy Language.readEscalating

theorem parseUnit_eq_parseUnitBy (session : Session) :
    session.parseUnit.1 = session.parseUnitBy Language.read := by
  simp only [parseUnit, parseUnitBy, State.readUnit_eq_readUnitBy]

end Session

namespace State

/-- An outcome is the same with more levels, unless it was come to by meeting the limit. -/
def OutcomeKept (more fewer : State × Bool) : Prop :=
  more = fewer ∨ (fewer.2 = false ∧ fewer.1.errors.any SyntaxError.isFatal = true)

/-- Outcomes are kept stage by stage: a reading that stopped does not go on. -/
theorem OutcomeKept.followedBy {more fewer : State × Bool} {next next' : State → State × Bool}
    (stage : OutcomeKept more fewer) (kept : ∀ state, OutcomeKept (next state) (next' state)) :
    OutcomeKept (followedBy more next) (followedBy fewer next') := by
  rcases stage with rfl | ⟨stops, failed⟩
  · obtain ⟨state, goes⟩ := more
    cases goes with
    | true => exact kept state
    | false => exact .inl rfl
  · obtain ⟨state, goes⟩ := fewer
    cases stops
    exact .inr ⟨rfl, failed⟩

variable {context : Context} {larger : Nat} {read read' : Phrase → Context → Step}
  (kept : ∀ item, keeping.Relates (read item (context.held larger)) (read' item context))

include kept

theorem readItemBy_kept (item : Phrase) (state : State) :
    OutcomeKept (state.readItemBy read (context.held larger) item)
      (state.readItemBy read' context item) := by
  have same := kept item state
  unfold readItemBy
  cases came : read' item context state with
  | ok after =>
      rw [same (by rw [came]; rfl), came]
      exact .inl rfl
  | error error =>
      cases fatal : error.isFatal with
      | true => exact .inr ⟨rfl, by simp [fatal]⟩
      | false =>
          rw [same (by rw [came]; exact fatal), came]
          exact .inl (by simp only [Context.held, abandon_under])

theorem readItemsBy_kept (continues : TokenKind → Bool) (item : Phrase) (rounds : Nat)
    (state : State) :
    OutcomeKept (state.readItemsBy read (context.held larger) continues item rounds)
      (state.readItemsBy read' context continues item rounds) := by
  induction rounds generalizing state with
  | zero => exact .inl rfl
  | succ rounds ih =>
      have alike : state.kindAt (context.held larger) 0 = state.kindAt context 0 := rfl
      rw [readItemsBy, readItemsBy, alike]
      split
      · exact (readItemBy_kept kept item state).followedBy ih
      · exact .inl rfl

theorem readUnitBy_kept (state : State) :
    OutcomeKept (state.readUnitBy read (context.held larger))
      (state.readUnitBy read' context) :=
  ((readItemBy_kept kept Language.packageDeclaration state).followedBy fun packaged =>
      readItemsBy_kept kept (· == .kwImport) Language.importDeclaration
        (packaged.remaining context) packaged).followedBy fun imported =>
    readItemsBy_kept kept (· != .eof) (.progress Language.typeDeclaration)
      (imported.remaining context) imported

end State

/-- A source file that one way of reading parses without meeting the limit is parsed alike by
another under a larger limit, if that one keeps what the first reads of each item. -/
theorem Session.parseUnitBy_kept {read read' : Phrase → Context → Step} (tokens : List Token)
    {recovery : Bool} {smaller larger : Nat}
    (kept : ∀ item, keeping.Relates (read item (.ofTokens tokens ⟨larger, recovery⟩))
      (read' item (.ofTokens tokens ⟨smaller, recovery⟩)))
    (unmet : ((start tokens ⟨smaller, recovery⟩).parseUnitBy read').errors.any
      SyntaxError.isFatal = false) :
    (start tokens ⟨larger, recovery⟩).parseUnitBy read =
      (start tokens ⟨smaller, recovery⟩).parseUnitBy read' := by
  let context := Context.ofTokens tokens ⟨smaller, recovery⟩
  rcases @State.readUnitBy_kept context larger read read' kept ⟨0, [], []⟩ with same | ⟨_, met⟩
  · exact congrArg (fun outcome => State.finishParse context .compilationUnit outcome.1) same
  · have never := List.any_reverse.symm.trans unmet
    cases met.symm.trans never

/-- What is read of an item without being given up is kept when only what is read for good
may nest more deeply. -/
theorem Language.readHeld_keeps (context : Context) {larger : Nat}
    (ordered : context.limit ≤ larger) (item : Phrase) :
    keeping.Relates (readHeld context.limit item (context.held larger)) (read item context) := by
  refine item.runHeld_keeps fun rule => ?_
  have same := readRuleHeld_keeps grammar context larger (larger - context.limit) context.limit rule
  rwa [Nat.add_sub_of_le ordered] at same

/-- What is read of an item without meeting the limit is read alike under a larger one. -/
theorem Language.readEscalating_keeps (context : Context) {larger : Nat}
    (ordered : context.limit ≤ larger) (item : Phrase) :
    keeping.Relates (read item (context.held larger)) (readEscalating item context) := by
  have rules := readRuleEscalating_keeps grammar larger (larger - context.limit) context.limit
  rw [Nat.add_sub_of_le ordered] at rules
  exact item.runEscalating_keeps rules context

/-- A parse in which no trial meets the limit is the parse under every larger limit, whatever
errors it has. -/
theorem Session.parseUnit_eq_of_unmet (tokens : List Token) (recovery : Bool)
    {smaller larger : Nat} (ordered : smaller ≤ larger)
    (unmet : (start tokens ⟨smaller, recovery⟩).parseUnitEscalating.errors.any
      SyntaxError.isFatal = false) :
    (start tokens ⟨larger, recovery⟩).parseUnit.1 =
      (start tokens ⟨smaller, recovery⟩).parseUnitEscalating := by
  rw [parseUnit_eq_parseUnitBy]
  exact parseUnitBy_kept tokens
    (Language.readEscalating_keeps (.ofTokens tokens ⟨smaller, recovery⟩) ordered) unmet

/-- A parse without errors is the parse under every larger limit whose trials are held to
the smaller one.  If none of its trials meets the limit, they need not be held to it. -/
theorem clean_parse_stable (tokens : List Token) (recovery : Bool) {smaller larger : Nat}
    (ordered : smaller ≤ larger)
    (clean : (Session.start tokens ⟨smaller, recovery⟩).parseUnit.1.errors = []) :
    (Session.start tokens ⟨larger, recovery⟩).parseUnitHeld smaller =
        (Session.start tokens ⟨smaller, recovery⟩).parseUnit.1 ∧
    ((Session.start tokens ⟨smaller, recovery⟩).parseUnitEscalating.errors.any
        SyntaxError.isFatal = false →
      (Session.start tokens ⟨larger, recovery⟩).parseUnit.1 =
        (Session.start tokens ⟨smaller, recovery⟩).parseUnit.1) := by
  constructor
  · rw [Session.parseUnit_eq_parseUnitBy] at clean ⊢
    exact Session.parseUnitBy_kept tokens
      (Language.readHeld_keeps (.ofTokens tokens ⟨smaller, recovery⟩) ordered) (by rw [clean]; rfl)
  · intro unmet
    have above := Session.parseUnit_eq_of_unmet tokens recovery ordered unmet
    have same := Session.parseUnit_eq_of_unmet tokens recovery (Nat.le_refl smaller) unmet
    exact above.trans same.symm

/-- The tokens of `class X { void m() { A<B<C>> c = d; } }`. -/
def genericLocal : List Token :=
  [.written .kwClass "class" 0, .written .identifier "X" 6, .written .lBrace "\x7b" 8,
    .written .kwVoid "void" 10, .written .identifier "m" 15, .written .lParen "(" 16,
    .written .rParen ")" 17, .written .lBrace "\x7b" 19, .written .identifier "A" 21,
    .written .lt "<" 22, .written .identifier "B" 23, .written .lt "<" 24,
    .written .identifier "C" 25, .written .gt ">" 26, .written .gt ">" 27,
    .written .identifier "c" 29, .written .assign "=" 31, .written .identifier "d" 33,
    .written .semi ";" 34, .written .rBrace "\x7d" 36, .written .rBrace "\x7d" 38, .endMark 39]

/-- Seven levels are enough for the trial that finds the declaration, so that two more make no
difference. -/
theorem clean_parse_stable_genericLocal :
    7 ≤ 9 ∧ (Session.start genericLocal ⟨7, true⟩).parseUnit.1.errors = [] ∧
    (Session.start genericLocal ⟨7, true⟩).parseUnitEscalating.errors.any
      SyntaxError.isFatal = false ∧
    (Session.start genericLocal ⟨9, true⟩).parseUnitHeld 7 =
      (Session.start genericLocal ⟨7, true⟩).parseUnit.1 ∧
    (Session.start genericLocal ⟨9, true⟩).parseUnit.1 =
      (Session.start genericLocal ⟨7, true⟩).parseUnit.1 := by
  have clean : (Session.start genericLocal ⟨7, true⟩).parseUnit.1.errors = [] := by
    decide +kernel
  have unmet : (Session.start genericLocal ⟨7, true⟩).parseUnitEscalating.errors.any
      SyntaxError.isFatal = false := by
    decide +kernel
  have stable := clean_parse_stable genericLocal true (show 7 ≤ 9 by decide) clean
  exact ⟨by decide, clean, unmet, stable.1, stable.2 unmet⟩

/-- With five levels that trial meets the limit, and the limit matters: the declaration reads as
an assignment, and neither parse has an error. -/
theorem clean_parse_not_stable :
    (Session.start genericLocal ⟨5, true⟩).parseUnit.1.errors = [] ∧
    (Session.start genericLocal ⟨7, true⟩).parseUnit.1.errors = [] ∧
    (Session.start genericLocal ⟨7, true⟩).parseUnit.1.root ≠
      (Session.start genericLocal ⟨5, true⟩).parseUnit.1.root := by
  decide +kernel

end JavaSyntax
