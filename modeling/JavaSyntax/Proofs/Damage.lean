import Mathlib
import JavaSyntax.Proofs.FirstError
import JavaSyntax.Proofs.Lexing.Order
import JavaSyntax.Proofs.Tandem.Parse
import JavaSyntax.Source

/-!
# Damage and errors agree

A tree is damaged where it holds an error node or a missing token.  With recovery it
is damaged exactly when one of the errors says so: a token that was not expected, a
token that starts no alternative, or nesting beyond the limit.  Without recovery it is
damaged exactly when there is an error at all.
-/

namespace JavaSyntax

theorem Context.Matches.refl {context : Context} (ordered : context.Ordered) :
    context.Matches context :=
  ⟨ordered, ordered, rfl, fun _ => rfl, fun _ _ _ _ _ => Iff.rfl, rfl, rfl⟩

/-- What is read from a sound state leads to a sound state. -/
theorem Language.tandem_read {context : Context} {phrase : Phrase} (checked : framed phrase = true)
    (ordered : context.Ordered) {before after : State}
    (tandem : Tandem context context before before)
    (fitted : read phrase context before = .ok after) :
    Tandem context context after after := by
  have paired := read_paired checked (.refl ordered) tandem
  have sound := (paired.course fitted).sound
  rw [fitted] at paired
  exact ⟨paired.alike, sound, sound⟩

namespace State

/-- A state in which a reading was given up: the damage can be seen, and with recovery it
is reported. -/
structure GivenUp (context : Context) (state : State) : Prop where
  damaged : Element.anyDamaged state.slots = true
  reported : ∃ error earlier, state.errors = error :: earlier ∧
    (context.recovery = true → error.fault.damages = true)

/-- A reading of items that may go on: it is sound, its errors point at tokens, and without
recovery there are none. -/
structure GoesOn (context : Context) (start state : State) : Prop where
  tandem : Tandem context context state state
  course : Course context start state
  quiet : context.recovery = false → state.errors = start.errors

/-- What a reading of items comes to: it may go on, or it was given up. -/
def Settled (context : Context) (start : State) : State × Bool → Prop
  | (state, true) => GoesOn context start state
  | (state, false) => GivenUp context state

variable {context : Context} {state : State}

theorem Settled.followedBy {start : State} {outcome : State × Bool} {next : State → State × Bool}
    (settled : Settled context start outcome)
    (rest : ∀ state, Tandem context context state state → Settled context state (next state)) :
    Settled context start (followedBy outcome next) := by
  obtain ⟨state, goes⟩ := outcome
  cases goes with
  | false => exact settled
  | true =>
      have later := rest state settled.tandem
      simp only [State.followedBy]
      generalize next state = result at later
      obtain ⟨after, goes⟩ := result
      cases goes with
      | false => exact later
      | true =>
          exact ⟨later.tandem, settled.course.trans later.course, fun strict =>
            (later.quiet strict).trans (settled.quiet strict)⟩

/-- What is given up before the end is put away as an error. -/
theorem abandon_givenUp (more : state.atEnd context = false) {error : SyntaxError}
    (damages : context.recovery = true → error.fault.damages = true) :
    GivenUp context (state.abandon context error) where
  damaged := by
    have more : ({ state with errors := error :: state.errors } : State).atEnd context = false :=
      more
    simp [abandon, sweep, more, close, finish, Node.toElement]
  reported := ⟨error, state.errors, errors_abandon state error, damages⟩

theorem isFatal_of_read (recovers : context.recovery = true) {phrase : Phrase}
    {error : SyntaxError} (failed : Language.read phrase context state = .error error) :
    error.fault.damages = true := by
  have fatal := (read_shadowed recovers phrase state).fatal error failed
  unfold SyntaxError.isFatal at fatal
  split at fatal
  · rename_i nested
    rw [nested]
    rfl
  · cases fatal

/-- Without recovery no error is recorded. -/
theorem errors_of_strict (strict : context.recovery = false) {phrase : Phrase} {after : State}
    (read : Language.read phrase context state = .ok after) : after.errors = state.errors := by
  have same : ({ context with recovery := true } : Context).trial = context := by
    rw [Context.trial, ← strict]
  have recovers : ({ context with recovery := true } : Context).recovery = true := rfl
  have shadow := read_shadowed recovers phrase state
  rw [same] at shadow
  exact shadow.quiet after read

theorem GoesOn.refl (tandem : Tandem context context state state) : GoesOn context state state :=
  ⟨tandem, .refl tandem.sound, fun _ => rfl⟩

/-- A slot that cannot start at the end is absent there. -/
theorem optional_of_atEnd {condition : Condition} {body : Phrase}
    (never : condition.glimpse true .ended = none) (ended : state.atEnd context = true) :
    Language.read (.optional condition body) context state = .ok (state.push .absent) := by
  have fails : ¬condition.holds (readRule Language.grammar context.limit) context state = true := by
    intro holds
    have possible := (View.fits_ended ended).glimpse holds
    rw [never] at possible
    exact View.not_possible_none possible
  exact if_neg fails

section Items

variable (ordered : context.Ordered)

include ordered

theorem readItem_settled {item : Phrase} (checked : Language.framed item = true)
    (tandem : Tandem context context state state)
    (ends : state.atEnd context = true → ∃ after, Language.read item context state = .ok after) :
    Settled context state (state.readItem context item) := by
  unfold readItem
  split
  · rename_i after fitted
    exact ⟨Language.tandem_read checked ordered tandem fitted,
      (Language.read_paired checked (.refl ordered) tandem).course fitted,
      fun strict => errors_of_strict strict fitted⟩
  · rename_i error failed
    refine abandon_givenUp ?_ fun recovers => isFatal_of_read recovers failed
    rw [Bool.eq_false_iff]
    intro ended
    obtain ⟨after, fitted⟩ := ends ended
    rw [fitted] at failed
    cases failed

theorem readItems_settled (continues : TokenKind → Bool) (stops : continues .eof = false)
    {item : Phrase} (checked : Language.framed item = true) (rounds : Nat)
    (tandem : Tandem context context state state) :
    Settled context state (state.readItems context continues item rounds) := by
  induction rounds generalizing state with
  | zero => exact .refl tandem
  | succ rounds ih =>
      rw [readItems_succ]
      split
      · rename_i goes
        refine (readItem_settled ordered checked tandem ?_).followedBy fun _ next => ih next
        intro ended
        rw [atEnd_iff.mp ended, stops] at goes
        cases goes
      · exact .refl tandem

/-- A source file is read to the end, or it was given up. -/
theorem readUnit_settled :
    ∃ goes, Settled context ⟨0, [], []⟩ (readUnit context ⟨0, [], []⟩, goes) := by
  rw [readUnit_eq]
  have start := Tandem.start (.refl ordered)
  have package := readItem_settled ordered Language.framed_packageDeclaration start
    fun ended => ⟨_, optional_of_atEnd (by decide) ended⟩
  have imports := package.followedBy fun packaged next =>
    readItems_settled ordered (· == .kwImport) rfl Language.framed_importDeclaration
      (packaged.remaining context) next
  have types := imports.followedBy fun imported next =>
    readItems_settled ordered (· != .eof) rfl Language.framed_typeDeclaration
      (imported.remaining context) next
  exact ⟨_, types⟩

end Items

/-- The damage of a whole tree is that of its slots. -/
theorem hasErrors_finishParse (state : State) :
    (state.finishParse context .compilationUnit).root.hasErrors =
      Element.anyDamaged state.slots := by
  have proper : (NodeKind.compilationUnit == .error) = false := by decide
  rw [Node.hasErrors_eq]
  simp [finishParse, gathered, takeAny, Node.spanning, proper]

/-- With recovery, a source file is damaged exactly when an error says so. -/
theorem anyDamaged_readUnit (ordered : context.Ordered) (recovers : context.recovery = true) :
    Element.anyDamaged (readUnit context ⟨0, [], []⟩).slots =
      reportsDamage (readUnit context ⟨0, [], []⟩).errors := by
  obtain ⟨goes, settled⟩ := readUnit_settled ordered
  cases goes with
  | true =>
      rw [Bool.eq_iff_iff]
      constructor
      · exact settled.course.sound.reported
      · intro reports
        exact (settled.course.honest.shown reports).resolve_left (by simp)
  | false =>
      obtain ⟨error, earlier, errors, damages⟩ := settled.reported
      rw [settled.damaged, errors, reportsDamage_cons, damages recovers, Bool.true_or]

/-- Without recovery, a source file is damaged exactly when there is an error. -/
theorem anyDamaged_readUnit_strict (ordered : context.Ordered)
    (strict : context.recovery = false) :
    Element.anyDamaged (readUnit context ⟨0, [], []⟩).slots = true ↔
      (readUnit context ⟨0, [], []⟩).errors ≠ [] := by
  obtain ⟨goes, settled⟩ := readUnit_settled ordered
  cases goes with
  | true =>
      have none := settled.quiet strict
      constructor
      · intro damaged
        have reports := settled.course.sound.reported damaged
        rw [none] at reports
        cases reports
      · intro some
        exact absurd none some
  | false =>
      obtain ⟨error, earlier, errors, _⟩ := settled.reported
      simp [settled.damaged, errors]

end State

theorem reportsDamage_reverse (errors : List SyntaxError) :
    reportsDamage errors.reverse = reportsDamage errors := by
  simp [reportsDamage]

theorem SyntaxFault.damages_iff (fault : SyntaxFault) :
    fault.damages = true ↔ (∃ expected found, fault = .unexpectedToken expected found) ∨
      (∃ construct found, fault = .noViableAlternative construct found) ∨
      ∃ limit, fault = .tooDeeplyNested limit := by
  cases fault <;> simp [damages]

/-- The parse of a source text is that of its tokens, which stand in order. -/
theorem parseUnit_eq_ok {source : String} {config : Config} {parse : Parse}
    (parsed : parseUnit source config = .ok parse) :
    ∃ context : Context, context.Ordered ∧ context.recovery = config.recovery ∧
      parse = (State.readUnit context ⟨0, [], []⟩).finishParse context .compilationUnit := by
  obtain ⟨tokens, lexed, rest⟩ := bind_eq_ok.mp parsed
  obtain rfl := Except.ok.inj rest
  obtain ⟨increasing, ended⟩ := Token.lex_increasing lexed
  exact ⟨.ofTokens tokens config, Context.ordered_ofTokens increasing ended, rfl, rfl⟩

/-- For every source text that can be split into tokens, and every limit: with recovery, the
tree of a source file is damaged exactly when its errors hold one that leaves damage;
without recovery, exactly when there are errors.  So without errors there is neither an
error node nor a missing token in it. -/
theorem hasErrors_parseUnit_iff (source : String) (maxDepth : Nat) :
    (∀ parse, parseUnit source ⟨maxDepth, true⟩ = .ok parse →
      (parse.root.hasErrors = true ↔ ∃ error ∈ parse.errors,
        (∃ expected found, error.fault = .unexpectedToken expected found) ∨
          (∃ construct found, error.fault = .noViableAlternative construct found) ∨
          ∃ limit, error.fault = .tooDeeplyNested limit)) ∧
      (∀ parse, parseUnit source ⟨maxDepth, false⟩ = .ok parse →
        (parse.root.hasErrors = true ↔ parse.errors ≠ [])) ∧
      ∀ recovery parse, parseUnit source ⟨maxDepth, recovery⟩ = .ok parse → parse.errors = [] →
        ∀ node ∈ parse.root.descendants,
          node.kind ≠ .error ∧ ∀ slot ∈ node.children, slot.isMissing = false := by
  have lenient (parse : Parse) (parsed : parseUnit source ⟨maxDepth, true⟩ = .ok parse) :
      parse.root.hasErrors = reportsDamage parse.errors := by
    obtain ⟨context, ordered, recovers, rfl⟩ := parseUnit_eq_ok parsed
    rw [State.hasErrors_finishParse, State.anyDamaged_readUnit ordered recovers]
    exact (reportsDamage_reverse _).symm
  have strict (parse : Parse) (parsed : parseUnit source ⟨maxDepth, false⟩ = .ok parse) :
      parse.root.hasErrors = true ↔ parse.errors ≠ [] := by
    obtain ⟨context, ordered, strict, rfl⟩ := parseUnit_eq_ok parsed
    rw [State.hasErrors_finishParse, State.anyDamaged_readUnit_strict ordered strict]
    simp [State.finishParse, State.takeAny]
  refine ⟨?_, strict, ?_⟩
  · intro parse parsed
    rw [lenient parse parsed, reportsDamage, List.any_eq_true]
    simp only [SyntaxFault.damages_iff]
  · intro recovery parse parsed none node member
    have whole : parse.root.hasErrors = false := by
      cases recovery with
      | true => rw [lenient parse parsed, none, reportsDamage_nil]
      | false => simpa [none] using strict parse parsed
    have flawless : ∀ node ∈ parse.root.descendants,
        node.kind ≠ .error ∧ ∀ slot ∈ node.children, slot.isMissing = false := by
      simpa [Node.hasErrors] using whole
    exact flawless node member

/-- The theorem at a stray brace, which damages the tree, and at an empty declaration. -/
theorem hasErrors_parseUnit_strayBrace :
    (∃ parse, parseUnit "\x7d" ⟨96, true⟩ = .ok parse ∧ parse.root.hasErrors = true) ∧
      (∃ parse, parseUnit "\x7d" ⟨96, false⟩ = .ok parse ∧ parse.root.hasErrors = true) ∧
      ∃ parse, parseUnit ";" ⟨96, true⟩ = .ok parse ∧ parse.errors = [] ∧
        ∀ node ∈ parse.root.descendants,
          node.kind ≠ .error ∧ ∀ slot ∈ node.children, slot.isMissing = false := by
  let brace : List Token := [⟨.rBrace, "\x7d", ⟨0, 1⟩⟩, .endMark 1]
  let semicolon : List Token := [⟨.semi, ";", ⟨0, 1⟩⟩, .endMark 1]
  have lexed : Token.lex "\x7d" = .ok brace := by cbv
  have lexed' : Token.lex ";" = .ok semicolon := by cbv
  have parsed (config : Config) :
      parseUnit "\x7d" config = .ok (Session.start brace config).parseUnit.1 := by
    rw [parseUnit, lexed]
    rfl
  have parsed' (config : Config) :
      parseUnit ";" config = .ok (Session.start semicolon config).parseUnit.1 := by
    rw [parseUnit, lexed']
    rfl
  have reported : (Session.start brace ⟨96, true⟩).parseUnit.1.errors =
      [⟨.noViableAlternative .typeDeclaration .rBrace, ⟨0, 1⟩⟩] := by decide
  have failed : (Session.start brace ⟨96, false⟩).parseUnit.1.errors ≠ [] := by decide
  have clean : (Session.start semicolon ⟨96, true⟩).parseUnit.1.errors = [] := by decide
  have damage := hasErrors_parseUnit_iff "\x7d" 96
  refine ⟨⟨_, parsed _, (damage.1 _ (parsed _)).mpr ?_⟩,
    ⟨_, parsed _, (damage.2.1 _ (parsed _)).mpr failed⟩,
    ⟨_, parsed' _, clean, (hasErrors_parseUnit_iff ";" 96).2.2 true _ (parsed' _) clean⟩⟩
  rw [reported]
  exact ⟨_, List.mem_singleton.mpr rfl, .inr (.inl ⟨_, _, rfl⟩)⟩

end JavaSyntax
