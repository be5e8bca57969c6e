import JavaSyntax.Proofs.Reading.Items
import JavaSyntax.Proofs.Tandem.Framed

/-!
# Parses in tandem

The frames of the language are in order, so its rules can be read in tandem, and
with them the items of a source file and whole parses.
-/

namespace JavaSyntax

/-- What is checked of a grammar: the frames of each rule are in order, and it appends if
it is said to. -/
def framedRule (grammar : Rule → Phrase) (reads : Rule → TokenSet) (appends : Rule → Bool)
    (rule : Rule) : Bool :=
  (grammar rule).closesFilled reads false [] && (grammar rule).wellFramed reads appends false [] &&
    (!appends rule || (grammar rule).appends appends)

theorem readRule_coupled {grammar : Rule → Phrase} {reads : Rule → TokenSet}
    {appends : Rule → Bool} (steady : ∀ rule, steadyRule grammar reads rule = true)
    (framed : ∀ rule, framedRule grammar reads appends rule = true) (depth : Nat) :
    Coupled reads appends (readRule grammar depth) := by
  have appending : ∀ rule, appends rule = true → (grammar rule).appends appends = true := by
    intro rule allowed
    have checked := framed rule
    simp only [framedRule, Bool.and_eq_true] at checked
    simpa [allowed] using checked.2
  induction depth with
  | zero =>
      refine ⟨readRule_steady steady 0, readRule_appending grammar appending 0, ?_⟩
      intro rule left right state state' alike tandem
      have limits : (⟨.tooDeeplyNested right.limit, (state'.current right).span⟩ : SyntaxError) =
          ⟨.tooDeeplyNested left.limit, (state'.current right).span⟩ := by rw [alike.limit]
      simp only [readRule, State.tooDeep, limits]
      exact .error (State.errorLike_current tandem)
  | succ depth ih =>
      refine ⟨readRule_steady steady _, readRule_appending grammar appending _, ?_⟩
      intro rule left right state state' alike tandem
      have checked := framed rule
      simp only [framedRule, Bool.and_eq_true] at checked
      exact Phrase.run_paired ih (grammar rule) checked.1.2 alike tandem
        (absurd · Bool.false_ne_true) (View.fits_nil _ _)
        fun _ => ⟨false, [], (absurd · Bool.false_ne_true), View.fits_nil _ _, checked.1.1⟩

namespace Language

/-- The rules that leave the slots before theirs alone. -/
def appends : Rule → Bool
  | .block => true
  | _ => false

theorem framed_grammar (rule : Rule) : framedRule grammar reads appends rule = true := by
  cases rule with
  | typeArguments diamond => cases diamond <;> decide
  | memberBody kind => cases kind <;> decide +kernel
  | _ => decide +kernel

/-- Whether the frames of a phrase are in order wherever it is read. -/
def framed (phrase : Phrase) : Bool :=
  phrase.closesFilled reads false [] && phrase.wellFramed reads appends false []

theorem framed_packageDeclaration : framed packageDeclaration = true := by
  decide

theorem framed_importDeclaration : framed importDeclaration = true := by
  decide

theorem framed_typeDeclaration : framed (.progress typeDeclaration) = true := by
  decide

theorem read_paired {phrase : Phrase} (checked : framed phrase = true) {left right : Context}
    (alike : left.Matches right) {state state' : State} (tandem : Tandem left right state state') :
    Paired left right state state' (read phrase left state) (read phrase right state') := by
  rw [framed, Bool.and_eq_true] at checked
  rw [read, read, alike.limit]
  exact phrase.run_paired (readRule_coupled steady_grammar framed_grammar _) checked.2 alike tandem
    (absurd · Bool.false_ne_true) (View.fits_nil _ _)
    fun _ => ⟨false, [], (absurd · Bool.false_ne_true), View.fits_nil _ _, checked.1⟩

end Language

/-! ## Items -/

variable {left right : Context}

namespace Like

variable {state state' : State} (like : Like left right state state')
  (alike : left.Matches right)

include like alike

theorem takeRest (rounds : Nat) :
    Like left right (state.takeRest left rounds) (state'.takeRest right rounds) := by
  induction rounds generalizing state state' with
  | zero => exact like
  | succ rounds ih =>
      simp only [State.takeRest, like.atEnd alike]
      split
      · exact like
      · exact ih (like.take alike)

theorem sweep : Like left right (state.sweep left) (state'.sweep right) := by
  simp only [State.sweep, like.atEnd alike, like.remaining alike]
  split
  · exact like
  · have bare : Like left right { state with slots := [] } { state' with slots := [] } :=
      like.withSlots rfl
    exact State.like_putAway (bare.takeRest alike _) like.slots

theorem abandon {error error' : SyntaxError} (errors : ErrorLike left right error error') :
    Like left right (state.abandon left error) (state'.abandon right error') := by
  have noted : Like left right { state with errors := error :: state.errors }
      { state' with errors := error' :: state'.errors } :=
    ⟨like.position, like.slots, .cons errors like.errors⟩
  exact noted.sweep alike

end Like

/-- What two readings of items come to: both go on or both stop, and as long as they go on
they are in tandem. -/
structure Staged (left right : Context) (start start' : State)
    (outcome outcome' : State × Bool) : Prop where
  goes : outcome'.2 = outcome.2
  like : Like left right outcome.1 outcome'.1
  course : outcome.2 = true → Course left start outcome.1
  course' : outcome'.2 = true → Course right start' outcome'.1

namespace Staged

variable {start start' : State} {outcome outcome' : State × Bool}

theorem followedBy {next next' : State → State × Bool}
    (stage : Staged left right start start' outcome outcome')
    (rest : ∀ state state', Tandem left right state state' →
      Staged left right state state' (next state) (next' state')) :
    Staged left right start start' (State.followedBy outcome next)
      (State.followedBy outcome' next') := by
  obtain ⟨state, goes⟩ := outcome
  obtain ⟨state', goes'⟩ := outcome'
  obtain rfl : goes' = goes := stage.goes
  cases goes' with
  | false => exact stage
  | true =>
      have course := stage.course rfl
      have course' := stage.course' rfl
      have later := rest state state' ⟨stage.like, course.sound, course'.sound⟩
      exact ⟨later.goes, later.like, fun ended => course.trans (later.course ended),
        fun ended => course'.trans (later.course' ended)⟩

end Staged

namespace State

variable (alike : left.Matches right)

include alike

theorem readItem_staged {item : Phrase} (checked : Language.framed item = true)
    {state state' : State} (tandem : Tandem left right state state') :
    Staged left right state state' (state.readItem left item) (state'.readItem right item) := by
  have read := Language.read_paired checked alike tandem
  unfold readItem
  rcases read.cases with ⟨after, after', ended, ended', next⟩ |
    ⟨error, error', failed, failed', like⟩
  · simp only [ended, ended']
    exact ⟨rfl, next.toLike, fun _ => read.course ended, fun _ => read.course' ended'⟩
  · simp only [failed, failed']
    exact ⟨rfl, tandem.abandon alike like, (absurd · Bool.false_ne_true),
      (absurd · Bool.false_ne_true)⟩

theorem readItems_staged (continues : TokenKind → Bool) {item : Phrase}
    (checked : Language.framed item = true) (rounds : Nat) {state state' : State}
    (tandem : Tandem left right state state') :
    Staged left right state state' (state.readItems left continues item rounds)
      (state'.readItems right continues item rounds) := by
  have rest {state state' : State} (tandem : Tandem left right state state') :
      Staged left right state state' (state, true) (state', true) :=
    ⟨rfl, tandem.toLike, fun _ => .refl tandem.sound, fun _ => .refl tandem.sound'⟩
  induction rounds generalizing state state' with
  | zero => exact rest tandem
  | succ rounds ih =>
      rw [readItems_succ, readItems_succ, tandem.kindAt alike]
      split
      · exact (readItem_staged alike checked tandem).followedBy fun _ _ next => ih next
      · exact rest tandem

theorem imports_staged {state state' : State} (tandem : Tandem left right state state') :
    Staged left right state state'
      (state.readItems left (· == .kwImport) Language.importDeclaration (state.remaining left))
      (state'.readItems right (· == .kwImport) Language.importDeclaration
        (state'.remaining right)) := by
  rw [tandem.remaining alike]
  exact readItems_staged alike _ Language.framed_importDeclaration _ tandem

theorem types_staged {state state' : State} (tandem : Tandem left right state state') :
    Staged left right state state'
      (state.readItems left (· != .eof) (.progress Language.typeDeclaration) (state.remaining left))
      (state'.readItems right (· != .eof) (.progress Language.typeDeclaration)
        (state'.remaining right)) := by
  rw [tandem.remaining alike]
  exact readItems_staged alike _ Language.framed_typeDeclaration _ tandem

theorem readUnit_like {state state' : State} (tandem : Tandem left right state state') :
    Like left right (state.readUnit left) (state'.readUnit right) := by
  rw [readUnit_eq, readUnit_eq]
  have package := readItem_staged alike Language.framed_packageDeclaration tandem
  have imports := package.followedBy fun _ _ next => imports_staged alike next
  have types := imports.followedBy fun _ _ next => types_staged alike next
  exact types.like

/-- An expression that is given up is read over from the first token. -/
theorem readExpression_like (tandem : Tandem left right ⟨0, [], []⟩ ⟨0, [], []⟩) :
    Like left right (readExpression left ⟨0, [], []⟩) (readExpression right ⟨0, [], []⟩) := by
  have checked : Language.framed (.call .expression) = true := by decide
  have read := Language.read_paired checked alike tandem
  unfold readExpression
  rcases read.cases with ⟨after, after', ended, ended', next⟩ |
    ⟨error, error', failed, failed', like⟩
  · simp only [ended, ended', next.atEnd alike, next.current_kind alike]
    split
    · exact next.toLike
    · have pointed : ErrorLike left right
          ⟨.unexpectedToken .eof (after.current left).kind, (after.current left).span⟩
          ⟨.unexpectedToken .eof (after.current left).kind, (after'.current right).span⟩ :=
        errorLike_current next
      have reported := report_alike next alike pointed
      refine Like.sweep ?_ alike
      generalize after.report left _ = result at reported ⊢
      generalize after'.report right _ = result' at reported ⊢
      cases result <;> cases result'
      · exact ⟨next.position, next.slots, .cons reported next.errors⟩
      · exact reported.elim
      · exact reported.elim
      · exact reported
  · simp only [failed, failed']
    exact tandem.abandon alike like

end State

/-! ## Whole token lists -/

namespace Context

variable {tokens : List Token} {config : Config}

theorem get_ofTokens {index : Nat} {token : Token} (found : tokens[index]? = some token) :
    (ofTokens tokens config).get index = token := by
  simp [get, ofTokens, Array.getD_eq_getD_getElem?, found]

theorem kind_get_beyond {index : Nat} (beyond : tokens[index]? = none) :
    ((ofTokens tokens config).get index).kind = .eof := by
  simp [get, ofTokens, Array.getD_eq_getD_getElem?, beyond, endMarkOf_kind]

theorem ordered_ofTokens
    (increasing : tokens.Pairwise fun left right => left.start < right.start)
    (ended : tokens.getLast?.map Token.kind = some .eof) : (ofTokens tokens config).Ordered := by
  obtain ⟨mark, last, kind⟩ := Option.map_eq_some_iff.mp ended
  rw [List.getLast?_eq_getElem?] at last
  have some : 0 < tokens.length := by
    cases tokens with
    | nil => cases last
    | cons => simp
  refine ⟨by simpa [ofTokens] using increasing, by simpa [ofTokens] using some, ?_⟩
  have size : (ofTokens tokens config).tokens.size = tokens.length := by simp [ofTokens]
  rw [size, get_ofTokens last, kind]

end Context

/-- A reading starts in tandem. -/
theorem Tandem.start {left right : Context} (alike : left.Matches right) :
    Tandem left right ⟨0, [], []⟩ ⟨0, [], []⟩ where
  position := rfl
  slots := rfl
  errors := .nil
  sound := .start alike.ordered
  sound' := .start alike.ordered'

end JavaSyntax
