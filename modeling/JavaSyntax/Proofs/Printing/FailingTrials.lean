import JavaSyntax.Proofs.Printing.KnownTokens

/-!
# Failing trials

Before a parenthesis or an angle bracket the grammar tries whether a lambda, a cast or
a method reference starts there. On printed expressions no such trial succeeds. Many
of them do read a type: in `( a & b ) + c` the parentheses hold one, and so does
`< b , c >` in `f ( a < b , c > d )`. What decides is the token behind it. There is
never an arrow or a `::`, and behind a closing parenthesis there is never the start of
an operand.
-/

namespace JavaSyntax

open JavaSyntax.Language

/-- The kinds of token by which lambdas, method references, annotations and primitive
types are known. -/
def foreign : TokenSet :=
  primitiveTypes ∪ .ofList [.arrow, .colonColon, .atSign]

namespace Piece

/-- Whether a piece starts an operand that has no sign. -/
def startsOperand (piece : Piece) : Bool :=
  unsignedOperandStart.contains piece.kind

/-- Whether no piece is foreign, and no operand stands right behind a closing
parenthesis. -/
def calm : List Piece → Bool
  | [] => true
  | piece :: rest =>
      !foreign.contains piece.kind &&
        (piece.kind != .rParen || !rest.head?.any startsOperand) && calm rest

theorem calm_cons {piece : Piece} {rest : List Piece}
    (native : foreign.contains piece.kind = false) (opening : piece.kind ≠ .rParen)
    (calmRest : calm rest = true) : calm (piece :: rest) = true := by
  simp [calm, native, opening, calmRest]

theorem calm_append_of_open {front rest : List Piece}
    (opening : ∀ piece ∈ front, foreign.contains piece.kind = false ∧ piece.kind ≠ .rParen)
    (calmRest : calm rest = true) : calm (front ++ rest) = true := by
  induction front with
  | nil => exact calmRest
  | cons piece front ih =>
      have ⟨native, opens⟩ := opening piece List.mem_cons_self
      exact calm_cons native opens (ih fun next member => opening next (.tail _ member))

theorem calm_append {front rest : List Piece} (calmFront : calm front = true)
    (calmRest : calm rest = true) (idle : rest.head?.any startsOperand = false) :
    calm (front ++ rest) = true := by
  induction front with
  | nil => exact calmRest
  | cons piece front ih =>
      simp only [calm, Bool.and_eq_true] at calmFront
      obtain ⟨⟨native, followed⟩, calmFront⟩ := calmFront
      cases front with
      | nil => simp [calm, native, calmRest, idle]
      | cons next front =>
          have tail := ih calmFront
          simp only [List.cons_append, calm, List.head?_cons, Bool.and_eq_true] at followed tail ⊢
          exact ⟨⟨native, followed⟩, tail⟩

/-- The kind of a piece, where an end mark stands behind the last one. -/
def kindAt (pieces : List Piece) (index : Nat) : TokenKind :=
  (pieces[index]?.map kind).getD .eof

theorem kindAt_of_calm {pieces : List Piece} (calmAll : calm pieces = true) (index : Nat) :
    foreign.contains (kindAt pieces index) = false ∧
      (kindAt pieces index = .rParen →
        unsignedOperandStart.contains (kindAt pieces (index + 1)) = false) := by
  induction pieces generalizing index with
  | nil => exact ⟨show foreign.contains .eof = false by decide, fun closing => by cases closing⟩
  | cons piece rest ih =>
      simp only [calm, Bool.and_eq_true] at calmAll
      obtain ⟨⟨native, followed⟩, calmRest⟩ := calmAll
      cases index with
      | succ index => exact ih calmRest index
      | zero =>
          refine ⟨by simpa [kindAt] using native, ?_⟩
          intro closing
          change piece.kind = .rParen at closing
          cases rest with
          | nil => exact show unsignedOperandStart.contains .eof = false by decide
          | cons next rest =>
              rw [closing] at followed
              simpa [kindAt, startsOperand] using followed

theorem getElem?_tokens (pieces : List Piece) (start index : Nat) :
    (tokens start pieces)[index]?.map Token.kind = pieces[index]?.map kind := by
  induction pieces generalizing start index with
  | nil => rfl
  | cons piece rest ih =>
      cases index with
      | zero => rfl
      | succ index => exact ih _ index

@[simp] theorem length_tokens (start : Nat) (pieces : List Piece) :
    (tokens start pieces).length = pieces.length := by
  induction pieces generalizing start with
  | nil => rfl
  | cons piece rest ih => simp [tokens, ih]

end Piece

/-! ## Printed expressions are calm -/

theorem BinaryOperator.opening (operator : BinaryOperator) :
    ∀ piece ∈ operator.pieces, foreign.contains piece.kind = false ∧ piece.kind ≠ .rParen := by
  cases operator <;> decide

theorem Spelling.calm_cons {kind : TokenKind} {rest : List Piece} (spelling : Spelling kind)
    (native : foreign.contains kind = false) (opening : kind ≠ .rParen)
    (calmRest : Piece.calm rest = true) : Piece.calm (spelling.piece :: rest) = true :=
  Piece.calm_cons native opening calmRest

namespace Expression

open Piece

mutual

/-- Every printed expression is calm, and so it is with arguments. -/
theorem calm_pieces : (expression : Expression) → calm expression.pieces = true
  | .literal value => value.calm_cons (by decide) (by decide) rfl
  | .name text => text.calm_cons (by decide) (by decide) rfl
  | .parenthesized inner =>
      calm_append (calm_cons (by decide) (by decide) inner.calm_pieces) (by decide) (by decide)
  | .binary operator left right => by
      rw [pieces, List.append_assoc]
      exact calm_append left.calm_pieces
        (calm_append_of_open operator.opening right.calm_pieces) (by cases operator <;> rfl)
  | .prefixed operator operand =>
      calm_cons (by cases operator <;> decide) (by cases operator <;> decide) operand.calm_pieces
  | .postfixed operand operator =>
      calm_append operand.calm_pieces (by cases operator <;> decide)
        (by cases operator <;> decide)
  | .field object member =>
      calm_append object.calm_pieces
        (calm_cons (by decide) (by decide) (member.calm_cons (by decide) (by decide) rfl)) rfl
  | .element array index =>
      calm_append (calm_append array.calm_pieces
        (calm_cons (by decide) (by decide) index.calm_pieces) rfl) rfl rfl
  | .call method arguments => method.calm_cons (by decide) (by decide) (calm_arguments arguments)
  | .invoke object method arguments =>
      calm_append object.calm_pieces
        (calm_cons (by decide) (by decide)
          (method.calm_cons (by decide) (by decide) (calm_arguments arguments))) rfl
  | .conditional condition yes no =>
      calm_append (calm_append condition.calm_pieces
        (calm_cons (by decide) (by decide) yes.calm_pieces) rfl)
        (calm_cons (by decide) (by decide) no.calm_pieces) rfl
  | .assign target operator value =>
      calm_append target.calm_pieces
        (calm_cons (by cases operator <;> decide) (by cases operator <;> decide) value.calm_pieces)
        (by cases operator <;> rfl)

theorem calm_arguments : (arguments : List Expression) → calm (argumentPieces arguments) = true
  | [] => rfl
  | first :: rest =>
      calm_append (calm_cons (by decide) (by decide)
        (calm_append first.calm_pieces (calm_further rest).1 (calm_further rest).2)) rfl rfl

theorem calm_further : (arguments : List Expression) →
    calm (furtherPieces arguments) = true ∧
      (furtherPieces arguments).head?.any startsOperand = false
  | [] => ⟨rfl, rfl⟩
  | next :: rest =>
      ⟨calm_append (calm_cons (by decide) (by decide) next.calm_pieces) (calm_further rest).1
        (calm_further rest).2, rfl⟩

end

end Expression

/-! ## Calm contexts -/

/-- The tokens of a context are calm: none is foreign, and no operand stands right behind
a closing parenthesis. -/
structure Context.Calm (context : Context) : Prop where
  native : ∀ index, foreign.contains (context.get index).kind = false
  closed : ∀ index, (context.get index).kind = .rParen →
    unsignedOperandStart.contains (context.get (index + 1)).kind = false

theorem Context.calm_ofTokens {pieces : List Piece} (calm : Piece.calm pieces = true)
    (start stop : Nat) (config : Config) :
    (Context.ofTokens (Piece.tokens start pieces ++ [.endMark stop]) config).Calm := by
  have kinds (index : Nat) :
      ((Context.ofTokens (Piece.tokens start pieces ++ [.endMark stop]) config).get index).kind =
        Piece.kindAt pieces index := by
    rw [Piece.kindAt, ← Piece.getElem?_tokens pieces start]
    simp only [Context.get, Context.ofTokens, Array.getD_eq_getD_getElem?, List.getElem?_toArray]
    by_cases inside : index < (Piece.tokens start pieces).length
    · simp [List.getElem?_append_left inside, List.getElem?_eq_getElem inside]
    · have beyond : (Piece.tokens start pieces)[index]? = none := by simpa using inside
      rw [List.getElem?_append_right (by omega), beyond]
      cases index - (Piece.tokens start pieces).length with
      | zero => rfl
      | succ more => exact Context.endMarkOf_kind _
  constructor
  · intro index
    rw [kinds]
    exact (Piece.kindAt_of_calm calm index).1
  · intro index
    rw [kinds, kinds]
    exact (Piece.kindAt_of_calm calm index).2

namespace Context.Calm

variable {context : Context} (calm : context.Calm) {rules : Rule → Context → Step}
include calm

theorem trial : context.trial.Calm := ⟨calm.native, calm.closed⟩

theorem is_foreign {kind : TokenKind} (outside : foreign.contains kind = true) (state : State) :
    (Condition.is kind).holds rules context state = false := by
  have native := calm.native (state.position + 0)
  rw [Condition.holds_is, decide_eq_false_iff_not]
  rintro rfl
  rw [State.kindAt, native] at outside
  cases outside

/-- A trial that has to lead to a foreign token comes to nothing. -/
theorem ahead_foreign {kind : TokenKind} (outside : foreign.contains kind = true) (phrase : Phrase)
    (state : State) : (Condition.ahead phrase (.is kind)).holds rules context state = false := by
  simp only [Condition.holds]
  split
  · exact calm.trial.is_foreign outside _
  · rfl

theorem startsLambda_fails (state : State) : startsLambda.holds rules context state = false := by
  have arrow : (Condition.nextIs 1 .arrow).holds rules context state = false := by
    have native := calm.native (state.position + 1)
    rw [Condition.holds_nextIs, decide_eq_false_iff_not]
    intro same
    rw [← State.kindAt, ← same] at native
    cases native
  simp only [startsLambda, Condition.holds_or, Condition.holds_and, arrow,
    calm.ahead_foreign (by decide : foreign.contains .arrow = true), Bool.and_false, Bool.or_false]

theorem leadsToGenericReference_fails (state : State) :
    leadsToGenericReference.holds rules context state = false :=
  calm.ahead_foreign (by decide) _ state

end Context.Calm

/-! ## Casts -/

/-- Without recovery a required token is there, or the reading ends. -/
theorem State.expect_strict {context : Context} (strict : context.recovery = false)
    {state after : State} {kind : TokenKind} (more : kind ≠ .eof)
    (read : state.expect context kind = .ok after) :
    (context.get state.position).kind = kind ∧
      after = ⟨state.position + 1, state.errors,
        .token (context.get state.position) :: state.slots⟩ := by
  simp only [State.expect] at read
  split at read
  · next found =>
    have found : (context.get state.position).kind = kind := found
    have inside := Context.lt_size_of_kind_ne (found ▸ more)
    have goesOn : state.atEnd context = false := by
      simpa [State.atEnd, State.kindAt, found] using more
    cases read
    exact ⟨found, by simp [State.take, goesOn, State.takeAny, inside, State.current]⟩
  · simp [State.report, strict, bind, Except.bind] at read

theorem Phrase.slots_around {rules : Rule → Context → Step} {context : Context} {body : Phrase}
    {kind : NodeKind} {state after : State} {left : Element} {below : List Element}
    (slots : state.slots = left :: below)
    (read : (around 1 kind body).run rules context state = .ok after) :
    ∃ built, after.slots = built :: below ∧ built.nodeKind? = some kind := by
  obtain ⟨inner, bodyRead, rfl⟩ := State.inFrame_eq_ok.mp read
  obtain ⟨filled, -, closed⟩ := bind_eq_ok.mp bodyRead
  cases closed
  exact ⟨_, by rw [slots]; rfl, rfl⟩

/-- A type is at hand that is no primitive one: it stands on some slots, perhaps below
others. -/
def NamedOn (below slots : List Element) : Prop :=
  ∃ above named, slots = above ++ named :: below ∧ named.nodeKind? ≠ some .primitiveType

theorem namedOn_arrayDims {rules : Rule → Context → Step} {context : Context}
    {state after : State} {named : Element} {below : List Element}
    (slots : state.slots = named :: below) (noPrimitive : named.nodeKind? ≠ some .primitiveType)
    (read : arrayDims.run rules context state = .ok after) : NamedOn below after.slots := by
  obtain ⟨inner, whole, rfl⟩ := State.inFrame_eq_ok.mp read
  obtain ⟨dims, framed, ended⟩ := bind_eq_ok.mp whole
  obtain ⟨inside, -, rfl⟩ := State.inFrame_eq_ok.mp framed
  split at ended
  · cases ended
    exact ⟨[], _, by rw [slots]; rfl, by exact nofun⟩
  · cases ended
    exact ⟨inside.slots, named, by simp [State.onto, slots], noPrimitive⟩

/-- A rule for types that, behind an absent slot for annotations, builds no primitive
type. -/
def NamesTypes (rules : Rule → Context → Step) (context : Context) : Prop :=
  ∀ (position : Nat) (errors : List SyntaxError) (below : List Element) (after : State),
    rules .typeRest context.trial ⟨position, errors, .absent :: below⟩ = .ok after →
      NamedOn below after.slots

namespace Context.Calm

variable {context : Context} (calm : context.Calm) {rules : Rule → Context → Step}
include calm

theorem annotations_run (position : Nat) (errors : List SyntaxError) (slots : List Element) :
    annotations.run rules context ⟨position, errors, slots⟩ =
      .ok ⟨position, errors, .absent :: slots⟩ := by
  have idle : (Phrase.onlyIf startsAnnotationUse annotationUse).run rules context
      ⟨position, errors, []⟩ = .ok ⟨position, errors, []⟩ := by
    refine Phrase.run_no ?_ rfl
    rw [startsAnnotationUse, Condition.holds_and, calm.is_foreign (by decide), Bool.false_and]
  have gathered : (Phrase.many (.onlyIf startsAnnotationUse annotationUse) ++
      .choose (.shape .empty) .absent (.close .annotations)).run rules context
        ⟨position, errors, []⟩ = .ok ⟨position, errors, [.absent]⟩ :=
    Phrase.run_seq (State.iterate_idle idle _) (Phrase.run_yes rfl rfl)
  exact State.inFrame_eq_ok.mpr ⟨_, gathered, rfl⟩

theorem namedOn_typeRest {position : Nat} {errors : List SyntaxError} {below : List Element}
    {after : State}
    (read : typeRest.run rules context.trial ⟨position, errors, .absent :: below⟩ = .ok after) :
    NamedOn below after.slots := by
  have noPrimitive : (among primitiveTypes).holds rules context.trial
      ⟨position, errors, .absent :: below⟩ = false := by
    have native := calm.native position
    exact (Bool.or_eq_false_iff.mp ((TokenSet.contains_union _ _ _).symm.trans native)).1
  simp only [typeRest, Phrase.run, noPrimitive, Bool.false_eq_true, if_false] at read
  split at read
  · obtain ⟨middle, classRead, dimsRead⟩ := bind_eq_ok.mp read
    obtain ⟨built, slots, kind⟩ := Phrase.slots_around rfl classRead
    exact namedOn_arrayDims slots (by rw [kind]; exact nofun) dimsRead
  · -- A token that starts no type is an error, and a trial ends with its first one.
    cases read

/-- Parentheses that were read as those of a cast hold no primitive type, and no operand
stands behind them. -/
theorem castHead_run (names : NamesTypes rules context) {position : Nat}
    {errors : List SyntaxError} {token : Token} {rest : List Token} {after : State}
    (shows : context.Shows position (token :: rest)) (opening : token.kind = .lParen)
    (read : castHead.run rules context.trial ⟨position, errors, []⟩ = .ok after) :
    Shape.primitiveInParentheses.holds after.slots = false ∧
      unsignedOperandStart.contains (after.kindAt context 0) = false := by
  obtain ⟨bounded, head, ended⟩ := bind_eq_ok.mp read
  obtain ⟨typed, head, bounds⟩ := bind_eq_ok.mp head
  obtain ⟨opened, taken, typeRead⟩ := bind_eq_ok.mp head
  obtain ⟨annotated, started, typeRead⟩ := bind_eq_ok.mp typeRead
  have taken := (Except.ok.inj taken).symm.trans
    (State.take_eq shows.trial (by rw [opening]; decide))
  obtain rfl := taken
  rw [calm.trial.annotations_run] at started
  obtain rfl := (Except.ok.inj started).symm
  obtain ⟨above, named, slots, noPrimitive⟩ := names _ _ _ _ typeRead
  obtain ⟨closing, rfl⟩ := State.expect_strict rfl (by decide) ended
  have appends : typed.slots <:+ bounded.slots :=
    @Phrase.run_appending rules (fun _ => false) (fun _ _ never => absurd never Bool.false_ne_true)
      (.repeatWhile (.is .amp) additionalBound) context.trial rfl typed bounded bounds
  obtain ⟨more, appended⟩ := appends
  constructor
  · have second :
        (Element.token (context.trial.get bounded.position) :: bounded.slots).reverse[1]? =
          some named := by
      simp [← appended, slots]
    rw [Shape.holds, second, Option.any_some]
    simp [noPrimitive]
  · exact calm.closed bounded.position closing

omit calm in
theorem commitsToCast_fails {after : State}
    (noPrimitive : Shape.primitiveInParentheses.holds after.slots = false)
    (noOperand : unsignedOperandStart.contains (after.kindAt context 0) = false) :
    commitsToCast.holds rules context after = false := by
  have noCall : (Condition.is .lParen).holds rules context after = false := by
    rw [Condition.holds_is, decide_eq_false_iff_not]
    intro same
    rw [← same] at noOperand
    cases noOperand
  have shape : (Condition.shape .primitiveInParentheses).holds rules context after = false :=
    noPrimitive
  have operand : (among unsignedOperandStart).holds rules context after = false := noOperand
  simp only [commitsToCast, Condition.holds_or, Condition.holds_and, noCall, shape, operand,
    Bool.false_and, Bool.and_false, Bool.or_false]

/-- No prefix is read at a name, a literal or a parenthesis: it opens no cast. -/
theorem prefixLink_declines (names : NamesTypes rules context) {position : Nat}
    {errors : List SyntaxError} {token : Token} {rest : List Token}
    (shows : context.Shows position (token :: rest))
    (operand : token.kind ∈ [.integerLiteral, .identifier, .lParen]) :
    prefixLink.run rules context ⟨position, errors, []⟩ = .ok ⟨position, errors, []⟩ := by
  have kind : State.kindAt context ⟨position, errors, []⟩ 0 = token.kind := State.kindAt_zero shows
  have noSign : (Condition.isOneOf [.plusPlus, .minusMinus, .plus, .minus, .bang, .tilde]).holds
      rules context ⟨position, errors, []⟩ = false := by
    simp only [Condition.isOneOf, Condition.holds, kind, TokenSet.contains_ofList]
    simp only [List.mem_cons, List.not_mem_nil, or_false] at operand
    obtain same | same | same := operand <;> rw [same] <;> rfl
  refine Phrase.run_no noSign ?_
  by_cases opening : token.kind = .lParen
  · refine Phrase.run_yes (by rw [Condition.holds_is, kind, opening]; rfl) ?_
    simp only [Phrase.run]
    split
    · next after read =>
      obtain ⟨noPrimitive, noOperand⟩ := calm.castHead_run names shows opening read
      rw [commitsToCast_fails noPrimitive noOperand]
      rfl
    · rfl
  · refine Phrase.run_no ?_ rfl
    rw [Condition.holds_is, kind]
    exact decide_eq_false (Ne.symm opening)

end Context.Calm

end JavaSyntax
