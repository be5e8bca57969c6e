import JavaSyntax.Proofs.Locality.Blocks
import JavaSyntax.Proofs.Outline.Clean

/-!
# A class with one method

A source file that starts with `class A { void m() {` is read up to that brace whatever
follows.  So what is known of its tree, and whether it is read without errors, depends on how
the block is read that starts there, and on what follows the block.
-/

namespace JavaSyntax

open JavaSyntax.Language Phrase Condition

theorem map_eq_ok {ε α β : Type} {first : Except ε α} {next : α → β} {result : β} :
    first.map next = .ok result ↔ ∃ value, first = .ok value ∧ next value = result := by
  cases first <;> simp [Except.map]

namespace State

theorem iterate_of_stays {step : Step} {state : State} (stays : step state = .ok state)
    (count : Nat) : iterate step count state = .ok state := by
  cases count with
  | zero => exact stays
  | succ count =>
      simp only [iterate, stays]
      exact if_neg (Nat.lt_irrefl _)

theorem exists_close (context : Context) (state : State) (kind : NodeKind) :
    ∃ span, (state.close context kind).slots = [.node kind span state.gathered] :=
  ⟨_, rfl⟩

/-- What a loop goes through whose rounds read one thing at a time. -/
theorem round_appending (condition : Condition) (body : Phrase) (rules : Rule → Context → Step)
    (context : Context) :
    Appending ((onlyIf condition (.progress body)).run rules context) := by
  intro before after read
  simp only [onlyIf, Phrase.run] at read
  split at read
  · exact progress_appending _ _ _ read
  · cases read
    exact List.suffix_refl _

/-- The first round of a loop, after which slots are only appended. -/
theorem exists_first_round {step : Step} (appending : Appending step) {count : Nat}
    {state after : State} (read : iterate step count state = .ok after) :
    ∃ next, step state = .ok next ∧ next.slots <:+ after.slots := by
  obtain ⟨next, stepped, rfl | ⟨_, fewer, rest⟩⟩ := iterate_first read
  · exact ⟨after, stepped, List.suffix_refl _⟩
  · exact ⟨next, stepped, iterate_appending appending fewer _ _ rest⟩

/-- The state after a method whose body was just read, behind its header. -/
def endMethod (context : Context) (header : Element) (after : State) : State :=
  ((after.close context .methodBody).onto [header, .absent]).close context .methodDeclaration

end State

namespace Node

/-- The block of the first method of the first class. -/
def methodBlock? (root : Node) : Option Node := do
  let declared ← root.childOf? .normalClassDeclaration
  let members ← declared.childOf? .classBody
  let method ← members.childOf? .methodDeclaration
  let body ← method.childOf? .methodBody
  body.childOf? .block

/-- Where that block is in the tree of a class that starts with a method. -/
theorem methodBlock?_of_children {root block : Node} {declared members method body : Span}
    {keyword name brace : Token} {header : Element} {below others : List Element}
    (listed : root.children = .absent :: .node .normalClassDeclaration declared [.absent,
      .token keyword, .token name, .absent, .absent, .absent, .node .classBody members
        (.token brace :: .node .methodDeclaration method [.absent, header,
          .node .methodBody body [block.toElement]] :: below)] :: others)
    (isHeader : header.nodeKind? = some .methodHeader) (isBlock : block.kind = .block) :
    root.methodBlock? = some block := by
  cases header with
  | token | missing | absent => cases isHeader
  | node kind span children =>
      obtain rfl : kind = .methodHeader := Option.some.inj isHeader
      simp [methodBlock?, childOf?, childNodes, listed, Element.node?, toElement, isBlock]
      rw [← isBlock]

end Node

/-- The kinds of the tokens of `class A { void m() {`. -/
def openingKinds : List TokenKind :=
  [.kwClass, .identifier, .lBrace, .kwVoid, .identifier, .lParen, .rParen, .lBrace]

/-- A token list that starts with `class A { void m() {`. -/
def Context.Opens (context : Context) : Prop :=
  ∀ index kind, openingKinds[index]? = some kind → (context.get index).kind = kind

namespace Context

variable {context : Context} {position : Nat} {kind : TokenKind}
  (found : (context.get position).kind = kind) (more : kind ≠ .eof)
  (rules : Rule → Context → Step) (errors : List SyntaxError) (slots : List Element)

include found

theorem take_eq (more : kind ≠ .eof) : (⟨position, errors, slots⟩ : State).take context =
    ⟨position + 1, errors, .token (context.get position) :: slots⟩ := by
  have notEnd : (⟨position, errors, slots⟩ : State).atEnd context = false := by
    rw [State.atEnd, State.kindAt, Nat.add_zero, found]
    exact beq_eq_false_iff_ne.mpr more
  have inside : position < context.tokens.size :=
    lt_size_of_kind_ne (by rw [found]; exact more)
  simp [State.take, notEnd, State.takeAny, State.current, inside]

theorem expect_run (more : kind ≠ .eof) :
    (Phrase.expect kind).run rules context ⟨position, errors, slots⟩ =
      .ok ⟨position + 1, errors, .token (context.get position) :: slots⟩ := by
  have here : (State.current context ⟨position, errors, slots⟩).kind = kind := found
  simp only [Phrase.run, State.expect, here, if_true, take_eq found _ _ more]

theorem modifiers_run (plain : kind ≠ .atSign) (none : memberModifiers.contains kind = false) :
    (modifiers memberModifiers).run rules context ⟨position, errors, slots⟩ =
      .ok ⟨position, errors, .absent :: slots⟩ := by
  simp [modifiers, gather, onlyIf, Phrase.run, startsAnnotationUse, among, Condition.holds,
    State.kindAt, found, plain.symm, none, State.iterate_of_stays, State.inFrame, bind,
    Except.bind, pure, Except.pure, Shape.holds, State.push]

end Context

namespace Context.Opens

variable {context : Context} (opens : context.Opens) (rules : Rule → Context → Step)
  (errors : List SyntaxError)

include opens

/-! ## Up to the block -/

/-- The slots of the class before its body. -/
theorem typeDeclaration_run : typeDeclaration.run rules context ⟨0, errors, []⟩ =
    (rules (.memberBody .classBody) context ⟨2, errors, [.absent, .absent, .absent,
      .token (context.get 1), .token (context.get 0), .absent]⟩).map
      (·.close context .normalClassDeclaration) := by
  have first := opens 0 _ rfl
  have second := opens 1 _ rfl
  have third := opens 2 _ rfl
  have modified := modifiers_run first rules errors [] (by decide) (by decide)
  simp [typeDeclaration, typeDeclarationRest, classRest, superinterfaces, optionalTypeParameters,
    Phrase.optional, around, Phrase.run, Condition.holds, Condition.is, State.kindAt, first,
    second, third, modified, Except.bind, bind, State.inFrame, State.expect, State.current,
    take_eq first, take_eq second, State.push]
  cases rules (.memberBody .classBody) context _ with
  | error => rfl
  | ok => simp [Except.map, pure, Except.pure, State.close]

theorem header_run : ∃ header : Element, header.nodeKind? = some .methodHeader ∧
    (around 2 .methodHeader methodHeaderRest).run rules context
        ⟨4, errors, [.token (context.get 3), .absent, .absent]⟩ =
      .ok ⟨7, errors, [header, .absent]⟩ := by
  have name := opens 4 _ rfl
  have left := opens 5 _ rfl
  have right := opens 6 _ rfl
  have brace := opens 7 _ rfl
  refine ⟨?header, ?isHeader, ?read⟩
  case read =>
    simp [methodHeaderRest, parameterList, dims, startsDim, startsAnnotationUse, throws, gather,
      onlyIf, Phrase.optional, around, node, Phrase.run, Condition.holds, Condition.is,
      Condition.nextIs, State.kindAt, name, left, right, brace, Except.bind, bind, State.inFrame,
      State.expect, State.current, take_eq name, take_eq left, take_eq right, State.push,
      State.iterate_of_stays, Shape.holds, pure, Except.pure]
    rfl
  case isHeader => rfl

theorem member_run : ∃ header : Element, header.nodeKind? = some .methodHeader ∧
    (member .classBody).run rules context ⟨3, errors, []⟩ =
      (rules .block context ⟨7, errors, []⟩).map (·.endMethod context header) := by
  have result := opens 3 _ rfl
  have brace := opens 7 _ rfl
  have modified := modifiers_run result rules errors [] (by decide) (by decide)
  obtain ⟨header, isHeader, read⟩ := opens.header_run rules errors
  refine ⟨header, isHeader, ?_⟩
  simp [member, memberRest, methodBody, startsCall, startsAnnotationType, node, Phrase.run,
    Condition.holds, Condition.is, Condition.isOneOf, Condition.nextIs, State.kindAt, result,
    brace, modified, read, Except.bind, bind, State.inFrame, take_eq result, State.push]
  cases rules .block context _ with
  | error => rfl
  | ok =>
      simp [Except.map, pure, Except.pure, State.close, State.endMethod, State.onto]
      rfl

/-! ## The body of the class -/

/-- One of the members of the class, unless its body ends here. -/
def memberRound : Phrase :=
  onlyIf (.not (isOneOf [.rBrace, .eof])) (.progress (member .classBody))

/-- The first of the members is the method. -/
theorem member_round (depth : Nat) (base : List Element) :
    ∃ header : Element, header.nodeKind? = some .methodHeader ∧
    ∀ after, memberRound.run (readRule grammar depth) context ⟨3, errors, base⟩ = .ok after ↔
      ∃ inner, readRule grammar depth .block context ⟨7, errors, []⟩ = .ok inner ∧
        7 ≤ inner.position ∧ after = (inner.endMethod context header).onto base := by
  have result := opens 3 _ rfl
  obtain ⟨header, isHeader, whole⟩ := opens.member_run (readRule grammar depth) errors
  refine ⟨header, isHeader, fun after => ?_⟩
  have goesOn : (Condition.not (isOneOf [.rBrace, .eof])).holds (readRule grammar depth) context
      ⟨3, errors, base⟩ = true := by
    simp [Condition.holds, isOneOf, State.kindAt, result]
  simp only [memberRound, onlyIf, Phrase.run, goesOn, if_true]
  constructor
  · intro read
    obtain ⟨_, started, ended⟩ := State.exists_of_progress read
    rw [whole] at started
    obtain ⟨inner, blocked, rfl⟩ := map_eq_ok.mp started
    have onward : 7 ≤ inner.position := (moving (.call .block) _ _ _ _ blocked).forward_any
    exact ⟨inner, blocked, onward, ended (by change 3 < inner.position; omega)⟩
  · rintro ⟨inner, blocked, onward, rfl⟩
    refine State.progress_of_moved (whole.trans ?_) ?_
    · rw [blocked]
      rfl
    · change 3 < inner.position
      omega

variable {depth : Nat} {slots : List Element} {after : State}

omit opens in
theorem expect_appending (kind : TokenKind) {state after : State}
    (read : (Phrase.expect kind).run rules context state = .ok after) :
    state.slots <:+ after.slots :=
  State.expect_appending kind _ _ read

/-- The body of the class starts with the method. -/
theorem classBody_of_run
    (read : (memberBody .classBody).run (readRule grammar depth) context ⟨2, errors, slots⟩ =
      .ok after) :
    ∃ header inner span rest, header.nodeKind? = some .methodHeader ∧
      readRule grammar depth .block context ⟨7, errors, []⟩ = .ok inner ∧
      after.slots = .node .classBody span (.token (context.get 2) ::
        (inner.endMethod context header).gathered ++ rest) :: slots := by
  obtain ⟨header, isHeader, first⟩ := opens.member_round errors depth [.token (context.get 2)]
  obtain ⟨closed, framed, rfl⟩ := State.inFrame_eq_ok.mp read
  obtain ⟨ended, filled, closing⟩ := bind_eq_ok.mp framed
  cases closing
  obtain ⟨middle, started, ending⟩ := bind_eq_ok.mp filled
  obtain ⟨opened, taken, looped⟩ := bind_eq_ok.mp started
  have opening := expect_run (opens 2 _ rfl) (readRule grammar depth) errors [] (by decide)
  obtain rfl := Except.ok.inj (opening.symm.trans taken)
  obtain ⟨next, round, kept⟩ := State.exists_first_round (State.round_appending _ _ _ _) looped
  obtain ⟨inner, blocked, -, rfl⟩ := (first next).mp round
  obtain ⟨later, same⟩ := kept.trans (expect_appending _ _ ending)
  obtain ⟨span, closed⟩ := ended.exists_close context .classBody
  refine ⟨header, inner, span, later.reverse, isHeader, blocked, ?_⟩
  have filled : ended.gathered = .token (context.get 2) ::
      (inner.endMethod context header).gathered ++ later.reverse := by
    simp [State.gathered, ← same, State.onto]
  change (ended.close context .classBody).slots ++ slots = _
  rw [closed, filled]
  rfl

theorem classBody_run {inner : State}
    (blocked : readRule grammar depth .block context ⟨7, errors, []⟩ = .ok inner)
    (closes : (context.get inner.position).kind = .rBrace) :
    ∃ after, (memberBody .classBody).run (readRule grammar depth) context ⟨2, errors, slots⟩ =
      .ok after ∧ after.position = inner.position + 1 ∧ after.errors = inner.errors := by
  obtain ⟨header, -, first⟩ := opens.member_round errors depth [.token (context.get 2)]
  have onward : 7 ≤ inner.position := (moving (.call .block) _ _ _ _ blocked).forward_any
  have inside : inner.position < context.tokens.size :=
    lt_size_of_kind_ne (by rw [closes]; decide)
  have opening := expect_run (opens 2 _ rfl) (readRule grammar depth) errors [] (by decide)
  have round := (first _).mpr ⟨inner, blocked, onward, rfl⟩
  obtain ⟨next, isNext⟩ : ∃ next, next =
      (inner.endMethod context header).onto [.token (context.get 2)] := ⟨_, rfl⟩
  have there : next.position = inner.position := by rw [isNext]; rfl
  have stays : memberRound.run (readRule grammar depth) context next = .ok next := by
    simp [memberRound, onlyIf, Phrase.run, Condition.holds, isOneOf, State.kindAt, there, closes]
  rw [← isNext] at round
  have looped : (members .classBody).run (readRule grammar depth) context
      ⟨3, errors, [.token (context.get 2)]⟩ = .ok next := by
    refine (State.Rounds.next round ?_ (.done next)).iterate_eq stays (Nat.le_refl _) ?_
    · simp only [there]
      omega
    · simp only [State.remaining, there]
      omega
  have closing := expect_run closes (readRule grammar depth) next.errors next.slots (by decide)
  rw [← there] at closing
  refine ⟨_, State.inFrame_eq_ok.mpr ⟨_, bind_eq_ok.mpr ⟨_, bind_eq_ok.mpr ⟨_,
    bind_eq_ok.mpr ⟨_, opening, looped⟩, closing⟩, rfl⟩, rfl⟩, ?_, ?_⟩
  · rw [← there]
    rfl
  · rw [isNext]
    rfl

/-! ## The source file -/

omit errors rules in
/-- There is no package and there are no imports. -/
theorem readUnit_eq : ∃ rounds, State.readUnit context ⟨0, [], []⟩ =
    (State.followedBy
      (State.readItem context (.progress typeDeclaration) ⟨0, [], [.absent]⟩)
      (State.readItems context (· != .eof) (.progress typeDeclaration) rounds)).1 := by
  have first := opens 0 _ rfl
  have package : State.readItem context packageDeclaration ⟨0, [], []⟩ =
      (⟨0, [], [.absent]⟩, true) := by
    simp [State.readItem, Language.read, packageDeclaration, Phrase.optional, Phrase.run,
      startsAnnotationUse, Condition.holds, Condition.is, State.kindAt, first, State.push]
  have imports (rounds : Nat) : State.readItems context (· == .kwImport) importDeclaration rounds
      ⟨0, [], [.absent]⟩ = (⟨0, [], [.absent]⟩, true) := by
    cases rounds with
    | zero => rfl
    | succ rounds => simp [State.readItems_succ, State.kindAt, first]
  have inside : 0 < context.tokens.size := lt_size_of_kind_ne (by rw [first]; decide)
  refine ⟨context.tokens.size - 1, ?_⟩
  have more : State.remaining context ⟨0, [], [.absent]⟩ = context.tokens.size - 1 + 1 := by
    simp only [State.remaining]
    omega
  rw [State.readUnit_eq, package]
  simp only [State.followedBy, imports, more, State.readItems_succ]
  simp [State.kindAt, first]

/-- A file that is read without errors, whatever follows: the block of the method is read in
one piece, and stands in the tree. -/
theorem exists_block (clean : (State.readUnit context ⟨0, [], []⟩).errors = []) :
    ∃ depth inner, context.limit = depth + 1 ∧
      readRule grammar depth .block context ⟨7, [], []⟩ = .ok inner ∧
      ∀ (context' : Context) (block : Node), inner.slots = [block.toElement] →
        block.kind = .block → ((State.readUnit context ⟨0, [], []⟩).finishParse context'
          .compilationUnit).root.methodBlock? = some block := by
  obtain ⟨rounds, whole⟩ := opens.readUnit_eq
  rw [whole] at clean ⊢
  unfold State.readItem at clean ⊢
  cases read : Language.read (.progress typeDeclaration) context ⟨0, [], [.absent]⟩ with
  | error error => simp [read, State.followedBy] at clean
  | ok after =>
      simp only [read, State.followedBy] at clean ⊢
      have stage : State.CleanOutcome (after.slots <:+ ·) (State.readItems context (· != .eof)
          (.progress typeDeclaration) rounds after) := by
        refine State.readItems_clean (fun state last all read => all.trans ?_) rounds
          (List.suffix_refl _)
        exact State.progress_appending (typeDeclaration.run _ context) state last read
      obtain ⟨later, kept⟩ := stage.of_clean clean
      obtain ⟨declared, started, ended⟩ := State.exists_of_progress read
      rw [opens.typeDeclaration_run] at started
      obtain ⟨body, held, rfl⟩ := map_eq_ok.mp started
      cases limit : context.limit with
      | zero =>
          rw [limit] at held
          cases held
      | succ depth =>
          rw [limit] at held
          obtain ⟨header, inner, members, rest, isHeader, blocked, slots⟩ :=
            opens.classBody_of_run [] held
          refine ⟨depth, inner, rfl, blocked, fun context' block single isBlock => ?_⟩
          have onward := (moving (memberBody .classBody) _ _ _ _ held).forward_any
          obtain ⟨final, isFinal⟩ : ∃ final, final = (State.readItems context (· != .eof)
              (.progress typeDeclaration) rounds after).1 := ⟨_, rfl⟩
          rw [← isFinal] at kept ⊢
          rw [ended (Nat.lt_of_lt_of_le Nat.two_pos onward)] at kept
          obtain ⟨declaration, closed⟩ := body.exists_close context .normalClassDeclaration
          obtain ⟨method, headed⟩ :=
            ((inner.close context .methodBody).onto [header, .absent]).exists_close context
              .methodDeclaration
          obtain ⟨span, bodied⟩ := inner.exists_close context .methodBody
          have made : (inner.endMethod context header).gathered =
              [.node .methodDeclaration method
                [.absent, header, .node .methodBody span [block.toElement]]] := by
            rw [State.gathered, State.endMethod, headed]
            simp [State.gathered, State.onto, bodied, single]
          rw [made] at slots
          have listed : (final.finishParse context' .compilationUnit).root.children = .absent ::
              .node .normalClassDeclaration declaration [.absent, .token (context.get 0),
                .token (context.get 1), .absent, .absent, .absent, .node .classBody members
                  (.token (context.get 2) :: .node .methodDeclaration method [.absent, header,
                    .node .methodBody span [block.toElement]] :: rest)] ::
                (later.reverse ++ [.token (final.current context')]) := by
            change (final.takeAny context').gathered = _
            simp [State.takeAny, State.gathered, ← kept, State.onto, closed, slots]
          exact Node.methodBlock?_of_children listed isHeader isBlock

/-- If the class ends behind the block and the file behind the class, it is read without
errors. -/
theorem clean_of_block {inner : State} (limit : context.limit = depth + 1)
    (blocked : readRule grammar depth .block context ⟨7, [], []⟩ = .ok inner)
    (clean : inner.errors = []) (closes : (context.get inner.position).kind = .rBrace)
    (ended : (context.get (inner.position + 1)).kind = .eof) :
    (State.readUnit context ⟨0, [], []⟩).errors = [] := by
  obtain ⟨rounds, whole⟩ := opens.readUnit_eq
  obtain ⟨body, held, there, errors⟩ := opens.classBody_run [] blocked closes
  have onward : 7 ≤ inner.position := (moving (.call .block) _ _ _ _ blocked).forward_any
  have read : Language.read (.progress typeDeclaration) context ⟨0, [], [.absent]⟩ =
      .ok ((body.close context .normalClassDeclaration).onto [.absent]) := by
    refine State.progress_of_moved ?_ ?_
    · change typeDeclaration.run (readRule grammar context.limit) context ⟨0, [], []⟩ = _
      rw [opens.typeDeclaration_run, limit]
      exact map_eq_ok.mpr ⟨body, held, rfl⟩
    · change 0 < body.position
      omega
  have stops (rounds : Nat) : State.readItems context (· != .eof) (.progress typeDeclaration)
      rounds ((body.close context .normalClassDeclaration).onto [.absent]) =
        (((body.close context .normalClassDeclaration).onto [.absent]), true) := by
    cases rounds with
    | zero => rfl
    | succ rounds =>
        rw [State.readItems_succ, if_neg]
        simp [State.kindAt, State.onto, there, ended]
  rw [whole, State.readItem, read]
  simp only [State.followedBy, stops]
  exact errors.trans clean

end Context.Opens

end JavaSyntax
