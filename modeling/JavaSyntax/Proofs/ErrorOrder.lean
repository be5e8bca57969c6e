import JavaSyntax.Proofs.Damage
import JavaSyntax.Proofs.Items
import JavaSyntax.Proofs.Lexing.Relexing
import JavaSyntax.Proofs.Spans

/-!
# The order of errors

Errors are recorded while the cursor moves forward.  All but two kinds of them point at the
cursor, so these stand in order; a text that is no statement and a `try` without handlers are
noticed late and point back.  An error that points where the one before it points is dropped.
So two errors point at one place only if one of the late ones was recorded between them, or is
the second of them.

An item that nests too deep ends the parse.  Its error is the last one and the only fatal one,
and all its tokens up to the end mark are the last node of the tree.
-/

namespace JavaSyntax

/-- Errors in the order in which they are recorded, latest first: one that leaves damage behind
does not point before an earlier one, and neighbours point at different places. -/
structure Orderly (errors : List SyntaxError) : Prop where
  increasing : errors.Pairwise fun later earlier =>
    later.fault.damages = true → earlier.offset ≤ later.offset
  apart : errors.IsChain fun later earlier => later.offset ≠ earlier.offset

/-- In errors in the order in which they were recorded, two that point at one place do not follow
each other, and the one recorded right after the first of them, or the second of them, is late:
it leaves no damage behind. -/
def RepeatsLate (errors : List SyntaxError) : Prop :=
  ∀ (front between rest : List SyntaxError) (first second : SyntaxError),
    errors = front ++ first :: (between ++ second :: rest) → first.offset = second.offset →
      ∃ next others, between = next :: others ∧
        (next.fault.damages = false ∨ second.fault.damages = false)

namespace Orderly

variable {errors : List SyntaxError}

theorem single (error : SyntaxError) : Orderly [error] :=
  ⟨List.pairwise_singleton _ _, .singleton _⟩

/-- An error behind all others is recorded. -/
theorem cons {error : SyntaxError} (orderly : Orderly errors)
    (behind : ∀ earlier ∈ errors, earlier.offset < error.offset) : Orderly (error :: errors) where
  increasing := List.pairwise_cons.mpr
    ⟨fun earlier member _ => Nat.le_of_lt (behind earlier member), orderly.increasing⟩
  apart := List.isChain_cons.mpr
    ⟨fun earlier first => (Nat.ne_of_lt (behind earlier (List.mem_of_mem_head? first))).symm,
      orderly.apart⟩

/-- The errors that leave damage behind stand in order. -/
theorem pairwise_damages (orderly : Orderly errors) :
    (errors.reverse.filter (·.fault.damages)).Pairwise fun earlier later =>
      earlier.offset ≤ later.offset := by
  refine List.Pairwise.imp_of_mem ?_ ((List.pairwise_reverse.mpr orderly.increasing).filter _)
  intro earlier later _ member ordered
  exact ordered (List.mem_filter.mp member).2

theorem repeatsLate (orderly : Orderly errors) : RepeatsLate errors.reverse := by
  intro front between rest first second recorded same
  have increasing := List.pairwise_reverse.mpr orderly.increasing
  have apart := List.isChain_reverse.mpr orderly.apart
  rw [recorded] at increasing apart
  have increasing := (List.pairwise_append.mp increasing).2.1
  have apart := apart.right_of_append
  cases between with
  | nil => exact absurd same.symm (List.isChain_cons_cons.mp apart).1
  | cons next others =>
      refine ⟨next, others, rfl, ?_⟩
      obtain ⟨behind, following⟩ := List.pairwise_cons.mp increasing
      cases harmless : next.fault.damages with
      | false => exact .inl rfl
      | true =>
          refine .inr (Bool.eq_false_iff.mpr fun damages => ?_)
          have start := behind next (by simp) harmless
          have stop := (List.pairwise_cons.mp following).1 second (by simp) damages
          exact (List.isChain_cons_cons.mp apart).1 (by omega)

end Orderly

theorem State.Timely.orderly {context : Context} {state : State} (timely : state.Timely context) :
    Orderly state.errors :=
  ⟨timely.increasing, timely.apart⟩

/-! ## Where items begin -/

theorem Item.framed_phrase (item : Item) : Language.framed item.phrase = true := by
  cases item with
  | packageDeclaration => exact Language.framed_packageDeclaration
  | importDeclaration => exact Language.framed_importDeclaration
  | typeDeclaration => exact Language.framed_typeDeclaration

section Begins

variable {context : Context} {item : Item} {state : State}

/-- Every state in which an item begins is sound. -/
theorem Begins.tandem (ordered : context.Ordered) (begins : Begins context item state) :
    Tandem context context state state := by
  induction begins with
  | first => exact .start (.refl ordered)
  | @next item _ _ _ _ read _ ih => exact Language.tandem_read item.framed_phrase ordered ih read

theorem Passed.timely (ordered : context.Ordered) (passed : Passed context item state) :
    state.Timely context := by
  obtain ⟨before, begins, read⟩ := passed
  exact (Language.tandem_read item.framed_phrase ordered (begins.tandem ordered) read).sound.timely

/-- Without recovery there is no error where an item begins. -/
theorem Begins.quiet (strict : context.recovery = false) (begins : Begins context item state) :
    state.errors = [] := by
  induction begins with
  | first => rfl
  | next _ read _ ih => rw [State.errors_of_strict strict read, ih]

/-- An item that cannot be read begins before the end. -/
theorem Begins.more (begins : Begins context item state) {error : SyntaxError}
    (failed : Language.read item.phrase context state = .error error) :
    state.atEnd context = false := by
  rw [Bool.eq_false_iff]
  intro ended
  cases begins with
  | first =>
      have fits : Language.read Language.packageDeclaration context ⟨0, [], []⟩ = .ok _ :=
        State.optional_of_atEnd (by decide) ended
      rw [Item.phrase, fits] at failed
      cases failed
  | next _ _ follows =>
      rw [State.atEnd_iff] at ended
      simp [Item.next, ended] at follows

end Begins

/-- The tokens of spaced tokens start one after the other. -/
theorem Context.Spaced.start_mono {context : Context} {length : Nat}
    (spaced : context.Spaced length)
    {index later : Nat} (ordered : index ≤ later) :
    (context.get index).start ≤ (context.get later).start := by
  induction ordered with
  | refl => exact Nat.le_refl _
  | @step later _ ih =>
      have room := (context.get later).span.offset_le_stop
      exact Nat.le_trans ih (Nat.le_trans room (spaced.apart later))

section Abandoned

variable {context : Context} {length : Nat} (ordered : context.Ordered)
  (spaced : context.Spaced length)

include ordered spaced

/-- The error of an item that cannot be read is in order. -/
theorem Begins.orderly {item : Item} {state : State} (begins : Begins context item state)
    {error : SyntaxError} (failed : Language.read item.phrase context state = .error error) :
    Orderly (error :: state.errors) := by
  cases recovers : context.recovery with
  | false =>
      rw [begins.quiet recovers]
      exact .single error
  | true =>
      have timely := (begins.tandem ordered).sound.timely
      have fatal := (State.read_shadowed recovers item.phrase state).fatal error failed
      obtain ⟨place, behind, same⟩ := item.read_deepFrom state error failed fatal
      have further := ordered.start_lt_takeAny (begins.more failed)
      rw [State.current, State.current, State.position_takeAny (begins.more failed)] at further
      refine timely.orderly.cons fun earlier member => ?_
      have reached := timely.reached earlier member
      have start := spaced.start_mono behind
      rw [same]
      exact Nat.lt_of_le_of_lt reached (Nat.lt_of_lt_of_le further start)

end Abandoned

/-! ## What is abandoned -/

namespace Element

theorem yieldAll_map_token (tokens : List Token) : yieldAll (tokens.map token) = tokens := by
  induction tokens with
  | nil => simp
  | cons first rest ih => simp [ih]

theorem anyDamaged_map_token (tokens : List Token) : anyDamaged (tokens.map token) = false := by
  induction tokens with
  | nil => simp
  | cons first rest ih => simpa using ih

/-- A node of tokens in order starts where the first of them does. -/
theorem spanOf_map_token {first : Token} {rest : List Token}
    (sorted : (first :: rest).Pairwise fun left right => left.start < right.start)
    (fallback : Span) :
    (Node.spanOf ((first :: rest).map token) fallback).offset = first.start := by
  have anchored : ∀ slot ∈ (first :: rest).map token, slot.Anchored := by
    intro slot member
    obtain ⟨found, _, rfl⟩ := List.mem_map.mp member
    exact anchored_token found
  obtain ⟨head, tail, yields, offset⟩ := spanOf_offset anchored (anyDamaged_map_token _)
    (by rwa [yieldAll_map_token]) rfl fallback
  rw [yieldAll_map_token] at yields
  rw [offset, (List.cons.inj yields).1]

end Element

namespace State

variable {context : Context} {state : State}

/-- At an end mark there are no tokens up to the next one. -/
theorem takeWhile_of_atEnd (ended : state.atEnd context = true) :
    (context.tokens.toList.drop state.position).takeWhile (·.kind != .eof) = [] := by
  cases rest : context.tokens.toList.drop state.position with
  | nil => rfl
  | cons first others =>
      have found : context.tokens.toList[state.position]? = some first := by
        rw [← List.head?_drop, rest]
        rfl
      have here : context.get state.position = first := by
        rw [Context.get, Array.getD_eq_getD_getElem?, ← Array.getElem?_toList, found]
        rfl
      rw [atEnd_iff, kindAt, Nat.add_zero, here] at ended
      simp [ended]

/-- The tokens up to the next end mark are put in front of the slots. -/
theorem slots_takeRest (rounds : Nat) (enough : state.remaining context ≤ rounds) :
    (takeRest context rounds state).slots =
      (((context.tokens.toList.drop state.position).takeWhile (·.kind != .eof)).map
        Element.token).reverse ++ state.slots := by
  induction rounds generalizing state with
  | zero =>
      have beyond : context.tokens.toList.length ≤ state.position := by
        simp only [remaining] at enough
        rw [Array.length_toList]
        omega
      rw [List.drop_eq_nil_of_le beyond]
      rfl
  | succ rounds ih =>
      cases ended : state.atEnd context with
      | true =>
          rw [takeRest, if_pos ended, takeWhile_of_atEnd ended]
          rfl
      | false =>
          have kind := current_kind_ne ended
          have inside := Context.lt_size_of_kind_ne kind
          have taken : state.take context = state.takeAny context := by simp [take, ended]
          have rest := @ih (state.takeAny context) (by
            rw [remaining, position_takeAny ended]
            simp only [remaining] at enough
            omega)
          rw [takeRest, if_neg (by simp [ended]), taken, rest, position_takeAny ended,
            Context.drop_eq_cons kind, List.takeWhile_cons_of_pos (by simpa using kind)]
          simp [takeAny, current]

/-- What is abandoned is put away in one node, which starts where the item begins. -/
theorem slots_abandon (ordered : context.Ordered) (more : state.atEnd context = false)
    (error : SyntaxError) :
    ∃ node : Node, (state.abandon context error).slots = node.toElement :: state.slots ∧
      node.kind = .error ∧
      node.children = ((context.tokens.toList.drop state.position).takeWhile (·.kind != .eof)).map
        Element.token ∧
      node.span.offset = (state.current context).start := by
  obtain ⟨rest, stretch⟩ : ∃ rest,
      (context.tokens.toList.drop state.position).takeWhile (·.kind != .eof) =
        state.current context :: rest := by
    have kind := current_kind_ne more
    rw [Context.drop_eq_cons kind, List.takeWhile_cons_of_pos (by simpa using kind)]
    exact ⟨_, rfl⟩
  have sorted : (state.current context :: rest).Pairwise
      fun left right => left.start < right.start := by
    rw [← stretch]
    exact ordered.increasing.sublist ((List.takeWhile_sublist _).trans (List.drop_sublist _ _))
  let noted : State := { state with errors := error :: state.errors }
  let inner := takeRest context (noted.remaining context) { noted with slots := [] }
  have swept : inner.gathered = (state.current context :: rest).map .token := by
    have slots : inner.slots = _ :=
      @slots_takeRest context { noted with slots := [] } _ (Nat.le_refl _)
    rw [← stretch, gathered, slots, List.append_nil, List.reverse_reverse]
  refine ⟨.spanning .error inner.gathered (inner.here context), ?_, rfl, ?_, ?_⟩
  · have going : ¬noted.atEnd context = true := by
      rw [Bool.not_eq_true]
      exact more
    rw [abandon, sweep, if_neg going]
    rfl
  · rw [stretch, ← swept]
    rfl
  · rw [swept]
    exact Element.spanOf_map_token sorted _

end State

/-- How a parse of some tokens ends that was given up because of an error at an item that starts
at an index: the error is the last one and the only fatal one, and if any token but an end mark
is left from the index on, the tokens up to the end mark are the last node of the tree.  No
error that was recorded earlier points behind the start of that node. -/
structure Parse.GivesUp (parse : Parse) (tokens : List Token) (start : Nat)
    (earlier : List SyntaxError) (error : SyntaxError) : Prop where
  errors : parse.errors = earlier ++ [error]
  alone : ∀ other ∈ earlier, other.isFatal = false
  swept : (∃ token ∈ tokens.drop start, token.kind ≠ .eof) →
    ∃ node, parse.root.childNodes.getLast? = some node ∧ node.kind = .error ∧
      node.children = ((tokens.drop start).takeWhile (·.kind != .eof)).map Element.token ∧
      ∀ other ∈ earlier, other.offset ≤ node.span.offset

/-- Where tokens that are closed have any but the end mark left, they are not at the end. -/
theorem Context.kind_ne_of_left {tokens : List Token} (closed : Token.closed tokens = tokens)
    (config : Config) {start : Nat} (left : ∃ token ∈ tokens.drop start, token.kind ≠ .eof) :
    ((ofTokens tokens config).get start).kind ≠ .eof := by
  obtain ⟨mark, ended, whole⟩ := Token.closedFrom_eq_takeWhile 0 tokens
  rw [← Token.closed, closed] at whole
  have inside : ∀ token ∈ tokens.takeWhile (·.kind != .eof), token.kind ≠ .eof :=
    fun token member => by simpa using List.mem_takeWhile_imp member
  generalize tokens.takeWhile (·.kind != .eof) = before at whole inside
  subst whole
  obtain ⟨token, member, other⟩ := left
  by_cases early : start < before.length
  · have found : (before ++ [mark])[start]? = some before[start] := by
      rw [List.getElem?_append_left early, List.getElem?_eq_getElem early]
    rw [get_ofTokens found]
    exact inside _ (List.getElem_mem early)
  · rw [List.drop_append, List.drop_eq_nil_of_le (Nat.le_of_not_lt early), List.nil_append]
      at member
    obtain rfl := List.mem_singleton.mp (List.mem_of_mem_drop member)
    exact absurd ended other

/-- The parse that ends where an item was abandoned. -/
theorem State.givesUp_abandon {tokens : List Token} {config : Config}
    (closed : Token.closed tokens = tokens) (ordered : (Context.ofTokens tokens config).Ordered)
    {before : State} (timely : before.Timely (.ofTokens tokens config)) (error : SyntaxError)
    (kind : NodeKind) :
    ((before.abandon (.ofTokens tokens config) error).finishParse (.ofTokens tokens config)
      kind).GivesUp tokens before.position before.errors.reverse error where
  errors := by
    simp [finishParse, takeAny]
  alone := fun other member => timely.mild other (List.mem_reverse.mp member)
  swept := by
    intro left
    have more : before.atEnd (.ofTokens tokens config) = false := by
      rw [Bool.eq_false_iff, ne_eq, atEnd_iff]
      exact Context.kind_ne_of_left closed config left
    obtain ⟨node, slots, isError, children, start⟩ := slots_abandon ordered more error
    refine ⟨node, ?_, isError, ?_, ?_⟩
    · obtain ⟨mark, whole⟩ : ∃ mark, ((before.abandon (.ofTokens tokens config) error).finishParse
          (.ofTokens tokens config) kind).root.children =
            before.gathered ++ [node.toElement, .token mark] := by
        simp only [finishParse, takeAny, gathered, slots, Node.children_spanning,
          List.reverse_cons, List.append_assoc, List.cons_append, List.nil_append]
        exact ⟨_, rfl⟩
      rw [Node.childNodes, whole, List.filterMap_append, List.getLast?_append]
      rfl
    · rw [children]
      rfl
    · rw [start]
      exact fun other member => timely.reached other (List.mem_reverse.mp member)

/-! ## Whole parses -/

namespace State

/-- Only without recovery is an error handed back, and that as it is. -/
theorem report_eq_error {context : Context} {state : State} {error other : SyntaxError}
    (failed : state.report context error = .error other) :
    context.recovery = false ∧ other = error := by
  simp only [report] at failed
  split at failed
  · split at failed
    · split at failed <;> cases failed
    · cases failed
  · rename_i strict
    cases failed
    exact ⟨by simpa using strict, rfl⟩

section Readings

variable {context : Context} {length : Nat} (ordered : context.Ordered)

include ordered

/-- The errors of a source file are in order, and a fatal one is that of an abandoned item. -/
theorem readUnit_errors (spaced : context.Spaced length) :
    Orderly (readUnit context ⟨0, [], []⟩).errors ∧
      ∀ error ∈ (readUnit context ⟨0, [], []⟩).errors, error.isFatal = true →
        ∃ item before, Begins context item before ∧
          Language.read item.phrase context before = .error error ∧
          readUnit context ⟨0, [], []⟩ = before.abandon context error := by
  rcases readUnit_comesTo context with ⟨item, passed⟩ | ⟨item, before, error, begins, failed, final⟩
  · have timely := passed.timely ordered
    refine ⟨timely.orderly, fun error member fatal => ?_⟩
    rw [timely.mild error member] at fatal
    cases fatal
  · have timely := (begins.tandem ordered).sound.timely
    rw [final, errors_abandon]
    refine ⟨begins.orderly ordered spaced failed, fun other member fatal => ?_⟩
    cases member with
    | head => exact ⟨item, before, begins, failed, rfl⟩
    | tail _ member =>
        rw [timely.mild other member] at fatal
        cases fatal

/-- The errors of an expression are in order, and a fatal one is that of the expression. -/
theorem readExpression_errors :
    Orderly (readExpression context ⟨0, [], []⟩).errors ∧
      ∀ error ∈ (readExpression context ⟨0, [], []⟩).errors, error.isFatal = true →
        Language.read (.call .expression) context ⟨0, [], []⟩ = .error error ∧
          readExpression context ⟨0, [], []⟩ = abandon context ⟨0, [], []⟩ error := by
  have start : Tandem context context ⟨0, [], []⟩ ⟨0, [], []⟩ := .start (.refl ordered)
  have settled {final : State} (orderly : Orderly final.errors)
      (mild : ∀ error ∈ final.errors, error.isFatal = false) :
      Orderly final.errors ∧ ∀ error ∈ final.errors, error.isFatal = true →
        Language.read (.call .expression) context ⟨0, [], []⟩ = .error error ∧
          final = abandon context ⟨0, [], []⟩ error := by
    refine ⟨orderly, fun error member fatal => ?_⟩
    rw [mild error member] at fatal
    cases fatal
  unfold readExpression
  split
  · rename_i after fitted
    have sound := (Language.tandem_read (by decide) ordered start fitted).sound
    dsimp only
    split
    · exact settled sound.timely.orderly sound.timely.mild
    · split
      · rename_i reported recorded
        have timely := sound.timely.report (.inl ⟨rfl, rfl, rfl⟩) recorded
        refine settled ?_ ?_ <;> rw [errors_sweep]
        · exact timely.orderly
        · exact timely.mild
      · rename_i error recorded
        obtain ⟨strict, rfl⟩ := report_eq_error recorded
        have none := errors_of_strict strict fitted
        refine settled ?_ ?_ <;> rw [errors_sweep, none]
        · exact .single _
        · exact List.forall_mem_singleton.mpr rfl
  · rename_i error failed
    rw [errors_abandon]
    refine ⟨.single error, fun other member _ => ?_⟩
    obtain rfl := List.mem_singleton.mp member
    exact ⟨failed, rfl⟩

end Readings

end State

section Sources

variable {source : String} {tokens : List Token} (lexed : Token.lex source = .ok tokens)
  (config : Config)

include lexed

theorem Context.ordered_of_lex : (ofTokens tokens config).Ordered := by
  obtain ⟨increasing, ended⟩ := Token.lex_increasing lexed
  exact ordered_ofTokens increasing ended

theorem parseUnit_of_lex :
    parseUnit source config = .ok (Session.start tokens config).parseUnit.1 := by
  rw [parseUnit, lexed]
  rfl

theorem parseExpression_of_lex :
    parseExpression source config = .ok (Session.start tokens config).parseExpression.1 := by
  rw [parseExpression, lexed]
  rfl

/-- In the parse of every source text that lexes, as a source file or as an expression and with
any configuration, errors that follow each other point at different places.  Two that point at
one place have a late one recorded right after the first, or the second is late: it is for a
text that is no statement or a `try` without handlers. -/
theorem errors_repeatsLate :
    (∃ parse, parseUnit source config = .ok parse ∧ RepeatsLate parse.errors) ∧
      ∃ parse, parseExpression source config = .ok parse ∧ RepeatsLate parse.errors := by
  have ordered := Context.ordered_of_lex lexed config
  have unit := (State.readUnit_errors ordered (Context.spaced_ofTokens lexed config)).1
  have expression := (State.readExpression_errors ordered).1
  exact ⟨⟨_, parseUnit_of_lex lexed config, unit.repeatsLate⟩,
    _, parseExpression_of_lex lexed config, expression.repeatsLate⟩

end Sources

/-- The tokens of `class A { void m() { try {`. -/
def openTry : List Token :=
  [.written .kwClass "class" 0, .written .identifier "A" 6, .written .lBrace "\x7b" 8,
    .written .kwVoid "void" 10, .written .identifier "m" 15, .written .lParen "(" 16,
    .written .rParen ")" 17, .written .lBrace "\x7b" 19, .written .kwTry "try" 21,
    .written .lBrace "\x7b" 25, .endMark 26]

/-- A brace that is missing at the end is reported twice, since the `try` is noticed to be without
handlers in between. -/
theorem errors_openTry : (Session.start openTry {}).parseUnit.1.errors =
    [⟨.unexpectedToken .rBrace .eof, ⟨26, 0⟩⟩, ⟨.missingCatchOrFinally, ⟨21, 3⟩⟩,
      ⟨.unexpectedToken .rBrace .eof, ⟨26, 0⟩⟩] := by
  decide +kernel

theorem lex_openTry : Token.lex "class A \x7b void m() \x7b try \x7b" = .ok openTry := by
  cbv

/-- So errors that point at one place may well be recorded twice. -/
theorem offsets_not_nodup : ∃ parse,
    parseUnit "class A \x7b void m() \x7b try \x7b" {} = .ok parse ∧
      ¬(parse.errors.map SyntaxError.offset).Nodup := by
  refine ⟨_, parseUnit_of_lex lex_openTry {}, ?_⟩
  rw [errors_openTry]
  decide

/-- The theorem at these errors: the one in between is recorded late. -/
theorem errors_repeatsLate_openTry :
    Token.lex "class A \x7b void m() \x7b try \x7b" = .ok openTry ∧
      ∃ parse, parseUnit "class A \x7b void m() \x7b try \x7b" {} = .ok parse ∧
        ∃ first late : SyntaxError, parse.errors = [first, late, first] ∧
          ∃ next others, [late] = next :: others ∧
            (next.fault.damages = false ∨ first.fault.damages = false) := by
  obtain ⟨⟨parse, parsed, repeated⟩, _⟩ := errors_repeatsLate lex_openTry {}
  obtain rfl := Except.ok.inj (parsed.symm.trans (parseUnit_of_lex lex_openTry {}))
  exact ⟨lex_openTry, _, parsed, _, _, errors_openTry, repeated [] [_] [] _ _ errors_openTry rfl⟩

section Sources

variable {source : String} {tokens : List Token} (lexed : Token.lex source = .ok tokens)
  (config : Config)

include lexed

/-- In the parse of every source text that lexes, as a source file or as an expression and with
any configuration: the errors that leave damage behind stand in order, and a fatal one is that
of the item that was abandoned, the last one and the only fatal one.  If any token but the end
mark is left, the tokens from where the item begins up to the end mark are the last node of the
tree, and no other error points behind the start of that node. -/
theorem errors_in_order :
    (∃ parse, parseUnit source config = .ok parse ∧
      (parse.errors.filter (·.fault.damages)).Pairwise (fun earlier later =>
        earlier.offset ≤ later.offset) ∧
      ∀ error ∈ parse.errors, error.isFatal = true →
        ∃ item before earlier, Begins (.ofTokens tokens config) item before ∧
          Language.read item.phrase (.ofTokens tokens config) before = .error error ∧
          parse.GivesUp tokens before.position earlier error) ∧
    ∃ parse, parseExpression source config = .ok parse ∧
      (parse.errors.filter (·.fault.damages)).Pairwise (fun earlier later =>
        earlier.offset ≤ later.offset) ∧
      ∀ error ∈ parse.errors, error.isFatal = true →
        Language.read (.call .expression) (.ofTokens tokens config) ⟨0, [], []⟩ = .error error ∧
          parse.GivesUp tokens 0 [] error := by
  have ordered := Context.ordered_of_lex lexed config
  have closed : Token.closed tokens = tokens := by
    obtain ⟨_, rfl, split⟩ := Token.exists_split lexed
    exact Token.closed_of_split split
  refine ⟨⟨_, parseUnit_of_lex lexed config, ?_⟩, _, parseExpression_of_lex lexed config, ?_⟩
  · obtain ⟨orderly, fatal⟩ :=
      State.readUnit_errors ordered (Context.spaced_ofTokens lexed config)
    refine ⟨orderly.pairwise_damages, fun error member isFatal => ?_⟩
    obtain ⟨item, before, begins, failed, final⟩ := fatal error (List.mem_reverse.mp member) isFatal
    have timely := (begins.tandem ordered).sound.timely
    have gives := State.givesUp_abandon closed ordered timely error .compilationUnit
    rw [← final] at gives
    exact ⟨item, before, _, begins, failed, gives⟩
  · obtain ⟨orderly, fatal⟩ := State.readExpression_errors ordered
    refine ⟨orderly.pairwise_damages, fun error member isFatal => ?_⟩
    obtain ⟨failed, final⟩ := fatal error (List.mem_reverse.mp member) isFatal
    have start : Tandem (.ofTokens tokens config) (.ofTokens tokens config) _ _ :=
      .start (.refl ordered)
    have gives := State.givesUp_abandon closed ordered start.sound.timely error .expressionRoot
    rw [← final] at gives
    exact ⟨failed, gives⟩

end Sources

/-- The tokens of `)class A\x7b\x7d`. -/
def strayThenDeep : List Token :=
  [.written .rParen ")" 0, .written .kwClass "class" 1, .written .identifier "A" 7,
    .written .lBrace "\x7b" 8, .written .rBrace "\x7d" 9, .endMark 10]

/-- The theorem at a stray parenthesis and a class whose body nests too deep. -/
theorem errors_in_order_strayThenDeep :
    Token.lex ")class A\x7b\x7d" = .ok strayThenDeep ∧
      ∃ parse, parseUnit ")class A\x7b\x7d" ⟨0, true⟩ = .ok parse ∧
        parse.errors = [⟨.noViableAlternative .typeDeclaration .rParen, ⟨0, 1⟩⟩,
          ⟨.tooDeeplyNested 0, ⟨8, 1⟩⟩] ∧
        ∃ item before earlier, Begins (.ofTokens strayThenDeep ⟨0, true⟩) item before ∧
          Language.read item.phrase (.ofTokens strayThenDeep ⟨0, true⟩) before =
            .error ⟨.tooDeeplyNested 0, ⟨8, 1⟩⟩ ∧
          parse.GivesUp strayThenDeep before.position earlier ⟨.tooDeeplyNested 0, ⟨8, 1⟩⟩ := by
  have lexed : Token.lex ")class A\x7b\x7d" = .ok strayThenDeep := by cbv
  obtain ⟨⟨parse, parsed, _, fatal⟩, _⟩ := errors_in_order lexed ⟨0, true⟩
  have errors : parse.errors = [⟨.noViableAlternative .typeDeclaration .rParen, ⟨0, 1⟩⟩,
      ⟨.tooDeeplyNested 0, ⟨8, 1⟩⟩] := by
    obtain rfl := Except.ok.inj (parsed.symm.trans (parseUnit_of_lex lexed ⟨0, true⟩))
    decide +kernel
  exact ⟨lexed, parse, parsed, errors, fatal _ (by simp [errors]) rfl⟩

end JavaSyntax
