import JavaSyntax.Proofs.Lossless
import JavaSyntax.Proofs.Reading.Items

/-!
# The calls of a session

A session can be asked for one tree after another. Each of them takes a stretch of the
token list, up to and with the next end mark, and leaves the cursor behind it. A source
file takes the stretch at the cursor, whatever becomes of it, and so does an expression
that is read. An expression that is given up does not: the session goes back to the first
token of the list, and so takes the first stretch once more.
-/

namespace JavaSyntax

/-- Tokens up to and with the first end mark; `mark` is the one behind the last token. -/
def Token.throughMark (mark : Token) : List Token → List Token
  | [] => [mark]
  | first :: rest => if first.kind = .eof then [first] else first :: throughMark mark rest

/-- The trees a session can be asked for. -/
inductive Entry where
  | unit
  | expression
  deriving DecidableEq, Repr

namespace Session

/-- Ask for one tree. -/
def call (session : Session) : Entry → Parse × Session
  | .unit => session.parseUnit
  | .expression => session.parseExpression

/-- The session after some calls. -/
def after (session : Session) (calls : List Entry) : Session :=
  calls.foldl (fun session entry => (session.call entry).2) session

/-- Whether the next call meets an error that no rule of an expression recovers from. -/
def givesUp (session : Session) : Entry → Bool
  | .unit => false
  | .expression =>
      match Language.read (.call .expression) session.context ⟨session.position, [], []⟩ with
      | .ok _ => false
      | .error _ => true

/-- Where the tree of the next call starts. -/
def origin (session : Session) (entry : Entry) : Nat :=
  if session.givesUp entry then 0 else session.position

end Session

namespace Context

variable {context : Context}

/-- A stretch is known by its end: no end mark before, and one at it. -/
theorem throughMark_eq {start stop : Nat} (ordered : start ≤ stop)
    (inside : ∀ index, start ≤ index → index < stop → (context.get index).kind ≠ .eof)
    (ended : (context.get stop).kind = .eof) :
    Token.throughMark context.endMark (context.tokens.toList.drop start) =
      (context.tokens.toList.drop start).take (stop - start) ++ [context.get stop] := by
  obtain ⟨length, rfl⟩ := Nat.exists_eq_add_of_le ordered
  induction length generalizing start with
  | zero =>
      rw [Nat.add_zero] at ended ⊢
      rw [Nat.sub_self, List.take_zero, List.nil_append]
      by_cases bound : start < context.tokens.size
      · have found : context.get start = context.tokens.toList[start] := by
          simp [get, Array.getD_eq_getD_getElem?, bound]
        rw [List.drop_eq_getElem_cons (by simpa using bound), ← found, Token.throughMark,
          if_pos ended]
      · have beyond : context.tokens.size ≤ start := Nat.le_of_not_lt bound
        rw [List.drop_eq_nil_of_le (by simpa using beyond), Token.throughMark]
        simp [get, Array.getD_eq_getD_getElem?, beyond]
  | succ length ih =>
      have first := inside start (Nat.le_refl _) (by omega)
      have rest := @ih (start + 1) (by omega)
        (fun index lower upper => inside index (by omega) (by omega))
        (by rwa [Nat.add_right_comm start 1 length, Nat.add_assoc])
      rw [show start + 1 + length - (start + 1) = length by omega,
        show start + 1 + length = start + (length + 1) by omega] at rest
      rw [drop_eq_cons first, Token.throughMark, if_neg first, rest,
        show start + (length + 1) - start = length + 1 by omega, List.take_succ_cons,
        List.cons_append]

end Context

namespace Session

variable {session : Session} {origin : Nat}

/-- A reading that loses nothing from some place on, and stops at an end mark, gives a tree
of the stretch at that place and moves the cursor behind it. -/
theorem parseWith_of_lossless {kind : NodeKind} {read : Context → State → State}
    {errors : List SyntaxError} (within : origin ≤ session.context.tokens.size)
    (kept : Lossless session.context ⟨origin, errors, []⟩
      (read session.context ⟨session.position, [], []⟩))
    (ended : (read session.context ⟨session.position, [], []⟩).atEnd session.context = true) :
    (session.parseWith kind read).1.root.tokens =
        Token.throughMark session.context.endMark (session.context.tokens.toList.drop origin) ∧
      (session.parseWith kind read).2.position =
        min session.context.tokens.size
          (origin + (session.parseWith kind read).1.root.tokens.length) := by
  simp only [parseWith]
  generalize read session.context ⟨session.position, [], []⟩ = final at kept ended ⊢
  have mark : (session.context.get final.position).kind = .eof := by
    simpa [State.atEnd, State.kindAt] using ended
  have forward : origin ≤ final.position := kept.forward
  have bounded : final.position ≤ session.context.tokens.size := by
    refine Nat.le_of_not_lt fun beyond => ?_
    have last := kept.inside (final.position - 1) (by simp only; omega) (by omega)
    have := Context.lt_size_of_kind_ne last
    omega
  have whole : Element.yieldAll final.gathered ++
      session.context.tokens.toList.drop final.position =
        session.context.tokens.toList.drop origin := by
    simpa [State.held, State.gathered] using kept.held
  have gathered : Element.yieldAll final.gathered =
      (session.context.tokens.toList.drop origin).take (final.position - origin) := by
    have length := congrArg List.length whole
    simp only [List.length_append, List.length_drop, Array.length_toList] at length
    rw [← whole, List.take_left' (by omega)]
  have tokens : (final.finishParse session.context kind).root.tokens =
      Element.yieldAll final.gathered ++ [session.context.get final.position] := by
    rw [Node.tokens_eq_yieldAll]
    simp [State.finishParse, State.takeAny, State.gathered, State.current, Node.spanning]
  constructor
  · rw [tokens, gathered, Context.throughMark_eq forward kept.inside mark]
  · have length : (final.finishParse session.context kind).root.tokens.length =
        final.position - origin + 1 := by
      rw [tokens, gathered, List.length_append, List.length_take, List.length_drop,
        Array.length_toList, List.length_singleton]
      omega
    rw [length]
    simp only [State.takeAny]
    split <;> omega

/-- One call takes one stretch. -/
theorem call_takes (entry : Entry) (within : session.position ≤ session.context.tokens.size) :
    (session.call entry).1.root.tokens =
        Token.throughMark session.context.endMark
          (session.context.tokens.toList.drop (session.origin entry)) ∧
      (session.call entry).2.position =
        min session.context.tokens.size
          (session.origin entry + (session.call entry).1.root.tokens.length) := by
  cases entry with
  | unit => exact parseWith_of_lossless within (State.readUnit_lossless _) (State.readUnit_atEnd _)
  | expression =>
      have started : ∃ errors, State.expressionOrigin session.context ⟨session.position, [], []⟩ =
          ⟨session.origin .expression, errors, []⟩ := by
        unfold State.expressionOrigin Session.origin givesUp
        cases Language.read (.call .expression) session.context ⟨session.position, [], []⟩ <;>
          exact ⟨_, rfl⟩
      obtain ⟨errors, started⟩ := started
      have kept : Lossless session.context _ (State.readExpression session.context _) :=
        State.readExpression_lossless_origin ⟨session.position, [], []⟩
      rw [started] at kept
      refine parseWith_of_lossless ?_ kept (State.readExpression_atEnd _)
      unfold Session.origin
      split
      · exact Nat.zero_le _
      · exact within

theorem context_call (session : Session) (entry : Entry) :
    (session.call entry).2.context = session.context := by
  cases entry <;> rfl

/-- Calls change neither the token list nor the limit, and the cursor stays inside the list. -/
theorem after_within (calls : List Entry)
    (within : session.position ≤ session.context.tokens.size) :
    (session.after calls).context = session.context ∧
      (session.after calls).position ≤ session.context.tokens.size := by
  induction calls generalizing session with
  | nil => exact ⟨rfl, within⟩
  | cons entry calls ih =>
      have moved := (session.call_takes entry within).2
      have same := session.context_call entry
      have rest := @ih (session.call entry).2 (by rw [same, moved]; omega)
      rwa [same] at rest

/-- Only an expression is given up, and the error is reported. -/
theorem reports_of_givesUp {entry : Entry} (gaveUp : session.givesUp entry = true) :
    entry = .expression ∧ (session.call entry).1.errors ≠ [] := by
  cases entry with
  | unit => cases gaveUp
  | expression =>
      refine ⟨rfl, ?_⟩
      cases read : Language.read (.call .expression) session.context ⟨session.position, [], []⟩ with
      | ok after => simp [givesUp, read] at gaveUp
      | error error =>
          have errors : (State.readExpression session.context ⟨session.position, [], []⟩).errors =
              [error] := by
            simp only [State.readExpression, read, State.errors_abandon]
          simp [call, parseExpression, parseWith, State.finishParse, State.takeAny, errors]

end Session

/-- Every call of a session, after any other calls, takes one stretch of the token list and
moves the cursor behind it. It is the stretch at the cursor, unless the call is for an
expression and gives it up; that takes the first stretch of the list. -/
theorem tokens_call_after (tokens : List Token) (config : Config) (earlier : List Entry)
    (entry : Entry) :
    let session := (Session.start tokens config).after earlier
    let mark := Context.endMarkOf tokens
    let taken := (session.call entry).1.root.tokens
    (session.givesUp entry = false →
      taken = Token.throughMark mark (tokens.drop session.position)) ∧
    (session.givesUp entry = true →
      taken = Token.throughMark mark tokens ∧ entry = .expression ∧
        (session.call entry).1.errors ≠ []) ∧
    (session.call entry).2.position =
      min tokens.length (session.origin entry + taken.length) := by
  intro session mark taken
  have start : (Session.start tokens config).position ≤
      (Session.start tokens config).context.tokens.size := Nat.zero_le _
  obtain ⟨context, within⟩ := Session.after_within earlier start
  have takes := @Session.call_takes session entry (by rw [context]; exact within)
  rw [context] at takes
  obtain ⟨stretch, moved⟩ := takes
  refine ⟨fun reads => ?_, fun gaveUp => ⟨?_, Session.reports_of_givesUp gaveUp⟩, moved⟩
  · rw [Session.origin, reads] at stretch
    exact stretch
  · rw [Session.origin, gaveUp] at stretch
    exact stretch

/-- The token list of a name, and the session that has read it already. -/
def nameRead : Session :=
  (Session.start [.written .identifier "a" 0, .endMark 1] .strict).after [.expression]

/-- Where nothing is left but the end mark, an expression that is given up takes the name
before it once more. -/
theorem tokens_call_reappear :
    Token.throughMark (.endMark 1)
        ([.written .identifier "a" 0, .endMark 1].drop nameRead.position) = [.endMark 1] ∧
      (nameRead.call .expression).1.root.tokens = [.written .identifier "a" 0, .endMark 1] := by
  decide +kernel

end JavaSyntax
