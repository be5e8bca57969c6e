import JavaSyntax.Proofs.Lists
import JavaSyntax.Proofs.Rigidity
import JavaSyntax.Proofs.Stretches
import JavaSyntax.Proofs.Tree.Events

/-!
# Tokens that are made up for

Where a required token is missing, the tree says so at the place where the cursor stood.
Nothing that is built later puts another token between that place and the tokens that came
next: they are what a walk over the finished tree meets next.  So neither the first of them is
the token that was missed, nor the second behind a token that could have been skipped.
-/

namespace JavaSyntax

namespace Element

mutual

/-- No token of a slot that was read from a place on is made up for although it stands where
it was looked for. -/
def Sincere (context : Context) (place : Nat) : Element → Prop
  | .node _ _ children => SincereAll context place children
  | .token _ => True
  | .missing kind _ => State.Lacks context ⟨place, [], []⟩ kind
  | .absent => True

/-- No token of some slots is, each read where the one before it ends. -/
def SincereAll (context : Context) (place : Nat) : List Element → Prop
  | [] => True
  | first :: rest =>
      Sincere context place first ∧ SincereAll context (place + first.yield.length) rest

end

variable {context : Context} {place : Nat}

@[simp] theorem sincereAll_nil : SincereAll context place [] := by
  simp [SincereAll]

@[simp] theorem sincereAll_cons {first : Element} {rest : List Element} :
    SincereAll context place (first :: rest) ↔
      first.Sincere context place ∧ SincereAll context (place + first.yield.length) rest := by
  simp [SincereAll]

@[simp] theorem sincere_node {kind : NodeKind} {span : Span} {children : List Element} :
    (node kind span children).Sincere context place ↔ SincereAll context place children := by
  simp [Sincere]

@[simp] theorem sincere_token (found : Token) : (token found).Sincere context place := by
  simp [Sincere]

@[simp] theorem sincere_missing {kind : TokenKind} {span : Span} :
    (missing kind span).Sincere context place ↔ State.Lacks context ⟨place, [], []⟩ kind := by
  simp [Sincere]

@[simp] theorem sincere_absent : absent.Sincere context place := by
  simp [Sincere]

@[simp] theorem sincereAll_append {left right : List Element} :
    SincereAll context place (left ++ right) ↔ SincereAll context place left ∧
      SincereAll context (place + (yieldAll left).length) right := by
  induction left generalizing place with
  | nil => simp
  | cons first rest ih => simp [ih, and_assoc, Nat.add_assoc]

/-- Error nodes that hold nothing may go. -/
theorem SincereAll.filter_errors {slots : List Element} (sincere : SincereAll context place slots) :
    SincereAll context place (slots.filter (!State.isEmptyError ·)) := by
  induction slots generalizing place with
  | nil => simp
  | cons first rest ih =>
      rw [sincereAll_cons] at sincere
      cases empty : State.isEmptyError first with
      | true =>
          have nothing : first.yield = [] := by
            unfold State.isEmptyError at empty
            split at empty
            · simp
            · cases empty
          simpa [empty, nothing] using ih sincere.2
      | false => simpa [empty] using ⟨sincere.1, ih sincere.2⟩

mutual

/-- A token that a walk finds missing is missing where the tokens it met before end. -/
theorem Sincere.lacks {kind : TokenKind} {span : Span} : (slot : Element) → {place : Nat} →
    {before after : List Event} → slot.Sincere context place →
    slot.events = before ++ .missing kind span :: after →
      State.Lacks context ⟨place + (before.filterMap Event.token?).length, [], []⟩ kind
  | .node kind' span' children, place, before, after, sincere, met => by
      rw [events_node] at met
      cases before with
      | nil => simp at met
      | cons first before =>
          obtain ⟨rfl, below⟩ := List.cons.inj met
          rcases append_eq_append_cons below with ⟨between, inside, -⟩ | ⟨between, -, last⟩
          · simpa [List.filterMap_cons, Event.token?] using
              SincereAll.lacks children (sincere_node.mp sincere) inside
          · cases between <;> simp at last
  | .token _, _, before, _, _, met => by
      rw [events_token] at met
      cases before <;> simp at met
  | .missing kind' span', place, before, after, sincere, met => by
      rw [events_missing] at met
      cases before with
      | nil =>
          cases met
          exact sincere_missing.mp sincere
      | cons first before => simp at met
  | .absent, _, before, _, _, met => by
      rw [events_absent] at met
      cases before <;> simp at met

theorem SincereAll.lacks {kind : TokenKind} {span : Span} : (slots : List Element) →
    {place : Nat} → {before after : List Event} → SincereAll context place slots →
    eventsAll slots = before ++ .missing kind span :: after →
      State.Lacks context ⟨place + (before.filterMap Event.token?).length, [], []⟩ kind
  | [], _, before, _, _, met => by
      rw [eventsAll_nil] at met
      cases before <;> simp at met
  | first :: rest, place, before, after, sincere, met => by
      rw [sincereAll_cons] at sincere
      rw [eventsAll_cons] at met
      rcases append_eq_append_cons met with ⟨between, inside, -⟩ | ⟨between, rfl, later⟩
      · exact Sincere.lacks first sincere.1 inside
      · rw [List.filterMap_append, filterMap_token?_events, List.length_append, ← Nat.add_assoc]
        exact SincereAll.lacks rest sincere.2 later

end

end Element

/-! ## Readings -/

/-- The slots of the frame hold the tokens from a place up to the cursor, and what is made up
for among them does not stand there. -/
structure State.HeldFrom (context : Context) (origin : Nat) (state : State) : Prop where
  reaches : origin + (Element.yieldAll state.gathered).length = state.position
  sincere : Element.SincereAll context origin state.gathered

namespace State.HeldFrom

variable {context : Context} {origin : Nat} {state : State}

theorem push {slot : Element} (held : state.HeldFrom context origin) (nothing : slot.yield = [])
    (sincere : slot.Sincere context state.position) :
    (state.push slot).HeldFrom context origin where
  reaches := by
    rw [gathered_push, Element.yieldAll_append]
    simpa [nothing, State.push] using held.reaches
  sincere := by
    rw [gathered_push, Element.sincereAll_append, held.reaches]
    exact ⟨held.sincere, by simpa using sincere⟩

/-- What is held in front of other slots is held from where those end. -/
theorem onto_iff {base : List Element} : (state.onto base).HeldFrom context origin ↔
    Element.SincereAll context origin base.reverse ∧
      state.HeldFrom context (origin + (Element.yieldAll base.reverse).length) := by
  have gathered : (state.onto base).gathered = base.reverse ++ state.gathered := by
    simp [onto, State.gathered]
  constructor
  · rintro ⟨reaches, sincere⟩
    rw [gathered] at reaches sincere
    rw [Element.sincereAll_append] at sincere
    rw [Element.yieldAll_append, List.length_append, ← Nat.add_assoc] at reaches
    exact ⟨sincere.1, reaches, sincere.2⟩
  · rintro ⟨below, reaches, sincere⟩
    refine ⟨?_, ?_⟩
    · rw [gathered, Element.yieldAll_append, List.length_append, ← Nat.add_assoc]
      exact reaches
    · rw [gathered, Element.sincereAll_append]
      exact ⟨below, sincere⟩

end State.HeldFrom

/-- Every sequence of moves makes up only for what does not stand at the cursor. -/
theorem Moves.heldFrom {context : Context} {before after : State}
    (moves : Moves context .any before after) {origin : Nat}
    (held : before.HeldFrom context origin) : after.HeldFrom context origin := by
  induction moves generalizing origin with
  | refl state => exact held
  | trans _ _ first second => exact second (first held)
  | frame base _ inner =>
      rw [State.HeldFrom.onto_iff] at held ⊢
      exact ⟨held.1, inner held.2⟩
  | discard moves still _ =>
      have same := Nat.le_antisymm still moves.forward_any
      exact ⟨held.reaches.trans same.symm, held.sincere⟩
  | take state more =>
      have gathered : (state.takeAny context).gathered =
          state.gathered ++ [.token (state.current context)] := by
        simp [State.takeAny, State.gathered]
      refine ⟨?_, ?_⟩
      · rw [gathered, State.position_takeAny more, ← held.reaches]
        simp [Nat.add_assoc]
      · rw [gathered, Element.sincereAll_append]
        exact ⟨held.sincere, by simp⟩
  | absent state => exact held.push (by simp) (by simp)
  | absentFirst state =>
      have first : State.gathered { state with slots := state.slots ++ [.absent] } =
          .absent :: state.gathered := by
        simp [State.gathered]
      exact ⟨by simpa [first] using held.reaches, by simpa [first] using held.sincere⟩
  | dropAbsent state =>
      unfold State.dropAbsent
      split
      · rename_i rest slots
        have gathered : state.gathered = rest.reverse ++ [.absent] := by
          simp [State.gathered, slots]
        obtain ⟨reaches, sincere⟩ := held
        rw [gathered] at reaches sincere
        rw [Element.yieldAll_append] at reaches
        exact ⟨by simpa [State.gathered] using reaches, (Element.sincereAll_append.mp sincere).1⟩
      · exact held
  | dropErrors state =>
      have gathered : State.gathered
          { state with slots := state.slots.filter (!State.isEmptyError ·) } =
            state.gathered.filter (!State.isEmptyError ·) := by
        simp [State.gathered]
      have yields := congrArg List.length (State.yieldAll_filter_errors state.slots)
      refine ⟨(congrArg (origin + ·) yields).trans held.reaches, ?_⟩
      rw [gathered]
      exact held.sincere.filter_errors
  | missing state kind lacks =>
      have lacked : State.Lacks context ⟨state.position, [], []⟩ kind :=
        ⟨lacks.recovers, lacks.here, lacks.next⟩
      exact held.push (by simp) (Element.sincere_missing.mpr lacked)
  | report state error recovers => exact ⟨held.reaches, held.sincere⟩
  | close state admitted =>
      refine ⟨?_, ?_⟩
      · simpa [State.finish, Node.toElement, Node.spanning] using held.reaches
      · simpa [State.finish, Node.toElement, Node.spanning] using held.sincere
  | call admitted => cases admitted

/-! ## Whole parses -/

/-- Of the tokens that come next, the first is not of a kind, and neither is the second, unless
the first ends them all. -/
def Token.NotAhead (kind : TokenKind) : List Token → Prop
  | [] => False
  | [next] => next.kind ≠ kind ∧ next.kind = .eof
  | next :: second :: _ => next.kind ≠ kind ∧ (next.kind ≠ .eof → second.kind ≠ kind)

/-- A token that is lacked at a place is not ahead in the tokens from there to the end mark. -/
theorem State.Lacks.notAhead {context : Context} {place count : Nat} {kind : TokenKind}
    (lacks : State.Lacks context ⟨place, [], []⟩ kind)
    (ended : (context.get (place + count)).kind = .eof) :
    Token.NotAhead kind
      ((List.range (count + 1)).map fun index => context.get (place + index)) := by
  have here : (context.get place).kind ≠ kind := lacks.here
  cases count with
  | zero => exact ⟨here, ended⟩
  | succ count =>
      rw [List.range_succ_eq_map, List.range_succ_eq_map]
      exact ⟨here, fun more => lacks.next (by simpa [State.atEnd, State.kindAt] using more)⟩

/-- The tokens from a place of the token list up to the cursor are held in the frame, and what
is made up for among them does not stand there. -/
structure State.ReadFrom (context : Context) (origin : Nat) (state : State) : Prop where
  within : origin ≤ context.tokens.size
  lossless : Lossless context ⟨origin, [], []⟩ state
  held : state.HeldFrom context origin

namespace State.ReadFrom

variable {context : Context} {origin : Nat} {state after : State}

theorem start (within : origin ≤ context.tokens.size) :
    ReadFrom context origin ⟨origin, [], []⟩ where
  within := within
  lossless := .refl _
  held := ⟨by simp [gathered], by simp [gathered]⟩

theorem moves (read : state.ReadFrom context origin) (moves : Moves context .any state after) :
    after.ReadFrom context origin where
  within := read.within
  lossless := read.lossless.trans moves.lossless
  held := moves.heldFrom read.held

theorem records (read : state.ReadFrom context origin) (errors : List SyntaxError) :
    State.ReadFrom context origin { state with errors } where
  within := read.within
  lossless := ⟨read.lossless.forward, read.lossless.held, read.lossless.inside⟩
  held := ⟨read.held.reaches, read.held.sincere⟩

theorem readUnit (within : origin ≤ context.tokens.size) :
    (State.readUnit context ⟨origin, [], []⟩).ReadFrom context origin :=
  readUnit_kept (fun _ read begun => begun.moves (read_moves _ read))
    (fun _ _ begun => (begun.records _).moves (sweep_moves _)) (start within)

theorem readExpression (within : origin ≤ context.tokens.size) :
    ∃ place, (State.readExpression context ⟨origin, [], []⟩).ReadFrom context place :=
  @readExpression_kept context (fun state => ∃ place, state.ReadFrom context place) _
    (fun read => ⟨origin, (start within).moves (read_moves _ read)⟩) ⟨0, start (Nat.zero_le _)⟩
    (fun _ _ ⟨_, begun⟩ => ⟨_, begun.records _⟩)
    (fun _ ⟨_, begun⟩ => ⟨_, begun.moves (sweep_moves _)⟩)

/-- The cursor stays inside the token list. -/
theorem position_le (read : state.ReadFrom context origin) :
    state.position ≤ context.tokens.size := by
  refine Nat.le_of_not_lt fun beyond => ?_
  have within := read.within
  -- The last token read would lie beyond the list, where there are only end marks.
  have last : (context.get (state.position - 1)).kind ≠ .eof :=
    read.lossless.inside _ (show origin ≤ state.position - 1 by omega) (by omega)
  have inside := Context.lt_size_of_kind_ne last
  omega

/-- A walk over a finished tree meets what the frame held, and the end mark. -/
theorem events_finishParse (state : State) (kind : NodeKind) :
    let root := (state.finishParse context kind).root
    root.events.toList = .enter root :: (Element.eventsAll state.gathered ++
      [.token (state.current context), .exit root]) := by
  intro root
  have children : root.children = state.gathered ++ [.token (state.current context)] := by
    simp [root, finishParse, takeAny, gathered]
  have below := congrArg Element.eventsAll children
  rw [Node.toList_events, Node.toElement, Element.events_node, below]
  simp

/-- The tokens in the frame and the end mark are those from the place on. -/
theorem tokens_eq (read : state.ReadFrom context origin) :
    Element.yieldAll state.gathered ++ [context.get state.position] =
      (List.range (state.position - origin + 1)).map fun index => context.get (origin + index) := by
  have forward : origin ≤ state.position := read.lossless.forward
  rw [read.lossless.yieldAll_eq read.position_le, List.range_succ, List.map_append,
    List.map_singleton, Nat.add_sub_cancel' forward]

/-- What a walk over a finished tree finds missing is not ahead in the tokens it meets next. -/
theorem notAhead (read : state.ReadFrom context origin) (ended : state.atEnd context = true)
    {kind : NodeKind} {expected : TokenKind} {span : Span} {before after : List Event}
    (met : (state.finishParse context kind).root.events.toList =
      before ++ .missing expected span :: after) :
    Token.NotAhead expected (after.filterMap Event.token?) := by
  rw [events_finishParse] at met
  cases before with
  | nil => simp at met
  | cons entered before =>
      obtain ⟨-, below⟩ := List.cons.inj met
      rcases append_eq_append_cons below with ⟨between, inside, rfl⟩ | ⟨between, -, last⟩
      · have lacks := read.held.sincere.lacks _ inside
        have tokens := read.tokens_eq
        rw [← Element.filterMap_token?_eventsAll, inside, List.filterMap_append,
          List.filterMap_cons_none rfl, List.append_assoc] at tokens
        generalize before.filterMap Event.token? = earlier at lacks tokens
        have sizes := congrArg List.length tokens
        have forward : origin ≤ state.position := read.lossless.forward
        simp only [List.length_append, List.length_map, List.length_range,
          List.length_singleton] at sizes
        have place : origin + earlier.length + (between.filterMap Event.token?).length =
            state.position := by omega
        rw [← sizes, List.range_add, List.map_append] at tokens
        have next := List.append_inj_right tokens (by simp)
        have mark : (context.get state.position).kind = .eof := by
          simpa [atEnd, kindAt] using ended
        have stream := lacks.notAhead (place ▸ mark)
        have last : [Event.token (state.current context),
            .exit (state.finishParse context kind).root].filterMap Event.token? =
              [context.get state.position] := rfl
        rw [List.filterMap_append, last, next]
        simpa [Nat.add_assoc, Function.comp_def] using stream
      · rcases between with _ | ⟨_, _ | ⟨_, between⟩⟩ <;> simp at last

end State.ReadFrom

/-- However a token list is read, and whatever is called for before: where the tree says that a
token is missing, it is neither the next one that a walk meets nor, unless that is an end mark,
the one after it. -/
theorem missing_not_ahead (tokens : List Token) (config : Config) (earlier : List Entry)
    (entry : Entry) {expected : TokenKind} {span : Span} {before after : List Event}
    (met : (((Session.start tokens config).after earlier).call entry).1.root.events.toList =
      before ++ .missing expected span :: after) :
    Token.NotAhead expected (after.filterMap Event.token?) := by
  have fresh : (Session.start tokens config).position ≤
      (Session.start tokens config).context.tokens.size := Nat.zero_le _
  have start := Session.after_within earlier fresh
  generalize (Session.start tokens config).after earlier = session at start met
  have within : session.position ≤ session.context.tokens.size := by rw [start.1]; exact start.2
  cases entry with
  | unit => exact (State.ReadFrom.readUnit within).notAhead (State.readUnit_atEnd _) met
  | expression =>
      obtain ⟨place, read⟩ := State.ReadFrom.readExpression within
      exact read.notAhead (State.readExpression_atEnd _) met

/-- The tokens of `class A { int x int y; }`, without the end mark. -/
def twoFields : List Token :=
  [.written .kwClass "class" 0, .written .identifier "A" 6, .written .lBrace "\x7b" 8,
    .written .kwInt "int" 10, .written .identifier "x" 14, .written .kwInt "int" 16,
    .written .identifier "y" 20, .written .semi ";" 21, .written .rBrace "\x7d" 23]

/-- What a walk over the tree of these fields meets. -/
def twoFieldsWalk : List Event :=
  ((Session.start twoFields {}).call .unit).1.root.events.toList

/-- Between the fields a `;` is made up for, and a type and a name come next. -/
theorem missing_not_ahead_twoFields :
    let before := twoFieldsWalk.takeWhile (· != .missing .semi (.point 15))
    let after := (twoFieldsWalk.dropWhile (· != .missing .semi (.point 15))).tail
    twoFieldsWalk = before ++ .missing .semi (.point 15) :: after ∧
      Token.NotAhead .semi (after.filterMap Event.token?) := by
  have met : twoFieldsWalk =
      twoFieldsWalk.takeWhile (· != .missing .semi (.point 15)) ++ .missing .semi (.point 15) ::
        (twoFieldsWalk.dropWhile (· != .missing .semi (.point 15))).tail := by
    decide +kernel
  exact ⟨met, missing_not_ahead twoFields {} [] .unit met⟩

end JavaSyntax
