import JavaSyntax.Diagnostic.Syntactic
import JavaSyntax.Token.Set
import JavaSyntax.Tree.Walk

/-!
# Reading states

While tokens are read, the state is the position of the cursor, the errors
recorded so far, and the slots of the frame under construction. The elementary
steps on states are reading a token, building a node, and the ways in which a
reading goes on after an error.
-/

namespace JavaSyntax

/-- How a token list is parsed. -/
structure Config where
  /-- The deepest nesting of rules before the parse is abandoned. -/
  maxDepth : Nat := 96
  /-- Whether to go on after an error that is not fatal. -/
  recovery : Bool := true
  deriving DecidableEq, Repr, Inhabited

/-- The configuration that ends the parse at the first error. -/
def Config.strict : Config :=
  { recovery := false }

/-- What stays fixed during a reading: the tokens, the end mark that stands for
everything beyond them, and how errors are treated. -/
structure Context where
  tokens : Array Token
  endMark : Token
  limit : Nat
  recovery : Bool
  endMark_kind : endMark.kind = .eof

namespace Context

/-- The end mark of a token list: its last token if that is one, else a new one
where the last token ends. -/
def endMarkOf (tokens : List Token) : Token :=
  match tokens.getLast? with
  | some last => if last.kind = .eof then last else .endMark last.stop
  | none => .endMark 0

theorem endMarkOf_kind (tokens : List Token) : (endMarkOf tokens).kind = .eof := by
  unfold endMarkOf
  split
  · split
    · assumption
    · rfl
  · rfl

/-- The context for reading a token list. -/
def ofTokens (tokens : List Token) (config : Config) : Context where
  tokens := tokens.toArray
  endMark := endMarkOf tokens
  limit := config.maxDepth
  recovery := config.recovery
  endMark_kind := endMarkOf_kind tokens

/-- The token at an index; the end mark beyond the last one. -/
def get (context : Context) (index : Nat) : Token :=
  context.tokens.getD index context.endMark

/-- The same context for a trial: nothing is recovered, so the first error ends it. -/
def trial (context : Context) : Context :=
  { context with recovery := false }

end Context

/-- A point in a reading. Errors and slots are kept latest first. -/
structure State where
  position : Nat
  errors : List SyntaxError
  slots : List Element
  deriving Inhabited

/-- A step of a reading: it leads to a new state or hands back an error. -/
abbrev Step := State → Except SyntaxError State

namespace State

/-- The tokens that no loop can have read yet; each round of a loop reads one. -/
def remaining (context : Context) (state : State) : Nat :=
  context.tokens.size - state.position

/-- The token at the cursor. -/
def current (context : Context) (state : State) : Token :=
  context.get state.position

/-- The kind of the token some places ahead of the cursor. -/
def kindAt (context : Context) (state : State) (distance : Nat) : TokenKind :=
  (context.get (state.position + distance)).kind

/-- Whether the cursor is at an end mark. -/
def atEnd (context : Context) (state : State) : Bool :=
  state.kindAt context 0 == .eof

/-- The empty span where the last token read ends, or where the first one starts. -/
def here (context : Context) (state : State) : Span :=
  if state.position = 0 then .point (state.current context).start
  else .point (context.get (state.position - 1)).stop

/-- The slots in source order. -/
def gathered (state : State) : List Element :=
  state.slots.reverse

/-- Append a slot. -/
def push (state : State) (element : Element) : State :=
  { state with slots := element :: state.slots }

/-- A node built here from some slots in source order. -/
def finish (context : Context) (state : State) (kind : NodeKind) (children : List Element) :
    Element :=
  (Node.spanning kind children (state.here context)).toElement

/-- Turn all slots of the frame into one node. -/
def close (context : Context) (state : State) (kind : NodeKind) : State :=
  { state with slots := [state.finish context kind state.gathered] }

/-- Read the current token into the frame, be it an end mark. The cursor never moves
beyond the last token. -/
def takeAny (context : Context) (state : State) : State :=
  { state with
    position := if state.position < context.tokens.size then state.position + 1 else state.position
    slots := .token (state.current context) :: state.slots }

/-- Read the current token into the frame. An end mark stays where it is; only a
finished parse reads it. -/
def take (context : Context) (state : State) : State :=
  if state.atEnd context then state else state.takeAny context

/-- Read several tokens into the frame. -/
def takeMany (context : Context) : Nat → State → State
  | 0, state => state
  | count + 1, state => takeMany context count (state.take context)

@[simp] theorem gathered_push (state : State) (element : Element) :
    (state.push element).gathered = state.gathered ++ [element] := by
  simp [gathered, push]

@[simp] theorem position_close (context : Context) (state : State) (kind : NodeKind) :
    (state.close context kind).position = state.position := rfl

@[simp] theorem errors_close (context : Context) (state : State) (kind : NodeKind) :
    (state.close context kind).errors = state.errors := rfl

@[simp] theorem gathered_close (context : Context) (state : State) (kind : NodeKind) :
    (state.close context kind).gathered = [state.finish context kind state.gathered] := rfl

@[simp] theorem errors_take (context : Context) (state : State) :
    (state.take context).errors = state.errors := by
  unfold take
  split <;> rfl

theorem take_of_atEnd {context : Context} {state : State} (ended : state.atEnd context = true) :
    state.take context = state := by
  simp [take, ended]

/-- Remove the last slot if it is absent. -/
def dropAbsent (state : State) : State :=
  match state.slots with
  | .absent :: rest => { state with slots := rest }
  | _ => state

/-- Run a step in a frame that starts with the last `lead` slots, and put what it
leaves in their place. -/
def inFrame (state : State) (lead : Nat) (step : Step) : Except SyntaxError State := do
  let inner ← step { state with slots := state.slots.take lead }
  return { inner with slots := inner.slots ++ state.slots.drop lead }

/-- Run a step in a frame of its own and return its slots in source order. -/
def collect (state : State) (step : Step) : Except SyntaxError (List Element × State) := do
  let inner ← step { state with slots := [] }
  return (inner.gathered, { inner with slots := state.slots })

/-- Record an error. Without recovery it is handed back instead. An error that
points where the one before it points follows from that one and is dropped. -/
def report (context : Context) (state : State) (error : SyntaxError) : Except SyntaxError State :=
  if context.recovery then
    match state.errors with
    | last :: _ =>
        if last.offset = error.offset then .ok state
        else .ok { state with errors := error :: state.errors }
    | [] => .ok { state with errors := [error] }
  else .error error

/-- Read a required token. If it is not there but comes next, the current token is
put away as an error; otherwise a missing slot stands for it and nothing is
read. -/
def expect (context : Context) (state : State) (kind : TokenKind) : Except SyntaxError State :=
  let found := state.current context
  if found.kind = kind then .ok (state.take context)
  else do
    let state ← state.report context ⟨.unexpectedToken kind found.kind, found.span⟩
    if found.kind ≠ .eof ∧ state.kindAt context 1 = kind then
      let skipped ← state.inFrame 0 fun inner => .ok ((inner.take context).close context .error)
      return skipped.take context
    else return state.push (.missing kind (state.here context))

/-- The tokens that a failed choice leaves to the rules around it. -/
def synchronizing : TokenSet :=
  .ofList [.semi, .rBrace, .rParen, .rBracket, .comma, .eof]

/-- Report that no alternative of a construct fits. The current token is put away
as an error, unless a rule around it can make use of it. -/
def noViable (context : Context) (state : State) (construct : Construct) :
    Except SyntaxError State := do
  let found := state.current context
  let state ← state.report context ⟨.noViableAlternative construct found.kind, found.span⟩
  state.inFrame 0 fun inner =>
    if synchronizing.contains found.kind then .ok (inner.close context .error)
    else .ok ((inner.take context).close context .error)

/-- Whether a slot is an error node that holds nothing. -/
def isEmptyError : Element → Bool
  | .node .error _ [] => true
  | _ => false

/-- Put the current token away as an error, together with what was built without
reading a token. -/
def swallow (context : Context) (state : State) : State :=
  ({ state with slots := state.slots.filter (!isEmptyError ·) }.take context).close context .error

/-- Run a step in a frame of its own; if it reads no token before the end, the
current token is put away. -/
def progress (context : Context) (state : State) (step : Step) : Except SyntaxError State :=
  state.inFrame 0 fun inner => do
    let result ← step inner
    if result.position ≠ state.position ∨ result.atEnd context then return result
    else return result.swallow context

/-- The error of a rule that would nest deeper than the limit. -/
def tooDeep (context : Context) (state : State) : SyntaxError :=
  ⟨.tooDeeplyNested context.limit, (state.current context).span⟩

/-- Repeat a step as long as it reads tokens. -/
def iterate (step : Step) : Nat → Step
  | 0, state => step state
  | rounds + 1, state => do
      let next ← step state
      if state.position < next.position then iterate step rounds next else return next

end State

end JavaSyntax
