import JavaSyntax.Language.Rules

/-!
# Parsing token lists

A session reads a token list from front to back. Each reading builds one tree
that ends with an end mark, and leaves the cursor behind it, so a session can
go on with what follows.

An error that no rule recovers from abandons the item it occurred in: whatever
that item read or reported is undone, and all tokens up to the end mark are put
away in one error node.
-/

namespace JavaSyntax

/-- A finished parse: the tree and the errors in the order they were recorded. -/
structure Parse where
  root : Node
  errors : List SyntaxError
  deriving DecidableEq, Repr, Inhabited

namespace Parse

/-- Whether the parse is without errors. -/
def isClean (parse : Parse) : Bool :=
  parse.errors.isEmpty

/-- The tree of a clean parse, otherwise the first error. -/
def toExcept (parse : Parse) : Except SyntaxError Node :=
  match parse.errors with
  | [] => .ok parse.root
  | first :: _ => .error first

end Parse

namespace State

/-- Read tokens up to the next end mark. -/
def takeRest (context : Context) : Nat → State → State
  | 0, state => state
  | rounds + 1, state =>
      if state.atEnd context then state else takeRest context rounds (state.take context)

/-- Put all tokens up to the next end mark away in one error node, if there are any. -/
def sweep (context : Context) (state : State) : State :=
  if state.atEnd context then state
  else
    let inner := takeRest context (state.remaining context) { state with slots := [] }
    { inner with slots := (inner.close context .error).slots ++ state.slots }

/-- Give up on what starts at this state, because of `error`. -/
def abandon (context : Context) (state : State) (error : SyntaxError) : State :=
  { state with errors := error :: state.errors }.sweep context

/-- Read one item. The flag tells whether the parse goes on after it. -/
def readItem (context : Context) (item : Phrase) (state : State) : State × Bool :=
  match Language.read item context state with
  | .ok after => (after, true)
  | .error error => (state.abandon context error, false)

/-- Read items while a condition on the current token holds. -/
def readItems (context : Context) (continues : TokenKind → Bool) (item : Phrase) :
    Nat → State → State × Bool
  | 0, state => (state, true)
  | rounds + 1, state =>
      if continues (state.kindAt context 0) then
        match state.readItem context item with
        | (after, true) => readItems context continues item rounds after
        | (after, false) => (after, false)
      else (state, true)

/-- Read the items of a source file: a package, imports and type declarations. -/
def readUnit (context : Context) (state : State) : State :=
  match state.readItem context Language.packageDeclaration with
  | (packaged, false) => packaged
  | (packaged, true) =>
      match packaged.readItems context (· == .kwImport) Language.importDeclaration
          (packaged.remaining context) with
      | (imported, false) => imported
      | (imported, true) =>
          (imported.readItems context (· != .eof) (.progress Language.typeDeclaration)
            (imported.remaining context)).1

/-- Read one expression and put away what follows it. An expression that is
abandoned is read over from the first token of the list. -/
def readExpression (context : Context) (state : State) : State :=
  match Language.read (.call .expression) context state with
  | .ok after =>
      if after.atEnd context then after
      else
        let found := after.current context
        let error : SyntaxError := ⟨.unexpectedToken .eof found.kind, found.span⟩
        let reported := match after.report context error with
          | .ok reported => reported
          | .error error => { after with errors := error :: after.errors }
        reported.sweep context
  | .error error => { state with position := 0, errors := [] }.abandon context error

/-- Read the end mark and close the tree. -/
def finishParse (context : Context) (kind : NodeKind) (state : State) : Parse :=
  let ended := state.takeAny context
  ⟨.spanning kind ended.gathered (ended.here context), ended.errors.reverse⟩

end State

/-- A token list with a cursor. -/
structure Session where
  context : Context
  position : Nat

namespace Session

/-- A session at the front of a token list. -/
def start (tokens : List Token) (config : Config) : Session :=
  ⟨.ofTokens tokens config, 0⟩

/-- Read one tree with `read` and move the cursor behind its end mark. -/
def parseWith (session : Session) (kind : NodeKind) (read : Context → State → State) :
    Parse × Session :=
  let state := read session.context ⟨session.position, [], []⟩
  (state.finishParse session.context kind,
    { session with position := (state.takeAny session.context).position })

/-- Read a source file. The tree is a `compilationUnit` that ends with the end mark. -/
def parseUnit (session : Session) : Parse × Session :=
  session.parseWith .compilationUnit fun context state => state.readUnit context

/-- Read one expression. The tree is an `expressionRoot` that ends with the end
mark. -/
def parseExpression (session : Session) : Parse × Session :=
  session.parseWith .expressionRoot fun context state => state.readExpression context

end Session

end JavaSyntax
