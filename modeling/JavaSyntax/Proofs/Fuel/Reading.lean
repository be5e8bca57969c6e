import JavaSyntax.Session

/-!
# Reading on fuel

The same readings, written so that nothing but fuel ends them.  A loop goes on for
as long as its condition says, whether or not it reads anything, and a rule may
call itself where it stands.  Each call of a rule and each round of a loop uses up
fuel, and a reading that runs out of it has no result.

In a loop over a phrase the condition is that the phrase does not decline: some
choice in it leads to something other than reading nothing.
-/

namespace JavaSyntax

/-- What a reading on fuel comes to: nothing, when it runs out. -/
abbrev Fueled := ExceptT SyntaxError Option

/-- A step of a reading on fuel. -/
abbrev FueledStep := State → Fueled State

namespace Fueled

/-- Run a step in a frame that starts with the last `lead` slots. -/
def inFrame (state : State) (lead : Nat) (step : FueledStep) : Fueled State := do
  let inner ← step { state with slots := state.slots.take lead }
  return { inner with slots := inner.slots ++ state.slots.drop lead }

/-- Run a step in a frame of its own and return its slots in source order. -/
def collect (state : State) (step : FueledStep) : Fueled (List Element × State) := do
  let inner ← step { state with slots := [] }
  return (inner.gathered, { inner with slots := state.slots })

/-- Run a step in a frame of its own; if it reads no token before the end, the current
token is put away. -/
def progress (context : Context) (state : State) (step : FueledStep) : Fueled State :=
  inFrame state 0 fun inner => do
    let result ← step inner
    if result.position ≠ state.position ∨ result.atEnd context then return result
    else return result.swallow context

/-- Repeat a step until it declines. -/
def loop (declines : State → Option Bool) (step : FueledStep) : Nat → FueledStep
  | 0, _ => none
  | rounds + 1, state => do
      if ← declines state then return state
      else loop declines step rounds (← step state)

/-- Read operators and operands for as long as an operator follows. -/
def climb (context : Context) (operand type : FueledStep) :
    Nat → List Pending → List Element → FueledStep
  | 0, _, _, _ => none
  | rounds + 1, stack, left, state =>
      match state.operator? context with
      | none => return state.closeOperators context stack left
      | some (level, width) =>
          let (stack, left) := state.reduce context level stack left
          if state.kindAt context 0 = .kwInstanceof then do
            let (right, after) ← collect state fun inner => type (inner.take context)
            climb context operand type rounds stack
              [after.finish context .instanceofExpression (left ++ right)] after
          else do
            let (operator, before) ← collect state fun inner =>
              return inner.takeMany context width
            let (right, after) ← collect before operand
            climb context operand type rounds (⟨left, level, operator⟩ :: stack) right after

/-- Read the operand in the frame of the last prefix, and build the node of each prefix
around it. -/
def closePrefixes (context : Context) (last : FueledStep) (prefixes : List (List Element)) :
    FueledStep :=
  fun state =>
    match prefixes with
    | [] => inFrame state 0 last
    | inmost :: outer => do
        let inner ← last { state with slots := inmost.reverse }
        let operand := inner.finish context (State.prefixKind inmost) inner.gathered
        return { inner with
          slots := inner.nestRight context State.prefixKind outer operand :: state.slots }

/-- Read prefixes until there is none, then the operand. -/
def prefixed (context : Context) (declines : State → Option Bool) (link last : FueledStep) :
    Nat → List (List Element) → FueledStep
  | 0, _, _ => none
  | rounds + 1, prefixes, state => do
      if ← declines { state with slots := [] } then closePrefixes context last prefixes state
      else
        let (slots, after) ← collect state link
        prefixed context declines link last rounds (slots :: prefixes) after

/-- End the innermost link of a chain and build the nodes of all links. -/
def closeChain (context : Context) (kind : NodeKind) (last : FueledStep)
    (outer : List (List Element)) (base : List Element) (inner : State) : Fueled State := do
  let ended ← last inner
  let inmost := ended.finish context kind ended.gathered
  return { ended with slots := ended.nestRight context (fun _ => kind) outer inmost :: base }

/-- Read links, each inside the one before, until `more` does not hold. -/
def chain (context : Context) (kind : NodeKind) (link : FueledStep)
    (more : State → Option Bool) (last : FueledStep) : Nat → List (List Element) → FueledStep
  | 0, _, _ => none
  | rounds + 1, outer, state => do
      let inner ← link { state with slots := [] }
      if ← more inner then
        let joined := inner.take context
        chain context kind link more last rounds (joined.gathered :: outer)
          { joined with slots := state.slots }
      else closeChain context kind last outer state.slots inner

end Fueled

mutual

/-- Read a phrase, with so much fuel for each of its loops. -/
def Phrase.runWithin (rules : Rule → Context → FueledStep) (fuel : Nat) :
    Phrase → Context → FueledStep
  | .nothing => fun _ state => return state
  | .absent => fun _ state => return state.push .absent
  | .absentFirst => fun _ state => return { state with slots := state.slots ++ [.absent] }
  | .dropAbsent => fun _ state => return state.dropAbsent
  | .take => fun context state => return state.take context
  | .expect kind => fun context state => some (state.expect context kind)
  | .noViable construct => fun context state => some (state.noViable context construct)
  | .require requirement => fun context state =>
      match requirement.violation? state.slots with
      | some error => some (state.report context error)
      | none => return state
  | .call rule => rules rule
  | .seq first second => fun context state => do
      second.runWithin rules fuel context (← first.runWithin rules fuel context state)
  | .choose condition yes no => fun context state => do
      if ← condition.holdsWithin rules fuel context state then
        yes.runWithin rules fuel context state
      else no.runWithin rules fuel context state
  | .frame lead body => fun context state =>
      Fueled.inFrame state lead (body.runWithin rules fuel context)
  | .close kind => fun context state => return state.close context kind
  | .many body => fun context =>
      Fueled.loop (body.declinesWithin rules fuel context) (body.runWithin rules fuel context) fuel
  | .whenAdvanced body next => fun context state => do
      let after ← body.runWithin rules fuel context state
      if state.position < after.position then next.runWithin rules fuel context after
      else return after
  | .progress body => fun context state =>
      Fueled.progress context state (body.runWithin rules fuel context)
  | .attempt trial accept yes no => fun context state =>
      match trial.runWithin rules fuel context.trial state with
      | none => none
      | some (.ok after) => do
          if ← accept.holdsWithin rules fuel context after then
            yes.runWithin rules fuel context after
          else no.runWithin rules fuel context state
      | some (.error _) => no.runWithin rules fuel context state
  | .operators operand type => fun context state => do
      let (left, after) ← Fueled.collect state (operand.runWithin rules fuel context)
      Fueled.climb context (operand.runWithin rules fuel context)
        (type.runWithin rules fuel context) fuel [] left after
  | .prefixed link last => fun context =>
      Fueled.prefixed context (link.declinesWithin rules fuel context)
        (link.runWithin rules fuel context) (last.runWithin rules fuel context) fuel []
  | .chain kind link more last => fun context =>
      Fueled.chain context kind (link.runWithin rules fuel context)
        (more.holdsWithin rules fuel context) (last.runWithin rules fuel context) fuel []

/-- Whether the choices of a phrase lead to reading nothing. -/
def Phrase.declinesWithin (rules : Rule → Context → FueledStep) (fuel : Nat) :
    Phrase → Context → State → Option Bool
  | .nothing => fun _ _ => some true
  | .choose condition yes no => fun context state => do
      if ← condition.holdsWithin rules fuel context state then
        yes.declinesWithin rules fuel context state
      else no.declinesWithin rules fuel context state
  | .attempt trial accept _ no => fun context state =>
      match trial.runWithin rules fuel context.trial state with
      | none => none
      | some (.ok after) => do
          if ← accept.holdsWithin rules fuel context after then return false
          else no.declinesWithin rules fuel context state
      | some (.error _) => no.declinesWithin rules fuel context state
  | _ => fun _ _ => some false

/-- Whether a condition holds. -/
def Condition.holdsWithin (rules : Rule → Context → FueledStep) (fuel : Nat) :
    Condition → Context → State → Option Bool
  | .next distance kinds => fun context state =>
      return kinds.contains (state.kindAt context distance)
  | .shape shape => fun _ state => return shape.holds state.slots
  | .not condition => fun context state =>
      return !(← condition.holdsWithin rules fuel context state)
  | .and left right => fun context state => do
      if ← left.holdsWithin rules fuel context state then
        right.holdsWithin rules fuel context state
      else return false
  | .or left right => fun context state => do
      if ← left.holdsWithin rules fuel context state then return true
      else right.holdsWithin rules fuel context state
  | .ahead trial afterwards => fun context state =>
      match trial.runWithin rules fuel context.trial state with
      | none => none
      | some (.ok after) => afterwards.holdsWithin rules fuel context.trial after
      | some (.error _) => return false

end

/-- Read a rule with so much fuel.  The nesting that the limit still allows is counted
apart from the fuel. -/
def readRuleWithin (grammar : Rule → Phrase) : Nat → Nat → Rule → Context → FueledStep
  | 0, _, _ => fun _ _ => none
  | _ + 1, 0, _ => fun context state => throw (state.tooDeep context)
  | fuel + 1, depth + 1, rule => (grammar rule).runWithin (readRuleWithin grammar fuel depth) fuel

/-- Read a phrase of the language on fuel. -/
def Language.readWithin (fuel : Nat) (phrase : Phrase) (context : Context) : FueledStep :=
  phrase.runWithin (readRuleWithin grammar fuel context.limit) fuel context

namespace State

/-- Read tokens up to the next end mark. -/
def takeRestWithin (context : Context) : Nat → State → Option State
  | 0, _ => none
  | fuel + 1, state =>
      if state.atEnd context then some state else takeRestWithin context fuel (state.take context)

/-- Put all tokens up to the next end mark away in one error node, if there are any. -/
def sweepWithin (context : Context) (fuel : Nat) (state : State) : Option State :=
  if state.atEnd context then some state
  else do
    let inner ← takeRestWithin context fuel { state with slots := [] }
    return { inner with slots := (inner.close context .error).slots ++ state.slots }

/-- Give up on what starts at this state, because of `error`. -/
def abandonWithin (context : Context) (fuel : Nat) (state : State) (error : SyntaxError) :
    Option State :=
  { state with errors := error :: state.errors }.sweepWithin context fuel

/-- Read one item. The flag tells whether the parse goes on after it. -/
def readItemWithin (context : Context) (fuel : Nat) (item : Phrase) (state : State) :
    Option (State × Bool) := do
  match ← Language.readWithin fuel item context state with
  | .ok after => return (after, true)
  | .error error => return (← state.abandonWithin context fuel error, false)

/-- Read items while a condition on the current token holds. -/
def readItemsWithin (context : Context) (fuel : Nat) (continues : TokenKind → Bool)
    (item : Phrase) : Nat → State → Option (State × Bool)
  | 0, _ => none
  | rounds + 1, state => do
      if continues (state.kindAt context 0) then
        match ← state.readItemWithin context fuel item with
        | (after, true) => readItemsWithin context fuel continues item rounds after
        | (after, false) => return (after, false)
      else return (state, true)

/-- Read the items of a source file: a package, imports and type declarations. -/
def readUnitWithin (context : Context) (fuel : Nat) (state : State) : Option State := do
  match ← state.readItemWithin context fuel Language.packageDeclaration with
  | (packaged, false) => return packaged
  | (packaged, true) =>
      match ← packaged.readItemsWithin context fuel (· == .kwImport)
          Language.importDeclaration fuel with
      | (imported, false) => return imported
      | (imported, true) =>
          return (← imported.readItemsWithin context fuel (· != .eof)
            (.progress Language.typeDeclaration) fuel).1

/-- Read one expression and put away what follows it. -/
def readExpressionWithin (context : Context) (fuel : Nat) (state : State) : Option State := do
  match ← Language.readWithin fuel (.call .expression) context state with
  | .ok after =>
      if after.atEnd context then return after
      else
        let found := after.current context
        let error : SyntaxError := ⟨.unexpectedToken .eof found.kind, found.span⟩
        let reported := match after.report context error with
          | .ok reported => reported
          | .error error => { after with errors := error :: after.errors }
        reported.sweepWithin context fuel
  | .error error =>
      ({ state with position := 0, errors := [] } : State).abandonWithin context fuel error

end State

namespace Session

/-- Read one tree with `read`, if the fuel lasts, and move the cursor behind its end
mark. -/
def parseWithin (session : Session) (kind : NodeKind) (read : Context → State → Option State) :
    Option (Parse × Session) := do
  let state ← read session.context ⟨session.position, [], []⟩
  return (state.finishParse session.context kind,
    { session with position := (state.takeAny session.context).position })

/-- Read a source file on fuel. -/
def parseUnitWithin (fuel : Nat) (session : Session) : Option (Parse × Session) :=
  session.parseWithin .compilationUnit fun context state => state.readUnitWithin context fuel

/-- Read one expression on fuel. -/
def parseExpressionWithin (fuel : Nat) (session : Session) : Option (Parse × Session) :=
  session.parseWithin .expressionRoot fun context state => state.readExpressionWithin context fuel

end Session

end JavaSyntax
