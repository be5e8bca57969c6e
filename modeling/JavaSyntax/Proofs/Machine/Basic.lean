import JavaSyntax.Proofs.Stretches

/-!
# Reading on a machine

The same readings, as a machine carries them out that has one cursor, one list of errors, and
two counters: of the rules that are open, and of the trials that are.  Nothing is undone by
itself.  A computation that fails leaves the machine as it is by then, so whoever counts up
has to count down again on failure too, and a trial has to put the cursor back.

The slots of a frame are no part of the machine.  They are handed on, and lost on failure.
-/

namespace JavaSyntax

/-- What lasts while rules come and go. -/
structure Machine where
  position : Nat
  /-- The recorded errors, latest first. -/
  errors : List SyntaxError
  /-- How many rules are open. -/
  depth : Nat
  /-- How many trials are open. -/
  trials : Nat

namespace Machine

/-- A computation that may fail.  What it has done to the machine by then stays done. -/
abbrev Run := ExceptT SyntaxError (StateM Machine)

/-- A computation that goes on from the slots of a frame, latest first. -/
abbrev Act := List Element → Run (List Element)

/-- The machine with some slots in hand, as a state. -/
def toState (machine : Machine) (slots : List Element) : State :=
  ⟨machine.position, machine.errors, slots⟩

/-! ## Steps -/

/-- Change the cursor, the errors and the slots in hand. -/
def apply (move : State → State) (slots : List Element) : StateM Machine (List Element) := do
  let machine ← get
  let after := move (machine.toState slots)
  set { machine with position := after.position, errors := after.errors }
  return after.slots

/-- A step that cannot fail. -/
def step (move : State → State) : Act := fun slots => liftM (apply move slots)

/-- Record an error.  Without recovery, or in a trial, it is raised instead. -/
def report (context : Context) (error : SyntaxError) : Run Unit := do
  let machine ← get
  if machine.trials = 0 ∧ context.recovery then
    match machine.errors with
    | last :: _ =>
        if last.offset = error.offset then return ()
        else set { machine with errors := error :: machine.errors }
    | [] => set { machine with errors := [error] }
  else throw error

/-- Run in a frame that starts with the last `lead` slots. -/
def inFrame (lead : Nat) (act : Act) : Act := fun slots => do
  let inner ← act (slots.take lead)
  return inner ++ slots.drop lead

/-- Run in a frame of its own and return its slots in source order. -/
def collect (act : Act) : Run (List Element) := do
  let inner ← act []
  return inner.reverse

/-- Read a required token. -/
def expect (context : Context) (kind : TokenKind) : Act := fun slots => do
  let state := (← get).toState slots
  let found := state.current context
  if found.kind = kind then step (·.take context) slots
  else do
    report context ⟨.unexpectedToken kind found.kind, found.span⟩
    if found.kind ≠ .eof ∧ state.kindAt context 1 = kind then
      let skipped ← inFrame 0 (step fun inner => (inner.take context).close context .error) slots
      step (·.take context) skipped
    else step (fun state => state.push (.missing kind (state.here context))) slots

/-- Report that no alternative of a construct fits. -/
def noViable (context : Context) (construct : Construct) : Act := fun slots => do
  let found := ((← get).toState slots).current context
  report context ⟨.noViableAlternative construct found.kind, found.span⟩
  inFrame 0 (fun inner =>
    if State.synchronizing.contains found.kind then step (·.close context .error) inner
    else step (fun inner => (inner.take context).close context .error) inner) slots

/-- Run in a frame of its own; if that reads no token before the end, put the current one
away. -/
def progress (context : Context) (act : Act) : Act := fun slots => do
  let before ← get
  inFrame 0 (fun inner => do
    let result ← act inner
    let state := (← get).toState result
    if state.position ≠ before.position ∨ state.atEnd context then return result
    else step (·.swallow context) result) slots

/-! ## Loops -/

/-- Repeat as long as tokens are read. -/
def iterate (act : Act) : Nat → Act
  | 0, slots => act slots
  | rounds + 1, slots => do
      let before ← get
      let next ← act slots
      let after ← get
      if before.position < after.position then iterate act rounds next else return next

/-- Read operators and operands after `left` until no operator follows. -/
def climb (context : Context) (operand type : Act) : Nat → List Pending → List Element → Act
  | 0, stack, left, slots => step (·.closeOperators context stack left) slots
  | rounds + 1, stack, left, slots => do
      let state := (← get).toState slots
      match state.operator? context with
      | none => step (·.closeOperators context stack left) slots
      | some (level, width) =>
          let (stack, left) := state.reduce context level stack left
          if state.kindAt context 0 = .kwInstanceof then do
            let right ← collect fun inner => do type (← step (·.take context) inner)
            let after := (← get).toState slots
            climb context operand type rounds stack
              [after.finish context .instanceofExpression (left ++ right)] slots
          else do
            let operator ← collect fun inner => step (·.takeMany context width) inner
            let right ← collect operand
            climb context operand type rounds (⟨left, level, operator⟩ :: stack) right slots

/-- Read operands joined by binary operators. -/
def operators (context : Context) (operand type : Act) : Act := fun slots => do
  let left ← collect operand
  let after := (← get).toState slots
  climb context operand type (after.remaining context) [] left slots

/-- Read the operand in the frame of the last prefix, and build the node of each prefix
around it. -/
def closePrefixes (context : Context) (last : Act) (prefixes : List (List Element)) : Act :=
  fun slots =>
    match prefixes with
    | [] => inFrame 0 last slots
    | inmost :: outer => do
        let inner ← last inmost.reverse
        let state := (← get).toState inner
        let operand := state.finish context (State.prefixKind inmost) state.gathered
        return state.nestRight context State.prefixKind outer operand :: slots

/-- Read prefixes as long as there are any, then the operand. -/
def prefixed (context : Context) (link last : Act) : Nat → List (List Element) → Act
  | 0, prefixes, slots => closePrefixes context last prefixes slots
  | rounds + 1, prefixes, slots => do
      let before ← get
      let first ← collect link
      let after ← get
      if before.position < after.position then
        prefixed context link last rounds (first :: prefixes) slots
      else closePrefixes context last prefixes slots

/-- End the innermost link, whose slots are `inner`, and build the nodes of all links. -/
def closeChain (context : Context) (kind : NodeKind) (last : Act) (outer : List (List Element))
    (base inner : List Element) : Run (List Element) := do
  let ended ← last inner
  let state := (← get).toState ended
  let inmost := state.finish context kind state.gathered
  return state.nestRight context (fun _ => kind) outer inmost :: base

/-- Read links, each inside the one before, until `more` does not hold. -/
def chain (context : Context) (kind : NodeKind) (link : Act)
    (more : List Element → StateM Machine Bool) (last : Act) : Nat → List (List Element) → Act
  | 0, outer, slots => do closeChain context kind last outer slots (← link [])
  | rounds + 1, outer, slots => do
      let inner ← link []
      if ← more inner then
        let joined ← step (·.take context) inner
        chain context kind link more last rounds (joined.reverse :: outer) slots
      else closeChain context kind last outer slots inner

/-! ## Rules and trials -/

/-- Run with one more rule open, unless the limit is reached. -/
def nested (context : Context) (act : Act) : Act := fun slots => ExceptT.mk do
  let machine ← get
  if context.limit ≤ machine.depth then return .error ((machine.toState slots).tooDeep context)
  else
    modify fun machine => { machine with depth := machine.depth + 1 }
    let result ← (act slots).run
    modify fun machine => { machine with depth := machine.depth - 1 }
    return result

/-- Run as a trial.  If it fails, the cursor and the errors are put back. -/
def speculate {α : Type} (trial : Run α) : StateM Machine (Option α) := do
  let mark ← get
  modify fun machine => { machine with trials := machine.trials + 1 }
  let result ← trial.run
  modify fun machine => { machine with trials := machine.trials - 1 }
  match result with
  | .ok value => return some value
  | .error _ =>
      modify fun machine =>
        { machine with
          position := mark.position
          errors := machine.errors.drop (machine.errors.length - mark.errors.length) }
      return none

/-- Run a trial only for its answer; the cursor is put back in any case. -/
def lookahead (trial : Run Bool) : StateM Machine Bool := do
  let mark ← get
  let answer ← speculate trial
  modify fun machine => { machine with position := mark.position }
  return answer.getD false

end Machine

open Machine

mutual

/-- Read a phrase on the machine, where `rules` reads the rules it calls. -/
def Phrase.drive (rules : Rule → Context → Act) : Phrase → Context → Act
  | .nothing => fun _ slots => return slots
  | .absent => fun _ slots => step (·.push .absent) slots
  | .absentFirst => fun _ slots => return slots ++ [.absent]
  | .dropAbsent => fun _ slots => step (·.dropAbsent) slots
  | .take => fun context slots => step (·.take context) slots
  | .expect kind => fun context => expect context kind
  | .noViable construct => fun context => noViable context construct
  | .require requirement => fun context slots =>
      match requirement.violation? slots with
      | some error => do
          report context error
          return slots
      | none => return slots
  | .call rule => rules rule
  | .seq first second => fun context slots => do
      second.drive rules context (← first.drive rules context slots)
  | .choose condition yes no => fun context slots => do
      if ← condition.check rules context slots then yes.drive rules context slots
      else no.drive rules context slots
  | .frame lead body => fun context => inFrame lead (body.drive rules context)
  | .close kind => fun context slots => step (·.close context kind) slots
  | .many body => fun context slots => do
      let state := (← get).toState slots
      iterate (body.drive rules context) (state.remaining context) slots
  | .whenAdvanced body next => fun context slots => do
      let before ← get
      let read ← body.drive rules context slots
      let after ← get
      if before.position < after.position then next.drive rules context read else return read
  | .progress body => fun context => progress context (body.drive rules context)
  | .attempt trial accept yes no => fun context slots => do
      let mark ← get
      match ← speculate (trial.drive rules context slots) with
      | some tried =>
          if ← accept.check rules context tried then yes.drive rules context tried
          else
            modify fun machine => { machine with position := mark.position }
            no.drive rules context slots
      | none => no.drive rules context slots
  | .operators operand type => fun context =>
      operators context (operand.drive rules context) (type.drive rules context)
  | .prefixed link last => fun context slots => do
      let state := (← get).toState slots
      prefixed context (link.drive rules context) (last.drive rules context)
        (state.remaining context) [] slots
  | .chain kind link more last => fun context slots => do
      let state := (← get).toState slots
      chain context kind (link.drive rules context) (more.check rules context)
        (last.drive rules context) (state.remaining context) [] slots

/-- Find out on the machine whether a condition holds. -/
def Condition.check (rules : Rule → Context → Act) :
    Condition → Context → List Element → StateM Machine Bool
  | .next distance kinds => fun context slots => do
      return kinds.contains (((← get).toState slots).kindAt context distance)
  | .shape shape => fun _ slots => return shape.holds slots
  | .not condition => fun context slots => return !(← condition.check rules context slots)
  | .and left right => fun context slots => do
      if ← left.check rules context slots then right.check rules context slots else return false
  | .or left right => fun context slots => do
      if ← left.check rules context slots then return true else right.check rules context slots
  | .ahead trial afterwards => fun context slots =>
      lookahead do afterwards.check rules context (← trial.drive rules context slots)

end

/-- Read a rule of a grammar on the machine.  Fuel for as many rules as may still be opened
is never used up before the counter reaches the limit. -/
def driveRule (grammar : Rule → Phrase) : Nat → Rule → Context → Act
  | 0, _ => fun context slots => do throw (((← get).toState slots).tooDeep context)
  | fuel + 1, rule => fun context =>
      nested context ((grammar rule).drive (driveRule grammar fuel) context)

/-- Read a phrase of the language on the machine. -/
def Language.drive (phrase : Phrase) (context : Context) : Act :=
  phrase.drive (driveRule grammar context.limit) context

namespace Machine

/-! ## Items and parses -/

/-- Give up on an item: its errors beyond the first `known` ones are dropped in favour of
`error`, and all tokens from where it started are put away. -/
def abandon (context : Context) (start known : Nat) (error : SyntaxError) (slots : List Element) :
    StateM Machine (List Element) := do
  modify fun machine =>
    { machine with
      position := start
      errors := error :: machine.errors.drop (machine.errors.length - known) }
  apply (·.sweep context) slots

/-- Read one item.  The flag tells whether the parse goes on after it. -/
def readItem (context : Context) (item : Phrase) (slots : List Element) :
    StateM Machine (List Element × Bool) := do
  let mark ← get
  match ← (Language.drive item context slots).run with
  | .ok read => return (read, true)
  | .error error =>
      return (← abandon context mark.position mark.errors.length error slots, false)

/-- Read items while a condition on the current token holds. -/
def readItems (context : Context) (continues : TokenKind → Bool) (item : Phrase) :
    Nat → List Element → StateM Machine (List Element × Bool)
  | 0, slots => return (slots, true)
  | rounds + 1, slots => do
      if continues (((← get).toState slots).kindAt context 0) then
        match ← readItem context item slots with
        | (read, true) => readItems context continues item rounds read
        | (read, false) => return (read, false)
      else return (slots, true)

/-- Read the items of a source file. -/
def readUnit (context : Context) (slots : List Element) : StateM Machine (List Element) := do
  match ← readItem context Language.packageDeclaration slots with
  | (packaged, false) => return packaged
  | (packaged, true) =>
      let state := (← get).toState packaged
      match ← readItems context (· == .kwImport) Language.importDeclaration
          (state.remaining context) packaged with
      | (imported, false) => return imported
      | (imported, true) =>
          let state := (← get).toState imported
          return (← readItems context (· != .eof) (.progress Language.typeDeclaration)
            (state.remaining context) imported).1

/-- Read one expression and put away what follows it. -/
def readExpression (context : Context) (slots : List Element) : StateM Machine (List Element) := do
  match ← (Language.drive (.call .expression) context slots).run with
  | .ok read =>
      let state := (← get).toState read
      if state.atEnd context then return read
      else
        let found := state.current context
        let error : SyntaxError := ⟨.unexpectedToken .eof found.kind, found.span⟩
        match ← (report context error).run with
        | .ok () => apply (·.sweep context) read
        | .error error =>
            modify fun machine => { machine with errors := error :: machine.errors }
            apply (·.sweep context) read
  | .error error => abandon context 0 0 error slots

/-- Read the end mark, close the tree and hand over the errors. -/
def finishParse (context : Context) (kind : NodeKind) (slots : List Element) :
    StateM Machine Parse := do
  let ended ← apply (·.takeAny context) slots
  let state := (← get).toState ended
  modify fun machine => { machine with errors := [] }
  return ⟨.spanning kind state.gathered (state.here context), state.errors.reverse⟩

/-- Read one tree. -/
def parse (context : Context) : Entry → StateM Machine Parse
  | .unit => do finishParse context .compilationUnit (← readUnit context [])
  | .expression => do finishParse context .expressionRoot (← readExpression context [])

/-- A machine at the front of a token list. -/
def start : Machine :=
  ⟨0, [], 0, 0⟩

/-- The machine after some calls. -/
def after (context : Context) (machine : Machine) (calls : List Entry) : Machine :=
  calls.foldl (fun machine entry => ((parse context entry).run machine).2) machine

end Machine

end JavaSyntax
