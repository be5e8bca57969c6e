import JavaSyntax.Proofs.Lossless
import JavaSyntax.Proofs.Trials

/-!
# Chains of `else if`

An `else if` is read in a loop, and the nodes of the chain are built when its last link has
been read.  The direct rule would call itself for the `if` behind an `else`.  Both are the
same step, whatever the state and whatever goes wrong on the way; so a chain of any length
nests its nodes to the right, and each of its links is read at the depth of the first.  On a
machine, both also leave the same behind where they fail.
-/

namespace JavaSyntax.Language

open State

/-- `if ( Expression ) Statement` -/
def ifHead : Phrase :=
  .expect .kwIf ++ parenthesizedCondition ++ .call .statement

/-- What is left when the head of an `if` has been read: `else Statement`, or nothing. -/
def ifTail : Phrase :=
  .choose (.is .kwElse) (.take ++ .call .statement) (.absent ++ .absent)

/-- Whether an `else` comes next, and an `if` behind it. -/
def startsElseIf (context : Context) (state : State) : Bool :=
  state.kindAt context 0 = .kwElse ∧ state.kindAt context 1 = .kwIf

theorem holds_startsElseIf {rules : Rule → Context → Step} (context : Context) (state : State) :
    (Condition.is .kwElse &&& .nextIs 1 .kwIf).holds rules context state =
      startsElseIf context state := by
  simp [startsElseIf, eq_comm]

/-- The node of an `if` whose slots have been read, and the state behind it, in which the slots
of the frame around it are back. -/
def endIf (context : Context) (slots : List Element) (ended : State) : Element × State :=
  (ended.finish context .ifStatement ended.gathered, { ended with slots := slots })

section

variable {depth : Nat} {context : Context} {state head : State}

/-- Behind an `else` that follows the head of an `if`, fewer tokens are left. -/
theorem remaining_else
    (read : ifHead.run (readRule grammar depth) context { state with slots := [] } = .ok head)
    (isElse : startsElseIf context head = true) :
    (head.take context).remaining context < state.remaining context := by
  have forward : ({ state with slots := [] } : State).position ≤ head.position :=
    Language.forward read
  have more : head.atEnd context = false := by
    simp only [startsElseIf, decide_eq_true_eq] at isElse
    simp [atEnd, isElse.1]
  have inside : head.position < context.tokens.size :=
    Context.lt_size_of_kind_ne (current_kind_ne more)
  simp only [remaining, take, more, Bool.false_eq_true, if_false, position_takeAny more] at *
  omega

/-- The rule `if ( Expression ) Statement ( else Statement )?` that calls itself, at the same
depth, for an `if` behind the `else`.  It hands back the node and the state behind it. -/
def nestedIf (depth : Nat) (context : Context) (state : State) :
    Except SyntaxError (Element × State) :=
  match _read : ifHead.run (readRule grammar depth) context { state with slots := [] } with
  | .error error => .error error
  | .ok head =>
      (if _isElse : startsElseIf context head then
        (nestedIf depth context (head.take context)).map fun (node, after) => after.push node
      else ifTail.run (readRule grammar depth) context head).map (endIf context state.slots)
termination_by state.remaining context
decreasing_by exact remaining_else _read _isElse

theorem nestedIf_eq (depth : Nat) (context : Context) (state : State) :
    nestedIf depth context state =
      (ifHead.run (readRule grammar depth) context { state with slots := [] }).bind fun head =>
        (if startsElseIf context head then
          (nestedIf depth context (head.take context)).map fun (node, after) => after.push node
        else ifTail.run (readRule grammar depth) context head).map (endIf context state.slots) := by
  rw [nestedIf]
  split
  · rename_i error read
    rw [read]
    rfl
  · rename_i head read
    rw [read, dite_eq_ite]
    rfl

/-- The slots that come back do not bear on the node. -/
theorem map_endIf (slots others : List Element) (ended : Except SyntaxError State) :
    ended.map (endIf context slots) =
      (ended.map (endIf context others)).map fun (node, after) =>
        (node, { after with slots := slots }) := by
  cases ended <;> rfl

theorem nestedIf_slots (depth : Nat) (context : Context) (state : State) (slots : List Element) :
    nestedIf depth context { state with slots := slots } =
      (nestedIf depth context state).map fun (node, after) =>
        (node, { after with slots := slots }) := by
  rw [nestedIf_eq, nestedIf_eq depth context state]
  cases ifHead.run (readRule grammar depth) context { state with slots := [] } with
  | error error => rfl
  | ok head => exact map_endIf slots state.slots _

/-- Nothing is left in the frame around an `if`. -/
theorem slots_nestedIf {node : Element} {after : State}
    (read : nestedIf depth context state = .ok (node, after)) : after.slots = state.slots := by
  have same := nestedIf_slots depth context state state.slots
  rw [show { state with slots := state.slots } = state from rfl, read] at same
  injection same with same
  exact congrArg (·.2.slots) same

/-- Without an `else if` behind its head, an `if` is the last one. -/
theorem nestedIf_last
    (read : ifHead.run (readRule grammar depth) context { state with slots := [] } = .ok head)
    (isLast : startsElseIf context head = false) :
    nestedIf depth context state =
      (ifTail.run (readRule grammar depth) context head).map (endIf context state.slots) := by
  rw [nestedIf_eq, read]
  simp only [Except.bind, isLast, Bool.false_eq_true, if_false]

theorem nestedIf_next
    (read : ifHead.run (readRule grammar depth) context { state with slots := [] } = .ok head)
    (isElse : startsElseIf context head = true) :
    nestedIf depth context state =
      ((nestedIf depth context (head.take context)).map fun (node, after) => after.push node).map
        (endIf context state.slots) := by
  rw [nestedIf_eq, read]
  simp only [Except.bind, isElse, if_true]

/-- The last link is read, and the nodes of the unfinished links are put around its own. -/
theorem closeChain_eq (outer : List (List Element)) (head : State) (slots : List Element) :
    closeChain context .ifStatement (ifTail.run (readRule grammar depth) context) outer slots head =
      ((ifTail.run (readRule grammar depth) context head).map (endIf context slots)).map
        fun (node, after) =>
          after.push (after.nestRight context (fun _ => .ifStatement) outer node) := by
  rw [closeChain]
  cases ifTail.run (readRule grammar depth) context head <;> rfl

/-- The loop that reads a chain, with the unfinished links before it around it. -/
theorem chain_eq_nestedIf {rounds : Nat} (outer : List (List Element))
    (enough : state.remaining context ≤ rounds) :
    chain context .ifStatement (ifHead.run (readRule grammar depth) context)
        (startsElseIf context) (ifTail.run (readRule grammar depth) context) rounds outer state =
      (nestedIf depth context state).map fun (node, after) =>
        after.push (after.nestRight context (fun _ => .ifStatement) outer node) := by
  induction rounds generalizing state outer with
  | zero =>
      rw [chain]
      cases read : ifHead.run (readRule grammar depth) context { state with slots := [] } with
      | error error => rw [nestedIf_eq, read]; rfl
      | ok head =>
          have isLast : startsElseIf context head = false := by
            refine Bool.eq_false_iff.mpr fun isElse => ?_
            have fewer := remaining_else read isElse
            omega
          rw [nestedIf_last read isLast]
          exact closeChain_eq outer head state.slots
  | succ rounds ih =>
      rw [chain]
      cases read : ifHead.run (readRule grammar depth) context { state with slots := [] } with
      | error error => rw [nestedIf_eq, read]; rfl
      | ok head =>
          cases isElse : startsElseIf context head with
          | false =>
              rw [nestedIf_last read isElse]
              simp only [bind, Except.bind, isElse, Bool.false_eq_true, if_false]
              exact closeChain_eq outer head state.slots
          | true =>
              have fewer := remaining_else read isElse
              have inner := @ih { head.take context with slots := state.slots }
                ((head.take context).gathered :: outer)
                (Nat.le_of_lt_succ (Nat.lt_of_lt_of_le fewer enough))
              simp only [bind, Except.bind, isElse, if_true]
              rw [inner, nestedIf_slots, nestedIf_next read isElse]
              cases below : nestedIf depth context (head.take context) with
              | error error => rfl
              | ok ended =>
                  have slots : (ended.2.push ended.1).gathered =
                      (head.take context).gathered ++ [ended.1] := by
                    rw [gathered_push, gathered, slots_nestedIf below, gathered]
                  simp only [Except.map, endIf, slots]
                  rfl

/-- The links of a chain are read one after the other, all with the same depth left: each but
the last up to the `else` in front of the next. -/
inductive Links (depth : Nat) (context : Context) : State → List (List Element) → State → Prop
  | last {state head ended : State} :
      ifHead.run (readRule grammar depth) context { state with slots := [] } = .ok head →
      startsElseIf context head = false →
      ifTail.run (readRule grammar depth) context head = .ok ended →
        Links depth context state [] ended
  | next {state head ended : State} {links : List (List Element)} :
      ifHead.run (readRule grammar depth) context { state with slots := [] } = .ok head →
      startsElseIf context head = true →
      Links depth context (head.take context) links ended →
        Links depth context state ((head.take context).gathered :: links) ended

/-- The node of a chain that ends in a state: the node of each link is the last slot of the
link before it. -/
def chainNode (context : Context) (ended : State) : List (List Element) → Element
  | [] => ended.finish context .ifStatement ended.gathered
  | link :: links => ended.finish context .ifStatement (link ++ [chainNode context ended links])

/-- The rule reads a chain link by link. -/
theorem Links.nestedIf_eq {links : List (List Element)} {ended : State}
    (chain : Links depth context state links ended) :
    nestedIf depth context state =
      .ok (chainNode context ended links, { ended with slots := state.slots }) := by
  induction chain with
  | last read isLast closed =>
      rw [nestedIf_last read isLast, closed]
      rfl
  | next read isElse _ ih =>
      rw [nestedIf_next read isElse, ih]
      simp only [Except.map, endIf, gathered_push]
      rfl

/-- What the rule reads is a chain. -/
theorem exists_links {result : Element × State}
    (read : nestedIf depth context state = .ok result) :
    ∃ links ended, Links depth context state links ended := by
  induction left : state.remaining context using Nat.strongRecOn generalizing state result with
  | ind left ih =>
      cases started : ifHead.run (readRule grammar depth) context { state with slots := [] } with
      | error error =>
          rw [Language.nestedIf_eq, started] at read
          cases read
      | ok head =>
          cases isElse : startsElseIf context head with
          | false =>
              rw [nestedIf_last started isElse] at read
              cases closed : ifTail.run (readRule grammar depth) context head with
              | error error =>
                  rw [closed] at read
                  cases read
              | ok ended => exact ⟨[], ended, .last started isElse closed⟩
          | true =>
              rw [nestedIf_next started isElse] at read
              cases below : nestedIf depth context (head.take context) with
              | error error =>
                  rw [below] at read
                  cases read
              | ok inner =>
                  obtain ⟨links, ended, chain⟩ :=
                    ih _ (left ▸ remaining_else started isElse) below rfl
                  exact ⟨_, ended, .next started isElse chain⟩

/-- The loop reads an `if` as the rule that calls itself does. -/
theorem run_ifStatement (depth : Nat) (context : Context) (state : State) :
    ifStatement.run (readRule grammar depth) context state =
      (nestedIf depth context state).map fun (node, after) => after.push node := by
  have more : startsElseIf context =
      Condition.holds (readRule grammar depth) (.is .kwElse &&& .nextIs 1 .kwIf) context :=
    funext fun state => (holds_startsElseIf context state).symm
  have loop := @chain_eq_nestedIf depth context state _ [] (Nat.le_refl _)
  rw [more] at loop
  exact loop

/-- Where the loop succeeds, it has read a chain and nested the nodes of its links. -/
theorem run_ifStatement_ok_iff {after : State} :
    ifStatement.run (readRule grammar depth) context state = .ok after ↔
      ∃ links ended, Links depth context state links ended ∧
        after = { ended with slots := chainNode context ended links :: state.slots } := by
  rw [run_ifStatement]
  constructor
  · intro read
    cases done : nestedIf depth context state with
    | error error =>
        rw [done] at read
        cases read
    | ok result =>
        obtain ⟨links, ended, chain⟩ := exists_links done
        rw [chain.nestedIf_eq] at read
        cases read
        exact ⟨links, ended, chain, rfl⟩
  · rintro ⟨links, ended, chain, rfl⟩
    rw [chain.nestedIf_eq]
    rfl

end

/-! ## On the machine -/

section Machine

open Machine (Run exec exec_bind exec_lift_bind exec_drive)

variable {context : Context}

/-- The slots of an `if`.  The `if` behind an `else` is a part of the phrase, so that no rule is
opened for it, and so is the one behind its `else` in turn, up to so many. -/
def ifSlots : Nat → Phrase
  | 0 => ifHead ++ ifTail
  | inner + 1 => ifHead ++
      .choose (.is .kwElse &&& .nextIs 1 .kwIf) (.take ++ .node .ifStatement (ifSlots inner)) ifTail

/-- End an `if` on the machine, and build the nodes of the unfinished links around its own. -/
def closeLinks (context : Context) (outer : List (List Element)) (slots ended : List Element) :
    Run (List Element) := do
  let state := (← get).toState ended
  return state.nestRight context (fun _ => .ifStatement) outer
    (state.finish context .ifStatement state.gathered) :: slots

/-- The node of a link is the last slot of the one before it. -/
theorem closeLinks_bind (outer : List (List Element)) (slots joined ended : List Element) :
    closeLinks context [] joined ended >>= closeLinks context outer slots =
      closeLinks context (joined.reverse :: outer) slots ended := by
  funext machine
  have gathered (node : Element) :
      (machine.toState (node :: joined)).gathered = joined.reverse ++ [node] :=
    List.reverse_cons
  change (Except.ok (State.nestRight context _ _ outer
    (State.finish context _ _ (machine.toState (_ :: joined)).gathered) :: slots), machine) = _
  rw [gathered]
  rfl

theorem drive_append (first second : Phrase) (slots : List Element) :
    drive (first ++ second) context slots =
      drive first context slots >>= drive second context := rfl

theorem drive_node_ifStatement (body : Phrase) (slots : List Element) :
    drive (.node .ifStatement body) context slots =
      drive body context [] >>= closeLinks context [] slots := by
  change (drive body context [] >>= drive (.close .ifStatement) context) >>=
    (fun inner => pure (inner ++ slots)) = _
  rw [bind_assoc]
  rfl

/-- The loop on the machine, with the unfinished links before it around it. -/
theorem chain_eq_drive (rounds : Nat) (outer : List (List Element)) (slots : List Element) :
    Machine.chain context .ifStatement (drive ifHead context)
        ((.is .kwElse &&& .nextIs 1 .kwIf : Condition).check
          (driveRule grammar context.limit) context)
        (drive ifTail context) rounds outer slots =
      drive (ifSlots rounds) context [] >>= closeLinks context outer slots := by
  induction rounds generalizing outer with
  | zero =>
      rw [ifSlots, drive_append, bind_assoc]
      rfl
  | succ rounds ih =>
      rw [ifSlots, drive_append, bind_assoc, Machine.chain]
      refine bind_congr fun head => ?_
      change _ = (liftM _ >>= fun more : Bool => if more then drive _ context head
        else drive ifTail context head) >>= _
      rw [bind_assoc]
      refine bind_congr fun more => ?_
      cases more with
      | false => rfl
      | true =>
          simp only [if_true, drive_append, bind_assoc, ih, drive_node_ifStatement, closeLinks_bind]
          rfl

/-- On the machine, the loop is the phrase that goes on as long as there are tokens. -/
theorem drive_ifStatement (slots : List Element) (machine : Machine) :
    exec (drive ifStatement context slots) machine =
      exec (drive (.node .ifStatement (ifSlots ((machine.toState slots).remaining context)))
        context slots) machine := by
  rw [drive_node_ifStatement, ← chain_eq_drive]
  rfl

/-- An `else if` is seen without a trace. -/
theorem exec_choose_startsElseIf (yes no : Phrase) (slots : List Element) (machine : Machine) :
    exec (drive (.choose (.is .kwElse &&& .nextIs 1 .kwIf) yes no) context slots) machine =
      if startsElseIf context (machine.toState slots) then exec (drive yes context slots) machine
      else exec (drive no context slots) machine := by
  have check : ((Condition.is .kwElse &&& .nextIs 1 .kwIf).check
      (driveRule grammar context.limit) context slots).run machine =
        (startsElseIf context (machine.toState slots), machine) := by
    rw [Condition.check_eq (driveRule_follows grammar context (Nat.le_add_right _ _)) _ _
      (.refl machine slots), holds_startsElseIf]
    rfl
  change exec (liftM _ >>= fun more : Bool => if more then drive yes context slots
    else drive no context slots) machine = _
  rw [exec_lift_bind, check]
  cases startsElseIf context (machine.toState slots) <;> rfl

/-- The machine behind the token at the cursor. -/
def afterTake (context : Context) (slots : List Element) (machine : Machine) : Machine :=
  let taken := (machine.toState slots).take context
  { machine with position := taken.position, errors := taken.errors }

theorem exec_take_append (next : Phrase) (slots : List Element) (machine : Machine) :
    exec (drive (.take ++ next) context slots) machine =
      exec (drive next context ((machine.toState slots).take context).slots)
        (afterTake context slots machine) := rfl

/-- Fewer tokens are left on the machine behind an `else` that follows the head of an `if`. -/
theorem remaining_else_drive {machine after : Machine} {head : List Element}
    (ran : exec (Language.drive ifHead context []) machine = (.ok head, after))
    (isElse : startsElseIf context (after.toState head) = true) :
    ((afterTake context head after).toState []).remaining context <
      (machine.toState []).remaining context := by
  have read := exec_drive ifHead context [] machine
  rw [ran] at read
  exact @remaining_else _ (context.during machine.trials) (machine.toState []) _ read isElse

/-- The slots of an `if`, read on the machine with an `if` behind the `else` as a part. -/
theorem exec_ifSlots (inner : Nat) (machine : Machine) :
    exec (drive (ifSlots (inner + 1)) context []) machine =
      match exec (drive ifHead context []) machine with
      | (.ok head, after) =>
          if startsElseIf context (after.toState head) then
            exec (drive (.take ++ .node .ifStatement (ifSlots inner)) context head) after
          else exec (drive ifTail context head) after
      | (.error error, failed) => (.error error, failed) := by
  rw [ifSlots, drive_append, exec_bind]
  rcases exec (drive ifHead context []) machine with ⟨error | head, after⟩
  · rfl
  · exact exec_choose_startsElseIf _ _ head after

/-- The bound makes no difference once it is as large as the number of tokens left. -/
theorem exec_ifSlots_succ {inner : Nat} {machine : Machine}
    (enough : (machine.toState []).remaining context ≤ inner) :
    exec (drive (ifSlots (inner + 1)) context []) machine =
      exec (drive (ifSlots inner) context []) machine := by
  induction inner generalizing machine with
  | zero =>
      rw [exec_ifSlots, ifSlots, drive_append, exec_bind]
      rcases ran : exec (drive ifHead context []) machine with ⟨error | head, after⟩
      · rfl
      · have isLast : ¬startsElseIf context (after.toState head) = true := fun isElse => by
          have fewer := remaining_else_drive ran isElse
          omega
        simp only [if_neg isLast]
  | succ inner ih =>
      rw [exec_ifSlots, exec_ifSlots inner]
      rcases ran : exec (drive ifHead context []) machine with ⟨error | head, after⟩
      · rfl
      · cases isElse : startsElseIf context (after.toState head) with
        | false => simp only [isElse, Bool.false_eq_true, if_false]
        | true =>
            have fewer := remaining_else_drive ran isElse
            have same := ih (Nat.le_of_lt_succ (Nat.lt_of_lt_of_le fewer enough))
            simp only [isElse, if_true, exec_take_append, drive_node_ifStatement, exec_bind, same]

/-- On the machine, the loop is the phrase that contains itself, whatever the bound beyond the
number of tokens left. -/
theorem exec_ifStatement (slots : List Element) (machine : Machine) (more : Nat) :
    exec (drive ifStatement context slots) machine =
      exec (drive (.node .ifStatement
        (ifSlots ((machine.toState slots).remaining context + more))) context slots) machine := by
  induction more with
  | zero => exact drive_ifStatement slots machine
  | succ more ih =>
      have same := @exec_ifSlots_succ context
        ((machine.toState slots).remaining context + more) machine (Nat.le_add_right _ _)
      rw [ih, drive_node_ifStatement, drive_node_ifStatement, exec_bind, exec_bind, ← same]
      rfl

end Machine

/-- The loop reads an `if` as the rule that calls itself does.  Where it succeeds, all links of
the chain were read at one depth, and their nodes are nested one in the last slot of another.
On a machine it comes to the same as the phrase that contains itself, and leaves the same cursor,
errors and counters behind, where it succeeds and where it fails. -/
theorem ifStatement_nests (context : Context) :
    (∀ (depth : Nat) (state : State),
      ifStatement.run (readRule grammar depth) context state =
          (nestedIf depth context state).map (fun (node, after) => after.push node) ∧
        ∀ after, ifStatement.run (readRule grammar depth) context state = .ok after ↔
          ∃ links ended, Links depth context state links ended ∧
            after = { ended with slots := chainNode context ended links :: state.slots }) ∧
      ∀ (slots : List Element) (machine : Machine) (more : Nat),
        Machine.exec (drive ifStatement context slots) machine =
          Machine.exec (drive (.node .ifStatement
            (ifSlots ((machine.toState slots).remaining context + more))) context slots) machine :=
  ⟨fun depth state => ⟨run_ifStatement depth context state, fun _ => run_ifStatement_ok_iff⟩,
    exec_ifStatement⟩

end JavaSyntax.Language
