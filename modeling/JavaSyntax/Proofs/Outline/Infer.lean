import JavaSyntax.Proofs.Outline.Basic

/-!
# Inferring outlines

From the outline of a state, the outlines that a phrase can lead to are computed
by recursion on the phrase, given what each rule takes and leaves.  On the way
every node that the phrase builds is checked against what is known of its slots,
so a property of the nodes of all trees is checked by evaluation.
-/

namespace JavaSyntax

/-- What a rule takes from the frame it is called in, latest first, and what it leaves
there instead.  Every rule reads at least one token. -/
structure Signature where
  takes : List Slot
  gives : Slot

/-- What is demanded of a grammar: a signature for each rule, the slots that a node of
each kind may have, latest first, and the slot that operators make of an operand, given
the frames of the type tests among them. -/
structure Discipline where
  signature : Rule → Signature
  admits : NodeKind → List Part → Bool
  operators : Slot → List Outline → Option Slot

namespace Outline

/-- Take single slots of given forms from the front of some parts. -/
def dropSlots? : List Slot → List Part → Option (List Part)
  | [], parts => some parts
  | slot :: slots, .one last :: parts =>
      if last.within slot then dropSlots? slots parts else none
  | _ :: _, _ => none

/-- Split so many single slots off the front of some parts. -/
def splitLead? : Nat → List Part → Option (List Part × List Part)
  | 0, parts => some ([], parts)
  | lead + 1, .one last :: parts =>
      (splitLead? lead parts).map fun (top, below) => (.one last :: top, below)
  | _ + 1, _ => none

/-- Follow each of some outlines. -/
def each (next : Outline → Option (List Outline)) : List Outline → Option (List Outline)
  | [] => some []
  | outline :: others => do return merge (← next outline) (← each next others)

/-- The outlines with some more parts below theirs. -/
def above (below : List Part) (outlines : List Outline) : List Outline :=
  outlines.map fun outline => { outline with parts := outline.parts ++ below }

/-- The outlines when it is known besides whether a token was read before. -/
def since (moved : Bool) (outlines : List Outline) : List Outline :=
  outlines.map fun outline => { outline with moved := outline.moved || moved }

/-- What may stand in any slot of some outlines. -/
def anySlot (outlines : List Outline) : Slot :=
  (outlines.flatMap (·.parts)).foldr (fun part slot => part.slot.join slot) Slot.never

/-- Whether parts say all that others of the same form say. -/
def withinParts : List Part → List Part → Bool
  | [], [] => true
  | .one left :: lefts, .one right :: rights => left.within right && withinParts lefts rights
  | .run left :: lefts, .run right :: rights => left.within right && withinParts lefts rights
  | _, _ => false

/-- The nodes that prefixes may become. -/
def prefixNodes : List NodeKind :=
  [.preIncrementExpression, .preDecrementExpression, .castExpression, .unaryExpression]

/-- Whether a prefix of which the first slot is known may become a node of a kind. -/
def mayStart (first : Slot) : NodeKind → Bool
  | .preIncrementExpression => first.tokens.contains .plusPlus
  | .preDecrementExpression => first.tokens.contains .minusMinus
  | .castExpression => first.tokens.contains .lParen
  | _ => !first.within (.ofTokens (.ofList [.plusPlus, .minusMinus, .lParen]))

/-- The nodes that a prefix with some parts may become.  Without a slot there is no
prefix. -/
def prefixKinds (parts : List Part) : List NodeKind :=
  match parts.getLast? with
  | some (.one first) => prefixNodes.filter (mayStart first)
  | some (.run _) => prefixNodes
  | none => []

/-- The outlines of what may have been appended where a token was read. -/
def filled (outlines : List Outline) : List Outline :=
  outlines.filter (!·.parts.isEmpty)

/-- The outlines of what a loop appends when its first round has appended that of one of
some outlines, and the rounds after it append slots of a form. -/
def onward (slot : Slot) (first : List Outline) : List Outline :=
  (filled first).map fun round => ⟨.run slot :: round.parts, [], true⟩

/-- Repeat a step that leaves the frame it starts in alone, or else one that keeps the
form of the frame.  Where the frame is still empty, the tokens ahead tell more of the
first round. -/
def repeated (step : Bool → Outline → Option (List Outline)) (framed : Bool) (outline : Outline) :
    Option (List Outline) :=
  match step false ⟨[], [], false⟩ with
  | some pushed =>
      let known :=
        if outline.parts.isEmpty && !outline.ahead.isEmpty then
          step false ⟨[], outline.ahead, false⟩
        else some pushed
      known.map fun first => since outline.moved (above outline.parts
        (merge (first.filter (!·.moved)) (onward (anySlot pushed) first)))
  | none => do
      let start : Outline := ⟨outline.parts, [], false⟩
      let stepped := (← step framed start).map fun after => (⟨after.parts, [], false⟩ : Outline)
      match merge stepped [start] with
      | [kept] =>
          let again ← step framed ⟨kept.parts, [], false⟩
          if again.all (withinParts ·.parts kept.parts) then
            return [⟨kept.parts, [], outline.moved⟩]
          else none
      | _ => none

end Outline

open Outline in
/-- The outlines that reading a phrase leads to, if all that it builds is admitted.
With `framed`, the outline is that of a whole frame. -/
def Phrase.infer (discipline : Discipline) : Phrase → Bool → Outline → Option (List Outline)
  | .nothing, _ => fun outline => some [outline]
  | .absent, _ => fun outline => some [outline.push .ofAbsent]
  | .absentFirst, framed => fun outline =>
      if framed then some [{ outline with parts := outline.parts ++ [.one .ofAbsent] }] else none
  | .dropAbsent, _ => fun outline =>
      match outline.parts with
      | .one last :: below =>
          some ((if last.absent then [{ outline with parts := below }] else []) ++
            if last.within .ofAbsent then [] else [outline])
      | _ => none
  | .take, _ => fun outline => some outline.advance
  | .expect kind, _ => fun outline =>
      some ((outline.narrow 0 (.singleton kind)).flatMap advance)
  | .noViable _, _ => fun _ => some []
  | .require _, _ => fun outline => some [outline]
  | .call rule, _ => fun outline => do
      let below ← dropSlots? (discipline.signature rule).takes outline.parts
      return [⟨.one (discipline.signature rule).gives :: below, [], true⟩]
  | .seq first second, framed => fun outline => do
      each (second.infer discipline framed) (← first.infer discipline framed outline)
  | .choose condition yes no, framed => fun outline => do
      return merge
        (← each (yes.infer discipline framed) (condition.assume framed true outline))
        (← each (no.infer discipline framed) (condition.assume framed false outline))
  | .frame lead body, _ => fun outline => do
      let (top, below) ← splitLead? lead outline.parts
      return above below (← body.infer discipline true { outline with parts := top })
  | .close kind, framed => fun outline =>
      if framed && discipline.admits kind outline.parts then
        some [{ outline with parts := [.one (.ofNodes [kind])] }]
      else none
  | .many body, framed => repeated (body.infer discipline) framed
  | .whenAdvanced body next, framed => fun outline =>
      match body.infer discipline false ⟨[], outline.ahead, false⟩ with
      | some pushed => do
          let still := above outline.parts (pushed.filter (!·.moved))
          let advanced := above outline.parts (since true (filled pushed))
          return since outline.moved (merge still (← each (next.infer discipline framed) advanced))
      | none => do
          let read ← body.infer discipline framed { outline with moved := false }
          return since outline.moved
            (merge (read.filter (!·.moved))
              (← each (next.infer discipline framed) (since true read)))
  | .progress body, _ => fun outline => do
      let read ← body.infer discipline true ⟨[], outline.ahead, false⟩
      if read.all (·.moved) then return since outline.moved (above outline.parts read)
      else if discipline.admits .error [.run ((anySlot read).join (.ofTokens .full))] then
        let swallowed : Outline := ⟨[.one (.ofNodes [.error])], [], false⟩
        return since outline.moved (above outline.parts (merge read [swallowed]))
      else none
  | .attempt trial accept yes no, framed => fun outline => do
      let tried ← trial.infer discipline framed outline
      let accepted := tried.flatMap (accept.assume framed true)
      return merge (← each (yes.infer discipline framed) accepted)
        (← no.infer discipline framed outline)
  | .operators operand type, _ => fun outline => do
      match ← operand.infer discipline true ⟨[], [], false⟩ with
      | [⟨[.one slot], _, moved⟩] =>
          let tests ← type.infer discipline true
            ⟨[.one (.ofTokens (.singleton .kwInstanceof))], [], false⟩
          return [⟨.one (← discipline.operators slot tests) :: outline.parts, [],
            moved || outline.moved⟩]
      | _ => none
  | .prefixed link last, _ => fun outline => do
      let links ← link.infer discipline true ⟨[], [], false⟩
      match ← last.infer discipline true ⟨[], [], false⟩ with
      | [⟨[.one slot], _, moved⟩] =>
          let admitted := links.all fun link =>
            (last.infer discipline true ⟨link.parts, [], false⟩).any fun ends =>
              (prefixKinds link.parts).all fun kind =>
                discipline.admits kind (.one (.ofNodes prefixNodes) :: link.parts) &&
                  ends.all (discipline.admits kind ·.parts)
          if admitted then
            return [⟨.one (slot.join (.ofNodes prefixNodes)) :: outline.parts, [],
              moved || outline.moved⟩]
          else none
      | _ => none
  | .chain kind link more last, _ => fun outline => do
      let links ← link.infer discipline true ⟨[], [], false⟩
      let joined := (links.flatMap (more.assume true true)).flatMap advance
      let ends ← each (last.infer discipline true) links
      if joined.all (discipline.admits kind <| .one (.ofNodes [kind]) :: ·.parts) &&
          ends.all (discipline.admits kind ·.parts) then
        return [⟨.one (.ofNodes [kind]) :: outline.parts, [],
          links.all (·.moved) || outline.moved⟩]
      else none

end JavaSyntax
