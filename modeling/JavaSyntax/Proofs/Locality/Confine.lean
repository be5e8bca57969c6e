import JavaSyntax.Proofs.Locality.Delimiters
import JavaSyntax.Proofs.Idle.View

/-!
# Phrases that stay between walls

Whether a phrase can only get past tokens that are no walls is computed from the phrase,
given the brackets that are open and the kinds that the next tokens may have.  The same is
computed of conditions: what they look at lies before the next wall.  So neither depends on
what stands behind that wall.

Nothing is asked of the rules but that each keeps to its own walls, so the whole grammar is
checked rule by rule.
-/

namespace JavaSyntax

namespace TokenSet

/-- Whether two sets have no members in common. -/
def disjoint (left right : TokenSet) : Bool :=
  (left.inter right).isEmpty

/-- The brackets that are open after a token of a set, if all of its members agree. -/
def shift? (kinds : TokenSet) (stack : List Bracket) : Option (List Bracket) :=
  if kinds.disjoint (.ofList TokenKind.brackets) then some stack
  else (TokenKind.brackets.find? (kinds == singleton ·)).map (·.shift stack)

end TokenSet

namespace View

/-- The views when the token some places ahead is known to be of some kinds. -/
def narrowAt : View → Nat → TokenSet → List View
  | view, 0, kinds =>
      let known := view.first.inter kinds
      if known.isEmpty then [] else [known :: view.tail]
  | view, distance + 1, kinds => (narrowAt view.tail distance kinds).map (view.first :: ·)

/-- What is known when one of some views is. -/
def joinAll (first : View) (others : List View) : View :=
  others.foldr (List.zipWith TokenSet.union) first

variable {context : Context} {state after : State}

/-- What is known of the tokens behind the next one. -/
theorem Fits.tail {view : View} (fits : view.Fits context state)
    (next : after.position = state.position + 1) : Fits context view.tail after := by
  intro distance kinds known
  have holds := fits (distance + 1) kinds (by simpa using known)
  rwa [State.kindAt, Nat.add_comm distance, ← Nat.add_assoc, ← next] at holds

theorem Fits.cons {kinds : TokenSet} {view : View}
    (first : kinds.contains (state.kindAt context 0) = true)
    (rest : view.Fits context { state with position := state.position + 1 }) :
    Fits context (kinds :: view) state := by
  intro distance others known
  cases distance with
  | zero =>
      cases known
      exact first
  | succ distance =>
      have holds := rest distance others known
      rwa [State.kindAt, Nat.add_assoc, Nat.add_comm 1] at holds

theorem Fits.narrowAt {view : View} (fits : view.Fits context state) {distance : Nat}
    {kinds : TokenSet} (holds : kinds.contains (state.kindAt context distance) = true) :
    ∃ known ∈ view.narrowAt distance kinds, Fits context known state := by
  induction distance generalizing view state with
  | zero =>
      have both : (view.first.inter kinds).contains (state.kindAt context 0) = true := by
        rw [TokenSet.contains_inter, fits.first, holds]
        rfl
      simp only [View.narrowAt]
      split
      · rename_i none
        have bits : (view.first.inter kinds).bits = 0 := by simpa [TokenSet.isEmpty] using none
        simp [TokenSet.contains, bits] at both
      · exact ⟨_, List.mem_singleton_self _, .cons both (fits.tail rfl)⟩
  | succ distance ih =>
      rw [State.kindAt, Nat.add_comm distance, ← Nat.add_assoc] at holds
      have later : Fits context view.tail { state with position := state.position + 1 } :=
        fits.tail rfl
      obtain ⟨known, member, ahead⟩ := ih later holds
      exact ⟨_, List.mem_map_of_mem member, .cons fits.first ahead⟩

theorem fits_zipWith {left right : View}
    (fits : left.Fits context state ∨ right.Fits context state) :
    Fits context (List.zipWith TokenSet.union left right) state := by
  intro distance kinds found
  obtain ⟨one, two, isLeft, isRight, rfl⟩ := List.getElem?_zipWith_eq_some.mp found
  rw [TokenSet.contains_union, Bool.or_eq_true]
  exact fits.imp (fun fits => fits distance one isLeft) (fun fits => fits distance two isRight)

theorem fits_joinAll {first known : View} {others : List View} (member : known ∈ first :: others)
    (fits : known.Fits context state) : Fits context (joinAll first others) state := by
  induction others with
  | nil =>
      obtain rfl := List.mem_singleton.mp member
      exact fits
  | cons other others ih =>
      refine fits_zipWith ?_
      rcases List.mem_cons.mp member with same | member
      · exact .inr (ih (same ▸ List.mem_cons_self))
      · rcases List.mem_cons.mp member with same | member
        · exact .inl (same ▸ fits)
        · exact .inr (ih (List.mem_cons_of_mem _ member))

/-- Whether the current token is no wall. -/
def isPassable (walls : Walls) (stack : List Bracket) (view : View) : Bool :=
  view.first.disjoint (walls.stops stack)

/-- The brackets that are open after the current token, if it is no wall. -/
def step? (walls : Walls) (stack : List Bracket) (view : View) : Option (List Bracket) :=
  if view.isPassable walls stack then view.first.shift? stack else none

/-- Whether no token before the one some places ahead is a wall. -/
def reaches (walls : Walls) (stack : List Bracket) (view : View) : Nat → Bool
  | 0 => true
  | 1 => view.isPassable walls stack
  | distance + 2 =>
      (view.step? walls stack).any fun next => reaches walls next view.tail (distance + 1)

/-- The number of known tokens that are no walls, and the brackets that are open after
them. -/
def frontier (walls : Walls) : List Bracket → View → Nat × List Bracket
  | stack, [] => (0, stack)
  | stack, first :: view =>
      match step? walls stack [first] with
      | none => (0, stack)
      | some next => ((frontier walls next view).1 + 1, (frontier walls next view).2)

/-- The views when the first token that might be a wall is one. -/
def stopped (walls : Walls) (stack : List Bracket) (view : View) : List View :=
  let (distance, inner) := view.frontier walls stack
  view.narrowAt distance (walls.stops inner)

/-- The views when the first token that might be a wall is none. -/
def going (walls : Walls) (stack : List Bracket) (view : View) : List View :=
  let (distance, inner) := view.frontier walls stack
  view.narrowAt distance (walls.stops inner).compl

end View

/-- The views in which a condition has been decided. -/
def Condition.views : Condition → Bool → View → List View
  | .next distance kinds, true, view => view.narrowAt distance kinds
  | .next distance kinds, false, view => view.narrowAt distance kinds.compl
  | .shape _, _, view | .ahead _ _, _, view => [view]
  | .not condition, decided, view => condition.views (!decided) view
  | .and left right, true, view => (left.views true view).flatMap (right.views true)
  | .and left right, false, view =>
      left.views false view ++ (left.views true view).flatMap (right.views false)
  | .or left right, true, view =>
      left.views true view ++ (left.views false view).flatMap (right.views true)
  | .or left right, false, view => (left.views false view).flatMap (right.views false)

/-- A state fits one of the views in which a condition is decided as it is.  The induction is
over the condition; trial readings tell nothing. -/
theorem View.Fits.views {rules : Rule → Context → Step} {context : Context} {state : State} :
    (condition : Condition) → ∀ {decided : Bool} {view : View},
      condition.holds rules context state = decided → view.Fits context state →
        ∃ known ∈ condition.views decided view, known.Fits context state
  | .next distance kinds, true, view, holds, fits => fits.narrowAt holds
  | .next distance kinds, false, view, fails, fits => by
      refine fits.narrowAt ?_
      rw [TokenSet.contains_compl, Bool.not_eq_true']
      exact fails
  | .shape _, _, view, _, fits | .ahead _ _, _, view, _, fits =>
      ⟨view, by simp [Condition.views], fits⟩
  | .not condition, decided, view, holds, fits => by
      have opposite : condition.holds rules context state = !decided := by
        rw [← holds, Condition.holds, Bool.not_not]
      rw [Condition.views]
      exact views condition opposite fits
  | .and left right, true, view, holds, fits => by
      rw [Condition.holds, Bool.and_eq_true] at holds
      obtain ⟨middle, first, fits⟩ := views left holds.1 fits
      obtain ⟨known, second, fits⟩ := views right holds.2 fits
      exact ⟨known, List.mem_flatMap.mpr ⟨middle, first, second⟩, fits⟩
  | .and left right, false, view, fails, fits => by
      cases first : left.holds rules context state with
      | false =>
          obtain ⟨known, member, fits⟩ := views left first fits
          exact ⟨known, List.mem_append_left _ member, fits⟩
      | true =>
          simp only [Condition.holds, first, Bool.true_and] at fails
          obtain ⟨middle, one, fits⟩ := views left first fits
          obtain ⟨known, two, fits⟩ := views right fails fits
          exact ⟨known, List.mem_append_right _ (List.mem_flatMap.mpr ⟨middle, one, two⟩), fits⟩
  | .or left right, true, view, holds, fits => by
      cases first : left.holds rules context state with
      | true =>
          obtain ⟨known, member, fits⟩ := views left first fits
          exact ⟨known, List.mem_append_left _ member, fits⟩
      | false =>
          simp only [Condition.holds, first, Bool.false_or] at holds
          obtain ⟨middle, one, fits⟩ := views left first fits
          obtain ⟨known, two, fits⟩ := views right holds fits
          exact ⟨known, List.mem_append_right _ (List.mem_flatMap.mpr ⟨middle, one, two⟩), fits⟩
  | .or left right, false, view, fails, fits => by
      rw [Condition.holds, Bool.or_eq_false_iff] at fails
      obtain ⟨middle, first, fits⟩ := views left fails.1 fits
      obtain ⟨known, second, fits⟩ := views right fails.2 fits
      exact ⟨known, List.mem_flatMap.mpr ⟨middle, first, second⟩, fits⟩

/-- What a reading may come to: the open brackets and the view where it ends, whether it has
surely read a token, and of which kind the last one is. -/
structure Effect where
  stack : List Bracket
  view : View
  moved : Bool
  last : TokenSet

namespace Effect

/-- The effect of a reading that has read nothing. -/
def stay (stack : List Bracket) (view : View) : Effect :=
  ⟨stack, view, false, .empty⟩

/-- The effect of two readings one after the other. -/
def andThen (first second : Effect) : Effect where
  stack := second.stack
  view := second.view
  moved := first.moved || second.moved
  last := if second.moved then second.last else first.last ∪ second.last

/-- An effect that says what two effects with the same open brackets say. -/
def join? (left right : Effect) : Option Effect :=
  if left.stack = right.stack ∧ left.moved = right.moved then
    some ⟨left.stack, List.zipWith TokenSet.union left.view right.view, left.moved,
      left.last ∪ right.last⟩
  else none

/-- Add an effect to some others, joined to one that it can be joined to. -/
def insert (effect : Effect) : List Effect → List Effect
  | [] => [effect]
  | first :: others =>
      match effect.join? first with
      | some joined => joined :: others
      | none => first :: insert effect others

/-- The effects of two lists. -/
def merge (left right : List Effect) : List Effect :=
  left.foldr insert right

/-- The effects that some items lead to. -/
def each {α : Type} (next : α → Option (List Effect)) : List α → Option (List Effect)
  | [] => some []
  | item :: others => do return merge (← next item) (← each next others)

/-- What a reading comes to that goes on where an effect leaves off. -/
def follow (next : List Bracket → View → Option (List Effect)) (effect : Effect) :
    Option (List Effect) :=
  (next effect.stack effect.view).map (·.map effect.andThen)

/-- Whether all effects leave the same brackets open. -/
def allLeave (stack : List Bracket) (effects : List Effect) : Bool :=
  effects.all (·.stack = stack)

/-- The kinds that the last token may have after some effects. -/
def lasts (effects : List Effect) : TokenSet :=
  effects.foldr (fun effect last => effect.last ∪ last) .empty

end Effect

/-- The kinds of token that a binary operator starts with. -/
def operatorKinds : TokenSet :=
  .ofList [.orOr, .andAnd, .pipe, .caret, .amp, .eqEq, .ne, .lt, .gt, .le, .ge, .kwInstanceof,
    .plus, .minus, .star, .slash, .percent]

/-- The walls that a rule keeps to, and the kinds that its last token may have.  Every rule
reads at least one token. -/
structure Bounds where
  walls : Walls
  last : TokenSet

open Effect

/-- The effects of what is read where a condition has been decided.  The views in which it
was are told apart only where they have to be. -/
def Condition.decide (condition : Condition) (decided : Bool)
    (next : View → Option (List Effect)) (view : View) : Option (List Effect) :=
  match condition.views decided view with
  | [] => some []
  | [known] => next known
  | first :: others => next (View.joinAll first others) <|> each next (first :: others)

/-- The effects of two phrases between which a condition decides. -/
def Condition.branch (condition : Condition) (yes no : View → Option (List Effect))
    (view : View) : Option (List Effect) := do
  return merge (← condition.decide true yes view) (← condition.decide false no view)

mutual

/-- The effects that reading a phrase without recovery may have, if it stays between walls.
There are none if it surely fails. -/
def Phrase.confine (bounds : Rule → Bounds) (walls : Walls) :
    Phrase → List Bracket → View → Option (List Effect)
  | .nothing, stack, view | .absent, stack, view | .absentFirst, stack, view
  | .dropAbsent, stack, view | .require _, stack, view | .close _, stack, view =>
      some [stay stack view]
  | .take, stack, view =>
      (view.step? walls stack).map fun next => [⟨next, view.tail, true, view.first⟩]
  | .expect kind, stack, view =>
      if !view.first.contains kind then some []
      else if (walls.stops stack).contains kind then none
      else some [⟨kind.shift stack, view.tail, true, .singleton kind⟩]
  | .noViable _, _, _ => some []
  | .call rule, stack, _ =>
      if !stack.isEmpty || walls.within (bounds rule).walls then
        some [⟨stack, [], true, (bounds rule).last⟩]
      else none
  | .seq first second, stack, view => do
      each (follow (second.confine bounds walls)) (← first.confine bounds walls stack view)
  | .choose condition yes no, stack, view =>
      let yes := yes.confine bounds walls stack
      let no := no.confine bounds walls stack
      if condition.bounded bounds walls stack view then condition.branch yes no view
      -- What lies behind a wall may decide the choice, if both alternatives fail at the wall.
      else if (view.stopped walls stack).all fun stopped =>
          (yes stopped).any (·.isEmpty) && (no stopped).any (·.isEmpty) then
        if (view.going walls stack).all (condition.bounded bounds walls stack) then
          each (condition.branch yes no) (view.going walls stack)
        else none
      else none
  | .frame _ body, stack, view => body.confine bounds walls stack view
  | .many body, stack, _ => do
      let rounds ← body.confine bounds walls stack []
      if allLeave stack rounds then return [⟨stack, [], false, lasts rounds⟩] else none
  | .whenAdvanced body next, stack, view => do
      let read ← body.confine bounds walls stack view
      let advanced ← each (fun effect => follow (next.confine bounds walls)
        { effect with moved := true }) (read.filter (!·.last.isEmpty))
      return merge (read.filter (!·.moved)) advanced
  | .progress body, stack, view => do
      let read ← body.confine bounds walls stack view
      if read.all (·.moved) then return read else none
  | .attempt trial accept yes no, stack, view => do
      let tried ← trial.confine bounds walls stack view
      let kept ← each (follow fun inner found =>
        accept.decide true (yes.confine bounds walls inner) found) tried
      if tried.all fun effect => accept.bounded bounds walls effect.stack effect.view then
        return merge kept (← no.confine bounds walls stack view)
      else none
  | .operators operand type, stack, _ => do
      let operands ← operand.confine bounds walls stack []
      let tests ← type.confine bounds walls stack []
      if operatorKinds.disjoint (walls.stops stack) && allLeave stack (operands ++ tests) then
        return [⟨stack, [], operands.all (·.moved), .full⟩]
      else none
  | .prefixed link last, stack, _ => do
      let links ← link.confine bounds walls stack []
      let ends ← last.confine bounds walls stack []
      if allLeave stack (links ++ ends) then
        return [⟨stack, [], ends.all (·.moved), .full⟩]
      else none
  | .chain _ link more last, stack, _ => do
      let links ← link.confine bounds walls stack []
      let ends ← each (follow (last.confine bounds walls)) links
      let joins := links.all fun effect => effect.moved &&
        more.bounded bounds walls stack effect.view &&
        (more.views true effect.view).all fun view => view.step? walls stack == some stack
      if joins && allLeave stack (links ++ ends) then return [⟨stack, [], true, lasts ends⟩]
      else none

/-- Whether all that a condition looks at lies before the next wall. -/
def Condition.bounded (bounds : Rule → Bounds) (walls : Walls) :
    Condition → List Bracket → View → Bool
  | .next distance _, stack, view => view.reaches walls stack distance
  | .shape _, _, _ => true
  | .not condition, stack, view => condition.bounded bounds walls stack view
  | .and left right, stack, view =>
      left.bounded bounds walls stack view &&
        (left.views true view).all (right.bounded bounds walls stack)
  | .or left right, stack, view =>
      left.bounded bounds walls stack view &&
        (left.views false view).all (right.bounded bounds walls stack)
  | .ahead trial afterwards, stack, view =>
      (trial.confine bounds walls stack view).any (·.all fun effect =>
        afterwards.bounded bounds walls effect.stack effect.view)

end

end JavaSyntax
