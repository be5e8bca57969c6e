import JavaSyntax.Proofs.Locality.Method
import JavaSyntax.Proofs.Rigidity

/-!
# One block behind another

The statements of two methods may be put behind each other in a third one.  They are read as
they were: the first ones since what they are read with ends before the seam, the others since
nothing that is read between braces gets past the closing one.
-/

namespace JavaSyntax

open JavaSyntax.Language Phrase Condition

/-! ## Blocks -/

/-- The state after a block, at whose closing brace the statements end. -/
def State.endBlock (context : Context) (opening : Token) (middle : State) : State :=
  ((middle.onto [.token opening]).take context).close context .block

namespace State

variable {context : Context} (opening : Token) {middle : State}
  (closes : (context.get middle.position).kind = .rBrace)

include closes

theorem take_onto_of_brace (base : List Element) : (middle.onto base).take context =
    ⟨middle.position + 1, middle.errors,
      .token (context.get middle.position) :: (middle.slots ++ base)⟩ :=
  Context.take_eq closes middle.errors _ (by decide)

theorem position_endBlock : (middle.endBlock context opening).position = middle.position + 1 := by
  rw [endBlock, take_onto_of_brace closes]
  rfl

theorem errors_endBlock : (middle.endBlock context opening).errors = middle.errors := by
  rw [endBlock, take_onto_of_brace closes]
  rfl

theorem exists_block_endBlock : ∃ span, (middle.endBlock context opening).slots =
    [.node .block span (.token opening :: middle.gathered ++
      [.token (context.get middle.position)])] := by
  obtain ⟨span, closed⟩ := ((middle.onto [.token opening]).take context).exists_close context .block
  refine ⟨span, closed.trans ?_⟩
  rw [take_onto_of_brace closes]
  simp [gathered]

end State

/-- A block is read by reading what stands between its braces. -/
theorem Language.block_eq_ok {context : Context} (strict : context.recovery = false)
    {depth position : Nat} (opens : (context.get position).kind = .lBrace)
    {errors : List SyntaxError} {after : State} :
    readRule grammar (depth + 1) .block context ⟨position, errors, []⟩ = .ok after ↔
      ∃ middle, blockStatements.run (readRule grammar depth) context ⟨position + 1, errors, []⟩ =
          .ok middle ∧ (context.get middle.position).kind = .rBrace ∧
        after = middle.endBlock context (context.get position) := by
  have opening := Context.expect_run opens (readRule grammar depth) errors [] (by decide)
  have apart := blockStatements_onto (readRule grammar depth) context ⟨position + 1, errors, []⟩
    [.token (context.get position)]
  have whole (state : State) : state.onto [] = state := by simp [State.onto]
  constructor
  · intro read
    obtain ⟨inner, framed, rfl⟩ := State.inFrame_eq_ok.mp read
    obtain ⟨ended, filled, closing⟩ := bind_eq_ok.mp framed
    cases closing
    obtain ⟨reached, started, ending⟩ := bind_eq_ok.mp filled
    obtain ⟨opened, taken, rest⟩ := bind_eq_ok.mp started
    obtain rfl := Except.ok.inj (opening.symm.trans taken)
    obtain ⟨middle, between, rfl⟩ := map_eq_ok.mp (apart.symm.trans rest)
    obtain ⟨closes, rfl⟩ := State.kind_of_expect strict ending
    exact ⟨middle, between, closes, whole _⟩
  · rintro ⟨middle, between, closes, rfl⟩
    have rest := apart.trans (map_eq_ok.mpr ⟨middle, between, rfl⟩)
    have closing : (Phrase.expect .rBrace).run (readRule grammar depth) context
        (middle.onto [.token (context.get position)]) =
          .ok ((middle.onto [.token (context.get position)]).take context) := by
      rw [State.take_onto_of_brace closes]
      exact Context.expect_run closes (readRule grammar depth) middle.errors _ (by decide)
    exact State.inFrame_eq_ok.mpr ⟨_, bind_eq_ok.mpr ⟨_, bind_eq_ok.mpr ⟨_,
      bind_eq_ok.mpr ⟨_, opening, rest⟩, closing⟩, rfl⟩, (whole _).symm⟩

/-! ## Two methods and a third one -/

/-- A token list of a class that has one method, with so many tokens between the braces of
its block. -/
structure Context.HasMethod (context : Context) (count : Nat) : Prop where
  opens : context.Opens
  strict : context.recovery = false
  size : context.tokens.size = count + 11
  closesBlock : (context.get (count + 8)).kind = .rBrace
  closesClass : (context.get (count + 9)).kind = .rBrace
  ended : (context.get (count + 10)).kind = .eof
  spaced : ∃ length, context.Spaced length

theorem Context.HasMethod.sealed {context : Context} {count : Nat}
    (method : context.HasMethod count) : context.Sealed where
  strict := method.strict
  filled := by
    rw [method.size]
    exact Nat.succ_pos _
  ended := by
    rw [method.size]
    exact method.ended

/-- The statements of the method are read without errors, and with them all that stands
in its block. -/
structure Context.Fills (context : Context) (count depth : Nat) (after : State) : Prop where
  read : blockStatements.run (readRule grammar depth) context ⟨8, [], []⟩ = .ok after
  ends : after.position = count + 8
  clean : after.errors = []

namespace Context.Fills

variable {context : Context} {count depth : Nat} {after : State}
  (fills : context.Fills count depth after) (method : context.HasMethod count)

include fills method

theorem closes : (context.get after.position).kind = .rBrace := by
  rw [fills.ends]
  exact method.closesBlock

theorem block_eq : readRule grammar (depth + 1) .block context ⟨7, [], []⟩ =
    .ok (after.endBlock context (context.get 7)) :=
  (block_eq_ok method.strict (method.opens 7 _ rfl)).mpr
    ⟨after, fills.read, fills.closes method, rfl⟩

/-- What stands in the block stands where its tokens stand. -/
theorem rigid : Good Node.Rigid after.gathered ∧
    ∀ slot ∈ after.gathered, slot.isMissing = false := by
  obtain ⟨length, spaced⟩ := method.spaced
  have whole := rigid_of_readRule method.strict spaced rfl (fills.block_eq method)
  obtain ⟨span, slots⟩ := State.exists_block_endBlock (context.get 7)
    (fills.closes method)
  rw [slots] at whole
  have block : Node.Rigid ⟨.block, span, .token (context.get 7) :: after.gathered ++
      [.token (context.get after.position)]⟩ := whole _ (List.mem_singleton_self _) _ (by simp)
  refine ⟨whole.below.of_subset ?_, fun slot member => block.whole slot ?_⟩
  · exact List.subset_append_of_subset_left _ (List.subset_cons_self _ _)
  · exact List.mem_append_left _ (List.mem_cons_of_mem _ member)

theorem yieldAll_eq : Element.yieldAll after.gathered =
    (List.range count).map fun index => context.get (8 + index) := by
  have kept := (Language.moving blockStatements depth context _ _ fills.read).lossless
  have ends := fills.ends
  rw [kept.yieldAll_eq (by rw [method.size]; omega), ends, Nat.add_sub_cancel]

end Context.Fills

/-! ## The method in the tree -/

/-- The slots of a node between the first and the last one. -/
def Node.between (node : Node) : List Element :=
  node.children.tail.dropLast

/-- Without recovery no errors are recorded. -/
theorem Language.errors_of_strict {context : Context} (strict : context.recovery = false)
    {phrase : Phrase} {depth : Nat} {state after : State}
    (read : phrase.run (readRule grammar depth) context state = .ok after) :
    after.errors = state.errors := by
  have same : ({ context with recovery := true } : Context).trial = context := by
    obtain ⟨tokens, endMark, limit, recovery, isEnd⟩ := context
    cases strict
    rfl
  have recovers : ({ context with recovery := true } : Context).recovery = true := rfl
  refine (phrase.run_shadowed recovers (readRule_shadowed grammar recovers depth) state).quiet _ ?_
  rw [same]
  exact read

namespace Context

variable {context : Context} {count depth : Nat} {after : State} (method : context.HasMethod count)

include method

/-- A source file that is read without errors, with a block of the right size. -/
theorem HasMethod.exists_fills (clean : (State.readUnit context ⟨0, [], []⟩).errors = [])
    {context' : Context} {block : Node}
    (found :
      ((State.readUnit context ⟨0, [], []⟩).finishParse context' .compilationUnit).root.methodBlock?
        = some block)
    (size : block.tokens.length = count + 2) :
    ∃ depth after, context.limit = depth + 2 ∧ context.Fills count depth after ∧
      block.between = after.gathered := by
  obtain ⟨depth, inner, limit, blocked, stands⟩ := method.opens.exists_block clean
  cases depth with
  | zero => cases blocked
  | succ depth =>
      obtain ⟨after, read, closes, rfl⟩ :=
        (block_eq_ok method.strict (method.opens 7 _ rfl)).mp blocked
      obtain ⟨span, slots⟩ := State.exists_block_endBlock (context.get 7) closes
      have same := stands context' ⟨.block, span, _⟩ slots rfl
      obtain rfl := Option.some.inj (same.symm.trans found)
      have kept := (Language.moving blockStatements depth context _ _ read).lossless
      have inside := Context.lt_size_of_kind_ne (by rw [closes]; decide)
      have yields := congrArg List.length (kept.yieldAll_eq (Nat.le_of_lt inside))
      have forward := kept.forward
      simp [Node.tokens_eq_yieldAll] at size yields forward
      refine ⟨depth, after, limit, ⟨read, by omega, errors_of_strict method.strict read⟩, ?_⟩
      simp [Node.between]

/-- A source file whose method has statements that fill its block. -/
theorem Fills.exists_parse (fills : context.Fills count depth after)
    (limit : context.limit = depth + 2) :
    (State.readUnit context ⟨0, [], []⟩).errors = [] ∧ ∀ context' : Context, ∃ block,
      ((State.readUnit context ⟨0, [], []⟩).finishParse context'
        .compilationUnit).root.methodBlock? = some block ∧
      block.between = after.gathered ∧
      block.tokens =
        context.get 7 :: Element.yieldAll after.gathered ++ [context.get (count + 8)] := by
  have closes := fills.closes method
  have blocked := fills.block_eq method
  have position := State.position_endBlock (context.get 7) closes
  rw [fills.ends] at position
  have clean : (State.readUnit context ⟨0, [], []⟩).errors = [] := by
    refine method.opens.clean_of_block limit blocked ?_ ?_ ?_
    · rw [State.errors_endBlock _ closes]
      exact fills.clean
    · rw [position]
      exact method.closesClass
    · rw [position]
      exact method.ended
  refine ⟨clean, fun context' => ?_⟩
  obtain ⟨depth', inner, limit', blocked', stands⟩ := method.opens.exists_block clean
  obtain rfl : depth' = depth + 1 := by omega
  obtain rfl := Except.ok.inj (blocked'.symm.trans blocked)
  obtain ⟨span, slots⟩ := State.exists_block_endBlock (context.get 7) closes
  refine ⟨_, stands context' ⟨.block, span, _⟩ slots rfl, ?_, ?_⟩
  · simp [Node.between]
  · simp [Node.tokens_eq_yieldAll, fills.ends]

end Context

theorem Language.statement_dangling :
    (statement.confine bounds .empty [] [dangling]).any List.isEmpty = true := by
  decide

/-- No statement starts with a token that would carry on another one. -/
theorem Context.Sealed.not_dangling {context : Context} (sealed : context.Sealed) {depth : Nat}
    {state after : State}
    (read : blockStatement.run (readRule grammar depth) context state = .ok after) :
    dangling.contains (state.kindAt context 0) = false := by
  rw [Bool.eq_false_iff]
  intro dangles
  have apart {kinds : TokenSet} (disjoint : dangling.disjoint kinds = true) :
      (Condition.next 0 kinds).holds (readRule grammar depth) context state = false :=
    TokenSet.contains_eq_false_of_disjoint disjoint dangles
  have noClass : startsLocalClass.holds (readRule grammar depth) context state = false := by
    have first : (isOneOf (localTypeKeywords ++ [.kwAbstract, .kwStrictfp, .kwStatic])).holds
        (readRule grammar depth) context state = false := apart (by decide)
    have second : (isOneOf [.kwFinal, .atSign]).holds (readRule grammar depth) context state =
        false := apart (by decide)
    change ((isOneOf _).holds _ _ _ || ((isOneOf _).holds _ _ _ && _)) = false
    rw [first, second, Bool.false_and, Bool.or_false]
  have noVariable : startsVariable.holds (readRule grammar depth) context state = false := by
    have first : (isOneOf [.kwFinal, .atSign]).holds (readRule grammar depth) context state =
        false := apart (by decide)
    have second : (among typeStart).holds (readRule grammar depth) context state = false :=
      apart (by decide)
    change ((isOneOf _).holds _ _ _ || ((among _).holds _ _ _ && _)) = false
    rw [first, second, Bool.false_and, Bool.or_false]
  simp only [blockStatement, Phrase.run, noClass, noVariable, if_neg Bool.false_ne_true] at read
  cases depth with
  | zero => cases read
  | succ depth =>
      have fits : View.Fits context [dangling] state := .cons dangles (View.fits_nil _ _)
      obtain ⟨effects, found, none⟩ := (Option.any_eq_true _ _).mp statement_dangling
      obtain rfl := List.isEmpty_iff.mp none
      refine sealed.not_fails fits (Context.lt_size_of_kind_ne ?_) read found
      intro ended
      rw [State.kindAt, Nat.add_zero, ended] at dangles
      exact absurd dangles (by decide)

/-- The statements of a block do not start with such a token either. -/
theorem Context.Fills.starts {context : Context} {count depth : Nat} {after : State}
    (fills : context.Fills count depth after) (method : context.HasMethod count) :
    dangling.contains (context.get 8).kind = false := by
  obtain ⟨next, round, -⟩ := State.exists_first_round (State.round_appending _ _ _ _) fills.read
  simp only [onlyIf, Phrase.run] at round
  split at round
  · obtain ⟨inner, started, -⟩ := State.exists_of_progress round
    exact method.sealed.not_dangling started
  · rename_i stops
    have ends : (TokenSet.ofList [.rBrace, .eof, .kwCase, .kwDefault]).contains
        (context.get 8).kind = true := by
      rwa [Bool.not_eq_true, Condition.holds, Bool.not_eq_false'] at stops
    exact TokenSet.contains_eq_false_of_disjoint (by decide) ends

/-- The block of the third method holds what stands in those of the first two. -/
structure Joined (first second whole : Context) (count more distance : Nat) : Prop where
  left : first.HasMethod count
  right : second.HasMethod more
  third : whole.HasMethod (count + more)
  before : ∀ index < count + 8, whole.get index = first.get index
  behind : ∀ index, 8 ≤ index → index ≤ more + 8 →
    whole.get (index + count) = (second.get index).moved distance

namespace Joined

variable {first second whole : Context} {count more distance depth : Nat}
  (joined : Joined first second whole count more distance)

include joined

/-- Where the first block ends, the second one starts. -/
def seam (starts : dangling.contains (second.get 8).kind = false) : Seam where
  left := first
  right := whole
  place := count + 8
  sealed := joined.left.sealed
  strict' := joined.third.strict
  size := by
    rw [joined.left.size]
    omega
  size' := by
    rw [joined.third.size]
    omega
  sketch := fun index before => congrArg Token.sketch (joined.before index before)
  touching := fun index before => by
    rw [joined.before index (by omega), joined.before (index + 1) before]
  closes := joined.left.closesBlock
  starts := by
    rw [Nat.add_comm, joined.behind 8 (Nat.le_refl _) (Nat.le_add_left _ _)]
    exact starts

/-- Tokens of the second block touch where they did before. -/
theorem touching_behind (index : Nat) (above : 8 ≤ index) (before : index < more + 8) :
    (whole.get (index + count)).stop = (whole.get (index + 1 + count)).start ↔
      (second.get index).stop = (second.get (index + 1)).start := by
  rw [joined.behind index above (Nat.le_of_lt before),
    joined.behind (index + 1) (Nat.le_succ_of_le above) before]
  simp only [Token.stop, Token.start, Token.moved, Span.moved, Span.stop]
  omega

theorem sketch_behind (index : Nat) (above : 8 ≤ index) (within : index ≤ more + 8) :
    (whole.get (index + count)).sketch = (second.get index).sketch := by
  rw [joined.behind index above within]
  rfl

theorem size_second : more + 8 < second.tokens.size := by
  rw [joined.right.size]
  omega

theorem size_whole : more + 8 + count < whole.tokens.size := by
  rw [joined.third.size]
  omega

/-- From there on, the third token list is the second one. -/
def fence : Fence where
  left := second
  right := whole
  shift := count
  low := 8
  high := more + 8
  strict := joined.right.strict
  strict' := joined.third.strict
  size := joined.size_second
  size' := joined.size_whole
  sketch := joined.sketch_behind
  touching := joined.touching_behind

variable {middle last : State}

/-- What stands in the second block is read behind that in the first one. -/
theorem exists_twin (fills : second.Fills more depth last) :
    ∃ last', blockStatements.run (readRule grammar depth) whole ⟨count + 8, [], []⟩ = .ok last' ∧
      Twins count last last' := by
  have inside : 8 < second.tokens.size := by
    rw [joined.right.size]
    omega
  have passes := joined.right.sealed.passes (View.fits_nil _ _) inside fills.read
    keepsTo_blockStatements
  have blocked : Blocked .empty second [] 8 (more + 8) := by
    rw [← fills.ends]
    refine passes.blocked ?_
    rw [fills.ends, joined.right.closesBlock]
    decide
  have stands : joined.fence.Stands .empty [] [] ⟨8, [], []⟩ ⟨count + 8, [], []⟩ :=
    ⟨⟨Nat.add_comm _ _, rfl, rfl⟩, Nat.le_refl _, blocked, View.fits_nil _ _⟩
  have leads := (guards_grammar joined.fence depth).keepsTo_follows keepsTo_blockStatements _ _
    stands
  obtain ⟨_, _, failed, -⟩ | ⟨after, last', read, read', _, -, led⟩ := leads.cases
  · exact absurd (fills.read.symm.trans failed) (by simp)
  · obtain rfl := Except.ok.inj (fills.read.symm.trans read)
    exact ⟨last', read', led.toTwins⟩

/-- What stands in both blocks is read in the third one, and the tree keeps its shape. -/
theorem exists_sketch (one : first.Fills count depth middle)
    (other : second.Fills more depth last) :
    ∃ front back after, whole.Fills (count + more) depth after ∧ after.gathered = front ++ back ∧
      front.map Element.sketch = middle.gathered.map Element.sketch ∧
      back.map Element.sketch = last.gathered.map Element.sketch := by
  obtain ⟨last', further, twins⟩ := joined.exists_twin other
  have ends : last'.position = count + more + 8 := by
    rw [twins.position, other.ends]
    omega
  have inside : last'.position < whole.tokens.size := by
    rw [ends, joined.third.size]
    omega
  have start : Twins 0 (⟨8, [], []⟩ : State) ⟨8, [], []⟩ := ⟨rfl, rfl, rfl⟩
  obtain ⟨middle', alike, read⟩ := (joined.seam (other.starts joined.right)).blockStatements_append
    start one.read one.ends (by rw [one.clean]; exact further) inside
  refine ⟨middle'.gathered, last'.gathered, last'.onto middle'.slots,
    ⟨read, ends, twins.errors.trans other.clean⟩, ?_, alike.gathered, twins.gathered⟩
  simp [State.gathered, State.onto]

/-- What stands in both blocks is read in the third one. -/
theorem fills (one : first.Fills count depth middle) (other : second.Fills more depth last) :
    ∃ after, whole.Fills (count + more) depth after ∧
      after.gathered = middle.gathered ++ last.gathered.map (Element.moved distance) := by
  obtain ⟨front, back, after, fills, joins, front_eq, back_eq⟩ := joined.exists_sketch one other
  obtain ⟨rigid, -⟩ := fills.rigid joined.third
  obtain ⟨rigidOne, whole⟩ := one.rigid joined.left
  obtain ⟨rigidOther, whole'⟩ := other.rigid joined.right
  have yieldsOne := one.yieldAll_eq joined.left
  have yieldsOther := other.yieldAll_eq joined.right
  have yields := fills.yieldAll_eq joined.third
  rw [joins, Element.yieldAll_append, List.range_add, List.map_append, List.map_map] at yields
  obtain ⟨yieldsFront, yieldsBack⟩ := List.append_inj yields (by
    rw [Element.length_yieldAll_of_sketch front_eq, yieldsOne, List.length_map, List.length_map])
  rw [joins] at rigid
  have still : front = middle.gathered := by
    refine Element.eq_of_sketch front_eq whole rigidOne
      (rigid.of_subset (List.subset_append_left _ _)) ?_
    rw [yieldsFront, yieldsOne]
    refine List.map_congr_left fun index member => joined.before _ ?_
    have bound := List.mem_range.mp member
    omega
  have moves : back = last.gathered.map (Element.moved distance) := by
    refine Element.eq_map_moved back_eq whole' rigidOther
      (rigid.of_subset (List.subset_append_right _ _)) ?_
    rw [yieldsBack, yieldsOther, List.map_map]
    refine List.map_congr_left fun index member => ?_
    have bound := List.mem_range.mp member
    have found := joined.behind (8 + index) (by omega) (by omega)
    rwa [show 8 + index + count = 8 + (count + index) by omega] at found
  exact ⟨after, fills, by rw [joins, still, moves]⟩

end Joined

end JavaSyntax
