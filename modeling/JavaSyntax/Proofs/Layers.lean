import JavaSyntax.Proofs.Fuel.Enough
import JavaSyntax.Proofs.Printing.KnownTokens
import JavaSyntax.Proofs.Termination

/-!
# Operators in layers

The loop over binary operators keeps a stack of operands that wait for their right side.  What
it builds is the tree of a grammar in ten layers, one for each level: a layer is a sequence of
operands of the next tighter one, joined by the operators of its level and folded to the left,
and without such operators it is just that operand.

The tree is computed here layer by layer from the first operand and the operators with the
operands behind them.  A stack all of whose operators bind more loosely than some layers does
not matter to an expression of these layers: the loop builds the tree of that expression above
the stack, whatever waits below.
-/

namespace JavaSyntax

/-- An operator and the operand behind it. -/
structure Link where
  level : Level
  operator : List Element
  operand : List Element

namespace Link

/-- The node of an operator. -/
def join (left : List Element) (link : Link) (right : List Element) : List Element :=
  [.over link.level.nodeKind (left ++ link.operator ++ right)]

/-- What stands before the first operator of a rank, and each operator of that rank with what
stands between its operand and the next one. -/
def split (rank : Nat) : List Link → List Link × List (Link × List Link)
  | [] => ([], [])
  | link :: links =>
      let (inner, joins) := split rank links
      if link.level.rank = rank then ([], (link, inner) :: joins) else (link :: inner, joins)

/-- The tree of the tightest layers. -/
def tree : Nat → List Element → List Link → List Element
  | 0, first, _ => first
  | layers + 1, first, links =>
      let (inner, joins) := split (9 - layers) links
      joins.foldl (fun left (link, inner) => link.join left (tree layers link.operand inner))
        (tree layers first inner)

end Link

/-- Operators are read with the operands behind them, none of them a type test. -/
inductive State.Linked (context : Context) (operand : Step) : State → List Link → State → Prop
  | done (state : State) : Linked context operand state [] state
  | next {state before after final : State} {level : Level} {width : Nat}
      {operator right : List Element} {links : List Link}
      (found : state.operator? context = some (level, width))
      (binary : state.kindAt context 0 ≠ .kwInstanceof)
      (taken : state.collect (fun inner => .ok (inner.takeMany context width)) =
        .ok (operator, before))
      (read : before.collect operand = .ok (right, after))
      (rest : Linked context operand after links final) :
      Linked context operand state (⟨level, operator, right⟩ :: links) final

namespace Link

/-! ## The stack -/

/-- Give `right` to every waiting operand whose operator binds at least as tightly as `floor`. -/
def collapse (floor : Nat) : List Pending → List Element → List Pending × List Element
  | [], right => ([], right)
  | top :: stack, right =>
      if floor ≤ top.level.rank then
        collapse floor stack [.over top.level.nodeKind (top.left ++ top.operator ++ right)]
      else (top :: stack, right)

/-- What the loop builds from a stack, the operand at hand, and what follows. -/
def fold (stack : List Pending) (left : List Element) : List Link → List Element
  | [] => (collapse 0 stack left).2
  | link :: links =>
      let (stack, left) := collapse link.level.rank stack left
      fold (⟨left, link.level, link.operator⟩ :: stack) link.operand links

/-- Every operator on a stack binds more loosely than a rank. -/
def Below (rank : Nat) (stack : List Pending) : Prop :=
  ∀ pending ∈ stack, pending.level.rank < rank

/-- What follows, if anything, starts with an operator that binds more loosely than a rank. -/
def Loosens (rank : Nat) (links : List Link) : Prop :=
  ∀ link ∈ links.head?, link.level.rank < rank

theorem collapse_of_below {rank : Nat} {stack : List Pending} (below : Below rank stack)
    (right : List Element) : collapse rank stack right = (stack, right) := by
  cases stack with
  | nil => rfl
  | cons top stack =>
      have looser := below top List.mem_cons_self
      rw [collapse, if_neg (by omega)]

/-- An operator that binds at least as tightly as what follows has both its operands. -/
theorem fold_top {top : Pending} (stack : List Pending) (right : List Element)
    {links : List Link} (loosens : Loosens (top.level.rank + 1) links) :
    fold (top :: stack) right links =
      fold stack [.over top.level.nodeKind (top.left ++ top.operator ++ right)] links := by
  cases links with
  | nil => rfl
  | cons link links =>
      have looser : link.level.rank ≤ top.level.rank := Nat.le_of_lt_succ (loosens link rfl)
      rw [fold, fold, collapse, if_pos looser]

/-- The links that a split puts together again. -/
def unsplit (parts : List Link × List (Link × List Link)) : List Link :=
  parts.1 ++ parts.2.flatMap fun part => part.1 :: part.2

theorem unsplit_split (rank : Nat) (links : List Link) : unsplit (split rank links) = links := by
  induction links with
  | nil => rfl
  | cons link links ih =>
      simp only [split]
      split
      · exact congrArg (link :: ·) ih
      · exact congrArg (link :: ·) ih

/-- A split leaves only tighter operators between those of its rank. -/
theorem split_tighter {rank : Nat} {links : List Link}
    (tight : ∀ link ∈ links, rank ≤ link.level.rank) :
    (∀ link ∈ (split rank links).1, rank + 1 ≤ link.level.rank) ∧
      ∀ part ∈ (split rank links).2, part.1.level.rank = rank ∧
        ∀ link ∈ part.2, rank + 1 ≤ link.level.rank := by
  induction links with
  | nil => exact ⟨nofun, nofun⟩
  | cons link links ih =>
      obtain ⟨inner, joins⟩ := ih fun other member => tight other (List.mem_cons_of_mem _ member)
      have least := tight link List.mem_cons_self
      simp only [split]
      split
      · rename_i same
        refine ⟨nofun, ?_⟩
        rintro part (_ | ⟨_, member⟩)
        · exact ⟨same, inner⟩
        · exact joins part member
      · rename_i other
        refine ⟨?_, joins⟩
        rintro next (_ | ⟨_, member⟩)
        · omega
        · exact inner next member

theorem Below.mono {low high : Nat} (lower : low ≤ high) {stack : List Pending}
    (below : Below low stack) : Below high stack :=
  fun pending member => Nat.lt_of_lt_of_le (below pending member) lower

theorem Loosens.mono {low high : Nat} (lower : low ≤ high) {links : List Link}
    (loosens : Loosens low links) : Loosens high links :=
  fun link first => Nat.lt_of_lt_of_le (loosens link first) lower

theorem loosens_joins {rank : Nat} {joins : List (Link × List Link)}
    (ranked : ∀ part ∈ joins, part.1.level.rank = rank) {rest : List Link}
    (loosens : Loosens (rank + 1) rest) :
    Loosens (rank + 1) ((joins.flatMap fun part => part.1 :: part.2) ++ rest) := by
  cases joins with
  | nil => exact loosens
  | cons next joins =>
      rintro _ ⟨⟩
      exact Nat.lt_succ_of_le (Nat.le_of_eq (ranked next List.mem_cons_self))

/-- Operators of one rank are folded to the left, once what stands between them is folded. -/
theorem fold_joins {rank : Nat} {stack : List Pending} (below : Below rank stack)
    {joins : List (Link × List Link)} {build : List Element → List Link → List Element}
    (ranked : ∀ part ∈ joins, part.1.level.rank = rank) {rest : List Link}
    (loosens : Loosens (rank + 1) rest)
    (inner : ∀ part ∈ joins, ∀ (pending : Pending) (more : List Link),
      pending.level.rank = rank → Loosens (rank + 1) more →
        fold (pending :: stack) part.1.operand (part.2 ++ more) =
          fold (pending :: stack) (build part.1.operand part.2) more)
    (left : List Element) :
    fold stack left ((joins.flatMap fun part => part.1 :: part.2) ++ rest) =
      fold stack (joins.foldl (fun left (link, inner) => link.join left (build link.operand inner))
        left) rest := by
  induction joins generalizing left with
  | nil => rfl
  | cons part joins ih =>
      obtain ⟨link, between⟩ := part
      have same : link.level.rank = rank := ranked _ List.mem_cons_self
      have further := loosens_joins
        (fun part member => ranked part (List.mem_cons_of_mem _ member)) loosens
      have onward := ih (fun part member => ranked part (List.mem_cons_of_mem _ member))
        (fun part member => inner part (List.mem_cons_of_mem _ member))
        (link.join left (build link.operand between))
      have folded := inner _ List.mem_cons_self ⟨left, link.level, link.operator⟩ _ same further
      rw [List.flatMap_cons, List.cons_append, List.cons_append, List.append_assoc, fold, same,
        collapse_of_below below]
      dsimp only at folded ⊢
      rw [folded, fold_top _ _ (same ▸ further)]
      exact onward

/-- The loop builds the tree of the tightest layers above any stack of looser operators. -/
theorem fold_layers (layers : Nat) (bounded : layers ≤ 10) {stack : List Pending}
    (below : Below (10 - layers) stack) {links rest : List Link}
    (tight : ∀ link ∈ links, 10 - layers ≤ link.level.rank)
    (loosens : Loosens (10 - layers) rest) (first : List Element) :
    fold stack first (links ++ rest) = fold stack (tree layers first links) rest := by
  induction layers generalizing stack links rest first with
  | zero =>
      cases links with
      | nil => rfl
      | cons link links =>
          have impossible := tight link List.mem_cons_self
          have bound := link.level.rank_le
          omega
  | succ layers ih =>
      have rank : 10 - (layers + 1) = 9 - layers := by omega
      have next : 10 - layers = 9 - layers + 1 := by omega
      rw [rank] at below tight loosens
      rw [next] at ih
      obtain ⟨leading, inside⟩ := split_tighter tight
      have joined := unsplit_split (9 - layers) links
      rw [tree]
      generalize split (9 - layers) links = parts at leading inside joined ⊢
      obtain ⟨before, joins⟩ := parts
      have ranked : ∀ part ∈ joins, part.1.level.rank = 9 - layers :=
        fun part member => (inside part member).1
      have looser : Loosens (9 - layers + 1) rest := loosens.mono (Nat.le_succ _)
      rw [← joined, unsplit, List.append_assoc,
        ih (by omega) (below.mono (Nat.le_succ _)) leading (loosens_joins ranked looser)]
      refine fold_joins below ranked looser ?_ _
      intro part member pending more same loosens
      refine ih (by omega) ?_ (inside part member).2 loosens part.1.operand
      rintro other (_ | ⟨_, deeper⟩)
      · exact Nat.lt_succ_of_le (Nat.le_of_eq same)
      · exact Nat.lt_succ_of_lt (below other deeper)

/-- Without a stack the loop builds the tree of all ten layers. -/
theorem fold_eq_tree (first : List Element) (links : List Link) :
    fold [] first links = tree 10 first links := by
  have bottom : Below (10 - 10) [] := nofun
  have last : Loosens (10 - 10) [] := nofun
  have tight : ∀ link ∈ links, 10 - 10 ≤ link.level.rank := fun _ _ => Nat.zero_le _
  have whole := fold_layers 10 (Nat.le_refl _) bottom tight last first
  rwa [List.append_nil] at whole

end Link

/-! ## The loop -/

namespace State

open Link

variable {context : Context} {operand type : Step}

/-- Every waiting operator has a place in the source. -/
def Placed (stack : List Pending) : Prop :=
  ∀ pending ∈ stack, Element.AnyPlaced pending.operator

/-- Where operators have a place, the place of the cursor does not matter. -/
theorem reduce_eq_collapse (state : State) (floor : Level) {stack : List Pending}
    (placed : Placed stack) (right : List Element) :
    state.reduce context floor stack right = collapse floor.rank stack right := by
  induction stack generalizing right with
  | nil => rfl
  | cons top stack ih =>
      obtain ⟨token, member, known⟩ := placed top List.mem_cons_self
      have spanned : Element.AnyPlaced (top.left ++ top.operator ++ right) :=
        ⟨token, by simp [member], known⟩
      rw [reduce, collapse, finish_eq state top.level.nodeKind spanned]
      split
      · exact ih (fun pending inside => placed pending (List.mem_cons_of_mem _ inside)) _
      · rfl

theorem collapse_placed {floor : Nat} {stack : List Pending} (placed : Placed stack)
    (right : List Element) : Placed (collapse floor stack right).1 := by
  induction stack generalizing right with
  | nil => exact placed
  | cons top stack ih =>
      rw [collapse]
      split
      · exact ih (fun pending inside => placed pending (List.mem_cons_of_mem _ inside)) _
      · exact placed

theorem takeMany_appends (count : Nat) (state : State) :
    state.slots <:+ (state.takeMany context count).slots := by
  induction count generalizing state with
  | zero => exact List.suffix_refl _
  | succ count ih => exact (take_appends state).trans (ih (state.take context))

/-- The tokens of an operator have places. -/
theorem operator_placed {state before : State} {level : Level} {width : Nat}
    {operator : List Element} (found : state.operator? context = some (level, width))
    (taken : state.collect (fun inner => .ok (inner.takeMany context width)) =
      .ok (operator, before)) :
    Element.AnyPlaced operator ∧ state.position < before.position ∧
      before.slots = state.slots := by
  obtain ⟨more, wide⟩ := operator?_eq_some found
  obtain ⟨inner, stepped, rfl, rfl⟩ := collect_eq_ok.mp taken
  cases stepped
  have bare : ({ state with slots := [] } : State).atEnd context = false := more
  refine ⟨?_, position_lt_takeMany bare wide, rfl⟩
  obtain ⟨count, rfl⟩ := Nat.exists_eq_add_one_of_ne_zero (Nat.ne_of_gt wide)
  have taken : .token (state.current context) ∈
      (State.take context { state with slots := [] }).slots := by
    rw [take, if_neg (by simp [bare])]
    exact List.mem_cons_self
  have kept : .token (state.current context) ∈
      (State.takeMany context (count + 1) { state with slots := [] }).slots :=
    (takeMany_appends count _).subset taken
  exact ⟨_, List.mem_reverse.mpr kept, rfl⟩

/-- If no type test is met, the loop reads operators and operands until no operator follows,
and builds what folding them comes to. -/
theorem climb_linked (forward : ∀ before after, operand before = .ok after →
      before.position ≤ after.position) {rounds : Nat} {stack : List Pending}
    (placed : Placed stack) {left : List Element} {state after : State}
    (covered : state.remaining context ≤ rounds)
    (read : state.climb context operand type rounds stack left = .ok after)
    (untested : ∀ links final, Linked context operand state links final →
      final.kindAt context 0 ≠ .kwInstanceof) :
    ∃ links final, Linked context operand state links final ∧
      final.operator? context = none ∧ final.slots = state.slots ∧
      after = { final with slots := (fold stack left links).reverse ++ state.slots } := by
  have closed {stack : List Pending} (placed : Placed stack) {left : List Element} {state : State}
      (ended : state.operator? context = none)
      (read : (.ok (state.closeOperators context stack left) : Except SyntaxError State) =
        .ok after) :
      ∃ links final, Linked context operand state links final ∧
        final.operator? context = none ∧ final.slots = state.slots ∧
        after = { final with slots := (fold stack left links).reverse ++ state.slots } := by
    refine ⟨[], state, .done state, ended, rfl, ?_⟩
    rw [← Except.ok.inj read, closeOperators, reduce_eq_collapse state .or placed]
    rfl
  induction rounds generalizing stack left state with
  | zero =>
      have ended : state.operator? context = none := by
        cases found : state.operator? context with
        | none => rfl
        | some operator =>
            have inside := Context.lt_size_of_kind_ne (current_kind_ne (operator?_eq_some found).1)
            simp only [remaining] at covered
            omega
      exact closed placed ended read
  | succ rounds ih =>
      rw [climb] at read
      cases found : state.operator? context with
      | none =>
          rw [found] at read
          exact closed placed found read
      | some operator =>
          obtain ⟨level, width⟩ := operator
          have binary := untested [] state (.done state)
          simp only [found, reduce_eq_collapse state level placed, if_neg binary] at read
          obtain ⟨⟨operator, before⟩, taken, read⟩ := bind_eq_ok.mp read
          obtain ⟨⟨right, next⟩, operated, read⟩ := bind_eq_ok.mp read
          obtain ⟨spelled, passed, kept⟩ := operator_placed found taken
          obtain ⟨inner, stepped, rfl, rfl⟩ := collect_eq_ok.mp operated
          have onward := forward _ _ stepped
          have covered' : remaining context { inner with slots := before.slots } ≤ rounds := by
            simp only [remaining] at covered onward ⊢
            omega
          have stacked : Placed (⟨(collapse level.rank stack left).2, level, operator⟩ ::
              (collapse level.rank stack left).1) := by
            rintro pending (_ | ⟨_, member⟩)
            · exact spelled
            · exact collapse_placed placed left pending member
          obtain ⟨links, final, rest, ended, same, built⟩ := ih stacked covered' read
            fun links final linked => untested _ final (.next found binary taken operated linked)
          exact ⟨_, final, .next found binary taken operated rest, ended, same.trans kept,
            kept ▸ built⟩

/-- A type test is met after some operands and operators. -/
def MeetsTypeTest (context : Context) (operand : Step) (state : State) : Prop :=
  ∃ first start links final, state.collect operand = .ok (first, start) ∧
    Linked context operand start links final ∧ final.kindAt context 0 = .kwInstanceof

/-- The loop builds the tree of the ten layers. -/
theorem operators_layered (forward : ∀ before after, operand before = .ok after →
      before.position ≤ after.position) {state after : State}
    (read : state.operators context operand type = .ok after)
    (untested : ¬state.MeetsTypeTest context operand) :
    ∃ first start links final, state.collect operand = .ok (first, start) ∧
      Linked context operand start links final ∧ final.operator? context = none ∧
      after = { final with slots := (tree 10 first links).reverse ++ state.slots } := by
  obtain ⟨⟨first, start⟩, operated, read⟩ := bind_eq_ok.mp read
  have alone : Placed [] := nofun
  obtain ⟨links, final, linked, ended, -, built⟩ := climb_linked forward alone (Nat.le_refl _) read
    fun links final linked test => untested ⟨first, start, links, final, operated, linked, test⟩
  obtain ⟨inner, -, rfl, rfl⟩ := collect_eq_ok.mp operated
  rw [fold_eq_tree] at built
  exact ⟨_, _, links, final, operated, linked, ended, built⟩

end State

open JavaSyntax.Language in
/-- The operands and operators of a binary expression without a type test become the tree of
the grammar in ten layers, whatever the operands are. -/
theorem binary_layered {depth : Nat} {context : Context} {state after : State}
    (read : binary.run (readRule grammar depth) context state = .ok after)
    (untested : ¬state.MeetsTypeTest context (unary.run (readRule grammar depth) context)) :
    ∃ first start links final,
      state.collect (unary.run (readRule grammar depth) context) = .ok (first, start) ∧
      State.Linked context (unary.run (readRule grammar depth) context) start links final ∧
      final.operator? context = none ∧
      after = { final with slots := (Link.tree 10 first links).reverse ++ state.slots } :=
  State.operators_layered
    (fun _ _ operated => (readRule_steady steady_grammar depth).forward unary operated) read
    untested

/-- The tokens of `a + b * -c << d`. -/
def mixedOperators : List Token :=
  [.written .identifier "a" 0, .written .plus "+" 2, .written .identifier "b" 4,
    .written .star "*" 6, .written .minus "-" 8, .written .identifier "c" 9, .written .lt "<" 11,
    .written .lt "<" 12, .written .identifier "d" 14, .endMark 15]

open JavaSyntax.Language in
theorem binary_layered_mixedOperators :
    let context := Context.ofTokens mixedOperators {}
    let operand := unary.run (readRule grammar 96) context
    let state : State := ⟨0, [], []⟩
    ¬state.MeetsTypeTest context operand ∧ ∃ after,
      binary.run (readRule grammar 96) context state = .ok after ∧
      ∃ first start links final, state.collect operand = .ok (first, start) ∧
        State.Linked context operand start links final ∧ final.operator? context = none ∧
        after = { final with slots := (Link.tree 10 first links).reverse ++ state.slots } := by
  intro context operand state
  have untested : ¬state.MeetsTypeTest context operand := by
    rintro ⟨first, start, links, final, -, -, test⟩
    have absent : ∀ token ∈ mixedOperators, token.kind ≠ .kwInstanceof := by decide
    have keyword : (context.get final.position).kind = .kwInstanceof := test
    have known : (context.get final.position).kind ≠ .eof := by
      rw [keyword]
      decide
    have inside : final.position < mixedOperators.length := Context.lt_size_of_kind_ne known
    have found : context.get final.position = mixedOperators[final.position] := by
      simp [context, Context.get, Context.ofTokens, List.getElem?_eq_getElem inside]
    exact absent _ (List.getElem_mem inside) (found ▸ keyword)
  have fits : (binary.run (readRule grammar 96) context state).isOk = true := by decide +kernel
  cases read : binary.run (readRule grammar 96) context state with
  | error error =>
      rw [read] at fits
      cases fits
  | ok after => exact ⟨untested, after, rfl, binary_layered read untested⟩

end JavaSyntax
