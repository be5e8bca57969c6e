import JavaSyntax.Proofs.Brackets
import JavaSyntax.Proofs.Outline.Slots

/-!
# Tokens that delimit a reading

A reading that starts outside of all brackets never gets past an end mark or a bracket that
closes what it has not opened.  Depending on what is read, some other tokens are walls as
well, as long as no bracket is open: no expression goes beyond a `;`, and no type beyond a
`{`.

`Passes` says that the tokens of a stretch can all be got past, and which brackets are open
before and after it.  A stretch is blocked at a place if nothing passes that place.
-/

namespace JavaSyntax

/-- The kind of token that closes a bracket. -/
def Bracket.closing : Bracket → TokenKind
  | .round => .rParen
  | .curly => .rBrace
  | .square => .rBracket

theorem TokenKind.eq_closing {kind : TokenKind} {bracket : Bracket}
    (closes : kind.mark? = some (.closing bracket)) : kind = bracket.closing := by
  unfold TokenKind.mark? at closes
  split at closes <;> cases closes <;> rfl

theorem TokenKind.eq_opening {kind : TokenKind} (opens : kind.mark? = some (.opening .curly)) :
    kind = .lBrace := by
  unfold TokenKind.mark? at opens
  split at opens <;> cases opens
  rfl

/-- The brackets that are open after a token of a kind that can be got past. -/
def TokenKind.shift (kind : TokenKind) (stack : List Bracket) : List Bracket :=
  match kind.mark? with
  | none => stack
  | some (.opening bracket) => bracket :: stack
  | some (.closing _) => stack.tail

/-- The kinds of token that are walls where no bracket is open, besides end marks and
closing brackets. -/
abbrev Walls := TokenSet

namespace Walls

/-- The kinds that end whatever is read, unless they close the last open bracket. -/
def ending : TokenSet :=
  .ofList [.rParen, .rBrace, .rBracket, .eof]

/-- The kinds that cannot be got past while some brackets are open. -/
def stops (walls : Walls) : List Bracket → TokenSet
  | [] => walls ∪ ending
  | top :: _ => ending.inter (TokenSet.singleton top.closing).compl

theorem ending_closing (bracket : Bracket) : ending.contains bracket.closing = true := by
  cases bracket <;> decide

theorem contains_stops_nil (walls : Walls) (kind : TokenKind) :
    (walls.stops []).contains kind = (walls.contains kind || ending.contains kind) :=
  TokenSet.contains_union walls ending kind

/-- End marks stop everything. -/
theorem stops_eof (walls : Walls) (stack : List Bracket) :
    (walls.stops stack).contains .eof = true := by
  cases stack with
  | nil =>
      rw [contains_stops_nil, Bool.or_eq_true]
      exact .inr (by decide)
  | cons top stack =>
      have other : ¬top.closing = .eof := by cases top <;> decide
      simp [stops, ending, other]

variable {walls outer : Walls} {inner stack : List Bracket} {kind : TokenKind}

/-- Among more open brackets no more tokens are walls, if any was open or fewer kinds are
walls. -/
theorem stops_append (weaker : stack = [] → walls.within outer = true)
    (passable : (outer.stops inner).contains kind = false) :
    (walls.stops (inner ++ stack)).contains kind = false := by
  cases inner with
  | cons top inner => exact passable
  | nil =>
      rw [contains_stops_nil, Bool.or_eq_false_iff] at passable
      cases stack with
      | nil =>
          rw [List.append_nil, contains_stops_nil, passable.2, Bool.or_false, Bool.eq_false_iff]
          intro isWall
          rw [TokenSet.contains_of_within (weaker rfl) isWall] at passable
          cases passable.1
      | cons top stack =>
          rw [List.nil_append, stops, TokenSet.contains_inter, passable.2, Bool.false_and]

theorem shift_append (passable : (walls.stops inner).contains kind = false) :
    kind.shift (inner ++ stack) = kind.shift inner ++ stack := by
  unfold TokenKind.shift
  cases marks : kind.mark? with
  | none => rfl
  | some mark =>
      cases mark with
      | opening bracket => rfl
      | closing bracket =>
          cases inner with
          | cons top inner => rfl
          | nil =>
              rw [contains_stops_nil, Bool.or_eq_false_iff] at passable
              rw [TokenKind.eq_closing marks, ending_closing] at passable
              cases passable.2

end Walls

/-- The tokens between two places can be got past, and lead from some open brackets to
others. -/
inductive Passes (walls : Walls) (context : Context) (stack : List Bracket) (start : Nat) :
    List Bracket → Nat → Prop where
  | refl : Passes walls context stack start stack start
  | next {inner : List Bracket} {place : Nat} : Passes walls context stack start inner place →
      (walls.stops inner).contains (context.get place).kind = false →
        Passes walls context stack start ((context.get place).kind.shift inner) (place + 1)

/-- Nothing that starts at a place, with some brackets open, gets past another one. -/
def Blocked (walls : Walls) (context : Context) (stack : List Bracket) (start high : Nat) : Prop :=
  ∀ inner place, Passes walls context stack start inner place → place ≤ high

namespace Passes

variable {walls outer : Walls} {context : Context} {stack inner last : List Bracket}
  {start place stop high : Nat}

theorem trans (first : Passes walls context stack start inner place)
    (second : Passes walls context inner place last stop) :
    Passes walls context stack start last stop := by
  induction second with
  | refl => exact first
  | next _ passable ih => exact ih.next passable

theorem forward (passes : Passes walls context stack start inner place) : start ≤ place := by
  induction passes with
  | refl => exact Nat.le_refl _
  | next _ _ ih => omega

theorem unique (left : Passes walls context stack start inner place)
    (right : Passes walls context stack start last place) : inner = last := by
  induction left generalizing last with
  | refl =>
      cases right with
      | refl => rfl
      | next earlier _ =>
          have := earlier.forward
          omega
  | next first _ ih =>
      cases right with
      | refl =>
          have := first.forward
          omega
      | next second _ => rw [ih second]

/-- A stretch can be cut at each place. -/
theorem cut (passes : Passes walls context stack start inner stop) (above : start ≤ place)
    (below : place ≤ stop) : ∃ middle, Passes walls context stack start middle place ∧
      Passes walls context middle place inner stop := by
  induction passes with
  | refl =>
      obtain rfl : place = start := by omega
      exact ⟨stack, .refl, .refl⟩
  | @next inner stop earlier passable ih =>
      by_cases ended : place = stop + 1
      · subst ended
        exact ⟨_, earlier.next passable, .refl⟩
      · obtain ⟨middle, first, second⟩ := ih (by omega)
        exact ⟨middle, first, second.next passable⟩

/-- A wall at the end of a stretch blocks it. -/
theorem blocked (passes : Passes walls context stack start inner stop)
    (wall : (walls.stops inner).contains (context.get stop).kind = true) :
    Blocked walls context stack start stop := by
  intro other place further
  by_cases beyond : place ≤ stop
  · exact beyond
  · have onward := passes.forward
    have above : start ≤ stop + 1 := by omega
    obtain ⟨middle, first, second⟩ := further.cut above (by omega)
    cases first with
    | refl =>
        have := passes.forward
        omega
    | next earlier passable =>
        rw [passes.unique earlier, passable] at wall
        cases wall

/-- What can be got past on its own can be got past among open brackets, and where fewer
kinds are walls. -/
theorem among (passes : Passes outer context [] start inner place)
    (weaker : stack = [] → walls.within outer = true) :
    Passes walls context stack start (inner ++ stack) place := by
  induction passes with
  | refl => exact .refl
  | next _ passable ih =>
      have further := ih.next (Walls.stops_append weaker passable)
      rwa [Walls.shift_append passable] at further

end Passes

namespace Blocked

variable {walls outer : Walls} {context : Context} {stack inner : List Bracket}
  {start place high : Nat}

theorem later (blocked : Blocked walls context stack start high)
    (passes : Passes walls context stack start inner place) :
    Blocked walls context inner place high :=
  fun _ _ further => blocked _ _ (passes.trans further)

theorem inside (blocked : Blocked walls context stack start high) : start ≤ high :=
  blocked _ _ .refl

/-- A token that is no wall does not stand at the end of what is blocked. -/
theorem lt_of_passable (blocked : Blocked walls context stack start high)
    (passable : (walls.stops stack).contains (context.get start).kind = false) : start < high :=
  blocked _ _ (Passes.next .refl passable)

/-- What is read on its own is blocked where all that is around it is. -/
theorem alone (blocked : Blocked walls context stack start high)
    (weaker : stack = [] → walls.within outer = true) :
    Blocked outer context [] start high :=
  fun _ _ passes => blocked _ _ (passes.among weaker)

/-- An end mark blocks everything. -/
theorem ofEnd (walls : Walls) (stack : List Bracket) (within : start ≤ high)
    (ended : (context.get high).kind = .eof) : Blocked walls context stack start high := by
  intro inner place passes
  induction passes with
  | refl => exact within
  | @next inner place _ passable ih =>
      by_cases beyond : place = high
      · rw [beyond, ended, Walls.stops_eof] at passable
        cases passable
      · omega

end Blocked

/-! ## Statements seen from their heads -/

section Heads

variable {walls : Walls} {context : Context} {stack : List Bracket} {start place stop : Nat}
  (braces : walls.contains .lBrace = true)

include braces

/-- Where a `{` is a wall, no brace is opened outside of other brackets. -/
theorem Passes.outermost_ne_curly (passes : Passes walls context [] start stack place) :
    stack.getLast? ≠ some .curly := by
  induction passes with
  | refl => simp
  | @next inner place _ passable ih =>
      unfold TokenKind.shift
      cases marks : (context.get place).kind.mark? with
      | none => exact ih
      | some mark =>
          cases mark with
          | closing bracket =>
              cases inner with
              | nil => exact ih
              | cons top inner =>
                  cases inner with
                  | nil => simp
                  | cons second inner => simpa using ih
          | opening bracket =>
              cases inner with
              | cons top inner => simpa using ih
              | nil =>
                  rintro opens
                  obtain rfl : bracket = .curly := by simpa using opens
                  rw [TokenKind.eq_opening marks, Walls.contains_stops_nil, braces,
                    Bool.true_or] at passable
                  cases passable

/-- What ends with a `;` or a `}` outside of all brackets is blocked there, if those that open
a brace are walls. -/
theorem Passes.blocked_at_last (semicolons : walls.contains .semi = true)
    (passes : Passes .empty context [] start [] stop) (moved : start < stop)
    (last : (context.get (stop - 1)).kind = .semi ∨ (context.get (stop - 1)).kind = .rBrace) :
    Blocked walls context [] start (stop - 1) := by
  intro inner place further
  by_cases beyond : place ≤ stop - 1
  · exact beyond
  · have above : start ≤ stop := by omega
    obtain ⟨middle, first, -⟩ := further.cut above (by omega)
    cases first with
    | refl => omega
    | @next inner before earlier passable =>
        have weaker : ([] : List Bracket) = [] → TokenSet.empty.within walls = true :=
          fun _ => by simp [TokenSet.within, TokenSet.union, TokenSet.empty]
        have whole := (earlier.next passable).among weaker
        have closed := (List.append_nil _).symm.trans (whole.unique passes)
        rcases last with isSemi | isBrace
        · rw [Nat.add_sub_cancel] at isSemi
          rw [isSemi] at closed passable
          obtain rfl : inner = [] := closed
          rw [Walls.contains_stops_nil, semicolons, Bool.true_or] at passable
          cases passable
        · rw [Nat.add_sub_cancel] at isBrace
          rw [isBrace] at closed passable
          have outermost := earlier.outermost_ne_curly braces
          cases inner with
          | nil =>
              rw [Walls.contains_stops_nil, Bool.or_eq_false_iff] at passable
              exact absurd passable.2 (by decide)
          | cons top inner =>
              obtain rfl : inner = [] := closed
              cases top with
              | curly => exact absurd rfl outermost
              | round | square => exact absurd passable (by simp [Walls.stops]; decide)

end Heads

end JavaSyntax
