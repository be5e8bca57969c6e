import JavaSyntax.Proofs.Tandem.Parse

/-!
# Layout and names

A parse looks at little more than the kinds of its tokens: whether two angle brackets
touch, and whether a name starts with an uppercase character.  Token lists that agree
in these things give the same tree but for texts and places, and errors at the starts
of the same tokens.
-/

namespace JavaSyntax

/-- A tree without texts and places. -/
def Node.skeleton (node : Node) : Element :=
  node.toElement.redraw Token.bare

namespace Token

/-- Whether two angle brackets of the same kind touch; nothing for other tokens. -/
def joint? (first second : Token) : Option Bool :=
  if first.kind = second.kind ∧ (first.kind = .lt ∨ first.kind = .gt) then
    some (first.stop == second.start)
  else none

/-- How the neighbouring angle brackets of a token list stand to one another. -/
def joints (tokens : List Token) : List (Option Bool) :=
  tokens.zipWith joint? tokens.tail

end Token

/-- Two token lists in order that differ in layout and in names only. -/
structure Restyled (tokens tokens' : List Token) : Prop where
  increasing : tokens.Pairwise fun left right => left.start < right.start
  increasing' : tokens'.Pairwise fun left right => left.start < right.start
  ended : tokens.getLast?.map Token.kind = some .eof
  kinds : tokens'.map Token.kind = tokens.map Token.kind
  capitals : tokens'.map Token.isCapitalName = tokens.map Token.isCapitalName
  joints : Token.joints tokens' = Token.joints tokens

/-- Two parses that differ in texts and places only: each error points at the start of
the token with the same index as the other. -/
structure Parse.Resembles (tokens tokens' : List Token) (parse parse' : Parse) : Prop where
  skeleton : parse'.root.skeleton = parse.root.skeleton
  errors : List.Forall₂ (fun error error' : SyntaxError =>
    error'.fault = error.fault ∧ ∃ (index : Nat) (token token' : Token),
      tokens[index]? = some token ∧ tokens'[index]? = some token' ∧
        error.offset = token.start ∧ error'.offset = token'.start) parse.errors parse'.errors

namespace Restyled

variable {tokens tokens' : List Token} (restyled : Restyled tokens tokens') {index : Nat}
  {token token' : Token}

include restyled

theorem length : tokens'.length = tokens.length := by
  have sizes := congrArg List.length restyled.kinds
  simpa using sizes

theorem ended' : tokens'.getLast?.map Token.kind = some .eof := by
  rw [← List.getLast?_map, restyled.kinds, List.getLast?_map, restyled.ended]

/-- Tokens with the same index have the same sketch. -/
theorem sketch (found : tokens[index]? = some token) (found' : tokens'[index]? = some token') :
    token'.sketch = token.sketch := by
  have kinds := congrArg (·[index]?) restyled.kinds
  have capitals := congrArg (·[index]?) restyled.capitals
  simp only [List.getElem?_map, found, found', Option.map_some, Option.some.injEq] at kinds capitals
  simp only [Token.sketch, kinds, capitals]

/-- Tokens beyond the list are end marks in both. -/
theorem cases (index : Nat) :
    (∃ token token', tokens[index]? = some token ∧ tokens'[index]? = some token') ∨
      tokens[index]? = none ∧ tokens'[index]? = none := by
  by_cases inside : index < tokens.length
  · have inside' : index < tokens'.length := restyled.length ▸ inside
    exact .inl ⟨_, _, List.getElem?_eq_getElem inside, List.getElem?_eq_getElem inside'⟩
  · have beyond := Nat.le_of_not_lt inside
    have beyond' : tokens'.length ≤ index := restyled.length ▸ beyond
    exact .inr ⟨List.getElem?_eq_none beyond, List.getElem?_eq_none beyond'⟩

theorem joint? {next next' : Token} (found : tokens[index]? = some token)
    (found' : tokens'[index]? = some token') (second : tokens[index + 1]? = some next)
    (second' : tokens'[index + 1]? = some next') : token'.joint? next' = token.joint? next := by
  have joints := congrArg (·[index]?) restyled.joints
  simpa [Token.joints, List.getElem?_zipWith, found, found', second, second'] using joints

/-- Where there is a token that is no end mark, both lists have one of that kind. -/
theorem found {config : Config} {kind : TokenKind}
    (known : ((Context.ofTokens tokens config).get index).kind = kind) (inner : kind ≠ .eof) :
    ∃ token token', tokens[index]? = some token ∧ tokens'[index]? = some token' ∧
      token.kind = kind ∧ token'.kind = kind := by
  rcases restyled.cases index with ⟨token, token', found, found'⟩ | ⟨missing, _⟩
  · rw [Context.get_ofTokens found] at known
    have same := congrArg Token.kind (restyled.sketch found found')
    rw [Token.kind_sketch, Token.kind_sketch] at same
    exact ⟨token, token', found, found', known, same.trans known⟩
  · rw [Context.kind_get_beyond missing] at known
    exact absurd known.symm inner

theorem context_matches (config : Config) :
    (Context.ofTokens tokens config).Matches (.ofTokens tokens' config) where
  ordered := Context.ordered_ofTokens restyled.increasing restyled.ended
  ordered' := Context.ordered_ofTokens restyled.increasing' restyled.ended'
  size := by simp [Context.ofTokens, restyled.length]
  sketch := by
    intro index
    rcases restyled.cases index with ⟨token, token', found, found'⟩ | ⟨missing, missing'⟩
    · rw [Context.get_ofTokens found, Context.get_ofTokens found', restyled.sketch found found']
    · have mark : ((Context.ofTokens tokens config).get index).kind = .eof :=
        Context.kind_get_beyond missing
      have mark' : ((Context.ofTokens tokens' config).get index).kind = .eof :=
        Context.kind_get_beyond missing'
      refine Token.sketch_eq (mark'.trans mark.symm) ?_
      intro named
      rw [mark'] at named
      cases named
  touching := by
    intro index kind angle known known'
    have inner : kind ≠ .eof := by rcases angle with rfl | rfl <;> decide
    obtain ⟨first, first', found, found', isFirst, isFirst'⟩ := restyled.found known inner
    obtain ⟨next, next', second, second', isNext, isNext'⟩ := restyled.found known' inner
    have joined := restyled.joint? found found' second second'
    simp only [Token.joint?, isFirst, isFirst', isNext, isNext', angle, and_self, if_true,
      Option.some.injEq] at joined
    rw [Bool.eq_iff_iff, beq_iff_eq, beq_iff_eq] at joined
    rw [Context.get_ofTokens found, Context.get_ofTokens found', Context.get_ofTokens second,
      Context.get_ofTokens second']
    exact joined
  limit := rfl
  recovery := rfl

end Restyled

/-- Slots with the same sketch have the same skeleton. -/
theorem Element.map_redraw_bare {slots slots' : List Element}
    (same : slots'.map sketch = slots.map sketch) :
    slots'.map (redraw Token.bare) = slots.map (redraw Token.bare) := by
  have drawn (slots : List Element) :
      slots.map (redraw Token.bare) = (slots.map sketch).map (redraw Token.bare) := by
    rw [List.map_map]
    refine List.map_congr_left ?_
    intro slot _
    exact (redraw_redraw Token.sketch Token.bare slot).symm
  rw [drawn slots', same, ← drawn slots]

/-- Errors that point at tokens of the same index, as the parse returns them. -/
theorem ErrorLike.pointing {tokens tokens' : List Token} {config : Config}
    {error error' : SyntaxError}
    (like : ErrorLike (.ofTokens tokens config) (.ofTokens tokens' config) error error')
    (length : tokens'.length = tokens.length) :
    error'.fault = error.fault ∧ ∃ (index : Nat) (token token' : Token),
      tokens[index]? = some token ∧ tokens'[index]? = some token' ∧
        error.offset = token.start ∧ error'.offset = token'.start := by
  obtain ⟨fault, index, inside, place, place'⟩ := like
  have inside : index < tokens.length := by simpa [Context.ofTokens] using inside
  have found := List.getElem?_eq_getElem inside
  have found' := List.getElem?_eq_getElem (length ▸ inside)
  rw [Context.get_ofTokens found] at place
  rw [Context.get_ofTokens found'] at place'
  exact ⟨fault, index, _, _, found, found', place, place'⟩

/-- Readings that end alike make parses that differ in texts and places only. -/
theorem Like.finishParse {tokens tokens' : List Token} {config : Config}
    (alike : (Context.ofTokens tokens config).Matches (.ofTokens tokens' config))
    {state state' : State}
    (like : Like (.ofTokens tokens config) (.ofTokens tokens' config) state state')
    (kind : NodeKind) :
    Parse.Resembles tokens tokens' (state.finishParse (.ofTokens tokens config) kind)
      (state'.finishParse (.ofTokens tokens' config) kind) where
  skeleton := by
    have current := like.current alike
    have slots : (state'.takeAny (.ofTokens tokens' config)).slots.map Element.sketch =
        (state.takeAny (.ofTokens tokens config)).slots.map Element.sketch := by
      simp only [State.takeAny, List.map_cons, like.slots, Element.sketch, Element.redraw_token,
        current]
    have children := Element.map_redraw_bare slots
    simp only [Node.skeleton, State.finishParse, Node.toElement, Node.spanning,
      Element.redraw_node, State.gathered, List.map_reverse, children]
  errors := by
    have length : tokens'.length = tokens.length := by simpa [Context.ofTokens] using alike.size
    have errors := List.forall₂_reverse_iff.mpr like.errors
    exact errors.imp fun _ _ pointed => pointed.pointing length

/-- Layout and names do not change a parse: whatever the limit and with recovery or
without, token lists that differ in these only have the same tree but for texts and
places, and errors of the same kinds at the same tokens. -/
theorem parse_resembles_of_restyled {tokens tokens' : List Token}
    (restyled : Restyled tokens tokens') (config : Config) :
    Parse.Resembles tokens tokens' (Session.start tokens config).parseUnit.1
        (Session.start tokens' config).parseUnit.1 ∧
      Parse.Resembles tokens tokens' (Session.start tokens config).parseExpression.1
        (Session.start tokens' config).parseExpression.1 := by
  have alike := restyled.context_matches config
  have start := Tandem.start alike
  constructor
  · exact (State.readUnit_like alike start).finishParse alike .compilationUnit
  · exact (State.readExpression_like alike start).finishParse alike .expressionRoot

/-- The tokens of `(T)x>>y`. -/
def denseCast : List Token :=
  [⟨.lParen, "(", ⟨0, 1⟩⟩, ⟨.identifier, "T", ⟨1, 1⟩⟩, ⟨.rParen, ")", ⟨2, 1⟩⟩,
    ⟨.identifier, "x", ⟨3, 1⟩⟩, ⟨.gt, ">", ⟨4, 1⟩⟩, ⟨.gt, ">", ⟨5, 1⟩⟩,
    ⟨.identifier, "y", ⟨6, 1⟩⟩, .endMark 7]

/-- The tokens of `( Name ) value >> n`. -/
def spacedCast : List Token :=
  [⟨.lParen, "(", ⟨0, 1⟩⟩, ⟨.identifier, "Name", ⟨2, 4⟩⟩, ⟨.rParen, ")", ⟨7, 1⟩⟩,
    ⟨.identifier, "value", ⟨9, 5⟩⟩, ⟨.gt, ">", ⟨15, 1⟩⟩, ⟨.gt, ">", ⟨16, 1⟩⟩,
    ⟨.identifier, "n", ⟨18, 1⟩⟩, .endMark 19]

theorem parse_resembles_of_casts :
    Restyled denseCast spacedCast ∧
      Parse.Resembles denseCast spacedCast (Session.start denseCast {}).parseExpression.1
        (Session.start spacedCast {}).parseExpression.1 := by
  have restyled : Restyled denseCast spacedCast := by
    constructor <;> decide
  exact ⟨restyled, (parse_resembles_of_restyled restyled {}).2⟩

end JavaSyntax
