import JavaSyntax.Proofs.Locality.Joining
import JavaSyntax.Proofs.Lexing.Composition
import JavaSyntax.Proofs.Lexing.Relexing

/-!
# Statements behind each other

Two texts that are read as the statements of a method may be put behind each other, with a line
end between them.  What they are read as does not depend on what follows or comes before, so
together they are read as the statements of the first one and then those of the second one,
farther to the right.
-/

namespace JavaSyntax

namespace Token

/-- A text with a line end behind it, wherever it stands. -/
theorem lexFrom_line_end {text : List Char} {own : List Token} {mark : Token}
    (read : lexFrom [] 0 text = .ok (own ++ [mark])) (before : List Token) (offset : Nat)
    (rest : List Char) : lexFrom before offset (text ++ '\n' :: rest) =
      lexFrom ((own.map (moved offset)).reverse ++ before) (offset + byteLength text + 1) rest := by
  obtain ⟨later, same, split⟩ := exists_split read
  obtain ⟨own', rfl, further⟩ := split.lexFrom_append (.inl rfl) rest
  rw [List.reverse_nil, List.nil_append] at same
  obtain ⟨rfl, -⟩ := List.append_inj' same rfl
  have moves := lexFrom_resumed before (own.reverse ++ []) offset (0 + byteLength text + 1) rest
  rw [lexFrom_eq_resumed, further, ← moves]
  simp [Nat.add_comm, Nat.add_left_comm]

/-- The tokens of two texts with a line end between them. -/
theorem lex_lines {first second : String} {own own' : List Token} {mark mark' : Token}
    (read : lex first = .ok (own ++ [mark])) (read' : lex second = .ok (own' ++ [mark'])) :
    lex (first ++ "\n" ++ second) = .ok (own ++ own'.map (moved (first.utf8ByteSize + 1)) ++
      [mark'.moved (first.utf8ByteSize + 1)]) := by
  have spelled : (first ++ "\n" ++ second).toList = first.toList ++ '\n' :: second.toList := by simp
  have size : byteLength first.toList = first.utf8ByteSize := by
    rw [byteLength_eq, String.ofList_toList]
  rw [lex, spelled, lexFrom_line_end read, lexFrom_eq_resumed, ← lex.eq_1 second, read', size]
  simp [resumed, map_moved_zero]

end Token

/-! ## A text in a method -/

/-- A class with one method, between whose braces a text stands. -/
def inMethod (text : String) : String :=
  "class A \x7b void m() \x7b\n" ++ text ++ "\n\x7d \x7d"

/-- The tokens of a class with one method, up to the opening brace of that. -/
def openingTokens : List Token :=
  [.written .kwClass "class" 0, .written .identifier "A" 6, .written .lBrace "\x7b" 8,
    .written .kwVoid "void" 10, .written .identifier "m" 15, .written .lParen "(" 16,
    .written .rParen ")" 17, .written .lBrace "\x7b" 19]

/-- The tokens of such a class from the closing brace of its method on. -/
def closingTokens (offset : Nat) : List Token :=
  [.written .rBrace "\x7d" offset, .written .rBrace "\x7d" (offset + 2), .endMark (offset + 3)]

theorem map_moved_closingTokens (distance offset : Nat) :
    (closingTokens offset).map (Token.moved distance) = closingTokens (offset + distance) := by
  simp [closingTokens, Nat.add_right_comm]

/-- The tokens of a class with one method, between whose braces some tokens stand. -/
def methodTokens (own : List Token) (offset : Nat) : List Token :=
  openingTokens ++ own ++ closingTokens offset

theorem lex_opening : Token.lex "class A \x7b void m() \x7b" =
    .ok (openingTokens ++ [.endMark 20]) := by
  simp only [openingTokens, List.cons_append, List.nil_append]
  cbv

theorem lex_closing : Token.lex "\x7d \x7d" = .ok (closingTokens 0) := by
  simp only [closingTokens]
  cbv

theorem toList_lines (first second third : String) :
    (first ++ "\n" ++ second ++ ("\n" ++ third)).toList =
      first.toList ++ '\n' :: (second.toList ++ '\n' :: third.toList) := by
  simp

theorem inMethod_eq (text : String) : inMethod text =
    "class A \x7b void m() \x7b" ++ "\n" ++ text ++ ("\n" ++ "\x7d \x7d") := by
  have front : "class A \x7b void m() \x7b\n" = "class A \x7b void m() \x7b" ++ "\n" := by decide
  have back : "\n\x7d \x7d" = "\n" ++ "\x7d \x7d" := by decide
  exact congrArg₂ (· ++ text ++ ·) front back

/-- A text lexes inside of a method as it does alone. -/
theorem lex_inMethod {text : String} {own : List Token} {mark : Token}
    (read : Token.lex text = .ok (own ++ [mark])) : Token.lex (inMethod text) =
      .ok (methodTokens (own.map (Token.moved 21)) (text.utf8ByteSize + 22)) := by
  have start : 0 + Token.byteLength "class A \x7b void m() \x7b".toList + 1 = 21 := by decide
  have size : Token.byteLength text.toList = text.utf8ByteSize := by
    rw [Token.byteLength_eq, String.ofList_toList]
  have stop : 0 + (21 + text.utf8ByteSize + 1) = text.utf8ByteSize + 22 := by omega
  rw [Token.lex, inMethod_eq, toList_lines, Token.lexFrom_line_end lex_opening,
    Token.lexFrom_line_end read, Token.lexFrom_eq_resumed, ← Token.lex.eq_1, lex_closing, size,
    start, Token.resumed, map_moved_closingTokens, stop]
  simp [methodTokens, Token.map_moved_zero]

/-! ## Token lists with a method -/

namespace Context

/-- Without recovery, a token list that is read as a class with a method. -/
def ofMethod (own : List Token) (offset maxDepth : Nat) : Context :=
  .ofTokens (methodTokens own offset) ⟨maxDepth, false⟩

variable {own : List Token} {offset maxDepth : Nat}

theorem get_ofMethod (index : Nat) : (ofMethod own offset maxDepth).get index =
    ((methodTokens own offset)[index]?).getD (.endMark (offset + 3)) := by
  have last : endMarkOf (methodTokens own offset) = .endMark (offset + 3) := by
    simp [endMarkOf, methodTokens, closingTokens, Token.endMark]
  simp [get, ofMethod, ofTokens, Array.getD_eq_getD_getElem?, last]

/-- What stands behind the opening brace of the method. -/
theorem get_ofMethod_behind (index : Nat) : (ofMethod own offset maxDepth).get (index + 8) =
    ((own ++ closingTokens offset)[index]?).getD (.endMark (offset + 3)) := by
  have size : openingTokens.length ≤ index + 8 := Nat.le_add_left 8 index
  rw [get_ofMethod, methodTokens, List.append_assoc, List.getElem?_append_right size]
  rfl

theorem hasMethod_ofMethod {source : String}
    (lexed : Token.lex source = .ok (methodTokens own offset)) :
    (ofMethod own offset maxDepth).HasMethod own.length where
  opens := by
    intro index kind known
    have kinds : openingKinds = openingTokens.map Token.kind := rfl
    rw [kinds, List.getElem?_map] at known
    obtain ⟨token, found, rfl⟩ := Option.map_eq_some_iff.mp known
    obtain ⟨inside, -⟩ := List.getElem?_eq_some_iff.mp found
    rw [get_ofMethod, methodTokens, List.append_assoc, List.getElem?_append_left inside, found]
    rfl
  strict := rfl
  size := by simp [ofMethod, ofTokens, methodTokens, openingTokens, closingTokens]
  closesBlock := by
    simp [get_ofMethod_behind, closingTokens, Token.written]
  closesClass := by
    have place : own.length + 9 = own.length + 1 + 8 := rfl
    rw [place, get_ofMethod_behind]
    simp [closingTokens, Token.written]
  ended := by
    have place : own.length + 10 = own.length + 2 + 8 := rfl
    rw [place, get_ofMethod_behind]
    simp [closingTokens, Token.endMark]
  spaced := ⟨_, spaced_ofTokens lexed _⟩

/-- The tokens between the braces of the method. -/
theorem map_get_ofMethod :
    ((List.range own.length).map fun index => (ofMethod own offset maxDepth).get (8 + index)) =
      own := by
  refine List.ext_getElem (by simp) fun index _ inside => ?_
  rw [List.getElem_map, List.getElem_range, Nat.add_comm, get_ofMethod_behind,
    List.getElem?_append_left inside, List.getElem?_eq_getElem inside]
  rfl

/-- The brace before them. -/
theorem get_ofMethod_opening : (ofMethod own offset maxDepth).get 7 =
    .written .lBrace "\x7b" 19 := by
  rw [get_ofMethod, methodTokens, List.append_assoc, List.getElem?_append_left (by decide)]
  rfl

/-- The brace behind them. -/
theorem get_ofMethod_closing : (ofMethod own offset maxDepth).get (own.length + 8) =
    .written .rBrace "\x7d" offset := by
  simp [get_ofMethod_behind, closingTokens]

end Context

/-- Tokens in two methods, and those of both of them in a third one. -/
theorem joined_ofMethod {own own' : List Token} {offset offset' distance maxDepth : Nat}
    {first second whole : String} (lexed : Token.lex first = .ok (methodTokens own offset))
    (lexed' : Token.lex second = .ok (methodTokens own' offset'))
    (together : Token.lex whole =
      .ok (methodTokens (own ++ own'.map (Token.moved distance)) (offset' + distance))) :
    Joined (.ofMethod own offset maxDepth) (.ofMethod own' offset' maxDepth)
      (.ofMethod (own ++ own'.map (Token.moved distance)) (offset' + distance) maxDepth)
      own.length own'.length distance where
  left := Context.hasMethod_ofMethod lexed
  right := Context.hasMethod_ofMethod lexed'
  third := by
    have method := @Context.hasMethod_ofMethod _ _ maxDepth _ together
    rwa [List.length_append, List.length_map] at method
  before := by
    intro index before
    have agree (rest : List Token) :
        (openingTokens ++ own ++ rest)[index]? = (openingTokens ++ own)[index]? := by
      refine List.getElem?_append_left ?_
      rw [List.length_append, Nat.add_comm]
      exact before
    have inside : index < (openingTokens ++ own).length := by
      rw [List.length_append, Nat.add_comm]
      exact before
    rw [Context.get_ofMethod, Context.get_ofMethod, methodTokens, methodTokens, agree,
      ← List.append_assoc, List.append_assoc, agree, List.getElem?_eq_getElem inside]
    rfl
  behind := by
    intro index above within
    obtain ⟨index, rfl⟩ := Nat.exists_eq_add_of_le' above
    have inside : index < (own' ++ closingTokens offset').length := by
      simp [closingTokens]
      omega
    rw [Nat.add_right_comm, Context.get_ofMethod_behind, Context.get_ofMethod_behind,
      List.append_assoc, List.getElem?_append_right (Nat.le_add_left _ _), Nat.add_sub_cancel,
      ← map_moved_closingTokens, ← List.map_append, List.getElem?_map,
      List.getElem?_eq_getElem inside]
    rfl

/-! ## Statements in a method -/

/-- A block holds the tokens of a text between its braces, and no others. -/
def Node.Holds (block : Node) (text : String) : Prop :=
  ∃ own mark, Token.lex text = .ok (own ++ [mark]) ∧
    block.tokens.map Token.spelling =
      (.lBrace, "\x7b") :: own.map Token.spelling ++ [(.rBrace, "\x7d")]

/-- A text that stands in a method is read without errors, and the block of the method holds
all of it. -/
structure StandsInMethod (config : Config) (text : String) (parse : Parse) (block : Node) :
    Prop where
  parsed : parseUnit (inMethod text) config = .ok parse
  clean : parse.errors = []
  found : parse.root.methodBlock? = some block
  holds : block.Holds text

/-- What is read without errors and without recovery, is read with recovery as well. -/
theorem State.readUnit_eq_trial (context : Context)
    (clean : (readUnit context.trial ⟨0, [], []⟩).errors = []) :
    readUnit context ⟨0, [], []⟩ = readUnit context.trial ⟨0, [], []⟩ := by
  cases recovers : context.recovery with
  | false => rw [Context.trial_of_strict recovers]
  | true =>
      rcases State.readUnit_agree recovers ⟨0, [], []⟩ rfl with ⟨same, -⟩ | ⟨error, _, one, -⟩
      · exact same
      · rw [clean] at one
        cases one

namespace StandsInMethod

variable {config : Config} {text : String} {own : List Token} {mark : Token}

/-- What stands in a method are statements that fill its block. -/
theorem exists_fills {parse : Parse} {block : Node}
    (stands : StandsInMethod config text parse block) :
    ∃ own mark depth after, Token.lex text = .ok (own ++ [mark]) ∧ config.maxDepth = depth + 2 ∧
      (Context.ofMethod (own.map (Token.moved 21)) (text.utf8ByteSize + 22) config.maxDepth).Fills
        (own.map (Token.moved 21)).length depth after ∧ block.between = after.gathered := by
  obtain ⟨parsed, clean, found, own, mark, lexed, spelled⟩ := stands
  have together := lex_inMethod lexed
  rw [parseUnit, together] at parsed
  obtain rfl := Except.ok.inj parsed
  obtain ⟨state, rfl, clean, same⟩ := Session.parseUnit_of_clean clean
  rw [same] at found
  have size : block.tokens.length = (own.map (Token.moved 21)).length + 2 := by
    simpa using congrArg List.length spelled
  obtain ⟨depth, after, limit, fills, between⟩ :=
    (Context.hasMethod_ofMethod together).exists_fills clean found size
  exact ⟨own, mark, depth, after, lexed, limit, fills, between⟩

/-- Statements that fill the block of a method are the ones that stand in it. -/
theorem exists_of_fills (lexed : Token.lex text = .ok (own ++ [mark])) {depth : Nat} {after : State}
    (limit : config.maxDepth = depth + 2)
    (fills : (Context.ofMethod (own.map (Token.moved 21)) (text.utf8ByteSize + 22)
      config.maxDepth).Fills (own.map (Token.moved 21)).length depth after) :
    ∃ parse block, StandsInMethod config text parse block ∧ block.between = after.gathered := by
  have together := lex_inMethod lexed
  have method := @Context.hasMethod_ofMethod _ _ config.maxDepth _ together
  obtain ⟨clean, stands⟩ := fills.exists_parse method limit
  obtain ⟨block, found, between, tokens⟩ :=
    stands (.ofTokens (methodTokens (own.map (Token.moved 21)) (text.utf8ByteSize + 22)) config)
  have same := State.readUnit_eq_trial (.ofTokens (methodTokens
    (own.map (Token.moved 21)) (text.utf8ByteSize + 22)) config) clean
  refine ⟨_, block, ⟨?parsed, ?clean, found, own, mark, lexed, ?spelled⟩, between⟩
  case parsed =>
    rw [parseUnit, together]
    exact congrArg (fun state => Except.ok (State.finishParse _ .compilationUnit state)) same
  case clean =>
    exact List.reverse_eq_nil_iff.mpr clean
  case spelled =>
    rw [tokens, fills.yieldAll_eq method, Context.map_get_ofMethod, Context.get_ofMethod_opening,
      Context.get_ofMethod_closing]
    simp [Token.written, Token.spelling, Token.moved]

end StandsInMethod

/-- Two texts that stand in a method may be put behind each other, with a line end between
them.  They stand in a method then, whose block holds what the blocks of both held: first
the slots of the one, and then those of the other, moved behind the line end. -/
theorem statements_concatenate {config : Config} {first second : String} {parse parse' : Parse}
    {block block' : Node} (stands : StandsInMethod config first parse block)
    (stands' : StandsInMethod config second parse' block') :
    ∃ joined whole, StandsInMethod config (first ++ "\n" ++ second) joined whole ∧
      whole.between =
        block.between ++ block'.between.map (Element.moved (first.utf8ByteSize + 1)) := by
  obtain ⟨own, mark, depth, after, lexed, limit, fills, between⟩ := stands.exists_fills
  obtain ⟨own', mark', depth', after', lexed', limit', fills', between'⟩ := stands'.exists_fills
  obtain rfl : depth' = depth := by omega
  have together := Token.lex_lines lexed lexed'
  have tokens : (own ++ own'.map (Token.moved (first.utf8ByteSize + 1))).map (Token.moved 21) =
      own.map (Token.moved 21) ++
        (own'.map (Token.moved 21)).map (Token.moved (first.utf8ByteSize + 1)) := by
    have moves (token : Token) : (token.moved (first.utf8ByteSize + 1)).moved 21 =
        (token.moved 21).moved (first.utf8ByteSize + 1) := by
      simp only [Token.moved, Span.moved, Nat.add_right_comm]
    simp [moves]
  have size : (first ++ "\n" ++ second).utf8ByteSize + 22 =
      second.utf8ByteSize + 22 + (first.utf8ByteSize + 1) := by
    have line : "\n".utf8ByteSize = 1 := by decide
    rw [String.utf8ByteSize_append, String.utf8ByteSize_append, line]
    omega
  have method := lex_inMethod together
  rw [tokens, size] at method
  obtain ⟨last, filled, same⟩ := (joined_ofMethod (lex_inMethod lexed) (lex_inMethod lexed')
    method).fills fills fills'
  have length : ((own ++ own'.map (Token.moved (first.utf8ByteSize + 1))).map
      (Token.moved 21)).length =
        (own.map (Token.moved 21)).length + (own'.map (Token.moved 21)).length := by simp
  rw [← tokens, ← size, ← length] at filled
  obtain ⟨joined, whole, stands, held⟩ := StandsInMethod.exists_of_fills together limit filled
  exact ⟨joined, whole, stands, by rw [held, same, between, between']⟩

/-- A text stands in a method if its tokens, in those of a class with one method, are read
without errors and end up in the block. -/
theorem StandsInMethod.exists_of_tokens (config : Config) {text : String} {own : List Token}
    {mark : Token} (lexed : Token.lex text = .ok (own ++ [mark]))
    (kinds : List (Option NodeKind)) {parse : Parse}
    (parsed : (Session.start (methodTokens (own.map (Token.moved 21)) (text.utf8ByteSize + 22))
      config).parseUnit.1 = parse) (clean : parse.errors = [])
    (holds : (parse.root.methodBlock?.any fun block =>
      (Element.yieldAll block.children).map Token.spelling =
          (.lBrace, "\x7b") :: own.map Token.spelling ++ [(.rBrace, "\x7d")] ∧
        block.between.map Element.nodeKind? = kinds) = true) :
    ∃ block, StandsInMethod config text parse block ∧
      block.between.map Element.nodeKind? = kinds := by
  obtain ⟨block, found, held⟩ := (Option.any_eq_true _ _).mp holds
  obtain ⟨spelled, same⟩ := of_decide_eq_true held
  rw [← Node.tokens_eq_yieldAll] at spelled
  refine ⟨block, ⟨?_, clean, found, own, mark, lexed, spelled⟩, same⟩
  rw [parseUnit, lex_inMethod lexed, ← parsed]
  rfl

/-- The tokens of `if (a) b();`. -/
def conditionalCall : List Token :=
  [.written .kwIf "if" 0, .written .lParen "(" 3, .written .identifier "a" 4,
    .written .rParen ")" 5, .written .identifier "b" 7, .written .lParen "(" 8,
    .written .rParen ")" 9, .written .semi ";" 10]

/-- The tokens of `List<T> c = d;`. -/
def genericVariable : List Token :=
  [.written .identifier "List" 0, .written .lt "<" 4, .written .identifier "T" 5,
    .written .gt ">" 6, .written .identifier "c" 8, .written .assign "=" 10,
    .written .identifier "d" 12, .written .semi ";" 13]

/-- An `if` that could still take an `else`, and then a declaration that only a trial tells
from a comparison. -/
theorem statements_concatenate_conditionalCall_genericVariable :
    ∃ parse parse' block block', StandsInMethod {} "if (a) b();" parse block ∧
      StandsInMethod {} "List<T> c = d;" parse' block' ∧
      block.between.map Element.nodeKind? = [some .ifStatement] ∧
      block'.between.map Element.nodeKind? = [some .localVariableDeclarationStatement] ∧
      ∃ joined whole, StandsInMethod {} ("if (a) b();" ++ "\n" ++ "List<T> c = d;") joined whole ∧
        whole.between = block.between ++
          block'.between.map (Element.moved ("if (a) b();".utf8ByteSize + 1)) := by
  have lexed : Token.lex "if (a) b();" = .ok (conditionalCall ++ [.endMark 11]) := by
    simp only [conditionalCall, List.cons_append, List.nil_append]
    cbv
  have lexed' : Token.lex "List<T> c = d;" = .ok (genericVariable ++ [.endMark 14]) := by
    simp only [genericVariable, List.cons_append, List.nil_append]
    cbv
  obtain ⟨block, stands, kinds⟩ := StandsInMethod.exists_of_tokens {} lexed
    [some .ifStatement] rfl (by decide +kernel) (by decide +kernel)
  obtain ⟨block', stands', kinds'⟩ := StandsInMethod.exists_of_tokens {} lexed'
    [some .localVariableDeclarationStatement] rfl (by decide +kernel) (by decide +kernel)
  exact ⟨_, _, block, block', stands, stands', kinds, kinds',
    statements_concatenate stands stands'⟩

end JavaSyntax
