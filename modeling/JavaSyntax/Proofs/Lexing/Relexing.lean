import JavaSyntax.Source
import JavaSyntax.Tree.Text
import JavaSyntax.Proofs.Lexing.Tiling
import JavaSyntax.Proofs.Lossless

/-!
# The text of a tree lexes again

The text of a tree is the texts of its tokens with spaces between them.  A space ends every
token, so the text of a parsed tree lexes to the tokens of the source, in kind and in text,
however damaged the tree is.
-/

namespace JavaSyntax

namespace Token

open Lexeme

/-- The kind and the text of a token, without its place. -/
def spelling (token : Token) : TokenKind × String :=
  (token.kind, token.text)

/-- The texts of some tokens, each with a space before it. -/
def spaced (tokens : List Token) : List Char :=
  tokens.flatMap fun token => ' ' :: token.text.toList

theorem cut_spaced (rest : List Char) (tokens : List Token) : Cut rest (spaced tokens) := by
  refine .here ?_
  cases tokens <;> rfl

/-- Tokens with a space before each lex to themselves. -/
theorem exists_lexFrom_spaced {tokens : List Token}
    (told : ∀ token ∈ tokens, ∃ rest, Told token.kind token.text.toList rest)
    (before : List Token) (offset : Nat) :
    ∃ again, lexFrom before offset (spaced tokens) = .ok (before.reverse ++ again) ∧
      again.map spelling = tokens.map spelling ++ [(.eof, "")] := by
  induction tokens generalizing before offset with
  | nil => exact ⟨[endMark offset], by simp [spaced, lexFrom], rfl⟩
  | cons first tokens ih =>
      obtain ⟨rest, firstTold⟩ := told first List.mem_cons_self
      have others : ∀ token ∈ tokens, ∃ rest, Told token.kind token.text.toList rest :=
        fun token member => told token (List.mem_cons_of_mem _ member)
      have scanned := firstTold.again (cut_spaced rest tokens)
      have start : isBlank ' ' = true := rfl
      have step : lexFrom before offset (spaced (first :: tokens)) =
          lexFrom (written first.kind first.text (offset + 1) :: before)
            (offset + 1 + byteLength first.text.toList) (spaced tokens) := by
        have spelled := lexFrom_token firstTold.filled scanned before (offset + 1)
        rw [String.ofList_toList] at spelled
        rw [← spelled, ← lexFrom_blank start]
        rfl
      obtain ⟨again, read, same⟩ := ih others (written first.kind first.text (offset + 1) :: before)
        (offset + 1 + byteLength first.text.toList)
      refine ⟨written first.kind first.text (offset + 1) :: again, ?_, ?_⟩
      · rw [step, read]
        simp
      · simp [same, spelling, written]

end Token

namespace Node

open Token

/-- Words after the first one have a space before them. -/
theorem toList_foldl_appendWord (tokens : List Token) {text : String} (filled : text ≠ "") :
    (tokens.foldl (fun text token => appendWord text token.text) text).toList =
      text.toList ++ spaced tokens := by
  induction tokens generalizing text with
  | nil => simp [spaced]
  | cons first tokens ih =>
      have word : appendWord text first.text = text ++ " " ++ first.text := by
        simp [appendWord, String.isEmpty_iff, filled]
      have further : text ++ " " ++ first.text ≠ "" := by
        intro empty
        simpa using congrArg String.toList empty
      rw [List.foldl_cons, word, ih further]
      simp [spaced]

/-- The text of a tree is the texts of its tokens with spaces between them. -/
theorem cons_toList_text {node : Node} {first : Token} {tokens : List Token}
    (held : node.tokens.filter (·.kind != .eof) = first :: tokens) (filled : first.text ≠ "") :
    ' ' :: node.text.toList = spaced (first :: tokens) := by
  have word : appendWord "" first.text = first.text := by simp [appendWord]
  rw [text, held, List.foldl_cons, word, toList_foldl_appendWord tokens filled]
  simp [spaced]

/-- The text of a tree lexes to some tokens, in kind and in text. -/
def Relexes (tokens : List Token) (node : Node) : Prop :=
  ∃ again, lex node.text = .ok again ∧ again.map spelling = tokens.map spelling

theorem relexes_of_split {source : List Char} {tokens : List Token} {node : Node}
    (split : Split 0 source tokens) (held : node.tokens = tokens) : node.Relexes tokens := by
  obtain ⟨own, rfl, told⟩ := split.told
  have kept : node.tokens.filter (·.kind != .eof) = own := by
    rw [held, List.filter_append, List.filter_eq_self.mpr]
    · simp [endMark]
    · intro token member
      obtain ⟨rest, told⟩ := told token member
      simpa using told.spelled.written
  cases own with
  | nil => exact ⟨[endMark 0], by simp [text, kept, lex, lexFrom], rfl⟩
  | cons first own =>
      obtain ⟨rest, firstTold⟩ := told first List.mem_cons_self
      have filled : first.text ≠ "" := fun empty => firstTold.filled (by simp [empty])
      have start : Lexeme.isBlank ' ' = true := rfl
      obtain ⟨again, read, same⟩ := exists_lexFrom_spaced told [] 0
      rw [← cons_toList_text kept filled, lexFrom_blank start, lexFrom_eq_resumed] at read
      rw [Relexes, lex]
      cases lexed : lexFrom [] 0 node.text.toList with
      | error error => simp [lexed, resumed] at read
      | ok found =>
          simp only [lexed, resumed, Except.ok.injEq, List.reverse_nil, List.nil_append] at read
          refine ⟨found, rfl, ?_⟩
          calc found.map spelling = (found.map (moved (0 + 1))).map spelling := by
                rw [List.map_map]
                rfl
            _ = ((first :: own) ++ [endMark (0 + byteLength source)]).map spelling := by
                rw [read, same, List.map_append]
                rfl

end Node

/-- The tokens of a source are closed as they are. -/
theorem Token.closed_of_split {source : List Char} {tokens : List Token}
    (split : Token.Split 0 source tokens) : Token.closed tokens = tokens := by
  obtain ⟨own, rfl, told⟩ := split.told
  refine Token.closedFrom_append_endMark 0 own _ [] ?_ rfl
  intro token member
  obtain ⟨rest, told⟩ := told token member
  exact told.spelled.written

/-- The root of every parse of a source lexes to the tokens of the source, however damaged
it is. -/
theorem text_relexes {source : String} {tokens : List Token}
    (read : Token.lex source = .ok tokens) (config : Config) :
    (∃ parse, parseUnit source config = .ok parse ∧ parse.root.Relexes tokens) ∧
      (∃ parse, parseExpression source config = .ok parse ∧ parse.root.Relexes tokens) ∧
        ∀ root, parseStrict source = .ok root → root.Relexes tokens := by
  obtain ⟨_, rfl, split⟩ := Token.exists_split read
  have closed := Token.closed_of_split split
  have unit (config : Config) : ∃ parse, parseUnit source config = .ok parse ∧
      parse.root.Relexes tokens := by
    refine ⟨(Session.start tokens config).parseUnit.1, by rw [parseUnit, read]; rfl, ?_⟩
    refine Node.relexes_of_split split ((Session.tokens_parseWith tokens config .compilationUnit
      (fun context state => state.readUnit context) ?_ ?_).trans closed)
    · exact State.readUnit_lossless _
    · exact State.readUnit_atEnd _
  refine ⟨unit config, ⟨(Session.start tokens config).parseExpression.1,
    by rw [parseExpression, read]; rfl, ?_⟩, ?_⟩
  · refine Node.relexes_of_split split ((Session.tokens_parseWith tokens config .expressionRoot
      (fun context state => state.readExpression context) ?_ ?_).trans closed)
    · exact State.readExpression_lossless []
    · exact State.readExpression_atEnd _
  · intro root parsed
    obtain ⟨parse, isParse, relexes⟩ := unit .strict
    simp only [parseStrict, isParse, Parse.toExcept] at parsed
    cases errors : parse.errors with
    | nil =>
        simp only [errors] at parsed
        cases parsed
        exact relexes
    | cons first rest => simp [errors] at parsed

/-- Angle brackets that touch, in a text that is no expression. -/
theorem text_relexes_brackets :
    Token.lex "(>>// 1" =
        .ok [.written .lParen "(" 0, .written .gt ">" 1, .written .gt ">" 2, .endMark 7] ∧
      ∃ parse, parseExpression "(>>// 1" {} = .ok parse ∧ parse.errors ≠ [] ∧ parse.root.Relexes
        [.written .lParen "(" 0, .written .gt ">" 1, .written .gt ">" 2, .endMark 7] := by
  have read : Token.lex "(>>// 1" =
      .ok [.written .lParen "(" 0, .written .gt ">" 1, .written .gt ">" 2, .endMark 7] := by
    cbv
  obtain ⟨parse, isParse, relexes⟩ := (text_relexes read {}).2.1
  refine ⟨read, parse, isParse, ?_, relexes⟩
  rw [parseExpression, read] at isParse
  rw [← Except.ok.inj isParse]
  decide +kernel

end JavaSyntax
