import JavaSyntax.Proofs.Lexing.Splitting

/-!
# Tokens tile their source

The tokens of a source text stand in it where their spans say, in order, and what is left
between them is trivia.  A token of a fixed kind is spelled as its kind is, a name is never
spelled as a keyword is, and angle brackets are never fused.
-/

namespace JavaSyntax

/-! ## Trivia -/

namespace Lexeme

open Token

/-- Text between tokens, and the text after it: blanks, line comments that go on to the end
of the line, and closed block comments. -/
inductive Trivia : List Char → List Char → Prop where
  | nil {after : List Char} : Trivia [] after
  | blank {first : Char} {gap after : List Char} :
      isBlank first = true → Trivia gap after → Trivia (first :: gap) after
  | line {inside gap after : List Char} :
      OneLine inside → (gap ++ after).head?.all endsLine = true → Trivia gap after →
        Trivia (lineComment inside ++ gap) after
  | block {inner gap after : List Char} :
      ¬['*', '/'] <:+: inner → Trivia gap after → Trivia (blockComment inner ++ gap) after

/-! ## Spellings -/

/-- What the text of a token may be, by its kind. -/
structure Spelled (kind : TokenKind) (text : String) : Prop where
  written : kind ≠ .eof
  fixed : kind.isFixed = true → text = kind.describe
  name : kind = .identifier → ∀ keyword : TokenKind, keyword.isKeyword = true →
    text ≠ keyword.describe
  unfused : text ∉ ["<<", ">>", ">>>"]

/-- A text that starts with no angle bracket is not made of them. -/
theorem unfused_of_head {first : Char} {rest : List Char}
    (plain : first ≠ '<' ∧ first ≠ '>') :
    String.ofList (first :: rest) ∉ ["<<", ">>", ">>>"] := by
  intro member
  have angled : (String.ofList (first :: rest)).toList.head?.all
      (fun character => character == '<' || character == '>') = true := by
    revert member
    generalize String.ofList (first :: rest) = text
    intro member
    simp only [List.mem_cons, List.not_mem_nil, or_false] at member
    obtain rfl | rfl | rfl := member <;> decide
  simp [plain] at angled

/-- A literal is spelled in any way that makes no angle brackets. -/
theorem Spelled.of_literal {kind : TokenKind} {text : String}
    (literal : kind ∈ [TokenKind.integerLiteral, .floatingPointLiteral, .characterLiteral,
      .stringLiteral]) (unfused : text ∉ ["<<", ">>", ">>>"]) : Spelled kind text := by
  simp only [List.mem_cons, List.not_mem_nil, or_false] at literal
  obtain rfl | rfl | rfl | rfl := literal <;>
    exact ⟨by decide, fun fixed => (by cases fixed), fun name => (by cases name), unfused⟩

theorem Spelled.of_word {text : String} {kind : TokenKind}
    (kinded : (Word.raw text).kind? = some kind) (unfused : text ∉ ["<<", ">>", ">>>"]) :
    Spelled kind text := by
  obtain ⟨keyword, kinded', isKeyword, spelled⟩ | ⟨name, others⟩ := Word.raw_cases text
  · obtain rfl : keyword = kind := Option.some.inj (kinded'.symm.trans kinded)
    refine ⟨?_, fun _ => spelled, ?_, unfused⟩
    · rintro rfl
      cases isKeyword
    · rintro rfl
      cases isKeyword
  · rw [name] at kinded
    cases kinded
    exact ⟨by decide, fun fixed => (by cases fixed), fun _ => others, unfused⟩

/-- Symbols are spelled as they are described, and never as fused angle brackets. -/
theorem spelled_describe : ∀ kind ∈ TokenKind.symbols, Spelled kind kind.describe := by
  have checked : ∀ kind ∈ TokenKind.symbols, kind ≠ .eof ∧ kind ≠ .identifier ∧
      kind.describe ∉ ["<<", ">>", ">>>"] := by
    decide
  intro kind isSymbol
  obtain ⟨written, nameless, unfused⟩ := checked kind isSymbol
  exact ⟨written, fun _ => rfl, fun name => absurd name nameless, unfused⟩

theorem Spelled.of_symbol {piece : List Char} {raw : RawToken} {kind : TokenKind}
    (found : Symbol.ofLength? piece piece.length = some raw) (kinded : raw.kind? = some kind) :
    Spelled kind (String.ofList piece) := by
  obtain ⟨symbol, isSymbol, kinded', sized, starts⟩ := Symbol.exists_kind_of_ofLength? found
  obtain rfl : symbol = kind := Option.some.inj (kinded'.symm.trans kinded)
  rw [← starts.eq_of_length sized, String.ofList_toList]
  exact spelled_describe symbol isSymbol

/-- Whatever is read as a token is spelled as its kind asks. -/
theorem Told.spelled {kind : TokenKind} {text : String} {rest : List Char}
    (told : Told kind text.toList rest) : Spelled kind text := by
  obtain ⟨piece, rfl⟩ : ∃ piece, text = String.ofList piece := ⟨_, String.ofList_toList.symm⟩
  rw [String.toList_ofList] at told
  have scanned := told.scan_eq
  obtain ⟨first, text, rfl⟩ := List.exists_cons_of_ne_nil told.filled
  rcases token_cases scanned with ⟨rfl, read⟩ | ⟨rfl, read⟩ |
    ⟨-, -, ⟨start, read⟩ | ⟨-, digit, read⟩ | ⟨-, -, read⟩⟩
  · simp only [string] at read
    split at read
    · cases read
      exact .of_literal (by simp) (unfused_of_head (by decide))
    · cases read
  · simp only [character] at read
    split at read
    · cases read
      exact .of_literal (by simp) (unfused_of_head (by decide))
    · cases read
  · obtain ⟨kinded, sized⟩ := ofRaw_eq_token_iff.mp read
    rw [sized, List.take_length] at kinded
    refine .of_word kinded (unfused_of_head ?_)
    constructor <;> rintro rfl <;> revert start <;> decide
  · simp only [number] at read
    split at read
    · rename_i found literal _
      obtain ⟨kinded, -⟩ := ofRaw_eq_token_iff.mp read
      refine .of_literal ?_ (unfused_of_head ?_)
      · exact List.mem_append_left [TokenKind.characterLiteral, .stringLiteral]
          (RawToken.kind_of_number kinded)
      constructor <;> rintro rfl <;> cases digit
    · cases read
  · simp only [symbol] at read
    split at read
    · rename_i scanned'
      obtain ⟨kinded, rfl⟩ := ofRaw_eq_token_iff.mp read
      exact .of_symbol (Symbol.scan?_eq_some_iff.mp scanned').2.1 kinded
    · cases read

end Lexeme

namespace Token

open Lexeme

/-! ## Tokens with the trivia before them -/

/-- The text that stands at an offset is made of tokens and the trivia before each. -/
inductive Tiles : Nat → List Char → List Token → Prop where
  | ended (offset : Nat) {gap : List Char} :
      Trivia gap [] → Tiles offset gap [endMark (offset + byteLength gap)]
  | token {offset : Nat} {kind : TokenKind} {gap piece rest : List Char} {tokens : List Token} :
      Trivia gap (piece ++ rest) → Told kind piece rest →
        Tiles (offset + byteLength gap + byteLength piece) rest tokens →
          Tiles offset (gap ++ (piece ++ rest))
            (written kind (String.ofList piece) (offset + byteLength gap) :: tokens)

/-- Trivia in front of the trivia before the first token. -/
theorem Tiles.after {offset : Nat} {piece text : List Char} {tokens : List Token}
    (tiles : Tiles (offset + byteLength piece) text tokens)
    (joins : ∀ gap rest, text = gap ++ rest → Trivia gap rest → Trivia (piece ++ gap) rest) :
    Tiles offset (piece ++ text) tokens := by
  cases tiles with
  | ended _ trivia =>
      have whole := Tiles.ended offset (joins text [] (List.append_nil _).symm trivia)
      rwa [byteLength_append, ← Nat.add_assoc] at whole
  | @token _ kind gap piece' rest tokens trivia told tiles =>
      have whole := @Tiles.token offset kind (piece ++ gap) piece' rest tokens
        (joins gap _ rfl trivia) told
      rw [byteLength_append, ← Nat.add_assoc, List.append_assoc] at whole
      exact whole tiles

theorem Split.tiles {offset : Nat} {text : List Char} {tokens : List Token}
    (split : Split offset text tokens) : Tiles offset text tokens := by
  induction split with
  | ended offset => exact .ended offset .nil
  | @blank offset first rest tokens blank _ ih =>
      have size : byteLength [first] = 1 := by
        rw [byteLength_cons, utf8Size_of_isBlank first blank]
        rfl
      exact (Tiles.after (size ▸ ih) fun gap rest _ trivia => .blank blank trivia :
        Tiles offset ([first] ++ rest) tokens)
  | line line ended _ ih =>
      exact ih.after fun gap rest same trivia => .line line (same ▸ ended) trivia
  | block first _ ih => exact ih.after fun gap rest _ trivia => .block first trivia
  | token told _ ih => exact .token .nil told ih

/-! ## The law -/

/-- Some text of the source, with what stands before and after it, and its place. -/
structure Slice (source before text after : String) (start stop : Nat) : Prop where
  whole : source = before ++ text ++ after
  starts : before.utf8ByteSize = start
  stops : (before ++ text).utf8ByteSize = stop

theorem slice_of_toList {source : String} (before text after : List Char)
    (whole : source.toList = before ++ (text ++ after)) :
    Slice source (String.ofList before) (String.ofList text) (String.ofList after)
      (byteLength before) (byteLength before + byteLength text) where
  whole := by
    rw [← String.toList_inj]
    simpa using whole
  starts := (byteLength_eq before).symm
  stops := by rw [String.utf8ByteSize_append, byteLength_eq, byteLength_eq]

/-- The places before the first token and between any two that follow each other. -/
def gaps (tokens : List Token) : List (Nat × Nat) :=
  (0 :: tokens.map stop).zip (tokens.map start)

/-- The tokens of a source text cover it, but for trivia. -/
structure Tiling (source : String) (tokens : List Token) : Prop where
  /-- Tokens stand in order and do not overlap. -/
  ordered : tokens.Pairwise fun earlier later => earlier.stop ≤ later.start
  /-- The last token, and no other, is the end mark; no other token is empty. -/
  ended : ∃ own, tokens = own ++ [endMark source.utf8ByteSize] ∧
    ∀ token ∈ own, token.kind ≠ .eof ∧ token.text ≠ ""
  /-- Each token's text stands where its span says. -/
  texts : ∀ token ∈ tokens, ∃ before after,
    Slice source before token.text after token.start token.stop
  /-- Between tokens there is nothing but trivia. -/
  gaps : ∀ place ∈ gaps tokens, ∃ before gap after,
    Slice source before gap after place.1 place.2 ∧ Trivia gap.toList after.toList
  /-- Keywords, separators and operators are spelled as they are described. -/
  fixed : ∀ token ∈ tokens, token.kind.isFixed = true → token.text = token.kind.describe
  /-- No name is a keyword. -/
  names : ∀ token ∈ tokens, token.kind = .identifier →
    ∀ keyword : TokenKind, keyword.isKeyword = true → token.text ≠ keyword.describe
  /-- Angle brackets are not fused. -/
  unfused : ∀ token ∈ tokens, token.text ∉ ["<<", ">>", ">>>"]

/-- What holds of the tokens of a text and of its end mark. -/
theorem forall_mem_append_endMark {motive : Token → Prop} {own : List Token} {size : Nat}
    (others : ∀ token ∈ own, motive token) (mark : motive (endMark size)) :
    ∀ token ∈ own ++ [endMark size], motive token := by
  intro token member
  rcases List.mem_append.mp member with inside | last
  · exact others token inside
  · rwa [List.mem_singleton.mp last]

/-- Tokens stand in the source where their spans say. -/
theorem Tiles.texts {source : String} {offset : Nat} {earlier text : List Char}
    {tokens : List Token} (tiles : Tiles offset text tokens)
    (whole : source.toList = earlier ++ text) (start : byteLength earlier = offset) :
    ∀ token ∈ tokens, ∃ before after,
      Slice source before token.text after token.start token.stop := by
  induction tiles generalizing earlier with
  | @ended offset gap trivia =>
      intro token member
      rw [List.mem_singleton.mp member, ← start, ← byteLength_append]
      exact ⟨_, _, slice_of_toList (earlier ++ gap) [] [] (by simpa using whole)⟩
  | @token offset kind gap piece rest tokens _ _ _ ih =>
      rintro token (_ | ⟨_, member⟩)
      · have stands := slice_of_toList (earlier ++ gap) piece rest (by simpa using whole)
        rw [byteLength_append, start, byteLength_eq piece] at stands
        exact ⟨_, _, stands⟩
      · have whole' : source.toList = earlier ++ (gap ++ piece) ++ rest := by simpa using whole
        refine ih whole' ?_ token member
        rw [byteLength_append, byteLength_append, start, Nat.add_assoc]

/-- What is left between tokens is trivia. -/
theorem Tiles.gaps {source : String} {offset : Nat} {earlier text : List Char}
    {tokens : List Token} (tiles : Tiles offset text tokens)
    (whole : source.toList = earlier ++ text) (start : byteLength earlier = offset) :
    ∀ place ∈ (offset :: tokens.map stop).zip (tokens.map Token.start), ∃ before gap after,
      Slice source before gap after place.1 place.2 ∧ Trivia gap.toList after.toList := by
  induction tiles generalizing earlier with
  | @ended offset gap trivia =>
      intro place member
      obtain rfl : place = (offset, offset + byteLength gap) := by
        simpa [Token.start, endMark, Span.point] using member
      rw [← start]
      exact ⟨_, _, _, slice_of_toList earlier gap [] (by simpa using whole), by simpa using trivia⟩
  | @token offset kind gap piece rest tokens trivia _ _ ih =>
      rintro place (_ | ⟨_, member⟩)
      · rw [← start]
        exact ⟨_, _, _, slice_of_toList earlier gap _ whole, by simpa using trivia⟩
      · have stops : (written kind (String.ofList piece) (offset + byteLength gap)).stop =
            offset + byteLength gap + byteLength piece := by
          rw [byteLength_eq piece]
          rfl
        have whole' : source.toList = earlier ++ (gap ++ piece) ++ rest := by simpa using whole
        refine ih whole' ?_ place ?_
        · rw [byteLength_append, byteLength_append, start, Nat.add_assoc]
        · rwa [← stops]

/-- The tokens of a source text tile it. -/
theorem lex_tiling {source : String} {tokens : List Token} (read : lex source = .ok tokens) :
    Tiling source tokens := by
  obtain ⟨later, rfl, split⟩ := exists_split read
  have tiles := split.tiles
  obtain ⟨own, rfl, told⟩ := split.told
  have spelled : ∀ token ∈ own, Spelled token.kind token.text ∧ token.text ≠ "" := by
    intro token member
    obtain ⟨rest, told⟩ := told token member
    exact ⟨told.spelled, fun empty => told.filled (by simp [empty])⟩
  have whole : source.toList = [] ++ source.toList := rfl
  refine ⟨(lex_apart read).1, ⟨own, ?_, fun token member => ?_⟩, tiles.texts whole rfl,
    tiles.gaps whole rfl, forall_mem_append_endMark ?_ ?_, forall_mem_append_endMark ?_ ?_,
    forall_mem_append_endMark ?_ ?_⟩
  · rw [Nat.zero_add, byteLength_eq, String.ofList_toList]
  · exact ⟨(spelled token member).1.written, (spelled token member).2⟩
  · exact fun token member => (spelled token member).1.fixed
  · exact fun fixed => (by cases fixed)
  · exact fun token member => (spelled token member).1.name
  · exact fun name => (by cases name)
  · exact fun token member => (spelled token member).1.unfused
  · exact (by decide : "" ∉ ["<<", ">>", ">>>"])

/-- Two angle brackets that touch, between comments. -/
theorem lex_tiling_bracketsBetweenComments :
    lex "/**/>>>=>>// 1" =
        .ok [written .ushrAssign ">>>=" 4, written .gt ">" 8, written .gt ">" 9, endMark 14] ∧
      Tiling "/**/>>>=>>// 1"
        [written .ushrAssign ">>>=" 4, written .gt ">" 8, written .gt ">" 9, endMark 14] := by
  have read : lex "/**/>>>=>>// 1" =
      .ok [written .ushrAssign ">>>=" 4, written .gt ">" 8, written .gt ">" 9, endMark 14] := by
    cbv
  exact ⟨read, lex_tiling read⟩

end Token

end JavaSyntax
