import JavaSyntax.Proofs.Lexing.Splitting

/-!
# Lexing two texts in one

Two texts with a line end between them lex to the tokens of the first one, without its end
mark, and then those of the second one, farther to the right.  A space does as well, unless
the first text ends inside a line comment.  If the second text does not lex, the error moves
with it.
-/

namespace JavaSyntax.Token

open Lexeme

/-! ## Texts that end inside a line comment -/

/-- Whether a text lexes at all. -/
def Lexes (text : List Char) : Prop :=
  ∃ tokens, lexFrom [] 0 text = .ok tokens

theorem lexes_iff (before : List Token) (offset : Nat) (text : List Char) :
    Lexes text ↔ ∃ tokens, lexFrom before offset text = .ok tokens := by
  rw [lexFrom_eq_resumed before offset text, Lexes]
  cases lexFrom [] 0 text <;> simp [resumed]

/-- What is read off the front of a text has no influence on whether the text lexes. -/
theorem Lexes.of_eq {text rest : List Char} {before : List Token} {offset : Nat}
    (lexes : Lexes rest) (step : lexFrom [] 0 text = lexFrom before offset rest) : Lexes text := by
  rw [Lexes, step]
  exact (lexes_iff before offset rest).mp lexes

/-! What stands in front of a text may stand in front of any part of it that lexes. -/

theorem Lexes.blank {first : Char} {front : List Char} (blank : isBlank first = true)
    (lexes : Lexes front) : Lexes (first :: front) :=
  lexes.of_eq (lexFrom_blank blank [] 0 front)

theorem Lexes.line {inside rest front : List Char} (line : OneLine inside)
    (ended : rest.head?.all endsLine = true) (part : front <+: rest) (lexes : Lexes front) :
    Lexes (lineComment inside ++ front) := by
  refine lexes.of_eq (lexFrom_line line ?_ [] 0)
  obtain ⟨behind, rfl⟩ := part
  cases front with
  | nil => rfl
  | cons first front => exact ended

theorem Lexes.block {inner front : List Char} (first : ¬['*', '/'] <:+: inner)
    (lexes : Lexes front) : Lexes (blockComment inner ++ front) :=
  lexes.of_eq (lexFrom_block first front [] 0)

theorem Lexes.token {kind : TokenKind} {piece rest front : List Char}
    (told : Told kind piece rest) (part : front <+: rest) (lexes : Lexes front) :
    Lexes (piece ++ front) := by
  obtain ⟨behind, rfl⟩ := part
  have cut : Cut (front ++ behind) front := by
    simpa using (Cut.here rfl : Cut behind []).append front
  exact lexes.of_eq (lexFrom_token told.filled (told.again cut) [] 0)

/-- Behind a part that lexes, a line comment reaches to the end. -/
def OpenLine (text : List Char) : Prop :=
  ∃ front inside, text = front ++ lineComment inside ∧ OneLine inside ∧ Lexes front

theorem OpenLine.append {piece rest : List Char} (open' : OpenLine rest)
    (lexes : ∀ front, front <+: rest → Lexes front → Lexes (piece ++ front)) :
    OpenLine (piece ++ rest) := by
  obtain ⟨front, inside, rfl, line, read⟩ := open'
  exact ⟨piece ++ front, inside, (List.append_assoc ..).symm, line,
    lexes front (List.prefix_append ..) read⟩

theorem OpenLine.blank {first : Char} {rest : List Char} (blank : isBlank first = true)
    (open' : OpenLine rest) : OpenLine (first :: rest) :=
  (open'.append fun _ _ lexes => lexes.blank blank : OpenLine ([first] ++ rest))

theorem OpenLine.line {inside rest : List Char} (line : OneLine inside)
    (ended : rest.head?.all endsLine = true) (open' : OpenLine rest) :
    OpenLine (lineComment inside ++ rest) :=
  open'.append fun _ part lexes => lexes.line line ended part

theorem OpenLine.block {inner rest : List Char} (first : ¬['*', '/'] <:+: inner)
    (open' : OpenLine rest) : OpenLine (blockComment inner ++ rest) :=
  open'.append fun _ _ lexes => lexes.block first

theorem OpenLine.token {kind : TokenKind} {piece rest : List Char} (told : Told kind piece rest)
    (open' : OpenLine rest) : OpenLine (piece ++ rest) :=
  open'.append fun _ part lexes => lexes.token told part

/-! ## What separates two texts -/

/-- A blank that ends whatever stands before it: a line end, or a space that no line comment
takes up. -/
def Parts (mark : Char) (text : List Char) : Prop :=
  mark = '\n' ∨ mark = ' ' ∧ ¬OpenLine text

theorem Parts.isBlank {mark : Char} {text : List Char} (parts : Parts mark text) :
    isBlank mark = true := by
  obtain rfl | ⟨rfl, -⟩ := parts <;> rfl

theorem Parts.mono {mark : Char} {text rest : List Char} (parts : Parts mark text)
    (opens : OpenLine rest → OpenLine text) : Parts mark rest :=
  parts.imp_right fun ⟨space, closed⟩ => ⟨space, closed ∘ opens⟩

/-- A line comment goes no farther than it did, when a text is added behind it. -/
theorem Parts.endsLine {mark : Char} {inside rest : List Char}
    (parts : Parts mark (lineComment inside ++ rest)) (line : OneLine inside)
    (ended : rest.head?.all endsLine = true) (second : List Char) :
    (rest ++ mark :: second).head?.all endsLine = true := by
  cases rest with
  | cons first rest => exact ended
  | nil =>
      obtain rfl | ⟨rfl, closed⟩ := parts
      · rfl
      · exact absurd ⟨[], inside, List.append_nil _, line, _, lexFrom.eq_1 [] 0⟩ closed

/-- The tokens of a text are read off its front, when a text is added behind it. -/
theorem Split.lexFrom_append {offset : Nat} {text : List Char} {tokens : List Token} {mark : Char}
    (split : Split offset text tokens) (parts : Parts mark text) (second : List Char) :
    ∃ own, tokens = own ++ [endMark (offset + byteLength text)] ∧ ∀ before,
      lexFrom before offset (text ++ mark :: second) =
        lexFrom (own.reverse ++ before) (offset + byteLength text + 1) second := by
  induction split with
  | ended offset =>
      refine ⟨[], rfl, fun before => ?_⟩
      exact lexFrom_blank parts.isBlank before offset second
  | @blank offset first rest tokens blank _ ih =>
      obtain ⟨own, rfl, read⟩ := ih (parts.mono (OpenLine.blank blank))
      have size : offset + byteLength (first :: rest) = offset + 1 + byteLength rest := by
        rw [byteLength_cons, utf8Size_of_isBlank first blank, Nat.add_assoc]
      refine ⟨own, by rw [size], fun before => ?_⟩
      rw [List.cons_append, lexFrom_blank blank, read, size]
  | line line ended _ ih =>
      obtain ⟨own, rfl, read⟩ := ih (parts.mono (OpenLine.line line ended))
      refine ⟨own, by rw [byteLength_append, Nat.add_assoc], fun before => ?_⟩
      rw [List.append_assoc, lexFrom_line line (parts.endsLine line ended second), read,
        byteLength_append, ← Nat.add_assoc]
  | block first _ ih =>
      obtain ⟨own, rfl, read⟩ := ih (parts.mono (OpenLine.block first))
      refine ⟨own, by rw [byteLength_append, Nat.add_assoc], fun before => ?_⟩
      rw [List.append_assoc, lexFrom_block first, read, byteLength_append, ← Nat.add_assoc]
  | @token offset kind piece rest tokens told _ ih =>
      obtain ⟨own, rfl, read⟩ := ih (parts.mono (OpenLine.token told))
      have cut : Cut rest (rest ++ mark :: second) := by
        simpa using (Cut.here parts.isBlank : Cut [] (mark :: second)).append rest
      refine ⟨written kind (String.ofList piece) offset :: own, ?_, fun before => ?_⟩
      · rw [byteLength_append, Nat.add_assoc, List.cons_append]
      · rw [List.append_assoc, lexFrom_token told.filled (told.again cut), read,
          byteLength_append, ← Nat.add_assoc]
        simp

/-! ## Source texts -/

/-- Whether a text ends inside a line comment: some part of it lexes, and behind that stand
two slashes and no line end. -/
def EndsInLineComment (text : String) : Prop :=
  ∃ front inside, text = front ++ "//" ++ inside ∧ OneLine inside.toList ∧
    ∃ tokens, lex front = .ok tokens

theorem endsInLineComment_of_openLine {text : String} (open' : OpenLine text.toList) :
    EndsInLineComment text := by
  obtain ⟨front, inside, same, line, tokens, read⟩ := open'
  refine ⟨String.ofList front, String.ofList inside, ?_, by simpa using line, tokens, ?_⟩
  · rw [← String.toList_inj]
    simpa [lineComment] using same
  · simpa [lex] using read

/-- Lexing is compositional: a line end, or a space outside of line comments, keeps the tokens
of two texts apart. -/
theorem lex_append {first second : String} {mark : Char} {tokens : List Token}
    (separates : mark = '\n' ∨ mark = ' ' ∧ ¬EndsInLineComment first)
    (read : lex first = .ok tokens) :
    ∃ own, tokens = own ++ [endMark first.utf8ByteSize] ∧
      lex (first ++ String.singleton mark ++ second) =
        match lex second with
        | .ok others =>
            .ok (own ++ others.map (moved (first ++ String.singleton mark).utf8ByteSize))
        | .error error => .error (error.moved (first ++ String.singleton mark).utf8ByteSize) := by
  have parts : Parts mark first.toList :=
    separates.imp_right fun ⟨space, closed⟩ => ⟨space, closed ∘ endsInLineComment_of_openLine⟩
  obtain ⟨later, rfl, split⟩ := exists_split read
  obtain ⟨own, rfl, further⟩ := split.lexFrom_append parts second.toList
  have size : byteLength first.toList = first.utf8ByteSize := by
    rw [byteLength_eq, String.ofList_toList]
  have step : (first ++ String.singleton mark).utf8ByteSize = first.utf8ByteSize + 1 := by
    rw [String.utf8ByteSize_append, String.utf8ByteSize_singleton,
      utf8Size_of_isBlank mark parts.isBlank]
  have spelled : (first ++ String.singleton mark ++ second).toList =
      first.toList ++ mark :: second.toList := by
    simp
  refine ⟨own, by simp [size], ?_⟩
  rw [lex, spelled, further [], lexFrom_eq_resumed, step, size, Nat.zero_add]
  rw [← lex.eq_1 second]
  cases lex second with
  | ok others => simp [resumed]
  | error error => rfl

/-- A number and two angle brackets before a space, and an open comment in the text behind. -/
theorem lex_append_bracketsBeforeOpenComment :
    lex "0x1.8p3 >>" = .ok
        [written .floatingPointLiteral "0x1.8p3" 0, written .gt ">" 8, written .gt ">" 9,
          endMark 10] ∧
      lex "0x1.8p3 >> >= /*" = .error ⟨.openComment, ⟨14, 2⟩⟩ := by
  have read : lex "0x1.8p3 >>" = .ok
      [written .floatingPointLiteral "0x1.8p3" 0, written .gt ">" 8, written .gt ">" 9,
        endMark 10] := by
    cbv
  refine ⟨read, ?_⟩
  have closed : ¬EndsInLineComment "0x1.8p3 >>" := by
    rintro ⟨front, inside, same, -⟩
    have slash : '/' ∈ "0x1.8p3 >>".toList := by
      rw [same]
      simp
    revert slash
    decide
  obtain ⟨own, -, together⟩ := @lex_append _ ">= /*" _ _ (.inr ⟨rfl, closed⟩) read
  have other : lex ">= /*" = .error ⟨.openComment, ⟨3, 2⟩⟩ := by cbv
  rw [other] at together
  exact together

end JavaSyntax.Token
