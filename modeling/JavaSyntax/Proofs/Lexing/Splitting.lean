import JavaSyntax.Proofs.Lexing.Lexemes
import JavaSyntax.Proofs.Lexing.Order

/-!
# How a text is split

Lexing takes a text apart into blanks, comments and tokens.  `Split` says so without the
loop: a text is split into some tokens exactly when it lexes to them.  Where the text stands
only moves the tokens and the error, if there is one.
-/

namespace JavaSyntax

/-- A span farther to the right. -/
def Span.moved (distance : Nat) (span : Span) : Span :=
  ⟨span.offset + distance, span.length⟩

/-- A lexical error farther to the right. -/
def LexicalError.moved (distance : Nat) (error : LexicalError) : LexicalError :=
  ⟨error.fault, error.span.moved distance⟩

namespace Token

open Lexeme

/-- A token farther to the right. -/
def moved (distance : Nat) (token : Token) : Token :=
  ⟨token.kind, token.text, token.span.moved distance⟩

@[simp] theorem moved_written (distance : Nat) (kind : TokenKind) (text : String) (offset : Nat) :
    (written kind text offset).moved distance = written kind text (offset + distance) := rfl

@[simp] theorem moved_endMark (distance offset : Nat) :
    (endMark offset).moved distance = endMark (offset + distance) := rfl

/-! ## Steps of the loop -/

theorem lexFrom_token {piece rest : List Char} {kind : TokenKind} (filled : piece ≠ [])
    (scanned : scan (piece ++ rest) = .token kind piece.length) (before : List Token)
    (offset : Nat) :
    lexFrom before offset (piece ++ rest) =
      lexFrom (written kind (String.ofList piece) offset :: before)
        (offset + byteLength piece) rest := by
  obtain ⟨first, piece, rfl⟩ := List.exists_cons_of_ne_nil filled
  simp only [List.cons_append, List.length_cons] at scanned
  rw [List.cons_append, lexFrom, scanned, byteLength_eq]
  simp [Token.stop, Span.stop, written]

theorem lexFrom_trivia {piece rest : List Char} (filled : piece ≠ [])
    (scanned : scan (piece ++ rest) = .trivia piece.length) (before : List Token) (offset : Nat) :
    lexFrom before offset (piece ++ rest) = lexFrom before (offset + byteLength piece) rest := by
  obtain ⟨first, piece, rfl⟩ := List.exists_cons_of_ne_nil filled
  simp only [List.cons_append, List.length_cons] at scanned
  rw [List.cons_append, lexFrom, scanned]
  simp

theorem scan_blank {first : Char} (blank : isBlank first = true) (rest : List Char) :
    scan (first :: rest) = .trivia (blankLength (first :: rest)) := by
  have plain := forall_isBlank
    (motive := fun character => character ≠ '/' ∧ character ≠ '"' ∧ character ≠ '\'')
    (by decide) first blank
  rw [scan_of_ordinary ⟨fun _ slash => absurd slash plain.1, fun _ slash => absurd slash plain.1,
    plain.2.1, plain.2.2⟩, if_pos blank]

theorem byteLength_cons (first : Char) (rest : List Char) :
    byteLength (first :: rest) = first.utf8Size + byteLength rest := by
  rw [← List.singleton_append, byteLength_append]
  simp [byteLength]

theorem lexFrom_blanks (before : List Token) (offset : Nat) (text : List Char) :
    lexFrom before offset text =
      lexFrom before (offset + byteLength (text.takeWhile isBlank)) (text.dropWhile isBlank) := by
  cases text with
  | nil => rfl
  | cons first rest =>
      by_cases blank : isBlank first = true
      · have filled : (first :: rest).takeWhile isBlank ≠ [] := by simp [blank]
        have scanned : scan
            ((first :: rest).takeWhile isBlank ++ (first :: rest).dropWhile isBlank) =
            .trivia ((first :: rest).takeWhile isBlank).length := by
          rw [List.takeWhile_append_dropWhile]
          exact scan_blank blank rest
        have taken := lexFrom_trivia filled scanned before offset
        rwa [List.takeWhile_append_dropWhile] at taken
      · simp [blank, byteLength]

theorem utf8Size_of_isBlank : ∀ character, isBlank character = true → character.utf8Size = 1 :=
  forall_isBlank (by decide)

/-- Blanks are dropped one at a time. -/
theorem lexFrom_blank {first : Char} (blank : isBlank first = true) (before : List Token)
    (offset : Nat) (rest : List Char) :
    lexFrom before offset (first :: rest) = lexFrom before (offset + 1) rest := by
  rw [lexFrom_blanks, lexFrom_blanks before (offset + 1) rest, List.takeWhile_cons_of_pos blank,
    List.dropWhile_cons_of_pos blank, byteLength_cons, utf8Size_of_isBlank first blank,
    Nat.add_assoc]

/-- The text of a line comment, without the end of the line. -/
def lineComment (inside : List Char) : List Char :=
  '/' :: '/' :: inside

/-- The text of a closed block comment. -/
def blockComment (inner : List Char) : List Char :=
  '/' :: '*' :: inner ++ ['*', '/']

theorem lexFrom_line {inside rest : List Char} (line : OneLine inside)
    (ended : rest.head?.all endsLine = true) (before : List Token) (offset : Nat) :
    lexFrom before offset (lineComment inside ++ rest) =
      lexFrom before (offset + byteLength (lineComment inside)) rest := by
  refine lexFrom_trivia (by simp [lineComment]) ?_ before offset
  simp only [lineComment, List.cons_append, scan, lineLength_append line ended, List.length_cons]

theorem lexFrom_block {inner : List Char} (first : ¬['*', '/'] <:+: inner) (rest : List Char)
    (before : List Token) (offset : Nat) :
    lexFrom before offset (blockComment inner ++ rest) =
      lexFrom before (offset + byteLength (blockComment inner)) rest := by
  refine lexFrom_trivia (by simp [blockComment]) ?_ before offset
  have measured : commentLength? 2 (inner ++ '*' :: '/' :: rest) = some (2 + inner.length + 2) :=
    commentLength?_eq_some_iff.mpr ⟨inner, rest, rfl, first, rfl⟩
  simp only [blockComment, List.cons_append, List.append_assoc, List.nil_append, scan, comment,
    measured, ofRaw, RawToken.kind?]
  simp
  omega

/-! ## Moving a text -/

/-- What a text lexes to, farther to the right and after other tokens. -/
def resumed (before : List Token) (distance : Nat) :
    Except LexicalError (List Token) → Except LexicalError (List Token)
  | .ok tokens => .ok (before.reverse ++ tokens.map (moved distance))
  | .error error => .error (error.moved distance)

/-- Where a text stands and what was read before it has no influence on how it is read. -/
theorem lexFrom_resumed (before earlier : List Token) (distance offset : Nat) (text : List Char) :
    lexFrom (earlier.map (moved distance) ++ before) (offset + distance) text =
      resumed before distance (lexFrom earlier offset text) := by
  fun_induction lexFrom earlier offset text with
  | case1 earlier offset => simp [lexFrom, resumed]
  | case2 earlier offset first rest length scanned ih =>
      rw [lexFrom, scanned]
      simpa [Nat.add_right_comm] using ih
  | case3 earlier offset first rest kind length scanned token ih =>
      rw [lexFrom, scanned]
      simpa [token, stop, written, moved, Span.moved, Span.stop, Nat.add_right_comm] using ih
  | case4 earlier offset first rest fault length scanned =>
      rw [lexFrom, scanned]
      rfl

theorem lexFrom_eq_resumed (before : List Token) (offset : Nat) (text : List Char) :
    lexFrom before offset text = resumed before offset (lexFrom [] 0 text) := by
  simpa using lexFrom_resumed before [] offset 0 text

/-! ## The relation -/

/-- The text that stands at an offset is split into some tokens. -/
inductive Split : Nat → List Char → List Token → Prop where
  | ended (offset : Nat) : Split offset [] [endMark offset]
  | blank {offset : Nat} {first : Char} {rest : List Char} {tokens : List Token} :
      isBlank first = true → Split (offset + 1) rest tokens → Split offset (first :: rest) tokens
  | line {offset : Nat} {inside rest : List Char} {tokens : List Token} :
      OneLine inside → rest.head?.all endsLine = true →
        Split (offset + byteLength (lineComment inside)) rest tokens →
          Split offset (lineComment inside ++ rest) tokens
  | block {offset : Nat} {inner rest : List Char} {tokens : List Token} :
      ¬['*', '/'] <:+: inner → Split (offset + byteLength (blockComment inner)) rest tokens →
        Split offset (blockComment inner ++ rest) tokens
  | token {offset : Nat} {kind : TokenKind} {piece rest : List Char} {tokens : List Token} :
      Told kind piece rest → Split (offset + byteLength piece) rest tokens →
        Split offset (piece ++ rest) (written kind (String.ofList piece) offset :: tokens)

/-- The end mark ends the tokens of a text, and each token before it is told by its text. -/
theorem Split.told {offset : Nat} {text : List Char} {tokens : List Token}
    (split : Split offset text tokens) :
    ∃ own, tokens = own ++ [endMark (offset + byteLength text)] ∧
      ∀ token ∈ own, ∃ rest, Told token.kind token.text.toList rest := by
  induction split with
  | ended offset => exact ⟨[], rfl, by simp⟩
  | blank blank _ ih =>
      obtain ⟨own, rfl, told⟩ := ih
      exact ⟨own, by rw [byteLength_cons, utf8Size_of_isBlank _ blank, Nat.add_assoc], told⟩
  | line _ _ _ ih =>
      obtain ⟨own, rfl, told⟩ := ih
      exact ⟨own, by rw [byteLength_append, Nat.add_assoc], told⟩
  | block _ _ ih =>
      obtain ⟨own, rfl, told⟩ := ih
      exact ⟨own, by rw [byteLength_append, Nat.add_assoc], told⟩
  | @token offset kind piece rest tokens first _ ih =>
      obtain ⟨own, rfl, told⟩ := ih
      refine ⟨written kind (String.ofList piece) offset :: own, ?_, ?_⟩
      · rw [byteLength_append, Nat.add_assoc, List.cons_append]
      · rintro token (_ | ⟨_, member⟩)
        · exact ⟨rest, by simpa [written] using first⟩
        · exact told token member

/-- What stands at the front of a text: a blank, a comment, a token or a fault. -/
theorem front_cases (first : Char) (text : List Char) :
    isBlank first = true ∨
    (∃ inside rest, first :: text = lineComment inside ++ rest ∧ OneLine inside ∧
      rest.head?.all endsLine = true) ∨
    (∃ inner rest, first :: text = blockComment inner ++ rest ∧ ¬['*', '/'] <:+: inner) ∨
    (∃ kind piece rest, first :: text = piece ++ rest ∧ Told kind piece rest) ∨
    ∃ fault length, scan (first :: text) = .fault fault length := by
  by_cases blank : isBlank first = true
  · exact .inl blank
  refine .inr ?_
  cases scanned : scan (first :: text) with
  | token kind length =>
      obtain ⟨piece, rest, same, _, told⟩ := exists_told scanned
      exact .inr (.inr (.inl ⟨kind, piece, rest, same, told⟩))
  | fault fault length => exact .inr (.inr (.inr ⟨fault, length, rfl⟩))
  | trivia length =>
      rcases ordinary_cases first text with ⟨inside, rfl, rfl⟩ | ⟨inside, rfl, rfl⟩ | rfl | rfl |
        ordinary
      · refine .inl ⟨inside.takeWhile fun character => !endsLine character,
          inside.dropWhile fun character => !endsLine character, ?_, ?_, ?_⟩
        · simp only [lineComment, List.cons_append, List.takeWhile_append_dropWhile]
        · intro character member
          simpa using List.all_eq_true.mp List.all_takeWhile character member
        · have ended := any_head?_dropWhile (fun character => !endsLine character) inside
          cases starts : (inside.dropWhile fun character => !endsLine character).head? with
          | none => rfl
          | some next => simpa [starts] using ended
      · simp only [scan, comment] at scanned
        split at scanned
        · rename_i measured
          obtain ⟨inner, rest, rfl, open', _⟩ := commentLength?_eq_some_iff.mp measured
          exact .inr (.inl ⟨inner, rest, by simp [blockComment], open'⟩)
        · cases scanned
      · simp only [scan, string] at scanned
        split at scanned <;> cases scanned
      · simp only [scan, character] at scanned
        split at scanned <;> cases scanned
      · rw [scan_of_ordinary ordinary, if_neg blank] at scanned
        simp only [word, number, symbol] at scanned
        split at scanned
        · obtain ⟨kind, kinded⟩ := Word.exists_kind? _
          exact absurd scanned (ofRaw_ne_trivia kinded)
        · split at scanned <;> split at scanned
          · rename_i found literal _
            cases found <;> cases scanned
          · cases scanned
          · rename_i symbolic
            obtain ⟨kind, -, kinded, -⟩ :=
              Symbol.exists_kind_of_ofLength? (Symbol.scan?_eq_some_iff.mp symbolic).2.1
            exact absurd scanned (ofRaw_ne_trivia kinded)
          · cases scanned

/-- A text that lexes is split into its tokens. -/
theorem exists_split {before : List Token} {offset : Nat} {text : List Char} {tokens : List Token}
    (read : lexFrom before offset text = .ok tokens) :
    ∃ later, tokens = before.reverse ++ later ∧ Split offset text later := by
  induction sized : text.length using Nat.strongRecOn generalizing before offset text with
  | _ size ih =>
  cases text with
  | nil =>
      rw [lexFrom] at read
      cases read
      exact ⟨[endMark offset], List.reverse_cons, .ended offset⟩
  | cons first text =>
  rcases front_cases first text with blank | ⟨inside, rest, same, line, ended⟩ |
    ⟨inner, rest, same, open'⟩ | ⟨kind, piece, rest, same, told⟩ | ⟨fault, length, scanned⟩
  · rw [lexFrom_blank blank] at read
    obtain ⟨later, rfl, split⟩ := ih _ (by simp [← sized]) read rfl
    exact ⟨later, rfl, .blank blank split⟩
  · rw [same] at read sized ⊢
    rw [lexFrom_line line ended] at read
    obtain ⟨later, rfl, split⟩ := ih _ (by simp [← sized, lineComment]; omega) read rfl
    exact ⟨later, rfl, .line line ended split⟩
  · rw [same] at read sized ⊢
    rw [lexFrom_block open'] at read
    obtain ⟨later, rfl, split⟩ := ih _ (by simp [← sized, blockComment]; omega) read rfl
    exact ⟨later, rfl, .block open' split⟩
  · rw [same] at read sized ⊢
    rw [lexFrom_token told.filled (told.again (.refl _))] at read
    have shorter : rest.length < size := by
      have some := List.length_pos_iff.mpr told.filled
      rw [List.length_append] at sized
      omega
    obtain ⟨later, rfl, split⟩ := ih _ shorter read rfl
    exact ⟨_, by simp, .token told split⟩
  · rw [lexFrom, scanned] at read
    cases read

end Token

end JavaSyntax
