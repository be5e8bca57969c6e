import JavaSyntax.Proofs.Lexing.Composition

/-!
# The first fault of a text

Lexing stops at the first place where no token starts.  What stands before that place lexes,
and what is wrong is told by the first characters that stand there.
-/

namespace JavaSyntax

namespace Lexeme

/-! ## What a fault is told by -/

/-- What is reported of a text that starts no token is known by how the text starts. -/
structure Reports (text : List Char) (detail : String) : Prop where
  comment : detail = "unterminated block comment" ↔ ['/', '*'] <+: text
  string : detail = "invalid or unterminated string literal" ↔ text.head? = some '"'
  character : detail = "invalid or unterminated character literal" ↔ text.head? = some '\''
  number : detail = "invalid numeric literal" ↔
    text.head?.any (fun first => first.isDigit || first == '.') = true
  stray : detail = "unexpected character" ↔ ¬['/', '*'] <+: text ∧ text.head? ≠ some '"' ∧
    text.head? ≠ some '\'' ∧ text.head?.any (fun first => first.isDigit || first == '.') = false

theorem Ordinary.not_comment {first : Char} {text : List Char} (ordinary : Ordinary first text) :
    ¬['/', '*'] <+: first :: text := by
  rintro ⟨inside, same⟩
  obtain ⟨slash, starred⟩ := List.cons.inj same
  exact ordinary.comment inside slash.symm starred.symm

/-- A point is a symbol where it starts no number. -/
theorem Symbol.scan?_point (text : List Char) : Symbol.scan? ('.' :: text) ≠ none := by
  intro unread
  have single : Symbol.ofLength? ('.' :: text) 1 = none := by
    simpa using List.findSome?_eq_none_iff.mp unread 1 (by simp)
  rw [Symbol.ofLength?, Option.map_eq_none_iff, List.find?_eq_none] at single
  exact single (['.'], .dot) (by decide) (by simp [List.isPrefixOf])

/-- A fault is told by the first characters of the text that it spoils. -/
theorem reports_of_scan {text : List Char} {fault : LexicalFault} {length : Nat}
    (scanned : scan text = .fault fault length) : Reports text fault.describe := by
  cases text with
  | nil => cases scanned
  | cons first text =>
  rcases ordinary_cases first text with ⟨inside, rfl, rfl⟩ | ⟨inside, rfl, rfl⟩ | rfl | rfl |
    ordinary
  · simp [scan] at scanned
  · simp only [scan, comment] at scanned
    split at scanned
    · cases scanned
    · cases scanned
      constructor <;> simp [LexicalFault.describe]
  · simp only [scan, string] at scanned
    split at scanned
    · cases scanned
    · cases scanned
      constructor <;> simp [LexicalFault.describe]
  · simp only [scan, character] at scanned
    split at scanned
    · cases scanned
    · cases scanned
      constructor <;> simp [LexicalFault.describe]
  · have closed := ordinary.not_comment
    have unquoted := ordinary.quote
    have unticked := ordinary.tick
    rw [scan_of_ordinary ordinary] at scanned
    split at scanned
    · cases scanned
    split at scanned
    · exact absurd scanned ofRaw_ne_fault
    split at scanned
    · rename_i starts
      have marked := isDigit_or_point_of_startsNumber starts
      simp only [number] at scanned
      split at scanned
      · exact absurd scanned ofRaw_ne_fault
      · cases scanned
        constructor <;> simp [LexicalFault.describe, closed, unquoted, unticked, marked]
    · rename_i plain
      simp only [symbol] at scanned
      split at scanned
      · exact absurd scanned ofRaw_ne_fault
      · rename_i unread
        cases scanned
        have pointless : first ≠ '.' := by
          rintro rfl
          exact Symbol.scan?_point text unread
        have unmarked : (first.isDigit || first == '.') = false := by
          simpa [startsNumber, pointless] using plain
        constructor <;> simp [LexicalFault.describe, closed, unquoted, unticked, unmarked]

end Lexeme

namespace Token

open Lexeme

/-! ## Where lexing stops -/

/-- A text that does not lex, taken apart where lexing stops. -/
structure StopsAt (offset : Nat) (front rest : List Char) (error : LexicalError) : Prop where
  lexes : Lexes front
  fault : ∃ length, scan rest = .fault error.fault length
  offset : error.span.offset = offset + byteLength front

/-- What is read in front of a text moves the place where lexing stops. -/
theorem StopsAt.after {offset : Nat} {piece front rest : List Char} {error : LexicalError}
    (stops : StopsAt (offset + byteLength piece) front rest error)
    (lexes : Lexes front → Lexes (piece ++ front)) :
    StopsAt offset (piece ++ front) rest error where
  lexes := lexes stops.lexes
  fault := stops.fault
  offset := by rw [stops.offset, byteLength_append, Nat.add_assoc]

/-- A text that does not lex does so up to the place of its error, where a fault stands. -/
theorem exists_stopsAt {before : List Token} {offset : Nat} {text : List Char}
    {error : LexicalError} (read : lexFrom before offset text = .error error) :
    ∃ front rest, text = front ++ rest ∧ StopsAt offset front rest error := by
  induction sized : text.length using Nat.strongRecOn generalizing before offset text with
  | _ size ih =>
  cases text with
  | nil =>
      rw [lexFrom] at read
      cases read
  | cons first text =>
  rcases front_cases first text with blank | ⟨inside, rest, same, line, ended⟩ |
    ⟨inner, rest, same, open'⟩ | ⟨kind, piece, rest, same, told⟩ | ⟨fault, length, scanned⟩
  · rw [lexFrom_blank blank] at read
    obtain ⟨front, rest, rfl, stops⟩ := ih _ (by simp [← sized]) read rfl
    refine ⟨first :: front, rest, rfl, stops.lexes.blank blank, stops.fault, ?_⟩
    rw [stops.offset, byteLength_cons, utf8Size_of_isBlank first blank, Nat.add_assoc]
  · rw [same] at read sized ⊢
    rw [lexFrom_line line ended] at read
    obtain ⟨front, rest, rfl, stops⟩ := ih _ (by simp [← sized, lineComment]; omega) read rfl
    exact ⟨_, rest, (List.append_assoc ..).symm,
      stops.after fun lexes => lexes.line line ended (List.prefix_append ..)⟩
  · rw [same] at read sized ⊢
    rw [lexFrom_block open'] at read
    obtain ⟨front, rest, rfl, stops⟩ := ih _ (by simp [← sized, blockComment]; omega) read rfl
    exact ⟨_, rest, (List.append_assoc ..).symm, stops.after fun lexes => lexes.block open'⟩
  · rw [same] at read sized ⊢
    rw [lexFrom_token told.filled (told.again (.refl _))] at read
    have shorter : rest.length < size := by
      have some := List.length_pos_iff.mpr told.filled
      rw [List.length_append] at sized
      omega
    obtain ⟨front, rest, rfl, stops⟩ := ih _ shorter read rfl
    exact ⟨_, rest, (List.append_assoc ..).symm,
      stops.after fun lexes => lexes.token told (List.prefix_append ..)⟩
  · rw [lexFrom, scanned] at read
    cases read
    exact ⟨[], first :: text, rfl, ⟨[endMark 0], by rw [lexFrom]; rfl⟩, ⟨length, scanned⟩, rfl⟩

/-- An error of a source text marks the first place where no token starts: the text in front of
it lexes, something stands behind it, and how that starts tells what is wrong. -/
theorem lex_error_first {source : String} {error : LexicalError}
    (read : lex source = .error error) :
    ∃ front rest, source = front ++ rest ∧ front.utf8ByteSize = error.span.offset ∧
      error.span.offset < source.utf8ByteSize ∧ (∃ tokens, lex front = .ok tokens) ∧
        Reports rest.toList error.fault.describe := by
  obtain ⟨front, rest, same, stops⟩ := exists_stopsAt read
  obtain ⟨length, scanned⟩ := stops.fault
  have start : (String.ofList front).utf8ByteSize = error.span.offset := by
    rw [stops.offset, byteLength_eq, Nat.zero_add]
  have whole : source = String.ofList front ++ String.ofList rest := by
    rw [← String.ofList_append, ← same, String.ofList_toList]
  have filled : 0 < (String.ofList rest).utf8ByteSize := by
    cases rest with
    | nil => cases scanned
    | cons first rest =>
        rw [← byteLength_eq, byteLength_cons]
        exact Nat.add_pos_left first.utf8Size_pos _
  refine ⟨String.ofList front, String.ofList rest, whole, start, ?_, ?_, ?_⟩
  · rw [whole, String.utf8ByteSize_append, start]
    omega
  · obtain ⟨tokens, lexed⟩ := stops.lexes
    exact ⟨tokens, by rwa [lex, String.toList_ofList]⟩
  · rw [String.toList_ofList]
    exact reports_of_scan scanned

/-- A hexadecimal number with a fraction and no exponent, behind a comment. -/
theorem lex_error_first_fractionWithoutExponent :
    lex "a/*1*/>>=0x1.8 '" = .error ⟨.badNumber, ⟨9, 5⟩⟩ ∧
      ∃ front rest, "a/*1*/>>=0x1.8 '" = front ++ rest ∧ front.utf8ByteSize = 9 ∧
        9 < "a/*1*/>>=0x1.8 '".utf8ByteSize ∧ (∃ tokens, lex front = .ok tokens) ∧
          Reports rest.toList "invalid numeric literal" := by
  have read : lex "a/*1*/>>=0x1.8 '" = .error ⟨.badNumber, ⟨9, 5⟩⟩ := by cbv
  exact ⟨read, lex_error_first read⟩

end Token

end JavaSyntax
