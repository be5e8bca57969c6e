import JavaSyntax.Lexeme.Scan
import JavaSyntax.Proofs.Lexing.Numbers

/-!
# Where a lexeme ends

Every token is told by its own text and at most the character after it.  Wherever the text
after a token is cut off, with nothing or a blank in its place, the same token is read.
Comments are told by their own text: a block comment by its first `*/`, and a line comment
by the line it is on.
-/

namespace JavaSyntax.Lexeme

/-! ## Raw tokens -/

theorem ofRaw_eq_token_iff {raw : RawToken} {kind : TokenKind} {length size : Nat} :
    ofRaw raw length = .token kind size ↔ raw.kind? = some kind ∧ length = size := by
  unfold ofRaw
  cases raw.kind? <;> simp

theorem ofRaw_ne_fault {raw : RawToken} {fault : LexicalFault} {length size : Nat} :
    ofRaw raw length ≠ .fault fault size := by
  unfold ofRaw
  cases raw.kind? <;> simp

/-- A raw token with a kind is no trivia. -/
theorem ofRaw_ne_trivia {raw : RawToken} {kind : TokenKind} {length size : Nat}
    (kinded : raw.kind? = some kind) : ofRaw raw length ≠ .trivia size := by
  simp [ofRaw, kinded]

theorem RawToken.kind_of_number {found : NumberClass} {kind : TokenKind}
    (kinded : (RawToken.number found).kind? = some kind) :
    kind ∈ [TokenKind.integerLiteral, .floatingPointLiteral] := by
  cases found <;> cases kinded <;> decide

/-- Patterns that line up with some kinds: each is the pattern of the kind at its place, and
its text is the one that the kind is described by. -/
def LinesUp (patterns : List (String × RawToken)) (kinds : List TokenKind) : Prop :=
  patterns.map (fun pattern => (pattern.1, pattern.2.kind?)) =
    kinds.map fun kind => (kind.describe, some kind)

instance (patterns : List (String × RawToken)) (kinds : List TokenKind) :
    Decidable (LinesUp patterns kinds) :=
  inferInstanceAs (Decidable (_ = _))

theorem LinesUp.exists_kind {patterns : List (String × RawToken)} {kinds : List TokenKind}
    (aligned : LinesUp patterns kinds) {pattern : String × RawToken}
    (member : pattern ∈ patterns) :
    ∃ kind ∈ kinds, pattern.2.kind? = some kind ∧ pattern.1 = kind.describe := by
  have mapped := List.mem_map_of_mem (f := fun pattern => (pattern.1, pattern.2.kind?)) member
  rw [aligned] at mapped
  obtain ⟨kind, isKind, same⟩ := List.mem_map.mp mapped
  obtain ⟨texts, kinds⟩ := Prod.mk.inj same
  exact ⟨kind, isKind, kinds.symm, texts.symm⟩

theorem LinesUp.exists_pattern {patterns : List (String × RawToken)} {kinds : List TokenKind}
    (aligned : LinesUp patterns kinds) {kind : TokenKind} (member : kind ∈ kinds) :
    ∃ pattern ∈ patterns, pattern.1 = kind.describe := by
  have mapped := List.mem_map_of_mem (f := fun kind => (kind.describe, some kind)) member
  rw [← aligned] at mapped
  obtain ⟨pattern, isPattern, same⟩ := List.mem_map.mp mapped
  exact ⟨pattern, isPattern, (Prod.mk.inj same).1⟩

theorem keywords_linesUp : LinesUp RawToken.keywords TokenKind.keywords := by
  decide

theorem symbols_linesUp : LinesUp RawToken.symbols TokenKind.symbols := by
  decide

/-! ## Words and symbols -/

/-- A word is the keyword that is described by it, or a name. -/
theorem Word.raw_cases (word : String) :
    (∃ kind, (Word.raw word).kind? = some kind ∧ kind.isKeyword = true ∧ word = kind.describe) ∨
      Word.raw word = .identifier ∧
        ∀ keyword : TokenKind, keyword.isKeyword = true → word ≠ keyword.describe := by
  unfold Word.raw
  cases found : RawToken.keywords.find? fun pattern => pattern.1 == word with
  | none =>
      refine .inr ⟨rfl, fun keyword isKeyword same => ?_⟩
      obtain ⟨pattern, isPattern, spelled⟩ :=
        keywords_linesUp.exists_pattern (TokenKind.mem_keywords.mpr isKeyword)
      exact List.find?_eq_none.mp found pattern isPattern (beq_iff_eq.mpr (spelled.trans same.symm))
  | some pattern =>
      obtain ⟨kind, isKeyword, kinded, spelled⟩ :=
        keywords_linesUp.exists_kind (List.mem_of_find?_eq_some found)
      have same : pattern.1 = word := by simpa using List.find?_some found
      exact .inl ⟨kind, kinded, TokenKind.mem_keywords.mp isKeyword, same ▸ spelled⟩

theorem Word.exists_kind? (word : String) : ∃ kind, (Word.raw word).kind? = some kind := by
  obtain ⟨kind, kinded, -⟩ | ⟨name, -⟩ := Word.raw_cases word
  · exact ⟨kind, kinded⟩
  · exact ⟨.identifier, by rw [name]; rfl⟩

theorem Word.isPart_of_isBlank : ∀ character, isBlank character = true →
    Word.isPart character = false :=
  forall_isBlank (by decide)

theorem Word.isPart_of_isStart {character : Char} (starts : Word.isStart character = true) :
    Word.isPart character = true := by
  rw [Word.isPart, starts, Bool.true_or]

/-- A word is read the same wherever the text after it is cut off. -/
theorem word_local {text : List Char} (starts : text.head?.any Word.isStart = true) :
    ∃ piece rest kind, text = piece ++ rest ∧ word text = .token kind piece.length ∧
      piece.head?.any Word.isStart = true ∧
      ∀ {rest' : List Char}, Cut rest rest' → word (piece ++ rest') = .token kind piece.length := by
  have inside : ∀ character ∈ text.takeWhile Word.isPart, Word.isPart character = true :=
    List.all_eq_true.mp List.all_takeWhile
  have ended := any_head?_dropWhile Word.isPart text
  obtain ⟨kind, kinded⟩ := Word.exists_kind? (String.ofList (text.takeWhile Word.isPart))
  have read {rest : List Char} (ended : rest.head?.any Word.isPart = false) :
      word (text.takeWhile Word.isPart ++ rest) =
        .token kind (text.takeWhile Word.isPart).length := by
    simp only [word, Word.length, takeWhile_append_of_stops inside ended, List.take_left, ofRaw,
      kinded]
  refine ⟨text.takeWhile Word.isPart, text.dropWhile Word.isPart, kind,
    List.takeWhile_append_dropWhile.symm, ?_, ?_,
    fun cut => read (cut.stops Word.isPart_of_isBlank ended)⟩
  · have whole := read ended
    rwa [List.takeWhile_append_dropWhile] at whole
  · cases text with
    | nil => cases starts
    | cons first text =>
        have part : Word.isPart first = true := Word.isPart_of_isStart starts
        simpa [List.takeWhile_cons, part] using starts

namespace Symbol

/-- No symbol has a blank in it. -/
theorem solid_of_mem_spellings :
    ∀ spelling ∈ spellings, spelling.1.any isBlank = false := by
  decide

/-- A symbol at the front of a text that is cut off stands at the front of the whole text. -/
theorem isPrefixOf_of_cut {spelled text text' : List Char} (solid : spelled.any isBlank = false)
    (cut : Cut text text') (starts : spelled.isPrefixOf text' = true) :
    spelled.isPrefixOf text = true := by
  induction spelled generalizing text text' with
  | nil => rfl
  | cons first spelled ih =>
      simp only [List.any_cons, Bool.or_eq_false_iff] at solid
      cases text' with
      | nil => cases starts
      | cons head text' =>
          simp only [List.isPrefixOf, Bool.and_eq_true, beq_iff_eq] at starts
          obtain ⟨rfl, further⟩ := starts
          cases cut with
          | here blank => simp_all
          | later _ cut => simpa [List.isPrefixOf] using ih solid.2 cut further

theorem ofLength?_of_cut {text text' : List Char} (cut : Cut text text') {length : Nat}
    (absent : ofLength? text length = none) : ofLength? text' length = none := by
  simp only [ofLength?, Option.map_eq_none_iff, List.find?_eq_none, Bool.and_eq_true,
    not_and] at absent ⊢
  intro spelling member sized starts
  exact absent spelling member sized (isPrefixOf_of_cut (solid_of_mem_spellings spelling member)
    cut starts)

/-- Whether a symbol has some length is told by as many characters. -/
theorem ofLength?_append (piece rest : List Char) :
    ofLength? (piece ++ rest) piece.length = ofLength? piece piece.length := by
  have same (spelled : List Char) :
      (spelled.length == piece.length && spelled.isPrefixOf (piece ++ rest)) =
        (spelled.length == piece.length && spelled.isPrefixOf piece) := by
    rw [Bool.eq_iff_iff]
    simp only [Bool.and_eq_true, beq_iff_eq, List.isPrefixOf_iff_prefix]
    refine and_congr_right fun sized => ⟨fun starts => ?_, fun starts => ?_⟩
    · exact List.prefix_of_prefix_length_le starts (List.prefix_append _ _) (Nat.le_of_eq sized)
    · exact starts.trans (List.prefix_append _ _)
  simp only [ofLength?, same]

theorem scan?_eq_some_iff {text : List Char} {raw : RawToken} {length : Nat} :
    scan? text = some (raw, length) ↔ length ∈ [4, 3, 2, 1] ∧
      ofLength? text length = some raw ∧
      ∀ longer ∈ [4, 3, 2, 1], length < longer → ofLength? text longer = none := by
  simp only [scan?, List.findSome?_cons, List.findSome?_nil]
  cases four : ofLength? text 4 with
  | some found => grind
  | none =>
      cases three : ofLength? text 3 with
      | some found => grind
      | none =>
          cases two : ofLength? text 2 with
          | some found => grind
          | none => cases one : ofLength? text 1 <;> grind

/-- A symbol of some length is described by that many characters at the front. -/
theorem exists_kind_of_ofLength? {text : List Char} {raw : RawToken} {length : Nat}
    (found : ofLength? text length = some raw) :
    ∃ kind ∈ TokenKind.symbols, raw.kind? = some kind ∧ kind.describe.toList.length = length ∧
      kind.describe.toList <+: text := by
  obtain ⟨spelling, first, rfl⟩ := Option.map_eq_some_iff.mp found
  have fits := List.find?_some first
  obtain ⟨pattern, isPattern, rfl⟩ := List.mem_map.mp (List.mem_of_find?_eq_some first)
  obtain ⟨kind, isSymbol, kinded, spelled⟩ := symbols_linesUp.exists_kind isPattern
  simp only [Bool.and_eq_true, beq_iff_eq, List.isPrefixOf_iff_prefix, spelled] at fits
  exact ⟨kind, isSymbol, kinded, fits⟩

/-- A symbol is read the same wherever the text after it is cut off. -/
theorem scan?_local {text : List Char} {raw : RawToken} {length : Nat}
    (read : scan? text = some (raw, length)) :
    ∃ piece rest, text = piece ++ rest ∧ length = piece.length ∧ piece ≠ [] ∧
      ∀ {rest' : List Char}, Cut rest rest' → scan? (piece ++ rest') = some (raw, length) := by
  obtain ⟨member, found, longest⟩ := scan?_eq_some_iff.mp read
  obtain ⟨kind, -, -, size, starts⟩ := exists_kind_of_ofLength? found
  have bounded : length ≤ text.length := size ▸ starts.length_le
  have sized : (text.take length).length = length := List.length_take_of_le bounded
  have halves : text = text.take length ++ text.drop length := (List.take_append_drop _ _).symm
  refine ⟨text.take length, text.drop length, halves, sized.symm, ?_, ?_⟩
  · intro empty
    rw [empty] at sized
    subst sized
    simp at member
  · intro rest' cut
    refine scan?_eq_some_iff.mpr ⟨member, ?_, ?_⟩
    · have own := ofLength?_append (text.take length)
      rw [sized] at own
      rw [own, ← own (text.drop length), ← halves, found]
    · intro longer inside further
      have whole := cut.append (text.take length)
      rw [← halves] at whole
      exact ofLength?_of_cut whole (longest longer inside further)

end Symbol

/-! ## Numbers -/

/-- What is taken of a number starts as a number does. -/
theorem startsNumber_of_decimal? {text : List Char} {body : Number.Body}
    (starts : startsNumber text = true) (read : Number.decimal? text = some body) :
    startsNumber body.taken = true := by
  simp only [Number.decimal?, Option.bind_eq_bind, Option.bind_eq_some_iff] at read
  obtain ⟨⟨whole, r₁⟩, digits, ⟨fraction, r₂⟩, fractions, ⟨exponent, r₃⟩, _, same⟩ := read
  cases same
  simp only [Number.digits?] at digits
  split at digits
  · cases digits
  cases digits
  unfold startsNumber at starts
  split at starts
  · rename_i next rest
    have point : ('.'.isDigit || '.' == '_') = false := by decide
    simp only [List.dropWhile_cons, point, Bool.false_eq_true, if_false, Number.fraction?,
      Number.digits?] at fractions
    split at fractions
    · cases fractions
    cases fractions
    simp [startsNumber, starts]
  · rename_i first rest _ _
    have notPoint : first ≠ '.' := by
      rintro rfl
      cases starts
    simp [startsNumber, starts, notPoint]
  · cases starts

theorem startsNumber_append {literal : List Char} (starts : startsNumber literal = true)
    (rest : List Char) : startsNumber (literal ++ rest) = true := by
  unfold startsNumber at starts
  split at starts
  · exact starts
  · rename_i first after pointless
    have notPoint : first ≠ '.' := by
      rintro rfl
      cases starts
    simpa [startsNumber, notPoint] using starts
  · cases starts

theorem startsNumber_of_scan? {text literal : List Char} {found : NumberClass}
    (starts : startsNumber text = true) (read : Number.scan? text = some (found, literal)) :
    startsNumber literal = true := by
  simp only [Number.scan?, Option.bind_eq_bind, Option.bind_eq_some_iff] at read
  obtain ⟨body, isBody, _, _, same⟩ := read
  obtain ⟨⟨class', whole⟩, isWhole⟩ : ∃ suffixed, Number.suffix body = suffixed := ⟨_, rfl⟩
  simp only [isWhole] at same
  cases same
  obtain ⟨mark, _, isTaken, _⟩ := Number.suffix_local isWhole
  rw [isTaken]
  refine startsNumber_append ?_ mark
  cases based : Number.hasBase text with
  | false => exact startsNumber_of_decimal? starts (Number.body?_of_hasBase based ▸ isBody)
  | true =>
      obtain ⟨base, rest, rfl⟩ : ∃ base rest, text = '0' :: base :: rest := by
        unfold Number.hasBase at based
        split at based
        · exact ⟨_, _, rfl⟩
        · cases based
      simp only [Number.body?] at isBody
      split at isBody
      · obtain ⟨inner, _, rfl⟩ := Option.map_eq_some_iff.mp isBody
        rfl
      · split at isBody
        · obtain ⟨inner, _, rfl⟩ := Option.map_eq_some_iff.mp isBody
          rfl
        · exact startsNumber_of_decimal? starts isBody

theorem startsNumber_of_cut {first : Char} {text text' : List Char} (cut : Cut text text')
    (starts : startsNumber (first :: text') = true) : startsNumber (first :: text) = true := by
  by_cases point : first = '.'
  · subst point
    cases text' with
    | nil => cases starts
    | cons next text' =>
        rcases cut.head? rfl with same | blank
        · obtain ⟨after, rfl⟩ := List.head?_eq_some_iff.mp same
          exact starts
        · rw [startsNumber, Number.isDigit_of_isBlank next blank] at starts
          cases starts
  · simpa [startsNumber, point] using starts

theorem isDigit_or_point_of_startsNumber {first : Char} {text : List Char}
    (starts : startsNumber (first :: text) = true) : (first.isDigit || first == '.') = true := by
  unfold startsNumber at starts
  split at starts
  · rename_i same
    obtain ⟨rfl, -⟩ := List.cons.inj same
    rfl
  · rename_i same
    obtain ⟨rfl, rfl⟩ := List.cons.inj same
    rw [starts, Bool.true_or]
  · cases starts

/-! ## Quoted literals -/

namespace Quoted

theorem isOctalDigit_of_isBlank : ∀ character, isBlank character = true →
    isOctalDigit character = false :=
  forall_isBlank (by decide)

/-- A run of a bounded number of octal digits ends at the bound or where they end. -/
theorem octalRun_local (bound : Nat) (text : List Char) :
    ∃ rest, text = (text.take bound).takeWhile isOctalDigit ++ rest ∧
      ∀ {rest' : List Char}, Cut rest rest' →
        (((text.take bound).takeWhile isOctalDigit ++ rest').take bound).takeWhile isOctalDigit =
          (text.take bound).takeWhile isOctalDigit := by
  induction bound generalizing text with
  | zero => exact ⟨text, by simp, by simp⟩
  | succ bound ih =>
      cases text with
      | nil =>
          refine ⟨[], rfl, ?_⟩
          intro rest' cut
          cases rest' with
          | nil => rfl
          | cons first rest' =>
              have blank : isBlank first = true := (cut.head? rfl).resolve_left (by simp)
              simp [isOctalDigit_of_isBlank first blank]
      | cons first text =>
          by_cases octal : isOctalDigit first = true
          · obtain ⟨rest, same, again⟩ := ih text
            refine ⟨rest, ?_, ?_⟩
            · simpa [octal] using same
            · intro rest' cut
              simpa [octal] using again cut
          · refine ⟨first :: text, by simp [octal], ?_⟩
            intro rest' cut
            cases rest' with
            | nil => simp [octal]
            | cons next rest' =>
                have outside : isOctalDigit next = false := by
                  rcases cut.head? rfl with same | blank
                  · cases same
                    simpa using octal
                  · exact isOctalDigit_of_isBlank next blank
                simp [octal, outside]

/-- A reader of lengths that looks at nothing but the text it measures and what its end is
told by. -/
def LengthLocal (read : List Char → Option Nat) : Prop :=
  ∀ {text : List Char} {length : Nat}, read text = some length →
    ∃ piece rest, text = piece ++ rest ∧ length = piece.length ∧ piece ≠ [] ∧
      ∀ {rest' : List Char}, Cut rest rest' → read (piece ++ rest') = some length

theorem isHexDigit_ne_u {character : Char} (hex : Number.isHexDigit character = true) :
    (character == 'u') = false := by
  by_cases same : character = 'u'
  · subst same
    cases hex
  · simpa using same

/-- The marks of a Unicode escape end where its code starts. -/
theorem escapeLength?_unicode {marks code : List Char} (some : marks ≠ [])
    (marked : ∀ mark ∈ marks, (mark == 'u') = true) (sized : code.length = 4)
    (coded : code.all Number.isHexDigit = true) (rest : List Char) :
    escapeLength? (marks ++ code ++ rest) = Option.some (marks.length + 4) := by
  have ended : (code ++ rest).head?.any (· == 'u') = false := by
    cases code with
    | nil => cases sized
    | cons first code =>
        rw [List.all_cons, Bool.and_eq_true] at coded
        exact isHexDigit_ne_u coded.1
  have run := takeWhile_append_of_stops marked ended
  obtain ⟨first, more, rfl⟩ := List.exists_cons_of_ne_nil some
  obtain rfl : first = 'u' := by simpa using marked first List.mem_cons_self
  have plain : isSimpleEscape 'u' = false ∧ isOctalDigit 'u' = false := by decide
  rw [List.append_assoc]
  rw [List.cons_append] at run ⊢
  have code' : (code ++ rest).take 4 = code := by rw [← sized, List.take_left]
  simp only [escapeLength?, plain, run, Bool.false_eq_true, if_false]
  rw [← List.cons_append, List.drop_left, code', sized, coded]
  rfl

theorem escapeLength?_local : LengthLocal escapeLength? := by
  intro text length read
  unfold escapeLength? at read
  split at read
  · cases read
  rename_i first after
  split at read
  · rename_i simple
    cases read
    refine ⟨[first], after, rfl, rfl, by simp, ?_⟩
    intro rest' cut
    simp [escapeLength?, simple]
  rename_i notSimple
  split at read
  · rename_i octal
    cases read
    obtain ⟨rest, same, again⟩ := octalRun_local 3 (first :: after)
    have starts : ((first :: after).take 3).takeWhile isOctalDigit =
        first :: (after.take 2).takeWhile isOctalDigit := by
      simp [octal]
    refine ⟨_, rest, same, rfl, by simp [octal], ?_⟩
    intro rest' cut
    have measured := again cut
    rw [starts] at measured ⊢
    rw [List.cons_append] at measured ⊢
    simp only [escapeLength?, notSimple, octal, if_true, if_false, measured, Bool.false_eq_true]
  rename_i notOctal
  dsimp only at read
  split at read
  · rename_i unicode
    cases read
    simp only [Bool.and_eq_true, decide_eq_true_eq] at unicode
    obtain ⟨⟨some, sized⟩, coded⟩ := unicode
    have marked : ∀ mark ∈ (first :: after).takeWhile (· == 'u'), (mark == 'u') = true :=
      List.all_eq_true.mp List.all_takeWhile
    have whole : first :: after = (first :: after).takeWhile (· == 'u') ++
        (first :: after).drop ((first :: after).takeWhile (· == 'u')).length :=
      (List.prefix_iff_eq_append.mp (List.takeWhile_prefix _)).symm
    obtain ⟨marks, isMarks⟩ : ∃ marks, (first :: after).takeWhile (· == 'u') = marks := ⟨_, rfl⟩
    obtain ⟨behind, isBehind⟩ : ∃ behind, (first :: after).drop marks.length = behind := ⟨_, rfl⟩
    rw [isMarks] at some sized coded marked whole ⊢
    rw [isBehind] at sized coded whole
    have filled : marks ≠ [] := fun empty => some (by rw [empty]; rfl)
    refine ⟨marks ++ behind.take 4, behind.drop 4, by simp [whole],
      by rw [List.length_append, sized],
      by simp [filled], ?_⟩
    intro rest' cut
    exact escapeLength?_unicode filled marked sized coded rest'
  · cases read

theorem itemLength?_local (quote : Char) : LengthLocal (itemLength? quote) := by
  intro text length read
  unfold itemLength? at read
  split at read
  · cases read
  · rename_i after
    obtain ⟨inner, escaped, rfl⟩ := Option.map_eq_some_iff.mp read
    obtain ⟨piece, rest, rfl, rfl, _, again⟩ := escapeLength?_local escaped
    refine ⟨'\\' :: piece, rest, rfl, rfl, by simp, ?_⟩
    intro rest' cut
    simp [itemLength?, again cut]
  · rename_i first after plain
    split at read
    · rename_i ordinary
      cases read
      refine ⟨[first], after, rfl, rfl, by simp, ?_⟩
      intro rest' cut
      simp [itemLength?, ordinary]
    · cases read

/-- A string literal is read the same wherever the text after it is cut off. -/
theorem stringLength?_local {before length : Nat} {text : List Char}
    (read : stringLength? before text = some length) :
    ∃ piece rest, text = piece ++ rest ∧ length = before + piece.length ∧
      ∀ {rest' : List Char}, Cut rest rest' →
        stringLength? before (piece ++ rest') = some length := by
  fun_induction stringLength? before text with
  | case1 => cases read
  | case2 before rest =>
      cases read
      refine ⟨['"'], rest, rfl, rfl, ?_⟩
      intro rest' cut
      rw [List.singleton_append, stringLength?, if_pos rfl]
  | case3 before first rest open' size item ih =>
      obtain ⟨piece, later, same, rfl, some, itemAgain⟩ := itemLength?_local '"' item
      obtain ⟨head, piece, rfl⟩ := List.exists_cons_of_ne_nil some
      obtain ⟨rfl, rfl⟩ := List.cons.inj same
      have dropped : (piece.append later).drop ((first :: piece).length - 1) = later :=
        List.drop_left
      rw [dropped] at read ih
      obtain ⟨more, rest, rfl, rfl, again⟩ := ih read
      refine ⟨first :: piece ++ more, rest, by simp, by simp; omega, ?_⟩
      intro rest' cut
      have items := itemAgain (cut.append more)
      simp only [List.cons_append, List.append_assoc] at items ⊢
      rw [stringLength?, if_neg open', items]
      simpa using again cut
  | case4 => cases read

/-- A character literal is read the same wherever the text after it is cut off. -/
theorem characterLength?_local : LengthLocal characterLength? := by
  intro text length read
  unfold characterLength? at read
  split at read
  · rename_i size item
    split at read
    · rename_i closed
      cases read
      obtain ⟨piece, rest, rfl, rfl, _, again⟩ := itemLength?_local '\'' item
      rw [List.getElem?_append_right (Nat.le_refl _), Nat.sub_self] at closed
      obtain ⟨rest, rfl⟩ : ∃ after, rest = '\'' :: after := by
        cases rest with
        | nil => cases closed
        | cons first rest =>
            cases closed
            exact ⟨rest, rfl⟩
      refine ⟨piece ++ ['\''], rest, by simp, by simp, by simp, ?_⟩
      intro rest' cut
      have items := again (.later '\'' cut)
      simp only [List.append_assoc, List.singleton_append]
      simp [characterLength?, items]
    · cases read
  · cases read

end Quoted

/-! ## Comments -/

/-- A block comment reaches to the first `*/`. -/
theorem commentLength?_eq_some_iff {before length : Nat} {inside : List Char} :
    commentLength? before inside = some length ↔
      ∃ inner rest, inside = inner ++ '*' :: '/' :: rest ∧ ¬['*', '/'] <:+: inner ∧
        length = before + inner.length + 2 := by
  fun_induction commentLength? before inside with
  | case1 before rest =>
      constructor
      · rintro ⟨⟩
        exact ⟨[], rest, rfl, by simp, rfl⟩
      · rintro ⟨inner, rest', same, first, rfl⟩
        rcases inner with - | ⟨head, - | ⟨next, inner⟩⟩
        · rfl
        · simp at same
        · simp only [List.cons_append, List.cons.injEq] at same
          obtain ⟨rfl, rfl, rfl⟩ := same
          exact absurd ⟨[], inner, rfl⟩ first
  | case2 before head rest open' ih =>
      rw [ih]
      constructor
      · rintro ⟨inner, rest', rfl, first, rfl⟩
        refine ⟨head :: inner, rest', rfl, ?_, by simp; omega⟩
        rw [List.infix_cons_iff]
        rintro (⟨more, same⟩ | inside)
        · simp only [List.cons_append, List.nil_append, List.cons.injEq] at same
          obtain ⟨rfl, rfl⟩ := same
          exact open' _ rfl rfl
        · exact first inside
      · rintro ⟨inner, rest', same, first, rfl⟩
        rcases inner with - | ⟨head', inner⟩
        · cases same
          exact absurd rfl (open' _ rfl)
        · simp only [List.cons_append, List.cons.injEq] at same
          obtain ⟨rfl, rfl⟩ := same
          exact ⟨inner, rest', rfl,
            fun inside => first (inside.trans (List.infix_cons (List.infix_refl _))),
            by simp; omega⟩
  | case3 => simp

/-- The text of a line comment without its slashes: no line ends in it. -/
def OneLine (inside : List Char) : Prop :=
  ∀ character ∈ inside, endsLine character = false

theorem lineLength_append {inside rest : List Char} (line : OneLine inside)
    (ended : rest.head?.all endsLine = true) : lineLength (inside ++ rest) = inside.length := by
  rw [lineLength, takeWhile_append_of_stops]
  · intro character member
    rw [line character member, Bool.not_false]
  · cases rest with
    | nil => rfl
    | cons first rest => simpa using ended

/-! ## Any lexeme -/

/-- Text that opens neither a comment nor a quoted literal. -/
structure Ordinary (first : Char) (text : List Char) : Prop where
  line : ∀ more, first = '/' → text ≠ '/' :: more
  comment : ∀ more, first = '/' → text ≠ '*' :: more
  quote : first ≠ '"'
  tick : first ≠ '\''

theorem scan_of_ordinary {first : Char} {text : List Char} (ordinary : Ordinary first text) :
    scan (first :: text) =
      if isBlank first then .trivia (blankLength (first :: text))
      else if Word.isStart first then word (first :: text)
      else if startsNumber (first :: text) then number (first :: text)
      else symbol (first :: text) := by
  rw [scan]
  · exact ordinary.line
  · exact ordinary.comment
  · exact ordinary.quote
  · exact ordinary.tick

theorem Ordinary.cut {first : Char} {text text' : List Char} (ordinary : Ordinary first text)
    (cut : Cut text text') : Ordinary first text' where
  line more slash same := by
    rcases cut.head? (by rw [same]; rfl) with starts | blank
    · obtain ⟨after, starts⟩ := List.head?_eq_some_iff.mp starts
      exact ordinary.line after slash starts
    · cases blank
  comment more slash same := by
    rcases cut.head? (by rw [same]; rfl) with starts | blank
    · obtain ⟨after, starts⟩ := List.head?_eq_some_iff.mp starts
      exact ordinary.comment after slash starts
    · cases blank
  quote := ordinary.quote
  tick := ordinary.tick

/-- Every text opens a comment or a quoted literal, or does neither. -/
theorem ordinary_cases (first : Char) (text : List Char) :
    (∃ inside, first = '/' ∧ text = '/' :: inside) ∨
      (∃ inside, first = '/' ∧ text = '*' :: inside) ∨
      first = '"' ∨ first = '\'' ∨ Ordinary first text := by
  by_cases line : ∃ inside, first = '/' ∧ text = '/' :: inside
  · exact .inl line
  by_cases block : ∃ inside, first = '/' ∧ text = '*' :: inside
  · exact .inr (.inl block)
  by_cases quote : first = '"'
  · exact .inr (.inr (.inl quote))
  by_cases tick : first = '\''
  · exact .inr (.inr (.inr (.inl tick)))
  · exact .inr (.inr (.inr (.inr ⟨fun more slash same => line ⟨more, slash, same⟩,
      fun more slash same => block ⟨more, slash, same⟩, quote, tick⟩)))

/-- The classes of tokens, by the front of the text. -/
theorem token_cases {first : Char} {text : List Char} {kind : TokenKind} {length : Nat}
    (scanned : scan (first :: text) = .token kind length) :
    (first = '"' ∧ string text = .token kind length) ∨
    (first = '\'' ∧ character text = .token kind length) ∨
    (Ordinary first text ∧ isBlank first = false ∧
      ((Word.isStart first = true ∧ word (first :: text) = .token kind length) ∨
      (Word.isStart first = false ∧ startsNumber (first :: text) = true ∧
        number (first :: text) = .token kind length) ∨
      (Word.isStart first = false ∧ startsNumber (first :: text) = false ∧
        symbol (first :: text) = .token kind length))) := by
  rcases ordinary_cases first text with ⟨inside, rfl, rfl⟩ | ⟨inside, rfl, rfl⟩ | rfl | rfl |
    ordinary
  · simp [scan] at scanned
  · simp only [scan, comment] at scanned
    split at scanned <;> cases scanned
  · exact .inl ⟨rfl, by simpa only [scan] using scanned⟩
  · exact .inr (.inl ⟨rfl, by simpa only [scan] using scanned⟩)
  · refine .inr (.inr ⟨ordinary, ?_⟩)
    rw [scan_of_ordinary ordinary] at scanned
    cases blank : isBlank first with
    | true => simp [blank] at scanned
    | false =>
        refine ⟨rfl, ?_⟩
        rw [blank, if_neg Bool.false_ne_true] at scanned
        cases start : Word.isStart first with
        | true => exact .inl ⟨rfl, by simpa [start] using scanned⟩
        | false =>
            rw [start, if_neg Bool.false_ne_true] at scanned
            cases digit : startsNumber (first :: text) with
            | true => exact .inr (.inl ⟨rfl, rfl, by simpa [digit] using scanned⟩)
            | false => exact .inr (.inr ⟨rfl, rfl, by simpa [digit] using scanned⟩)

/-- A piece at the front of a text that is read as a token wherever the text after it is cut
off. -/
structure Told (kind : TokenKind) (piece rest : List Char) : Prop where
  filled : piece ≠ []
  again : ∀ {rest' : List Char}, Cut rest rest' → scan (piece ++ rest') = .token kind piece.length

/-- A piece that is told as a token is that token when nothing stands behind it. -/
theorem Told.scan_eq {kind : TokenKind} {piece rest : List Char} (told : Told kind piece rest) :
    scan piece = .token kind piece.length := by
  simpa using told.again (.here rfl : Cut rest [])

/-- A piece of ordinary text is told by how its class is read. -/
theorem Ordinary.told {first : Char} {text piece rest : List Char} {kind : TokenKind}
    (ordinary : Ordinary first text) (same : first :: text = piece ++ rest) (filled : piece ≠ [])
    (again : ∀ {rest' : List Char}, Cut rest rest' →
      (if isBlank first then Lexeme.trivia (blankLength (piece ++ rest'))
      else if Word.isStart first then word (piece ++ rest')
      else if startsNumber (piece ++ rest') then number (piece ++ rest')
      else symbol (piece ++ rest')) = .token kind piece.length) : Told kind piece rest := by
  refine ⟨filled, ?_⟩
  intro rest' cut
  obtain ⟨head, piece, rfl⟩ := List.exists_cons_of_ne_nil filled
  obtain ⟨rfl, rfl⟩ := List.cons.inj same
  exact (scan_of_ordinary (ordinary.cut (cut.append piece))).trans (again cut)

/-- Every token is told by its own text and at most the character after it. -/
theorem exists_told {text : List Char} {kind : TokenKind} {length : Nat}
    (scanned : scan text = .token kind length) :
    ∃ piece rest, text = piece ++ rest ∧ length = piece.length ∧ Told kind piece rest := by
  cases text with
  | nil => cases scanned
  | cons first text =>
  rcases token_cases scanned with ⟨rfl, read⟩ | ⟨rfl, read⟩ |
    ⟨ordinary, blank, ⟨start, read⟩ | ⟨start, digit, read⟩ | ⟨start, digit, read⟩⟩
  · simp only [string] at read
    split at read
    · rename_i measured
      cases read
      obtain ⟨piece, rest, rfl, rfl, again⟩ := Quoted.stringLength?_local measured
      refine ⟨'"' :: piece, rest, rfl, Nat.add_comm _ _, by simp, ?_⟩
      intro rest' cut
      simp only [List.cons_append, scan, string, again cut, List.length_cons, Nat.add_comm]
      rfl
    · cases read
  · simp only [character] at read
    split at read
    · rename_i measured
      cases read
      obtain ⟨piece, rest, rfl, rfl, _, again⟩ := Quoted.characterLength?_local measured
      refine ⟨'\'' :: piece, rest, rfl, rfl, by simp, ?_⟩
      intro rest' cut
      simp only [List.cons_append, scan, character, again cut, List.length_cons]
      rfl
    · cases read
  · obtain ⟨piece, rest, kind', same, read', starts, again⟩ :=
      word_local (show (first :: text).head?.any Word.isStart = true from start)
    rw [read'] at read
    cases read
    refine ⟨piece, rest, same, rfl, ordinary.told same ?_ ?_⟩
    · rintro rfl
      cases starts
    · intro rest' cut
      simp only [blank, start, if_true, if_false, Bool.false_eq_true, again cut]
  · simp only [number] at read
    split at read
    · rename_i found literal scanned'
      obtain ⟨kinded, rfl⟩ := ofRaw_eq_token_iff.mp read
      obtain ⟨rest, same, again⟩ := Number.scan?_local scanned'
      have starts := startsNumber_of_scan? digit scanned'
      refine ⟨literal, rest, same, rfl, ordinary.told same ?_ ?_⟩
      · rintro rfl
        cases starts
      · intro rest' cut
        simp only [blank, start, startsNumber_append starts, number, again cut, ofRaw, kinded,
          if_true, if_false, Bool.false_eq_true]
    · cases read
  · simp only [symbol] at read
    split at read
    · rename_i raw size scanned'
      obtain ⟨kinded, rfl⟩ := ofRaw_eq_token_iff.mp read
      obtain ⟨piece, rest, same, rfl, filled, again⟩ := Symbol.scan?_local scanned'
      refine ⟨piece, rest, same, rfl, ordinary.told same filled ?_⟩
      intro rest' cut
      have digitless : startsNumber (piece ++ rest') = false := by
        obtain ⟨head, piece, rfl⟩ := List.exists_cons_of_ne_nil filled
        obtain ⟨rfl, rfl⟩ := List.cons.inj same
        rw [Bool.eq_false_iff] at digit ⊢
        exact fun starts => digit (startsNumber_of_cut (cut.append piece) starts)
      simp only [blank, start, digitless, symbol, again cut, ofRaw, kinded, if_false,
        Bool.false_eq_true]
    · cases read

end JavaSyntax.Lexeme
