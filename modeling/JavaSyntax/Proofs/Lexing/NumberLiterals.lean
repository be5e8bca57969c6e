import JavaSyntax.Proofs.Lexing.NumberGrammar

/-!
# Number literals are what the scanner reads

The scanner reads exactly the literals of the grammar, each with its class, that end where a
number may end: no character of a word stands behind, and no point behind a whole part alone.
-/

namespace JavaSyntax.Lexeme.Number

/-! ## Where a number may end -/

/-- What stands behind a number without its suffix starts with a letter of the suffix or with
what stands behind the number. -/
theorem Suffix.any_head? {letters mark rest : List Char} (isSuffix : Suffix letters mark)
    {belongs : Char → Bool} (outside : letters.any belongs = false)
    (next : mark = [] → rest.head?.any belongs = false) :
    (mark ++ rest).head?.any belongs = false := by
  rcases isSuffix with rfl | ⟨letter, member, rfl⟩
  · exact next rfl
  · simpa using List.any_eq_false.mp outside letter member

theorem Classed.any_head? {body : Body} {found : NumberClass} {mark rest : List Char}
    (classed : Classed body found mark) {belongs : Char → Bool}
    (outside : ['l', 'L'].any belongs = false ∧ ['f', 'F', 'd', 'D'].any belongs = false)
    (next : mark = [] → rest.head?.any belongs = false) :
    (mark ++ rest).head?.any belongs = false := by
  cases classed with
  | integer _ isSuffix => exact isSuffix.any_head? outside.1 next
  | floating isSuffix _ => exact isSuffix.any_head? outside.2 next

theorem hasBase_cons (first : Char) (text : List Char) :
    hasBase (first :: text) = (first == '0' && text.head?.any ['x', 'X', 'b', 'B'].contains) := by
  unfold hasBase
  split
  · rename_i mark after same
    obtain ⟨rfl, rfl⟩ := List.cons.inj same
    simp [bothCases_x.toLower_eq_iff, bothCases_b.toLower_eq_iff, Bool.decide_or, Bool.or_assoc]
  · rename_i other
    by_cases zero : first = '0'
    · cases text with
      | nil => simp
      | cons mark after => exact absurd (by rw [zero]) (other mark after)
    · simp [zero]

/-- Digits and what neither goes on with them nor marks a base make no number of another base
than ten. -/
theorem hasBase_append {whole tail : List Char} (isRun : Run Char.isDigit whole)
    (digitless : tail.head?.any (continues Char.isDigit) = false)
    (baseless : tail.head?.any ['x', 'X', 'b', 'B'].contains = false) :
    hasBase (whole ++ tail) = false := by
  match whole, isRun with
  | [], _ =>
      cases tail with
      | nil => rfl
      | cons first tail =>
          have other : first ≠ '0' := by
            rintro rfl
            cases digitless
          rw [List.nil_append, hasBase_cons, beq_false_of_ne other, Bool.false_and]
  | [first], _ => rw [List.singleton_append, hasBase_cons, baseless, Bool.and_false]
  | first :: second :: whole, isRun =>
      have inside := isRun.inside second (by simp)
      have other : ['x', 'X', 'b', 'B'].contains second = false := by
        rw [Bool.eq_false_iff]
        intro member
        have outside := @of_contains _ (!continues Char.isDigit ·) (by decide) second member
        simp [inside] at outside
      rw [List.cons_append, hasBase_cons, List.cons_append, List.head?_cons, Option.any_some, other,
        Bool.and_false]

/-! ## Literals are read -/

variable {found : NumberClass} {mark whole fraction exponent suffix rest : List Char}

theorem Composed.hasBase_eq_false
    (composed : Composed Char.isDigit ['e', 'E'] whole fraction exponent (mark ++ rest))
    {body : Body} (classed : Classed body found mark)
    (ended : rest.head?.any isWordCharacter = false) :
    hasBase (whole ++ (fraction ++ (exponent ++ (mark ++ rest)))) = false := by
  have word : ∀ character, ['x', 'X', 'b', 'B'].contains character = true →
      isWordCharacter character = true := fun _ => of_contains (by decide)
  refine hasBase_append composed.isRun ?_ ?_
  · exact composed.isFraction.any_head? rfl fun _ => composed.any_head? (by decide) composed.ended
  · exact composed.isFraction.any_head? rfl fun _ => composed.any_head? (by decide) fun _ =>
      classed.any_head? (by decide) fun _ => any_head?_of_imp word ended

theorem scan?_of_composed_decimal
    (composed : Composed Char.isDigit ['e', 'E'] whole fraction exponent (mark ++ rest))
    (classed : Classed ⟨!fraction.isEmpty || !exponent.isEmpty, true,
      whole ++ fraction ++ exponent, mark ++ rest⟩ found mark)
    (ended : rest.head?.any isWordCharacter = false) :
    scan? (whole ++ (fraction ++ (exponent ++ (mark ++ rest)))) =
      some (found, whole ++ fraction ++ exponent ++ mark) := by
  refine scan?_eq_some_iff_body.mpr ⟨_, _, _, mark, rest, ?_, rfl, classed, ended⟩
  rw [body?_of_hasBase (composed.hasBase_eq_false classed ended)]
  exact decimal?_eq_some_iff.mpr ⟨whole, fraction, exponent, mark ++ rest, rfl, composed, rfl⟩

theorem scan?_of_composed_hexadecimal {base : Char} (marked : base ∈ ['x', 'X'])
    (composed : Composed isHexDigit ['p', 'P'] whole fraction exponent (mark ++ rest))
    (digit : HasDigit isHexDigit (whole ++ fraction)) (complete : exponent = [] → fraction = [])
    (classed : Classed ⟨!exponent.isEmpty, false, '0' :: base :: (whole ++ fraction ++ exponent),
      mark ++ rest⟩ found mark)
    (ended : rest.head?.any isWordCharacter = false) :
    scan? ('0' :: base :: (whole ++ (fraction ++ (exponent ++ (mark ++ rest))))) =
      some (found, '0' :: base :: (whole ++ fraction ++ exponent ++ mark)) := by
  refine scan?_eq_some_iff_body.mpr ⟨_, _, _, mark, rest, ?_, rfl, classed, ended⟩
  have read := hexadecimal?_eq_some_iff.mpr
    ⟨whole, fraction, exponent, mark ++ rest, rfl, composed, digit, complete, rfl⟩
  simp only [body?, bothCases_x.toLower_eq_iff.mpr marked, if_true, read]
  rfl

theorem scan?_of_binary {base : Char} (marked : base ∈ ['b', 'B']) (isRun : Run isBinaryDigit whole)
    (digit : HasDigit isBinaryDigit whole)
    (digitless : (mark ++ rest).head?.any (continues isBinaryDigit) = false)
    (classed : Classed ⟨false, false, '0' :: base :: whole, mark ++ rest⟩ found mark)
    (ended : rest.head?.any isWordCharacter = false) :
    scan? ('0' :: base :: (whole ++ (mark ++ rest))) =
      some (found, '0' :: base :: (whole ++ mark)) := by
  refine scan?_eq_some_iff_body.mpr ⟨_, _, _, mark, rest, ?_, rfl, classed, ended⟩
  have read := binary?_eq_some_iff.mpr ⟨whole, mark ++ rest, rfl, isRun, digit, digitless, rfl⟩
  simp only [body?, bothCases_b.toLower_eq_iff.mpr marked, if_true, read]
  rfl

/-- A whole part is all of a number, unless a point stands behind it. -/
theorem composed_whole {isDigit : Char → Bool} {letters : List Char} (apart : Apart isDigit letters)
    (isRun : Run isDigit whole) (isSuffix : Suffix ['l', 'L'] mark)
    (ended : rest.head?.any isWordCharacter = false)
    (pointless : mark = [] → rest.head?.any (· == '.') = false) :
    Composed isDigit letters whole [] [] (mark ++ rest) where
  isRun := isRun
  isFraction := .absent
  isExponent := .inl rfl
  ended _ := isSuffix.any_head? apart.long fun _ => any_head?_of_imp apart.word ended
  unmarked _ := isSuffix.any_head? apart.longless fun _ => any_head?_of_imp apart.words ended
  pointless _ _ := isSuffix.any_head? (by decide) pointless
  exponentEnded filled := absurd rfl filled

theorem composed_floating (isRun : Run Char.isDigit whole)
    (isFraction : Fraction Char.isDigit fraction)
    (isExponent : exponent = [] ∨ Exponent ['e', 'E'] exponent)
    (isSuffix : Suffix ['f', 'F', 'd', 'D'] mark) (filled : fraction ++ (exponent ++ mark) ≠ [])
    (ended : rest.head?.any isWordCharacter = false) :
    Composed Char.isDigit ['e', 'E'] whole fraction exponent (mark ++ rest) := by
  have digitless : (mark ++ rest).head?.any (continues Char.isDigit) = false :=
    isSuffix.any_head? (by decide) fun _ => any_head?_of_imp apart_decimal.word ended
  refine ⟨isRun, isFraction, isExponent, fun _ => digitless, fun _ => ?_, fun bare none => ?_,
    fun _ => digitless⟩
  · exact isSuffix.any_head? (by decide) fun _ => any_head?_of_imp apart_decimal.words ended
  · refine isSuffix.any_head? (by decide) fun unmarked => absurd ?_ filled
    rw [bare, none, unmarked]
    rfl

theorem composed_hexadecimalFloating (isRun : Run isHexDigit whole)
    (isFraction : Fraction isHexDigit fraction) (isExponent : Exponent ['p', 'P'] exponent)
    (isSuffix : Suffix ['f', 'F', 'd', 'D'] mark)
    (ended : rest.head?.any isWordCharacter = false) :
    Composed isHexDigit ['p', 'P'] whole fraction exponent (mark ++ rest) where
  isRun := isRun
  isFraction := isFraction
  isExponent := .inr isExponent
  ended none := absurd none isExponent.ne_nil
  unmarked none := absurd none isExponent.ne_nil
  pointless _ none := absurd none isExponent.ne_nil
  exponentEnded _ :=
    isSuffix.any_head? (by decide) fun _ => any_head?_of_imp apart_decimal.word ended

/-- Every number literal is read, where a number may end behind it. -/
theorem scan?_of_literal {literal : List Char} (isLiteral : Literal found literal)
    (ended : rest.head?.any isWordCharacter = false)
    (pointless : rest.head? = some '.' → ¬Whole literal) :
    scan? (literal ++ rest) = some (found, literal) := by
  have bare : Whole literal → rest.head?.any (· == '.') = false := by
    intro isWhole
    rw [Bool.eq_false_iff]
    intro starts
    exact pointless (any_head?_point.mp starts) isWhole
  cases isLiteral with
  | decimal isRun filled isSuffix =>
      have composed := composed_whole apart_decimal isRun isSuffix ended fun unmarked =>
        bare (by simpa [unmarked] using Whole.decimal isRun)
      simpa using scan?_of_composed_decimal composed (.integer rfl isSuffix) ended
  | hexadecimal marked isRun digit isSuffix =>
      have composed := composed_whole apart_hexadecimal isRun isSuffix ended fun unmarked =>
        bare (by simpa [unmarked] using Whole.hexadecimal marked isRun)
      simpa using scan?_of_composed_hexadecimal marked composed (by simpa using digit)
        (fun _ => rfl) (.integer rfl isSuffix) ended
  | @binary base whole mark marked isRun digit isSuffix =>
      have digitless : (mark ++ rest).head?.any (continues isBinaryDigit) = false :=
        isSuffix.any_head? (by decide) fun _ => any_head?_of_imp (fun _ inside =>
          isWordCharacter_of_continues (continues_of_isBinaryDigit inside)) ended
      simpa using scan?_of_binary marked isRun digit digitless (.integer rfl isSuffix) ended
  | @floating whole fraction exponent mark isRun isFraction isExponent isSuffix filled =>
      have composed := composed_floating isRun isFraction isExponent isSuffix filled ended
      have real : (!fraction.isEmpty || !exponent.isEmpty) = true ∨ true = true ∧ mark ≠ [] := by
        simpa [or_assoc, imp_iff_not_or] using filled
      simpa using scan?_of_composed_decimal composed (.floating isSuffix real) ended
  | @hexadecimalFloating base whole fraction exponent mark marked isRun isFraction digit isExponent
      isSuffix =>
      have filled := isExponent.ne_nil
      have composed := composed_hexadecimalFloating isRun isFraction isExponent isSuffix ended
      simpa using scan?_of_composed_hexadecimal marked composed digit
        (fun none => absurd none filled) (.floating isSuffix (.inl (by simpa using filled))) ended

/-! ## What is read is a literal -/

/-- What may be digits altogether has neither a fraction nor an exponent, so that no point stands
behind it. -/
theorem Composed.head?_ne_point {isDigit : Char → Bool} {letters : List Char}
    (apart : Apart isDigit letters)
    (composed : Composed isDigit letters whole fraction exponent (mark ++ rest))
    (inside : ∀ character ∈ fraction ++ (exponent ++ mark), continues isDigit character = true)
    (outside : exponent = [] → mark.any (continues isDigit) = false) : rest.head? ≠ some '.' := by
  have bare : fraction = [] := by
    cases composed.isFraction with
    | absent => rfl
    | point _ =>
        have digit := inside '.' (by simp)
        rw [apart.point] at digit
        cases digit
  have none : exponent = [] := by
    rcases composed.isExponent with none | isExponent
    · exact none
    · cases isExponent with
      | @intro letter _ _ marked =>
          exact absurd (inside letter (by simp))
            (List.any_eq_false.mp apart.digitless letter marked)
  have unmarked : mark = [] := by
    rw [List.eq_nil_iff_forall_not_mem]
    intro character member
    exact List.any_eq_false.mp (outside none) character member (inside character (by simp [member]))
  have pointless := composed.pointless bare none
  rw [unmarked, List.nil_append] at pointless
  rw [Ne, ← any_head?_point, pointless]
  simp

theorem Run.of_append {isDigit : Char → Bool} {left right : List Char}
    (isRun : Run isDigit (left ++ right)) :
    ∀ character ∈ right, continues isDigit character = true :=
  fun character member => isRun.inside character (List.mem_append_right left member)

theorem Suffix.any_eq_false {letters : List Char} (isSuffix : Suffix letters mark)
    {belongs : Char → Bool} (outside : letters.any belongs = false) : mark.any belongs = false := by
  rcases isSuffix with rfl | ⟨letter, member, rfl⟩
  · rfl
  · simpa using List.any_eq_false.mp outside letter member

/-- A number that ends in front of a point is not a whole part alone. -/
theorem Composed.not_whole_decimal
    (composed : Composed Char.isDigit ['e', 'E'] whole fraction exponent (mark ++ rest))
    {body : Body} (classed : Classed body found mark) (point : rest.head? = some '.')
    (based : hasBase (whole ++ (fraction ++ (exponent ++ mark))) = false) :
    ¬Whole (whole ++ (fraction ++ (exponent ++ mark))) := by
  intro isWhole
  have outside : mark.any (continues Char.isDigit) = false := by
    cases classed with
    | integer _ isSuffix => exact isSuffix.any_eq_false (by decide)
    | floating isSuffix _ => exact isSuffix.any_eq_false (by decide)
  generalize same : whole ++ (fraction ++ (exponent ++ mark)) = literal at isWhole based
  cases isWhole with
  | decimal isRun =>
      subst same
      exact composed.head?_ne_point apart_decimal isRun.of_append (fun _ => outside) point
  | hexadecimal marked _ =>
      rw [hasBase_cons, List.head?_cons, Option.any_some] at based
      fin_cases marked <;> cases based

theorem Composed.not_whole_hexadecimal {base : Char} (marked : base ∈ ['x', 'X'])
    (composed : Composed isHexDigit ['p', 'P'] whole fraction exponent (mark ++ rest))
    {taken behind : List Char}
    (classed : Classed ⟨!exponent.isEmpty, false, taken, behind⟩ found mark)
    (point : rest.head? = some '.') :
    ¬Whole ('0' :: base :: (whole ++ (fraction ++ (exponent ++ mark)))) := by
  intro isWhole
  have outside : exponent = [] → mark.any (continues isHexDigit) = false := by
    rintro rfl
    cases classed with
    | integer _ isSuffix => exact isSuffix.any_eq_false (by decide)
    | floating _ real => simp at real
  generalize same : '0' :: base :: (whole ++ (fraction ++ (exponent ++ mark))) = literal at isWhole
  cases isWhole with
  | decimal isRun =>
      subst same
      have digit := isRun.inside base (by simp)
      fin_cases marked <;> cases digit
  | hexadecimal _ isRun =>
      obtain ⟨-, -, rfl⟩ := same
      exact composed.head?_ne_point apart_hexadecimal isRun.of_append outside point

theorem not_whole_binary {base : Char} (marked : base ∈ ['b', 'B']) (behind : List Char) :
    ¬Whole ('0' :: base :: behind) := by
  intro isWhole
  generalize same : '0' :: base :: behind = literal at isWhole
  cases isWhole with
  | decimal isRun =>
      subst same
      have digit := isRun.inside base (by simp)
      fin_cases marked <;> cases digit
  | hexadecimal marked' _ =>
      obtain ⟨-, rfl, -⟩ := same
      fin_cases marked <;> revert marked' <;> decide

theorem Composed.literal_decimal
    (composed : Composed Char.isDigit ['e', 'E'] whole fraction exponent (mark ++ rest))
    {taken behind : List Char}
    (classed : Classed ⟨!fraction.isEmpty || !exponent.isEmpty, true, taken, behind⟩ found mark)
    (starts : startsNumber (whole ++ (fraction ++ (exponent ++ (mark ++ rest)))) = true) :
    Literal found (whole ++ (fraction ++ (exponent ++ mark))) := by
  cases classed with
  | integer isInteger isSuffix =>
      obtain ⟨rfl, rfl⟩ : fraction = [] ∧ exponent = [] := by simpa using isInteger
      refine .decimal composed.isRun ?_ isSuffix
      rintro rfl
      have digitless := composed.ended rfl
      have pointless := composed.pointless rfl rfl
      cases behind : mark ++ rest with
      | nil => simp [behind, startsNumber] at starts
      | cons first after =>
          have marked := isDigit_or_point_of_startsNumber (by simpa [behind] using starts)
          rw [behind, List.head?_cons, Option.any_some] at digitless pointless
          rw [continues, Bool.or_eq_false_iff] at digitless
          rw [digitless.1, pointless] at marked
          cases marked
  | floating isSuffix real =>
      exact .floating composed.isRun composed.isFraction composed.isExponent isSuffix
        (by simpa [or_assoc, imp_iff_not_or] using real)

theorem Composed.literal_hexadecimal {base : Char} (marked : base ∈ ['x', 'X'])
    (composed : Composed isHexDigit ['p', 'P'] whole fraction exponent (mark ++ rest))
    (digit : HasDigit isHexDigit (whole ++ fraction)) (complete : exponent = [] → fraction = [])
    {taken behind : List Char}
    (classed : Classed ⟨!exponent.isEmpty, false, taken, behind⟩ found mark) :
    Literal found ('0' :: base :: (whole ++ (fraction ++ (exponent ++ mark)))) := by
  cases classed with
  | integer isInteger isSuffix =>
      obtain rfl : exponent = [] := by simpa using isInteger
      obtain rfl := complete rfl
      exact .hexadecimal marked composed.isRun (by simpa using digit) isSuffix
  | floating isSuffix real =>
      have filled : exponent ≠ [] := by simpa using real
      exact .hexadecimalFloating marked composed.isRun composed.isFraction digit
        (composed.isExponent.resolve_left filled) isSuffix

theorem hasBase_of_append {front : List Char} (behind : List Char)
    (plain : hasBase (front ++ behind) = false) : hasBase front = false := by
  have cut : Cut (front ++ behind) front := by
    simpa using (Cut.here rfl : Cut behind []).append front
  rw [Bool.eq_false_iff] at plain ⊢
  exact fun based => plain (hasBase_of_cut cut based)

theorem exists_base {text : List Char} (based : hasBase text = true) :
    ∃ base rest, text = '0' :: base :: rest ∧ (base ∈ ['x', 'X'] ∨ base ∈ ['b', 'B']) := by
  unfold hasBase at based
  split at based
  · rename_i base rest
    rw [Bool.or_eq_true, decide_eq_true_eq, decide_eq_true_eq, bothCases_x.toLower_eq_iff,
      bothCases_b.toLower_eq_iff] at based
    exact ⟨base, rest, rfl, based⟩
  · cases based

/-- What is read as a number is a literal of its class, and it ends where a number may end. -/
theorem literal_of_scan? {text literal : List Char} (starts : startsNumber text = true)
    (read : scan? text = some (found, literal)) :
    ∃ rest, text = literal ++ rest ∧ Literal found literal ∧
      rest.head?.any isWordCharacter = false ∧ (rest.head? = some '.' → ¬Whole literal) := by
  obtain ⟨floating, decimal, taken, mark, rest, isBody, rfl, classed, ended⟩ :=
    scan?_eq_some_iff_body.mp read
  refine ⟨rest, ?_⟩
  cases based : hasBase text with
  | false =>
      rw [body?_of_hasBase based] at isBody
      obtain ⟨whole, fraction, exponent, behind, rfl, composed, same⟩ :=
        decimal?_eq_some_iff.mp isBody
      cases same
      have isLiteral := composed.literal_decimal classed starts
      have plain : hasBase (whole ++ (fraction ++ (exponent ++ mark))) = false :=
        hasBase_of_append rest (by simpa using based)
      refine ⟨by simp, by simpa using isLiteral, ended, fun point => ?_⟩
      simpa using composed.not_whole_decimal classed point plain
  | true =>
      obtain ⟨base, text, rfl, marked | marked⟩ := exists_base based
      · simp only [body?, bothCases_x.toLower_eq_iff.mpr marked, if_true] at isBody
        obtain ⟨body, isBody, same⟩ := Option.map_eq_some_iff.mp isBody
        obtain ⟨whole, fraction, exponent, behind, rfl, composed, digit, complete, rfl⟩ :=
          hexadecimal?_eq_some_iff.mp isBody
        cases same
        have isLiteral := composed.literal_hexadecimal marked digit complete classed
        refine ⟨by simp, by simpa using isLiteral, ended, fun point => ?_⟩
        simpa using composed.not_whole_hexadecimal marked classed point
      · simp only [body?, bothCases_b.toLower_eq_iff.mpr marked, if_true] at isBody
        obtain ⟨body, isBody, same⟩ := Option.map_eq_some_iff.mp isBody
        obtain ⟨whole, behind, rfl, isRun, digit, _, rfl⟩ := binary?_eq_some_iff.mp isBody
        cases same
        refine ⟨by simp, ?_, ended, fun _ => not_whole_binary marked _⟩
        cases classed with
        | integer _ isSuffix => exact .binary marked isRun digit isSuffix
        | floating _ real => simp at real

/-! ## The language -/

/-- Whether a character may stand in a number literal at all. -/
def isNumberCharacter (character : Char) : Bool :=
  isWordCharacter character || ['.', '+', '-'].contains character

theorem toNat_lt_of_isNumberCharacter {character : Char}
    (number : isNumberCharacter character = true) : character.toNat < 128 := by
  simp only [isNumberCharacter, isWordCharacter, Char.isAlphanum, Char.isAlpha, Char.isUpper,
    Char.isLower, Char.isDigit, Bool.or_eq_true, Bool.and_eq_true, decide_eq_true_eq, beq_iff_eq,
    UInt32.le_iff_toNat_le, ge_iff_le] at number
  have same : character.toNat = character.val.toNat := rfl
  have big : 'Z'.val.toNat = 90 := rfl
  have small : 'z'.val.toNat = 122 := rfl
  have digit : '9'.val.toNat = 57 := rfl
  rcases number with ((alphanumeric | rfl) | rfl) | sign
  · omega
  · decide
  · decide
  · have checked := @of_contains _ (fun character => character.toNat < 128) (by decide) _ sign
    exact of_decide_eq_true checked

theorem Run.all_isNumberCharacter {isDigit : Char → Bool} (isRun : Run isDigit whole)
    (word : ∀ character, continues isDigit character = true → isWordCharacter character = true) :
    whole.all isNumberCharacter = true :=
  List.all_eq_true.mpr fun character member => by
    rw [isNumberCharacter, word character (isRun.inside character member), Bool.true_or]

theorem Fraction.all_isNumberCharacter {isDigit : Char → Bool}
    (isFraction : Fraction isDigit fraction)
    (word : ∀ character, continues isDigit character = true → isWordCharacter character = true) :
    fraction.all isNumberCharacter = true := by
  cases isFraction with
  | absent => rfl
  | point isRun => rw [List.all_cons, isRun.all_isNumberCharacter word]; rfl

theorem Suffix.all_isNumberCharacter {letters : List Char} (isSuffix : Suffix letters mark)
    (checked : letters.all isNumberCharacter = true) : mark.all isNumberCharacter = true := by
  rcases isSuffix with rfl | ⟨letter, member, rfl⟩
  · rfl
  · simpa using List.all_eq_true.mp checked letter member

theorem Exponent.all_isNumberCharacter {letters : List Char}
    (isExponent : Exponent letters exponent) (checked : letters.all isNumberCharacter = true) :
    exponent.all isNumberCharacter = true := by
  cases isExponent with
  | @intro letter sign run marked isSign isRun _ =>
      have signed : sign.all isNumberCharacter = true := by
        fin_cases isSign <;> rfl
      rw [List.all_cons, List.all_append, signed, isRun.all_isNumberCharacter apart_decimal.word,
        List.all_eq_true.mp checked letter marked]
      rfl

theorem Literal.all_isNumberCharacter {literal : List Char} (isLiteral : Literal found literal) :
    literal.all isNumberCharacter = true := by
  have zero : isNumberCharacter '0' = true := by decide
  have hexadecimalMarks : ['x', 'X'].all isNumberCharacter = true := by decide
  have binaryMarks : ['b', 'B'].all isNumberCharacter = true := by decide
  have decimal := apart_decimal.word
  have hexadecimal := apart_hexadecimal.word
  cases isLiteral with
  | decimal isRun _ isSuffix =>
      simp [isRun.all_isNumberCharacter decimal, isSuffix.all_isNumberCharacter (by decide)]
  | hexadecimal marked isRun _ isSuffix =>
      have base := List.all_eq_true.mp hexadecimalMarks _ marked
      simp [zero, base, isRun.all_isNumberCharacter hexadecimal,
        isSuffix.all_isNumberCharacter (by decide)]
  | binary marked isRun _ isSuffix =>
      have base := List.all_eq_true.mp binaryMarks _ marked
      have binary := fun character inside =>
        hexadecimal character (@continues_of_isBinaryDigit character inside)
      simp [zero, base, isRun.all_isNumberCharacter binary,
        isSuffix.all_isNumberCharacter (by decide)]
  | @floating _ _ exponent _ isRun isFraction isExponent isSuffix _ =>
      have checked : exponent.all isNumberCharacter = true := by
        rcases isExponent with rfl | isExponent
        · rfl
        · exact isExponent.all_isNumberCharacter (by decide)
      simp [isRun.all_isNumberCharacter decimal, isFraction.all_isNumberCharacter decimal, checked,
        isSuffix.all_isNumberCharacter (by decide)]
  | hexadecimalFloating marked isRun isFraction _ isExponent isSuffix =>
      have base := List.all_eq_true.mp hexadecimalMarks _ marked
      simp [zero, base, isRun.all_isNumberCharacter hexadecimal,
        isFraction.all_isNumberCharacter hexadecimal, isExponent.all_isNumberCharacter (by decide),
        isSuffix.all_isNumberCharacter (by decide)]

/-- Where a number starts, the scanner reads exactly the literals of the grammar that end where a
number may end, each with its class.  Behind a whole part alone a point would go on with the
number.  What it reads goes at least as far as what made it start, and all of it is ASCII, so that
it has as many bytes as characters. -/
theorem scan?_exactly_literals {text : List Char} (starts : startsNumber text = true)
    (found : NumberClass) (literal : List Char) :
    (scan? text = some (found, literal) ↔ ∃ rest, text = literal ++ rest ∧ Literal found literal ∧
      rest.head?.any isWordCharacter = false ∧ (rest.head? = some '.' → ¬Whole literal)) ∧
    (scan? text = some (found, literal) →
      (if text.head? = some '.' then 2 else 1) ≤ literal.length ∧ literal.length ≤ text.length ∧
        ∀ character ∈ literal, character.toNat < 128) := by
  refine ⟨⟨literal_of_scan? starts, ?_⟩, fun read => ?_⟩
  · rintro ⟨rest, rfl, isLiteral, ended, maximal⟩
    exact scan?_of_literal isLiteral ended maximal
  · have again := startsNumber_of_scan? starts read
    obtain ⟨rest, rfl, isLiteral, -, -⟩ := literal_of_scan? starts read
    refine ⟨?_, by simp, fun character member => ?_⟩
    · cases literal with
      | nil => cases again
      | cons first literal =>
          cases literal with
          | nil =>
              have other : first ≠ '.' := by
                rintro rfl
                cases again
              simp [other]
          | cons second literal => split <;> simp
    · exact toNat_lt_of_isNumberCharacter
        (List.all_eq_true.mp isLiteral.all_isNumberCharacter character member)

theorem scan?_exactly_literals_hexadecimalFloating :
    startsNumber "0x1.8p-3f*2".toList = true ∧
      (∃ rest, "0x1.8p-3f*2".toList = "0x1.8p-3f".toList ++ rest ∧
        Literal .floating "0x1.8p-3f".toList ∧ rest.head?.any isWordCharacter = false ∧
          (rest.head? = some '.' → ¬Whole "0x1.8p-3f".toList)) ∧
      ∀ character ∈ "0x1.8p-3f".toList, character.toNat < 128 := by
  have starts : startsNumber "0x1.8p-3f*2".toList = true := by decide
  have read : scan? "0x1.8p-3f*2".toList = some (.floating, "0x1.8p-3f".toList) := by decide
  obtain ⟨exactly, within⟩ := scan?_exactly_literals starts .floating "0x1.8p-3f".toList
  exact ⟨starts, exactly.mp read, (within read).2.2⟩

end JavaSyntax.Lexeme.Number
