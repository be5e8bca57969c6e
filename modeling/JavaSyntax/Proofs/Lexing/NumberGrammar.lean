import JavaSyntax.Proofs.Lexing.Lexemes

/-!
# The grammar of number literals

Integers and floating-point literals are a regular language: runs of digits behind the mark of
a base, a point or the letter of an exponent, and a suffix.  Each reader of the scanner takes
exactly one part of this language off the front of a text, as far as the part goes.
-/

namespace JavaSyntax.Lexeme.Number

/-! ## The grammar -/

/-- Whether a run of digits goes on with a character. -/
def continues (isDigit : Char → Bool) (character : Char) : Bool :=
  isDigit character || character == '_'

/-- Digits and underscores, of which the last is no underscore.  There may be none at all. -/
structure Run (isDigit : Char → Bool) (run : List Char) : Prop where
  inside : ∀ character ∈ run, continues isDigit character = true
  solid : run.getLast? ≠ some '_'

/-- Whether there is a digit in some text. -/
def HasDigit (isDigit : Char → Bool) (text : List Char) : Prop :=
  ∃ character ∈ text, isDigit character = true

/-- A point and a run, or nothing. -/
inductive Fraction (isDigit : Char → Bool) : List Char → Prop where
  | absent : Fraction isDigit []
  | point {run : List Char} : Run isDigit run → Fraction isDigit ('.' :: run)

/-- One of some letters, a sign or none, and decimal digits. -/
inductive Exponent (letters : List Char) : List Char → Prop where
  | intro {mark : Char} {sign run : List Char} :
      mark ∈ letters → sign ∈ [[], ['+'], ['-']] → Run Char.isDigit run →
        HasDigit Char.isDigit run → Exponent letters (mark :: (sign ++ run))

/-- One of some letters, or nothing. -/
def Suffix (letters suffix : List Char) : Prop :=
  suffix = [] ∨ ∃ letter ∈ letters, suffix = [letter]

/-- The number literals of each class. -/
inductive Literal : NumberClass → List Char → Prop where
  | decimal {whole suffix : List Char} :
      Run Char.isDigit whole → whole ≠ [] → Suffix ['l', 'L'] suffix →
        Literal .integer (whole ++ suffix)
  | hexadecimal {mark : Char} {whole suffix : List Char} :
      mark ∈ ['x', 'X'] → Run isHexDigit whole → HasDigit isHexDigit whole →
        Suffix ['l', 'L'] suffix → Literal .integer ('0' :: mark :: (whole ++ suffix))
  | binary {mark : Char} {whole suffix : List Char} :
      mark ∈ ['b', 'B'] → Run isBinaryDigit whole → HasDigit isBinaryDigit whole →
        Suffix ['l', 'L'] suffix → Literal .integer ('0' :: mark :: (whole ++ suffix))
  | floating {whole fraction exponent suffix : List Char} :
      Run Char.isDigit whole → Fraction Char.isDigit fraction →
        (exponent = [] ∨ Exponent ['e', 'E'] exponent) → Suffix ['f', 'F', 'd', 'D'] suffix →
          fraction ++ (exponent ++ suffix) ≠ [] →
            Literal .floating (whole ++ (fraction ++ (exponent ++ suffix)))
  | hexadecimalFloating {mark : Char} {whole fraction exponent suffix : List Char} :
      mark ∈ ['x', 'X'] → Run isHexDigit whole → Fraction isHexDigit fraction →
        HasDigit isHexDigit (whole ++ fraction) → Exponent ['p', 'P'] exponent →
          Suffix ['f', 'F', 'd', 'D'] suffix →
            Literal .floating ('0' :: mark :: (whole ++ (fraction ++ (exponent ++ suffix))))

/-- A whole part and nothing else.  A point behind it would belong to the number. -/
inductive Whole : List Char → Prop where
  | decimal {run : List Char} : Run Char.isDigit run → Whole run
  | hexadecimal {mark : Char} {run : List Char} :
      mark ∈ ['x', 'X'] → Run isHexDigit run → Whole ('0' :: mark :: run)

/-! ## Characters -/

/-- A small letter and the list of it and its capital. -/
structure BothCases (letter : Char) (letters : List Char) : Prop where
  lower : letter.isLower = true
  both : letters = [letter, letter.toUpper]

/-- What is told by a letter in lower case is told by the letter in either case. -/
theorem BothCases.toLower_eq_iff {letter : Char} {letters : List Char}
    (cases : BothCases letter letters) {character : Char} :
    character.toLower = letter ↔ character ∈ letters := by
  have small : letter.toLower = letter :=
    Char.toLower_eq_of_not_isUpper (Char.not_isUpper_of_isLower cases.lower)
  rw [cases.both, List.mem_cons, List.mem_singleton]
  constructor
  · intro same
    by_cases upper : character.isUpper = true
    · have big : character.toUpper = character :=
        Char.toUpper_eq_of_not_isLower (Char.not_isLower_of_isUpper upper)
      exact .inr (by rw [← same, Char.toUpper_toLower_eq_toUpper, big])
    · exact .inl (by rw [← same, Char.toLower_eq_of_not_isUpper upper])
  · rintro (rfl | rfl)
    · exact small
    · rw [Char.toLower_toUpper_eq_toLower, small]

/-- What is checked of some letters holds of each of them. -/
theorem of_contains {letters : List Char} {belongs : Char → Bool}
    (checked : letters.all belongs = true) {character : Char}
    (member : letters.contains character = true) : belongs character = true :=
  List.all_eq_true.mp checked character (List.contains_iff_mem.mp member)

theorem any_head?_point {rest : List Char} :
    rest.head?.any (· == '.') = true ↔ rest.head? = some '.' := by
  cases rest <;> simp

theorem any_head?_of_imp {belongs wider : Char → Bool} {rest : List Char}
    (imp : ∀ character, belongs character = true → wider character = true)
    (ended : rest.head?.any wider = false) : rest.head?.any belongs = false := by
  cases rest with
  | nil => rfl
  | cons first rest =>
      rw [List.head?_cons, Option.any_some, Bool.eq_false_iff] at ended ⊢
      exact fun inside => ended (imp first inside)

theorem isWordCharacter_of_isHexDigit {character : Char} (digit : isHexDigit character = true) :
    isWordCharacter character = true := by
  simp only [isHexDigit, Bool.or_eq_true, Bool.and_eq_true, decide_eq_true_eq, Char.le_def,
    UInt32.le_iff_toNat_le] at digit
  simp only [isWordCharacter, Char.isAlphanum, Char.isAlpha, Char.isUpper, Char.isLower,
    Bool.or_eq_true, Bool.and_eq_true, decide_eq_true_eq, UInt32.le_iff_toNat_le, ge_iff_le]
  have small : 'f'.val.toNat ≤ 'z'.val.toNat := by decide
  have big : 'F'.val.toNat ≤ 'Z'.val.toNat := by decide
  rcases digit with (digit | digit) | digit
  · exact .inl (.inl (.inr digit))
  · exact .inl (.inl (.inl (.inr (by omega))))
  · exact .inl (.inl (.inl (.inl (by omega))))

theorem isWordCharacter_of_continues {character : Char}
    (inside : continues isHexDigit character = true) : isWordCharacter character = true := by
  rcases Bool.or_eq_true .. |>.mp inside with digit | underscore
  · exact isWordCharacter_of_isHexDigit digit
  · obtain rfl := beq_iff_eq.mp underscore
    rfl

theorem continues_of_isDigit {character : Char}
    (inside : continues Char.isDigit character = true) : continues isHexDigit character = true := by
  rcases Bool.or_eq_true .. |>.mp inside with digit | underscore
  · simp [continues, isHexDigit, digit]
  · simp [continues, underscore]

theorem continues_of_isBinaryDigit {character : Char}
    (inside : continues isBinaryDigit character = true) :
    continues isHexDigit character = true := by
  simp only [continues, isBinaryDigit, Bool.or_eq_true, beq_iff_eq] at inside
  obtain (rfl | rfl) | rfl := inside <;> rfl

/-- A sort of digits and the letters of an exponent that can be told apart from each other, from
a point and from the suffix of an integer.  Where either stands no number may end. -/
structure Apart (isDigit : Char → Bool) (letters : List Char) : Prop where
  point : continues isDigit '.' = false
  digitless : letters.any (continues isDigit) = false
  pointless : letters.any (· == '.') = false
  long : ['l', 'L'].any (continues isDigit) = false
  longless : ['l', 'L'].any letters.contains = false
  word : ∀ character, continues isDigit character = true → isWordCharacter character = true
  words : ∀ character, letters.contains character = true → isWordCharacter character = true

theorem apart_decimal : Apart Char.isDigit ['e', 'E'] where
  point := by decide
  digitless := by decide
  pointless := by decide
  long := by decide
  longless := by decide
  word _ inside := isWordCharacter_of_continues (continues_of_isDigit inside)
  words _ := of_contains (by decide)

theorem apart_hexadecimal : Apart isHexDigit ['p', 'P'] where
  point := by decide
  digitless := by decide
  pointless := by decide
  long := by decide
  longless := by decide
  word _ := isWordCharacter_of_continues
  words _ := of_contains (by decide)

/-! ## Runs, fractions and exponents -/

theorem digits?_eq_some_iff_run {isDigit : Char → Bool} {text run rest : List Char} :
    digits? isDigit text = some (run, rest) ↔ text = run ++ rest ∧ Run isDigit run ∧
      rest.head?.any (continues isDigit) = false := by
  rw [digits?_eq_some_iff]
  constructor
  · rintro ⟨same, inside, ended, solid⟩
    exact ⟨same, ⟨inside, solid⟩, ended⟩
  · rintro ⟨same, ⟨inside, solid⟩, ended⟩
    exact ⟨same, inside, ended, solid⟩

theorem fraction?_eq_some_iff {isDigit : Char → Bool} {text fraction rest : List Char} :
    fraction? isDigit text = some (fraction, rest) ↔ text = fraction ++ rest ∧
      Fraction isDigit fraction ∧ (fraction = [] → rest.head?.any (· == '.') = false) ∧
        (fraction ≠ [] → rest.head?.any (continues isDigit) = false) := by
  constructor
  · intro read
    unfold fraction? at read
    split at read
    · obtain ⟨⟨run, after⟩, digits, same⟩ := Option.map_eq_some_iff.mp read
      cases same
      obtain ⟨rfl, isRun, ended⟩ := digits?_eq_some_iff_run.mp digits
      exact ⟨rfl, .point isRun, nofun, fun _ => ended⟩
    · rename_i pointless
      cases read
      refine ⟨rfl, .absent, fun _ => ?_, fun filled => absurd rfl filled⟩
      cases text with
      | nil => rfl
      | cons first text =>
          have other : first ≠ '.' := fun point => pointless text (point ▸ rfl)
          simpa using other
  · rintro ⟨rfl, isFraction, pointless, ended⟩
    cases isFraction with
    | absent =>
        cases rest with
        | nil => rfl
        | cons first rest =>
            have other : first ≠ '.' := by simpa using pointless rfl
            simp [fraction?, other]
    | @point run isRun =>
        have digits := digits?_eq_some_iff_run.mpr ⟨rfl, isRun, ended (by simp)⟩
        simp [fraction?, digits]

/-- A number has a digit if not all of it is underscores and points. -/
theorem hasDigit_iff {isDigit : Char → Bool} (plain : isDigit '_' = false ∧ isDigit '.' = false)
    {text : List Char}
    (inside : ∀ character ∈ text, (continues isDigit character || character == '.') = true) :
    hasDigit text = true ↔ HasDigit isDigit text := by
  rw [hasDigit, List.any_eq_true]
  refine exists_congr fun character => and_congr_right fun member => ?_
  have kind := inside character member
  simp only [Bool.and_eq_true, bne_iff_ne]
  constructor
  · rintro ⟨solid, pointless⟩
    simpa [continues, solid, pointless] using kind
  · intro digit
    refine ⟨?_, ?_⟩ <;> rintro rfl <;> simp [digit] at plain

theorem Run.hasDigit_iff {isDigit : Char → Bool}
    (plain : isDigit '_' = false ∧ isDigit '.' = false) {run : List Char}
    (isRun : Run isDigit run) :
    hasDigit run = true ↔ HasDigit isDigit run :=
  Number.hasDigit_iff plain fun character member => by
    rw [isRun.inside character member, Bool.true_or]

theorem Fraction.inside {isDigit : Char → Bool} {fraction : List Char}
    (isFraction : Fraction isDigit fraction) :
    ∀ character ∈ fraction, (continues isDigit character || character == '.') = true := by
  cases isFraction with
  | absent => simp
  | point isRun =>
      rintro character (_ | ⟨_, member⟩)
      · simp
      · rw [isRun.inside character member, Bool.true_or]

theorem plain_isDigit : Char.isDigit '_' = false ∧ Char.isDigit '.' = false := by
  decide

/-- A sign is taken off in front of a run that is not empty. -/
theorem sign_append {signed run : List Char} (isSign : signed ∈ [[], ['+'], ['-']])
    (isRun : Run Char.isDigit run) (filled : run ≠ []) (rest : List Char) :
    sign (signed ++ (run ++ rest)) = (signed, run ++ rest) := by
  obtain ⟨first, run, rfl⟩ := List.exists_cons_of_ne_nil filled
  have digit := isRun.inside first List.mem_cons_self
  have unsigned : first ≠ '+' ∧ first ≠ '-' := by
    constructor <;> rintro rfl <;> cases digit
  simp only [List.mem_cons, List.not_mem_nil, or_false] at isSign
  obtain rfl | rfl | rfl := isSign
  · simp [sign, unsigned.1, unsigned.2]
  · rfl
  · rfl

theorem exists_sign (text : List Char) :
    ∃ signed rest, sign text = (signed, rest) ∧ text = signed ++ rest ∧
      signed ∈ [[], ['+'], ['-']] := by
  unfold sign
  split
  · exact ⟨_, _, rfl, rfl, by simp⟩
  · exact ⟨_, _, rfl, rfl, by simp⟩
  · exact ⟨_, _, rfl, rfl, by simp⟩

theorem exponent?_eq_some_iff {letter : Char} {letters : List Char}
    (cases : BothCases letter letters) {text exponent rest : List Char} :
    exponent? letter text = some (exponent, rest) ↔ text = exponent ++ rest ∧
      (exponent = [] ∧ rest.head?.any letters.contains = false ∨
        Exponent letters exponent ∧ rest.head?.any (continues Char.isDigit) = false) := by
  constructor
  · intro read
    cases text with
    | nil =>
        cases read
        exact ⟨rfl, .inl ⟨rfl, rfl⟩⟩
    | cons first text =>
        simp only [exponent?] at read
        split at read
        · rename_i marked
          obtain ⟨signed, unsigned, isSign, rfl, oneSign⟩ := exists_sign text
          simp only [isSign, Option.bind_eq_bind, Option.bind_eq_some_iff] at read
          obtain ⟨⟨run, after⟩, digits, _, guarded, same⟩ := read
          cases same
          obtain ⟨rfl, isRun, ended⟩ := digits?_eq_some_iff_run.mp digits
          have digit : hasDigit run = true := by
            simpa [guard, Option.ite_none_right_eq_some] using guarded
          refine ⟨by simp, .inr ⟨.intro (cases.toLower_eq_iff.mp marked) oneSign isRun ?_, ended⟩⟩
          exact (isRun.hasDigit_iff plain_isDigit).mp digit
        · rename_i unmarked
          cases read
          refine ⟨rfl, .inl ⟨rfl, ?_⟩⟩
          rw [cases.toLower_eq_iff] at unmarked
          simpa using unmarked
  · rintro ⟨rfl, ⟨rfl, unmarked⟩ | ⟨isExponent, ended⟩⟩
    · cases rest with
      | nil => rfl
      | cons first rest =>
          have other : first.toLower ≠ letter := by
            rw [Ne, cases.toLower_eq_iff]
            simpa using unmarked
          simp [exponent?, other]
    · cases isExponent with
      | @intro mark signed run marked oneSign isRun digit =>
          have filled : run ≠ [] := by
            rintro rfl
            obtain ⟨_, member, _⟩ := digit
            cases member
          have someDigit := (isRun.hasDigit_iff plain_isDigit).mpr digit
          have signs := sign_append oneSign isRun filled rest
          have digits := digits?_eq_some_iff_run.mpr ⟨rfl, isRun, ended⟩
          simp only [List.cons_append, List.append_assoc, exponent?,
            cases.toLower_eq_iff.mpr marked, if_true, signs, digits, Option.bind_eq_bind,
            Option.bind_some, someDigit]
          rfl

/-! ## Numbers without their suffix -/

/-- A whole part, a fraction and an exponent, and a text behind them that none of them goes on
with. -/
structure Composed (isDigit : Char → Bool) (letters whole fraction exponent rest : List Char) :
    Prop where
  isRun : Run isDigit whole
  isFraction : Fraction isDigit fraction
  isExponent : exponent = [] ∨ Exponent letters exponent
  /-- The whole part or the fraction ends here. -/
  ended : exponent = [] → rest.head?.any (continues isDigit) = false
  /-- No exponent starts here. -/
  unmarked : exponent = [] → rest.head?.any letters.contains = false
  /-- No fraction starts here. -/
  pointless : fraction = [] → exponent = [] → rest.head?.any (· == '.') = false
  /-- The exponent ends here. -/
  exponentEnded : exponent ≠ [] → rest.head?.any (continues Char.isDigit) = false

theorem Exponent.ne_nil {letters exponent : List Char} (isExponent : Exponent letters exponent) :
    exponent ≠ [] := by
  cases isExponent
  exact List.cons_ne_nil _ _

theorem Exponent.any_head? {letters exponent : List Char} (isExponent : Exponent letters exponent)
    {belongs : Char → Bool} (outside : letters.any belongs = false) (rest : List Char) :
    (exponent ++ rest).head?.any belongs = false := by
  cases isExponent with
  | intro marked =>
      rw [List.any_eq_false] at outside
      simpa using outside _ marked

/-- What stands behind a fraction starts with a letter of an exponent or with what stands behind
that. -/
theorem Composed.any_head? {isDigit : Char → Bool}
    {letters whole fraction exponent rest : List Char}
    (composed : Composed isDigit letters whole fraction exponent rest) {belongs : Char → Bool}
    (outside : letters.any belongs = false)
    (next : exponent = [] → rest.head?.any belongs = false) :
    (exponent ++ rest).head?.any belongs = false := by
  rcases composed.isExponent with rfl | isExponent
  · exact next rfl
  · exact isExponent.any_head? outside rest

theorem Fraction.any_head? {isDigit : Char → Bool} {fraction : List Char}
    (isFraction : Fraction isDigit fraction) {belongs : Char → Bool} (outside : belongs '.' = false)
    {rest : List Char} (next : fraction = [] → rest.head?.any belongs = false) :
    (fraction ++ rest).head?.any belongs = false := by
  cases isFraction with
  | absent => exact next rfl
  | point _ => simpa using outside

/-- The three readers, one behind the other, take a number apart into what it is composed of. -/
theorem composed_iff {isDigit : Char → Bool} {letter : Char} {letters : List Char}
    (cases : BothCases letter letters) (apart : Apart isDigit letters)
    {text whole fraction exponent rest : List Char} :
    (∃ r₁, digits? isDigit text = some (whole, r₁) ∧
      ∃ r₂, fraction? isDigit r₁ = some (fraction, r₂) ∧
        exponent? letter r₂ = some (exponent, rest)) ↔
      text = whole ++ (fraction ++ (exponent ++ rest)) ∧
        Composed isDigit letters whole fraction exponent rest := by
  constructor
  · rintro ⟨r₁, wholes, r₂, fractions, exponents⟩
    obtain ⟨rfl, isRun, ended⟩ := digits?_eq_some_iff_run.mp wholes
    obtain ⟨rfl, isFraction, pointless, ended'⟩ := fraction?_eq_some_iff.mp fractions
    obtain ⟨rfl, isExponent⟩ := (exponent?_eq_some_iff cases).mp exponents
    refine ⟨rfl, ?_⟩
    rcases isExponent with ⟨rfl, unmarked⟩ | ⟨isExponent, ended''⟩
    · refine ⟨isRun, isFraction, .inl rfl, fun _ => ?_, fun _ => unmarked,
        fun bare _ => pointless bare, fun filled => absurd rfl filled⟩
      by_cases bare : fraction = []
      · simpa [bare] using ended
      · exact ended' bare
    · have filled := isExponent.ne_nil
      exact ⟨isRun, isFraction, .inr isExponent, fun none => absurd none filled,
        fun none => absurd none filled, fun _ none => absurd none filled, fun _ => ended''⟩
  · rintro ⟨rfl, composed⟩
    have further : (exponent ++ rest).head?.any (continues isDigit) = false :=
      composed.any_head? apart.digitless composed.ended
    refine ⟨fraction ++ (exponent ++ rest), ?_, exponent ++ rest, ?_, ?_⟩
    · exact digits?_eq_some_iff_run.mpr ⟨rfl, composed.isRun,
        composed.isFraction.any_head? apart.point fun _ => further⟩
    · exact fraction?_eq_some_iff.mpr ⟨rfl, composed.isFraction, fun bare =>
        composed.any_head? apart.pointless (composed.pointless bare), fun _ => further⟩
    · refine (exponent?_eq_some_iff cases).mpr ⟨rfl, ?_⟩
      rcases composed.isExponent with rfl | isExponent
      · exact .inl ⟨rfl, composed.unmarked rfl⟩
      · exact .inr ⟨isExponent, composed.exponentEnded isExponent.ne_nil⟩

theorem bothCases_e : BothCases 'e' ['e', 'E'] := ⟨by decide, by decide⟩

theorem bothCases_p : BothCases 'p' ['p', 'P'] := ⟨by decide, by decide⟩

theorem bothCases_x : BothCases 'x' ['x', 'X'] := ⟨by decide, by decide⟩

theorem bothCases_b : BothCases 'b' ['b', 'B'] := ⟨by decide, by decide⟩

theorem bothCases_l : BothCases 'l' ['l', 'L'] := ⟨by decide, by decide⟩

theorem bothCases_f : BothCases 'f' ['f', 'F'] := ⟨by decide, by decide⟩

theorem bothCases_d : BothCases 'd' ['d', 'D'] := ⟨by decide, by decide⟩

theorem decimal?_eq_some_iff {text : List Char} {body : Body} :
    decimal? text = some body ↔ ∃ whole fraction exponent rest,
      text = whole ++ (fraction ++ (exponent ++ rest)) ∧
        Composed Char.isDigit ['e', 'E'] whole fraction exponent rest ∧
          body = ⟨!fraction.isEmpty || !exponent.isEmpty, true, whole ++ fraction ++ exponent,
            rest⟩ := by
  simp only [decimal?, Option.bind_eq_bind, Option.bind_eq_some_iff, Prod.exists, Option.some.injEq]
  constructor
  · rintro ⟨whole, r₁, wholes, fraction, r₂, fractions, exponent, rest, exponents, rfl⟩
    obtain ⟨same, composed⟩ :=
      (composed_iff bothCases_e apart_decimal).mp ⟨r₁, wholes, r₂, fractions, exponents⟩
    exact ⟨whole, fraction, exponent, rest, same, composed, rfl⟩
  · rintro ⟨whole, fraction, exponent, rest, same, composed, rfl⟩
    obtain ⟨r₁, wholes, r₂, fractions, exponents⟩ :=
      (composed_iff bothCases_e apart_decimal).mpr ⟨same, composed⟩
    exact ⟨whole, r₁, wholes, fraction, r₂, fractions, exponent, rest, exponents, rfl⟩

theorem plain_isHexDigit : isHexDigit '_' = false ∧ isHexDigit '.' = false := by
  decide

theorem Composed.hasDigit_iff {whole fraction exponent rest letters : List Char}
    (composed : Composed isHexDigit letters whole fraction exponent rest) :
    (hasDigit whole || hasDigit fraction) = true ↔ HasDigit isHexDigit (whole ++ fraction) := by
  rw [hasDigit, hasDigit, ← List.any_append]
  refine Number.hasDigit_iff plain_isHexDigit fun character member => ?_
  rcases List.mem_append.mp member with inWhole | inFraction
  · rw [composed.isRun.inside character inWhole, Bool.true_or]
  · exact composed.isFraction.inside character inFraction

theorem hexadecimal?_eq_some_iff {text : List Char} {body : Body} :
    hexadecimal? text = some body ↔ ∃ whole fraction exponent rest,
      text = whole ++ (fraction ++ (exponent ++ rest)) ∧
        Composed isHexDigit ['p', 'P'] whole fraction exponent rest ∧
          HasDigit isHexDigit (whole ++ fraction) ∧ (exponent = [] → fraction = []) ∧
            body = ⟨!exponent.isEmpty, false, whole ++ fraction ++ exponent, rest⟩ := by
  simp only [hexadecimal?, Option.bind_eq_bind, Option.bind_eq_some_iff, Prod.exists,
    Option.some.injEq, Option.guard_eq_some']
  constructor
  · rintro ⟨whole, r₁, wholes, fraction, r₂, fractions, _, digit, exponent, rest, exponents, _,
      complete, rfl⟩
    obtain ⟨same, composed⟩ :=
      (composed_iff bothCases_p apart_hexadecimal).mp ⟨r₁, wholes, r₂, fractions, exponents⟩
    refine ⟨whole, fraction, exponent, rest, same, composed, composed.hasDigit_iff.mp digit, ?_,
      rfl⟩
    rintro rfl
    simpa using complete
  · rintro ⟨whole, fraction, exponent, rest, same, composed, digit, complete, rfl⟩
    obtain ⟨r₁, wholes, r₂, fractions, exponents⟩ :=
      (composed_iff bothCases_p apart_hexadecimal).mpr ⟨same, composed⟩
    refine ⟨whole, r₁, wholes, fraction, r₂, fractions, (), composed.hasDigit_iff.mpr digit,
      exponent, rest, exponents, (), ?_, rfl⟩
    by_cases none : exponent = []
    · simp [complete none]
    · simp [none]

theorem plain_isBinaryDigit : isBinaryDigit '_' = false ∧ isBinaryDigit '.' = false := by
  decide

theorem binary?_eq_some_iff {text : List Char} {body : Body} :
    binary? text = some body ↔ ∃ whole rest, text = whole ++ rest ∧ Run isBinaryDigit whole ∧
      HasDigit isBinaryDigit whole ∧ rest.head?.any (continues isBinaryDigit) = false ∧
        body = ⟨false, false, whole, rest⟩ := by
  simp only [binary?, Option.bind_eq_bind, Option.bind_eq_some_iff, Prod.exists,
    Option.some.injEq, Option.guard_eq_some']
  constructor
  · rintro ⟨whole, rest, wholes, _, digit, rfl⟩
    obtain ⟨same, isRun, ended⟩ := digits?_eq_some_iff_run.mp wholes
    exact ⟨whole, rest, same, isRun, (isRun.hasDigit_iff plain_isBinaryDigit).mp digit, ended, rfl⟩
  · rintro ⟨whole, rest, same, isRun, digit, ended, rfl⟩
    exact ⟨whole, rest, digits?_eq_some_iff_run.mpr ⟨same, isRun, ended⟩, (),
      (isRun.hasDigit_iff plain_isBinaryDigit).mpr digit, rfl⟩

/-! ## The suffix and what follows a number -/

/-- The class of a number by its body and its suffix. -/
inductive Classed (body : Body) : NumberClass → List Char → Prop where
  | integer {suffix : List Char} :
      body.floating = false → Suffix ['l', 'L'] suffix → Classed body .integer suffix
  | floating {suffix : List Char} :
      Suffix ['f', 'F', 'd', 'D'] suffix →
        body.floating = true ∨ body.decimal = true ∧ suffix ≠ [] → Classed body .floating suffix

theorem toLower_eq_f_or_d {character : Char} :
    (character.toLower = 'f' ∨ character.toLower = 'd') ↔ character ∈ ['f', 'F', 'd', 'D'] := by
  rw [bothCases_f.toLower_eq_iff, bothCases_d.toLower_eq_iff]
  simp [or_assoc]

/-- Where a number may end there is no suffix. -/
theorem suffix_of_ended {body : Body} (ended : body.rest.head?.any isWordCharacter = false) :
    suffix body = (if body.floating then .floating else .integer, body) := by
  have letters : ∀ character, isWordCharacter character = false →
      character ∉ ['l', 'L'] ∧ character ∉ ['f', 'F', 'd', 'D'] := by
    intro character other
    constructor <;> intro member <;> fin_cases member <;> cases other
  obtain ⟨floating, decimal, taken, rest⟩ := body
  cases rest with
  | nil => rfl
  | cons first rest =>
      obtain ⟨notLong, notReal⟩ := letters first ended
      rw [← bothCases_l.toLower_eq_iff] at notLong
      rw [← toLower_eq_f_or_d, not_or] at notReal
      simp [suffix, notLong, notReal]

theorem suffix_long {decimal : Bool} {taken rest : List Char} {letter : Char}
    (long : letter ∈ ['l', 'L']) :
    suffix ⟨false, decimal, taken, letter :: rest⟩ =
      (.integer, ⟨false, decimal, taken ++ [letter], rest⟩) := by
  simp [suffix, bothCases_l.toLower_eq_iff.mpr long]

theorem suffix_real {floating decimal : Bool} {taken rest : List Char} {letter : Char}
    (real : letter ∈ ['f', 'F', 'd', 'D']) (fits : floating = true ∨ decimal = true) :
    suffix ⟨floating, decimal, taken, letter :: rest⟩ =
      (.floating, ⟨floating, decimal, taken ++ [letter], rest⟩) := by
  have marked := toLower_eq_f_or_d.mpr real
  have short : letter.toLower ≠ 'l' := by
    rintro long
    rcases marked with same | same <;> rw [long] at same <;> revert same <;> decide
  simp [suffix, short, marked, fits.symm]

theorem classed_nil (body : Body) :
    Classed body (if body.floating then .floating else .integer) [] := by
  cases real : body.floating with
  | true => exact .floating (.inl rfl) (.inl real)
  | false => exact .integer real (.inl rfl)

/-- What is taken off as a suffix is one, and it goes with the class. -/
theorem classed_of_suffix {body whole : Body} {found : NumberClass}
    (read : suffix body = (found, whole)) :
    ∃ mark, body.rest = mark ++ whole.rest ∧ whole.taken = body.taken ++ mark ∧
      Classed body found mark := by
  obtain ⟨floating, decimal, taken, rest⟩ := body
  cases rest with
  | nil =>
      cases read
      exact ⟨[], rfl, (List.append_nil _).symm, classed_nil _⟩
  | cons first rest =>
      simp only [suffix, Bool.and_eq_true, Bool.or_eq_true, decide_eq_true_eq,
        Bool.not_eq_true'] at read
      split at read
      · rename_i long
        cases read
        exact ⟨[first], rfl, rfl,
          .integer long.2 (.inr ⟨first, bothCases_l.toLower_eq_iff.mp long.1, rfl⟩)⟩
      · split at read
        · rename_i real
          cases read
          refine ⟨[first], rfl, rfl, .floating (.inr ⟨first, toLower_eq_f_or_d.mp real.1, rfl⟩) ?_⟩
          exact real.2.symm.imp_right fun isDecimal => ⟨isDecimal, by simp⟩
        · cases read
          exact ⟨[], rfl, (List.append_nil _).symm, classed_nil _⟩

/-- The suffix of a number is taken off, where the number may end behind it. -/
theorem Classed.suffix_eq {floating decimal : Bool} {taken mark rest : List Char}
    {found : NumberClass} (classed : Classed ⟨floating, decimal, taken, mark ++ rest⟩ found mark)
    (ended : rest.head?.any isWordCharacter = false) :
    suffix ⟨floating, decimal, taken, mark ++ rest⟩ =
      (found, ⟨floating, decimal, taken ++ mark, rest⟩) := by
  cases classed with
  | integer isInteger isSuffix =>
      obtain rfl : floating = false := isInteger
      rcases isSuffix with rfl | ⟨letter, member, rfl⟩
      · simpa using @suffix_of_ended ⟨false, decimal, taken, rest⟩ ended
      · exact suffix_long member
  | floating isSuffix isFloating =>
      rcases isSuffix with rfl | ⟨letter, member, rfl⟩
      · obtain rfl : floating = true := by simpa using isFloating
        simpa using @suffix_of_ended ⟨true, decimal, taken, rest⟩ ended
      · exact suffix_real member (isFloating.imp_right And.left)

/-- A number is its body and its suffix, and nothing behind it belongs to a word. -/
theorem scan?_eq_some_iff_body {text literal : List Char} {found : NumberClass} :
    scan? text = some (found, literal) ↔ ∃ floating decimal taken mark rest,
      body? text = some ⟨floating, decimal, taken, mark ++ rest⟩ ∧ literal = taken ++ mark ∧
        Classed ⟨floating, decimal, taken, mark ++ rest⟩ found mark ∧
          rest.head?.any isWordCharacter = false := by
  simp only [scan?, Option.bind_eq_bind, Option.bind_eq_some_iff, Option.guard_eq_some']
  constructor
  · rintro ⟨⟨floating, decimal, taken, behind⟩, isBody, _, ended, same⟩
    obtain ⟨⟨class', whole⟩, isWhole⟩ :
        ∃ suffixed, suffix ⟨floating, decimal, taken, behind⟩ = suffixed := ⟨_, rfl⟩
    obtain ⟨mark, rfl, isTaken, classed⟩ := classed_of_suffix isWhole
    rw [isWhole] at same ended
    cases same
    exact ⟨floating, decimal, taken, mark, whole.rest, isBody, isTaken, classed,
      by simpa using ended⟩
  · rintro ⟨floating, decimal, taken, mark, rest, isBody, rfl, classed, ended⟩
    refine ⟨_, isBody, (), ?_, ?_⟩ <;> rw [classed.suffix_eq ended]
    simpa using ended

end JavaSyntax.Lexeme.Number
