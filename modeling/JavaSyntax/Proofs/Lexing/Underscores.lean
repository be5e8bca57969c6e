import JavaSyntax.Proofs.Lexing.NumberLiterals
import JavaSyntax.Proofs.Lexing.Splitting

/-!
# Underscores in number literals

Underscores stand in front of a digit of the part of a literal that they belong to: the scanner
looks at the end of every run of digits.  It does not look at the beginning, so a part may also
begin with them, behind the mark of a base, a point, the letter of an exponent or its sign.
-/

namespace JavaSyntax

namespace Lexeme.Number

/-! ## Runs of underscores -/

/-- Some underscores in a text, as many as there are side by side, and what stands on either
side of them. -/
structure Underscores (text before : List Char) (count : Nat) (after : List Char) : Prop where
  whole : text = before ++ (List.replicate count '_' ++ after)
  positive : count ≠ 0
  first : before.getLast? ≠ some '_'
  last : after.head? ≠ some '_'

/-- Where two texts meet with no underscores on both sides, all underscores of a run are on one
side. -/
theorem Underscores.split {left right before after : List Char} {count : Nat}
    (underscores : Underscores (left ++ right) before count after)
    (seam : left.getLast? = some '_' → right.head? ≠ some '_') :
    (∃ behind, after = behind ++ right ∧ Underscores left before count behind) ∨
      ∃ taken, before = left ++ taken ∧ Underscores right taken count after := by
  obtain ⟨whole, positive, first, last⟩ := underscores
  rcases List.append_eq_append_iff.mp whole with ⟨taken, rfl, same⟩ | ⟨behind, rfl, same⟩
  · refine .inr ⟨taken, rfl, same, positive, fun ended => ?_, last⟩
    exact first (by simp [List.getLast?_append, ended])
  rcases List.append_eq_append_iff.mp same with ⟨behind, rfl, rfl⟩ | ⟨here, marks, rfl⟩
  · refine .inl ⟨behind, rfl, rfl, positive, first, fun starts => ?_⟩
    exact last (by simp [List.head?_append, starts])
  obtain ⟨sized, onLeft, onRight⟩ := List.append_eq_replicate_iff.mp marks.symm
  by_cases none : behind.length = 0
  · obtain rfl := List.eq_nil_of_length_eq_zero none
    exact .inr ⟨[], by simp, by rw [List.nil_append, marks, List.nil_append], positive, nofun, last⟩
  by_cases none' : here.length = 0
  · obtain rfl := List.eq_nil_of_length_eq_zero none'
    rw [List.append_nil] at marks
    exact .inl ⟨[], by simp, by rw [marks, List.append_nil], positive, first, nofun⟩
  rw [onLeft, onRight] at seam
  refine absurd (seam ?_) ?_
  · simp [List.getLast?_append, List.getLast?_replicate, none]
  · simp [List.head?_append, List.head?_replicate, none']

/-- Underscores in a run of digits stand in front of a digit, and behind one if the run does not
begin with them. -/
theorem Run.underscores {isDigit : Char → Bool} {run before after : List Char} {count : Nat}
    (isRun : Run isDigit run) (underscores : Underscores run before count after) :
    after.head?.any isDigit = true ∧
      (before = [] ∧ run.head? = some '_' ∨ before.getLast?.any isDigit = true) := by
  obtain ⟨rfl, positive, first, last⟩ := underscores
  have digit : ∀ character ∈ before ++ after, character ≠ '_' → isDigit character = true := by
    intro character member other
    have inside := isRun.inside character (by grind)
    simpa [continues, other] using inside
  constructor
  · cases after with
    | nil =>
        refine absurd ?_ isRun.solid
        simp [List.getLast?_append, List.getLast?_replicate, positive]
    | cons next after => exact digit next (by simp) (by simpa using last)
  · rcases List.eq_nil_or_concat before with rfl | ⟨before, next, rfl⟩
    · exact .inl ⟨rfl, by simp [List.head?_append, List.head?_replicate, positive]⟩
    · refine .inr ?_
      rw [List.concat_eq_append, List.getLast?_concat] at first ⊢
      exact digit next (by simp) fun same => first (by rw [same])

/-! ## Parts of a literal -/

/-- The digits of the part that goes on behind the front of a literal. -/
def digitsBehind : List Char → Char → Bool
  | '0' :: mark :: inside =>
      if mark ∈ ['x', 'X'] then
        if inside.any ['p', 'P'].contains then Char.isDigit else isHexDigit
      else if mark ∈ ['b', 'B'] then isBinaryDigit else Char.isDigit
  | _ => Char.isDigit

/-- The letters of the exponent that may stand behind the front of a literal. -/
def exponentLetters : List Char → List Char
  | '0' :: mark :: _ => if mark ∈ ['x', 'X'] then ['p', 'P'] else ['e', 'E']
  | _ => ['e', 'E']

/-- The front of a literal up to the beginning of a part that something stands in front of. -/
inductive Opens : List Char → Prop where
  | base {mark : Char} : mark ∈ ['x', 'X', 'b', 'B'] → Opens ['0', mark]
  | point (front : List Char) : Opens (front ++ ['.'])
  | exponent {front sign : List Char} {mark : Char} :
      mark ∈ exponentLetters front → sign ∈ [[], ['+'], ['-']] → Opens (front ++ mark :: sign)

/-- The digits of every part are hexadecimal digits, at least. -/
theorem digitsBehind_cases (before : List Char) :
    digitsBehind before = Char.isDigit ∨ digitsBehind before = isHexDigit ∨
      digitsBehind before = isBinaryDigit := by
  unfold digitsBehind
  grind

theorem baseless_of_hasBase {mark : Char} {inside : List Char}
    (plain : hasBase ('0' :: mark :: inside) = false) : mark ∉ ['x', 'X'] ∧ mark ∉ ['b', 'B'] := by
  rw [hasBase_cons] at plain
  simpa [and_assoc] using plain

theorem digitsBehind_of_hasBase {before : List Char} (plain : hasBase before = false) :
    digitsBehind before = Char.isDigit := by
  unfold digitsBehind
  split
  · rw [if_neg (baseless_of_hasBase plain).1, if_neg (baseless_of_hasBase plain).2]
  · rfl

theorem exponentLetters_of_hasBase {before : List Char} (plain : hasBase before = false) :
    exponentLetters before = ['e', 'E'] := by
  unfold exponentLetters
  split
  · rw [if_neg (baseless_of_hasBase plain).1]
  · rfl

/-- The letter of an exponent is no digit behind the front that it may stand behind. -/
theorem digitsBehind_exponentLetter {front : List Char} {mark : Char}
    (marked : mark ∈ exponentLetters front) : digitsBehind (front ++ [mark]) mark = false := by
  unfold exponentLetters at marked
  split at marked
  · rename_i base inside
    split at marked
    · rename_i hexadecimal
      fin_cases marked <;> simp [digitsBehind, hexadecimal]
    · rename_i decimal
      simp only [List.cons_append, digitsBehind, decimal, if_false]
      fin_cases marked <;> split <;> rfl
  · rename_i other
    have plain : hasBase (front ++ [mark]) = false := by
      rcases front with _ | ⟨first, _ | ⟨second, inside⟩⟩
      · fin_cases marked <;> rfl
      · fin_cases marked <;> simp [hasBase_cons]
      · have nonzero : first ≠ '0' := fun zero => other second inside (by rw [zero])
        rw [List.cons_append, hasBase_cons, beq_false_of_ne nonzero, Bool.false_and]
    rw [digitsBehind_of_hasBase plain]
    fin_cases marked <;> rfl

/-- What opens a part does not end in a digit. -/
theorem Opens.any_getLast? {before : List Char} (opens : Opens before) :
    before.getLast?.any (digitsBehind before) = false := by
  have outside : ∀ sign ∈ ['.', '+', '-'], digitsBehind before sign = false := by
    intro sign member
    rcases digitsBehind_cases before with same | same | same <;> rw [same] <;>
      fin_cases member <;> rfl
  cases opens with
  | base marked => fin_cases marked <;> rfl
  | point front => simpa using outside '.' (by simp)
  | @exponent front sign mark marked isSign =>
      simp only [List.mem_cons, List.not_mem_nil, or_false] at isSign
      rcases isSign with rfl | rfl | rfl
      · rw [List.getLast?_concat, Option.any_some]
        exact digitsBehind_exponentLetter marked
      · simpa [List.getLast?_append] using outside '+' (by simp)
      · simpa [List.getLast?_append] using outside '-' (by simp)

/-- What stands behind the front of a literal: runs of digits, each of the part it belongs to, and
between them text without underscores. -/
inductive Parts : List Char → List Char → Prop where
  | ended (front : List Char) : Parts front []
  | lead {front lead rest : List Char} :
      '_' ∉ lead → Parts (front ++ lead) rest → Parts front (lead ++ rest)
  | run {front run rest : List Char} {isDigit : Char → Bool} :
      Run isDigit run → (∀ taken, taken <+: run → digitsBehind (front ++ taken) = isDigit) →
        (run.head? = some '_' → Opens front) → Parts (front ++ run) rest → Parts front (run ++ rest)

/-- In front of and behind the underscores of some parts stands a digit, unless they open one. -/
theorem Parts.underscores {front text : List Char} (parts : Parts front text)
    {before after : List Char} {count : Nat} (underscores : Underscores text before count after) :
    after.head?.any (digitsBehind (front ++ before)) = true ∧
      (Opens (front ++ before) ∨
        (front ++ before).getLast?.any (digitsBehind (front ++ before)) = true) := by
  induction parts generalizing before after with
  | ended front =>
      obtain ⟨whole, positive, -, -⟩ := underscores
      simp [positive] at whole
  | @lead front lead rest plain _ ih =>
      have seam : lead.getLast? = some '_' → rest.head? ≠ some '_' :=
        fun last => absurd (List.mem_of_getLast? last) plain
      rcases underscores.split seam with ⟨_, -, inLead⟩ | ⟨taken, rfl, inRest⟩
      · rw [inLead.whole] at plain
        exact absurd (by simp [inLead.positive]) plain
      · simpa using ih inRest
  | @run front run rest isDigit isRun digits opened _ ih =>
      have seam : run.getLast? = some '_' → rest.head? ≠ some '_' :=
        fun last => absurd last isRun.solid
      rcases underscores.split seam with ⟨behind, rfl, inRun⟩ | ⟨taken, rfl, inRest⟩
      · obtain ⟨next, previous⟩ := isRun.underscores inRun
        have within : before <+: run := inRun.whole ▸ List.prefix_append ..
        rw [digits before within]
        constructor
        · cases behind with
          | nil => cases next
          | cons first behind => exact next
        · rcases previous with ⟨rfl, first⟩ | previous
          · exact .inl (by simpa using opened first)
          · refine .inr ?_
            rcases List.eq_nil_or_concat before with rfl | ⟨before, last, rfl⟩
            · cases previous
            · simpa [List.getLast?_append] using previous
      · simpa using ih inRest

/-! ## Literals by their parts -/

theorem Suffix.solid {letters suffix : List Char} (isSuffix : Suffix letters suffix)
    (plain : '_' ∉ letters) : '_' ∉ suffix := by
  rcases isSuffix with rfl | ⟨letter, member, rfl⟩
  · simp
  · rw [List.mem_singleton]
    exact fun same => plain (same ▸ member)

theorem Parts.of_solid {front text : List Char} (solid : '_' ∉ text) : Parts front text := by
  simpa using Parts.lead solid (.ended (front ++ text))

theorem Fraction.parts {isDigit : Char → Bool} {front fraction rest : List Char}
    (isFraction : Fraction isDigit fraction)
    (digits : ∀ taken, taken <+: fraction → digitsBehind (front ++ taken) = isDigit)
    (parts : Parts (front ++ fraction) rest) : Parts front (fraction ++ rest) := by
  cases isFraction with
  | absent => simpa using parts
  | @point run isRun =>
      have inRun : Parts (front ++ ['.']) (run ++ rest) := by
        refine .run isRun (fun taken within => ?_) (fun _ => .point front) (by simpa using parts)
        simpa using digits ('.' :: taken) (by simpa using within)
      simpa using Parts.lead (by decide : '_' ∉ ['.']) inRun

theorem Exponent.parts {letters front exponent rest : List Char}
    (isExponent : Exponent letters exponent) (plain : '_' ∉ letters)
    (same : exponentLetters front = letters)
    (digits : ∀ taken, taken ≠ [] → taken <+: exponent →
      digitsBehind (front ++ taken) = Char.isDigit)
    (parts : Parts (front ++ exponent) rest) : Parts front (exponent ++ rest) := by
  cases isExponent with
  | @intro mark sign run marked isSign isRun _ =>
      have inRun : Parts (front ++ mark :: sign) (run ++ rest) := by
        refine .run isRun (fun taken within => ?_) (fun _ => .exponent (same ▸ marked) isSign)
          (by simpa using parts)
        simpa using digits (mark :: (sign ++ taken)) (by simp) (by simpa using within)
      have solid : '_' ∉ mark :: sign := by
        rw [List.mem_cons, not_or]
        refine ⟨fun same => plain (same ▸ marked), ?_⟩
        fin_cases isSign <;> decide
      simpa using Parts.lead solid inRun

/-- What a literal is composed of, part by part, if the front of the literal tells the digits of
each. -/
theorem parts_of_composed {isDigit : Char → Bool}
    {letters front whole fraction exponent mark : List Char} (isRun : Run isDigit whole)
    (isFraction : Fraction isDigit fraction)
    (isExponent : exponent = [] ∨ Exponent letters exponent) (solid : '_' ∉ mark)
    (plain : '_' ∉ letters) (opened : whole.head? = some '_' → Opens front)
    (same : exponentLetters (front ++ (whole ++ fraction)) = letters)
    (digits : ∀ taken, taken <+: whole ++ fraction → digitsBehind (front ++ taken) = isDigit)
    (decimal : ∀ taken, taken ≠ [] → taken <+: exponent →
      digitsBehind (front ++ (whole ++ fraction) ++ taken) = Char.isDigit) :
    Parts front (whole ++ (fraction ++ (exponent ++ mark))) := by
  have inExponent : Parts (front ++ (whole ++ fraction)) (exponent ++ mark) := by
    rcases isExponent with rfl | isExponent
    · exact .of_solid solid
    · exact isExponent.parts plain same decimal (.of_solid solid)
  refine .run isRun (fun taken within => ?_) opened (isFraction.parts (fun taken within => ?_) ?_)
  · exact digits taken (within.trans (List.prefix_append ..))
  · simpa using digits (whole ++ taken) (by simpa using within)
  · simpa using inExponent

variable {whole fraction exponent mark : List Char}

/-- In a decimal literal every part has decimal digits, for no front of it has a base. -/
theorem parts_decimal (isRun : Run Char.isDigit whole) (isFraction : Fraction Char.isDigit fraction)
    (isExponent : exponent = [] ∨ Exponent ['e', 'E'] exponent) (solid : '_' ∉ mark)
    (based : hasBase (whole ++ (fraction ++ (exponent ++ mark))) = false)
    (starts : startsNumber (whole ++ (fraction ++ (exponent ++ mark))) = true) :
    Parts [] (whole ++ (fraction ++ (exponent ++ mark))) := by
  have plain {front : List Char} (within : front <+: whole ++ (fraction ++ (exponent ++ mark))) :
      hasBase front = false := by
    obtain ⟨behind, same⟩ := within
    exact hasBase_of_append behind (same ▸ based)
  have upToExponent : whole ++ fraction <+: whole ++ (fraction ++ (exponent ++ mark)) :=
    ⟨exponent ++ mark, by simp⟩
  have upToMark : whole ++ fraction ++ exponent <+: whole ++ (fraction ++ (exponent ++ mark)) :=
    ⟨mark, by simp⟩
  refine parts_of_composed isRun isFraction isExponent solid (by decide) (fun first => ?_)
    (exponentLetters_of_hasBase (plain upToExponent)) (fun taken within => ?_)
    (fun taken _ within => ?_)
  · cases whole with
    | nil => cases first
    | cons digit whole =>
        cases first
        cases starts
  · exact digitsBehind_of_hasBase (plain (within.trans upToExponent))
  · have further := (List.prefix_append_right_inj (whole ++ fraction)).mpr within
    exact digitsBehind_of_hasBase (plain (further.trans upToMark))

/-- In a hexadecimal literal the digits are hexadecimal up to the letter of the exponent. -/
theorem parts_hexadecimal {base : Char} (marked : base ∈ ['x', 'X']) (isRun : Run isHexDigit whole)
    (isFraction : Fraction isHexDigit fraction)
    (isExponent : exponent = [] ∨ Exponent ['p', 'P'] exponent) (solid : '_' ∉ mark) :
    Parts ['0', base] (whole ++ (fraction ++ (exponent ++ mark))) := by
  have unmarked {taken : List Char} (within : taken <+: whole ++ fraction) :
      taken.any ['p', 'P'].contains = false := by
    rw [List.any_eq_false]
    intro character member letter
    have outside := @of_contains _
      (fun character => !continues isHexDigit character && character != '.')
      (by decide) character letter
    rw [Bool.and_eq_true, Bool.not_eq_true', bne_iff_ne] at outside
    have inside : (continues isHexDigit character || character == '.') = true := by
      rcases List.mem_append.mp (within.subset member) with inWhole | inFraction
      · rw [isRun.inside character inWhole, Bool.true_or]
      · exact isFraction.inside character inFraction
    simp [outside] at inside
  refine parts_of_composed isRun isFraction isExponent solid (by decide) (fun first => ?_) ?_
    (fun taken within => ?_) (fun taken filled within => ?_)
  · exact .base (List.mem_append_left ['b', 'B'] marked)
  · simp [exponentLetters, marked]
  · simp only [List.cons_append, List.nil_append, digitsBehind, marked, if_true, unmarked within,
      Bool.false_eq_true, if_false]
  · rcases isExponent with rfl | isExponent
    · exact absurd (List.prefix_nil.mp within) filled
    · cases isExponent with
      | @intro letter sign run lettered _ _ _ =>
          obtain ⟨first, taken, rfl⟩ := List.exists_cons_of_ne_nil filled
          obtain ⟨rfl, -⟩ := List.cons_prefix_cons.mp within
          have someMark : (whole ++ fraction ++ first :: taken).any ['p', 'P'].contains = true :=
            List.any_eq_true.mpr ⟨first, by simp, List.contains_iff_mem.mpr lettered⟩
          simp only [List.cons_append, List.nil_append, digitsBehind, marked, if_true, someMark]

/-- Every literal that starts a number is made of its parts. -/
theorem Literal.parts {found : NumberClass} {literal : List Char}
    (isLiteral : Literal found literal) (starts : startsNumber literal = true) :
    Parts [] literal := by
  have solid {base : Char} (marked : base ∈ ['x', 'X', 'b', 'B']) : '_' ∉ ['0', base] := by
    fin_cases marked <;> decide
  cases isLiteral with
  | @decimal whole mark isRun _ isSuffix =>
      have composed : Composed Char.isDigit ['e', 'E'] whole [] [] (mark ++ []) :=
        composed_whole apart_decimal isRun isSuffix rfl fun _ => rfl
      have classed : Classed ⟨false, true, [], []⟩ .integer mark := .integer rfl isSuffix
      have based := composed.hasBase_eq_false classed rfl
      simpa using parts_decimal isRun .absent (.inl rfl) (isSuffix.solid (by decide))
        (by simpa using based) (by simpa using starts)
  | hexadecimal marked isRun _ isSuffix =>
      have parts := parts_hexadecimal marked isRun .absent (.inl rfl) (isSuffix.solid (by decide))
      simpa using Parts.lead (solid (List.mem_append_left ['b', 'B'] marked)) parts
  | @binary base whole mark marked isRun _ isSuffix =>
      have other : base ∉ ['x', 'X'] := by fin_cases marked <;> decide
      have parts : Parts ['0', base] (whole ++ mark) := by
        refine .run isRun (fun taken _ => ?_) (fun _ => ?_) (.of_solid (isSuffix.solid (by decide)))
        · simp only [List.cons_append, List.nil_append, digitsBehind, other, marked, if_true,
            if_false]
        · exact .base (List.mem_append_right ['x', 'X'] marked)
      simpa using Parts.lead (solid (List.mem_append_right ['x', 'X'] marked)) parts
  | @floating whole fraction exponent mark isRun isFraction isExponent isSuffix filled =>
      have composed : Composed Char.isDigit ['e', 'E'] whole fraction exponent (mark ++ []) :=
        composed_floating isRun isFraction isExponent isSuffix filled rfl
      have classed : Classed ⟨true, true, [], []⟩ .floating mark := .floating isSuffix (.inl rfl)
      have based := composed.hasBase_eq_false classed rfl
      exact parts_decimal isRun isFraction isExponent (isSuffix.solid (by decide))
        (by simpa using based) starts
  | hexadecimalFloating marked isRun isFraction _ isExponent isSuffix =>
      have parts := parts_hexadecimal marked isRun isFraction (.inr isExponent)
        (isSuffix.solid (by decide))
      simpa using Parts.lead (solid (List.mem_append_left ['b', 'B'] marked)) parts

/-- The underscores of a literal stand in front of a digit of their part, and behind one exactly
if the part does not open with them. -/
theorem Literal.underscores {found : NumberClass} {literal before after : List Char} {count : Nat}
    (isLiteral : Literal found literal) (starts : startsNumber literal = true)
    (underscores : Underscores literal before count after) :
    after.head?.any (digitsBehind before) = true ∧
      (before.getLast?.any (digitsBehind before) = true ↔ ¬Opens before) := by
  obtain ⟨next, previous⟩ := (isLiteral.parts starts).underscores underscores
  refine ⟨next, fun digit opens => ?_, previous.resolve_left⟩
  cases opens.any_getLast?.symm.trans digit

end Lexeme.Number

namespace Lexeme

/-- A token with the kind of a number is a literal of its class. -/
theorem Told.literal {kind : TokenKind} {piece rest : List Char} (told : Told kind piece rest)
    (number : kind ∈ [.integerLiteral, .floatingPointLiteral]) :
    startsNumber piece = true ∧ ∃ found, (RawToken.number found).kind? = some kind ∧
      Number.Literal found piece := by
  have scanned := told.scan_eq
  obtain ⟨first, text, rfl⟩ := List.exists_cons_of_ne_nil told.filled
  rcases token_cases scanned with ⟨rfl, read⟩ | ⟨rfl, read⟩ |
    ⟨-, -, ⟨-, read⟩ | ⟨-, starts, read⟩ | ⟨-, -, read⟩⟩
  · simp only [string] at read
    split at read <;> cases read
    simp at number
  · simp only [character] at read
    split at read <;> cases read
    simp at number
  · obtain ⟨kinded, -⟩ := ofRaw_eq_token_iff.mp read
    obtain ⟨keyword, kinded', isKeyword, -⟩ | ⟨name, -⟩ :=
      Word.raw_cases (String.ofList ((first :: text).take (Word.length (first :: text))))
    · obtain rfl : keyword = kind := Option.some.inj (kinded'.symm.trans kinded)
      fin_cases number <;> cases isKeyword
    · rw [name] at kinded
      cases kinded
      simp at number
  · simp only [Lexeme.number] at read
    split at read
    · rename_i found literal read'
      obtain ⟨kinded, sized⟩ := ofRaw_eq_token_iff.mp read
      obtain ⟨behind, same, isLiteral, -, -⟩ := Number.literal_of_scan? starts read'
      have whole : literal = first :: text :=
        (same ▸ List.prefix_append literal behind).eq_of_length sized
      exact ⟨starts, found, kinded, whole ▸ isLiteral⟩
    · cases read
  · simp only [symbol] at read
    split at read
    · rename_i symbolic
      obtain ⟨kinded, rfl⟩ := ofRaw_eq_token_iff.mp read
      obtain ⟨symbol, isSymbol, kinded', -⟩ :=
        Symbol.exists_kind_of_ofLength? (Symbol.scan?_eq_some_iff.mp symbolic).2.1
      obtain rfl : symbol = kind := Option.some.inj (kinded'.symm.trans kinded)
      have numberless : ∀ kind ∈ TokenKind.symbols,
          kind ∉ [TokenKind.integerLiteral, .floatingPointLiteral] := by
        decide
      exact absurd number (numberless symbol isSymbol)
    · cases read

end Lexeme

namespace Token

open Lexeme Lexeme.Number

/-- In the numbers of a source text underscores stand in front of a digit of the part that they
are in.  Behind a digit of it they stand just where the part does not open with them. -/
theorem underscores_precede_digits {source : String} {tokens : List Token}
    (lexed : lex source = .ok tokens) {token : Token} (member : token ∈ tokens)
    (number : token.kind ∈ [.integerLiteral, .floatingPointLiteral]) {before after : List Char}
    {count : Nat} (underscores : Underscores token.text.toList before count after) :
    after.head?.any (digitsBehind before) = true ∧
      (before.getLast?.any (digitsBehind before) = true ↔ ¬Opens before) := by
  obtain ⟨later, same, split⟩ := exists_split lexed
  obtain ⟨own, rfl, told⟩ := split.told
  rw [same, List.reverse_nil, List.nil_append] at member
  rcases List.mem_append.mp member with inOwn | atEnd
  · obtain ⟨rest, isTold⟩ := told token inOwn
    obtain ⟨starts, found, -, isLiteral⟩ := isTold.literal number
    exact isLiteral.underscores starts underscores
  · rw [List.mem_singleton.mp atEnd] at number
    simp [endMark] at number

/-- A hexadecimal number of three parts, with underscores in each. -/
theorem underscores_precede_digits_hexadecimal :
    lex "a = 0xF_e._8p-1__0;" = .ok [written .identifier "a" 0, written .assign "=" 2,
      written .floatingPointLiteral "0xF_e._8p-1__0" 4, written .semi ";" 18, endMark 19] ∧
      Underscores "0xF_e._8p-1__0".toList "0xF_e.".toList 1 "8p-1__0".toList ∧
        ("8p-1__0".toList.head?.any (digitsBehind "0xF_e.".toList) = true ∧
          ("0xF_e.".toList.getLast?.any (digitsBehind "0xF_e.".toList) = true ↔
            ¬Opens "0xF_e.".toList)) := by
  have lexed : lex "a = 0xF_e._8p-1__0;" = .ok [written .identifier "a" 0, written .assign "=" 2,
      written .floatingPointLiteral "0xF_e._8p-1__0" 4, written .semi ";" 18, endMark 19] := by
    cbv
  have underscores : Underscores "0xF_e._8p-1__0".toList "0xF_e.".toList 1 "8p-1__0".toList :=
    ⟨by decide, by decide, by decide, by decide⟩
  exact ⟨lexed, underscores, underscores_precede_digits lexed
    (List.mem_cons_of_mem _ (List.mem_cons_of_mem _ List.mem_cons_self)) (by decide) underscores⟩

/-- Not all underscores of a number stand between two digits: a fraction may open with one. -/
theorem underscores_not_between_digits :
    ¬∀ source tokens, lex source = .ok tokens → ∀ token ∈ tokens,
      token.kind ∈ [.integerLiteral, .floatingPointLiteral] → ∀ before count after,
        Underscores token.text.toList before count after →
          before.getLast?.any (digitsBehind before) = true ∧
            after.head?.any (digitsBehind before) = true := by
  intro between
  have lexed : lex "1._5" = .ok [written .floatingPointLiteral "1._5" 0, endMark 4] := by cbv
  have underscores : Underscores "1._5".toList "1.".toList 1 "5".toList :=
    ⟨by decide, by decide, by decide, by decide⟩
  have digit := (between _ _ lexed _ List.mem_cons_self (by decide) _ _ _ underscores).1
  cases digit

end Token

end JavaSyntax
