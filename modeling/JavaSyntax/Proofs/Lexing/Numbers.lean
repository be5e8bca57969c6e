import Mathlib
import JavaSyntax.Lexeme.Number
import JavaSyntax.Lexeme.Trivia
import JavaSyntax.Proofs.Lists

/-!
# Where a number ends

How a number is read depends on its own text and on the character after it.  So what
follows may be cut off, at the end of the number or anywhere behind it, as long as nothing
or a blank takes its place.
-/

namespace JavaSyntax.Lexeme

/-- What follows a lexeme, and the same text cut off somewhere, with nothing or a blank
after the cut. -/
inductive Cut : List Char → List Char → Prop where
  | here {rest rest' : List Char} : rest'.head?.all isBlank = true → Cut rest rest'
  | later (character : Char) {rest rest' : List Char} :
      Cut rest rest' → Cut (character :: rest) (character :: rest')

namespace Cut

protected theorem refl : ∀ rest : List Char, Cut rest rest
  | [] => .here rfl
  | first :: rest => .later first (Cut.refl rest)

variable {rest rest' : List Char} (cut : Cut rest rest')

include cut

theorem append (taken : List Char) : Cut (taken ++ rest) (taken ++ rest') := by
  induction taken with
  | nil => exact cut
  | cons first taken ih => exact .later first ih

/-- The text after the cut starts as the whole one does, or with a blank. -/
theorem head? {character : Char} (starts : rest'.head? = some character) :
    rest.head? = some character ∨ isBlank character = true := by
  cases cut with
  | here blank =>
      rw [starts] at blank
      exact .inr blank
  | later first _ =>
      cases starts
      exact .inl rfl

/-- Where a class without blanks does not go on, it does not go on after the cut. -/
theorem stops {belongs : Char → Bool}
    (solid : ∀ character, isBlank character = true → belongs character = false)
    (ended : rest.head?.any belongs = false) : rest'.head?.any belongs = false := by
  cases starts : rest'.head? with
  | none => rfl
  | some character =>
      rcases cut.head? starts with same | blank
      · rwa [same] at ended
      · exact solid character blank

end Cut

/-- What is checked of the five blanks holds of every blank. -/
theorem forall_isBlank {motive : Char → Prop}
    (checked : motive ' ' ∧ motive '\t' ∧ motive '\r' ∧ motive '\n' ∧ motive '\x0c')
    (character : Char) (blank : isBlank character = true) : motive character := by
  obtain ⟨space, tab, carriage, line, page⟩ := checked
  simp only [isBlank, Bool.or_eq_true, beq_iff_eq, or_assoc] at blank
  obtain rfl | rfl | rfl | rfl | rfl := blank <;> assumption

namespace Number

/-- A reader of a part of a number that looks at nothing but that part and what its end is
told by. -/
def Local (read : List Char → Option (List Char × List Char)) : Prop :=
  ∀ {text taken rest : List Char}, read text = some (taken, rest) →
    text = taken ++ rest ∧
      ∀ {rest' : List Char}, Cut rest rest' → read (taken ++ rest') = some (taken, rest')

theorem digits?_eq_some_iff {isDigit : Char → Bool} {text run rest : List Char} :
    digits? isDigit text = some (run, rest) ↔ text = run ++ rest ∧
      (∀ character ∈ run, (isDigit character || character == '_') = true) ∧
      rest.head?.any (fun character => isDigit character || character == '_') = false ∧
      run.getLast? ≠ some '_' := by
  constructor
  · intro read
    simp only [digits?] at read
    split at read
    · cases read
    · rename_i solid
      cases read
      exact ⟨List.takeWhile_append_dropWhile.symm,
        List.all_eq_true.mp List.all_takeWhile, any_head?_dropWhile _ _, solid⟩
  · rintro ⟨rfl, inside, ended, solid⟩
    simp only [digits?, takeWhile_append_of_stops inside ended,
      dropWhile_append_of_stops inside ended, if_neg solid]

theorem digits?_local {isDigit : Char → Bool}
    (solid : ∀ character, isBlank character = true → isDigit character = false) :
    Local (digits? isDigit) := by
  intro text taken rest read
  obtain ⟨same, inside, ended, last⟩ := digits?_eq_some_iff.mp read
  refine ⟨same, fun cut => digits?_eq_some_iff.mpr ⟨rfl, inside, cut.stops ?_ ended, last⟩⟩
  intro character blank
  have other : (character == '_') = false :=
    forall_isBlank (motive := fun character => (character == '_') = false) (by decide) _ blank
  rw [solid character blank, other, Bool.or_false]

theorem fraction?_local {isDigit : Char → Bool}
    (solid : ∀ character, isBlank character = true → isDigit character = false) :
    Local (fraction? isDigit) := by
  intro text taken rest read
  unfold fraction? at read
  split at read
  · rename_i inside
    obtain ⟨⟨run, after⟩, digits, same⟩ := Option.map_eq_some_iff.mp read
    cases same
    obtain ⟨rfl, again⟩ := digits?_local solid digits
    refine ⟨rfl, ?_⟩
    intro rest' cut
    simp [fraction?, again cut]
  · rename_i other
    cases read
    refine ⟨rfl, ?_⟩
    intro rest' cut
    cases rest' with
    | nil => rfl
    | cons first rest' =>
        have pointless : first ≠ '.' := by
          rintro rfl
          rcases cut.head? rfl with same | blank
          · obtain ⟨after, starts⟩ := List.head?_eq_some_iff.mp same
            exact other after starts
          · cases blank
        simp [fraction?, pointless]

theorem sign_local {text taken rest : List Char} (read : sign text = (taken, rest)) :
    text = taken ++ rest ∧ ∀ {rest' : List Char}, Cut rest rest' →
      sign (taken ++ rest') = (taken, rest') := by
  unfold sign at read
  split at read
  · cases read
    exact ⟨rfl, fun _ => rfl⟩
  · cases read
    exact ⟨rfl, fun _ => rfl⟩
  · rename_i plus minus
    cases read
    refine ⟨rfl, ?_⟩
    intro rest' cut
    cases rest' with
    | nil => rfl
    | cons first rest' =>
        have unsigned : first ≠ '+' ∧ first ≠ '-' := by
          rcases cut.head? rfl with same | blank
          · obtain ⟨after, starts⟩ := List.head?_eq_some_iff.mp same
            exact ⟨fun isPlus => plus after (isPlus ▸ starts),
              fun isMinus => minus after (isMinus ▸ starts)⟩
          · exact forall_isBlank (motive := fun character => character ≠ '+' ∧ character ≠ '-')
              (by decide) _ blank
        simp [sign, unsigned.1, unsigned.2]

theorem isDigit_of_isBlank : ∀ character, isBlank character = true → character.isDigit = false :=
  forall_isBlank (by decide)

theorem isHexDigit_of_isBlank : ∀ character, isBlank character = true →
    isHexDigit character = false :=
  forall_isBlank (by decide)

theorem isBinaryDigit_of_isBlank : ∀ character, isBlank character = true →
    isBinaryDigit character = false :=
  forall_isBlank (by decide)

theorem isWordCharacter_of_isBlank : ∀ character, isBlank character = true →
    isWordCharacter character = false :=
  forall_isBlank (by decide)

/-- A blank is no letter, in either case. -/
theorem isBlank_toLower : ∀ character, isBlank character = true →
    isBlank character.toLower = true :=
  forall_isBlank (by decide)

theorem exponent?_local {marker : Char} (solid : isBlank marker = false) :
    Local (exponent? marker) := by
  intro text taken rest read
  cases text with
  | nil =>
      cases read
      refine ⟨rfl, ?_⟩
      intro rest' cut
      cases rest' with
      | nil => rfl
      | cons first rest' =>
          have blank : isBlank first = true := (cut.head? rfl).resolve_left (by simp)
          have other : first.toLower ≠ marker := by
            rintro rfl
            rw [isBlank_toLower _ blank] at solid
            cases solid
          simp [exponent?, other]
  | cons first text =>
      simp only [exponent?] at read
      split at read
      · rename_i marked
        obtain ⟨⟨signed, unsigned⟩, isSign⟩ : ∃ found, sign text = found := ⟨_, rfl⟩
        simp only [isSign, Option.bind_eq_bind, Option.bind_eq_some_iff] at read
        obtain ⟨⟨run, after⟩, digits, _, guarded, same⟩ := read
        cases same
        obtain ⟨rfl, signAgain⟩ := sign_local isSign
        obtain ⟨rfl, digitsAgain⟩ := digits?_local isDigit_of_isBlank digits
        refine ⟨by simp, ?_⟩
        intro rest' cut
        have signs := signAgain (cut.append run)
        simp only [List.cons_append, List.append_assoc, exponent?, marked, if_true, signs,
          digitsAgain cut, Option.bind_eq_bind, Option.bind_some, guarded]
      · rename_i unmarked
        cases read
        refine ⟨rfl, ?_⟩
        intro rest' cut
        cases rest' with
        | nil => rfl
        | cons next rest' =>
            have other : next.toLower ≠ marker := by
              rcases cut.head? rfl with same | blank
              · cases same
                exact unmarked
              · rintro rfl
                rw [isBlank_toLower _ blank] at solid
                cases solid
            simp [exponent?, other]

/-- The body of a number with another text after it. -/
def Body.before (rest : List Char) (body : Body) : Body :=
  { body with rest }

/-- A reader of the body of a number that looks at nothing but the body and what its end is
told by. -/
def BodyLocal (read : List Char → Option Body) : Prop :=
  ∀ {text : List Char} {body : Body}, read text = some body →
    text = body.taken ++ body.rest ∧
      ∀ {rest' : List Char}, Cut body.rest rest' →
        read (body.taken ++ rest') = some (body.before rest')

theorem hexadecimal?_local : BodyLocal hexadecimal? := by
  intro text body read
  simp only [hexadecimal?, Option.bind_eq_bind, Option.bind_eq_some_iff] at read
  obtain ⟨⟨whole, r₁⟩, digits, ⟨fraction, r₂⟩, fractions, _, someDigit, ⟨exponent, r₃⟩,
    exponents, _, complete, same⟩ := read
  cases same
  obtain ⟨rfl, digitsAgain⟩ := digits?_local isHexDigit_of_isBlank digits
  obtain ⟨rfl, fractionsAgain⟩ := fraction?_local isHexDigit_of_isBlank fractions
  obtain ⟨rfl, exponentsAgain⟩ := exponent?_local (by decide) exponents
  refine ⟨by simp, ?_⟩
  intro rest' cut
  have first := digitsAgain ((cut.append exponent).append fraction)
  have second := fractionsAgain (cut.append exponent)
  simp only [hexadecimal?, List.append_assoc, first, second, exponentsAgain cut,
    Option.bind_eq_bind, Option.bind_some, someDigit, complete]
  simp [Body.before]

theorem binary?_local : BodyLocal binary? := by
  intro text body read
  simp only [binary?, Option.bind_eq_bind, Option.bind_eq_some_iff] at read
  obtain ⟨⟨whole, rest⟩, digits, _, someDigit, same⟩ := read
  cases same
  obtain ⟨rfl, digitsAgain⟩ := digits?_local isBinaryDigit_of_isBlank digits
  refine ⟨rfl, ?_⟩
  intro rest' cut
  simp only [binary?, digitsAgain cut, Option.bind_eq_bind, Option.bind_some, someDigit]
  rfl

theorem decimal?_local : BodyLocal decimal? := by
  intro text body read
  simp only [decimal?, Option.bind_eq_bind, Option.bind_eq_some_iff] at read
  obtain ⟨⟨whole, r₁⟩, digits, ⟨fraction, r₂⟩, fractions, ⟨exponent, r₃⟩, exponents, same⟩ := read
  cases same
  obtain ⟨rfl, digitsAgain⟩ := digits?_local isDigit_of_isBlank digits
  obtain ⟨rfl, fractionsAgain⟩ := fraction?_local isDigit_of_isBlank fractions
  obtain ⟨rfl, exponentsAgain⟩ := exponent?_local (by decide) exponents
  refine ⟨by simp, ?_⟩
  intro rest' cut
  have first := digitsAgain ((cut.append exponent).append fraction)
  have second := fractionsAgain (cut.append exponent)
  simp only [decimal?, List.append_assoc, first, second, exponentsAgain cut,
    Option.bind_eq_bind, Option.bind_some]
  simp [Body.before]

/-- Whether a text starts as a hexadecimal or binary number does. -/
def hasBase : List Char → Bool
  | '0' :: mark :: _ => mark.toLower = 'x' || mark.toLower = 'b'
  | _ => false

theorem hasBase_of_cut {text text' : List Char} (cut : Cut text text')
    (based : hasBase text' = true) : hasBase text = true := by
  unfold hasBase at based
  split at based
  · rename_i mark after'
    cases cut with
    | here blank => cases blank
    | later _ cut =>
        rcases cut.head? rfl with same | blank
        · obtain ⟨after, rfl⟩ := List.head?_eq_some_iff.mp same
          exact based
        · have unmarked := forall_isBlank (motive := fun mark =>
            (decide (mark.toLower = 'x') || decide (mark.toLower = 'b')) = false)
            (by decide) mark blank
          rw [unmarked] at based
          cases based
  · cases based

theorem body?_of_hasBase {text : List Char} (plain : hasBase text = false) :
    body? text = decimal? text := by
  unfold body?
  split
  · rename_i mark after
    simp only [hasBase, Bool.or_eq_false_iff, decide_eq_false_iff_not] at plain
    rw [if_neg plain.1, if_neg plain.2]
  · rfl

theorem body?_local : BodyLocal body? := by
  intro text body read
  cases based : hasBase text with
  | false =>
      rw [body?_of_hasBase based] at read
      obtain ⟨rfl, again⟩ := decimal?_local read
      refine ⟨rfl, ?_⟩
      intro rest' cut
      have plain : hasBase (body.taken ++ rest') = false := by
        rw [Bool.eq_false_iff] at based ⊢
        exact fun based' => based (hasBase_of_cut (cut.append body.taken) based')
      rw [body?_of_hasBase plain, again cut]
  | true =>
      unfold hasBase at based
      split at based
      · rename_i mark after
        simp only [body?] at read
        split at read
        · rename_i marked
          obtain ⟨inner, hexadecimal, rfl⟩ := Option.map_eq_some_iff.mp read
          obtain ⟨rfl, again⟩ := hexadecimal?_local hexadecimal
          refine ⟨rfl, ?_⟩
          intro rest' cut
          simp only [Body.after, List.cons_append, List.nil_append, body?, marked, if_true,
            again cut]
          rfl
        · rename_i unmarked
          have marked : mark.toLower = 'b' := by simpa [unmarked] using based
          rw [if_pos marked] at read
          obtain ⟨inner, binary, rfl⟩ := Option.map_eq_some_iff.mp read
          obtain ⟨rfl, again⟩ := binary?_local binary
          refine ⟨rfl, ?_⟩
          intro rest' cut
          simp only [Body.after, List.cons_append, List.nil_append, body?, marked, if_true,
            again cut]
          rfl
      · cases based

/-- The suffix is told by the character after the body, if any. -/
theorem suffix_local {body whole : Body} {found : NumberClass}
    (read : suffix body = (found, whole)) :
    ∃ mark, body.rest = mark ++ whole.rest ∧ whole.taken = body.taken ++ mark ∧
      ∀ {rest' : List Char}, Cut whole.rest rest' →
        suffix (body.before (mark ++ rest')) = (found, whole.before rest') := by
  obtain ⟨floating, decimal, taken, rest⟩ := body
  have blankless := forall_isBlank (motive := fun mark =>
    mark.toLower ≠ 'l' ∧ mark.toLower ≠ 'f' ∧ mark.toLower ≠ 'd') (by decide)
  cases rest with
  | nil =>
      cases read
      refine ⟨[], rfl, (List.append_nil _).symm, ?_⟩
      intro rest' cut
      cases rest' with
      | nil => rfl
      | cons first rest' =>
          have unmarked := blankless first ((cut.head? rfl).resolve_left (by simp))
          simp [suffix, Body.before, unmarked]
          rfl
  | cons first after =>
      simp only [suffix] at read
      split at read
      · rename_i long
        cases read
        refine ⟨[first], rfl, rfl, ?_⟩
        intro rest' cut
        simp only [suffix, Body.before, List.cons_append, List.nil_append, long, if_true]
      · rename_i notLong
        split at read
        · rename_i real
          cases read
          refine ⟨[first], rfl, rfl, ?_⟩
          intro rest' cut
          simp only [suffix, Body.before, List.cons_append, List.nil_append, if_neg notLong, real,
            if_true]
        · rename_i notReal
          cases read
          refine ⟨[], rfl, (List.append_nil _).symm, ?_⟩
          intro rest' cut
          cases rest' with
          | nil => rfl
          | cons next rest' =>
              rcases cut.head? rfl with same | blank
              · cases same
                exact (if_neg notLong).trans (if_neg notReal)
              · have unmarked := blankless next blank
                simp [suffix, Body.before, unmarked]
                rfl

/-- A number is read the same wherever the text after it is cut off. -/
theorem scan?_local {text literal : List Char} {found : NumberClass}
    (read : scan? text = some (found, literal)) :
    ∃ rest, text = literal ++ rest ∧
      ∀ {rest' : List Char}, Cut rest rest' → scan? (literal ++ rest') = some (found, literal) := by
  simp only [scan?, Option.bind_eq_bind, Option.bind_eq_some_iff] at read
  obtain ⟨body, isBody, _, guarded, same⟩ := read
  obtain ⟨⟨class', whole⟩, isWhole⟩ : ∃ suffixed, suffix body = suffixed := ⟨_, rfl⟩
  simp only [isWhole] at same guarded
  cases same
  obtain ⟨rfl, bodyAgain⟩ := body?_local isBody
  obtain ⟨mark, isMark, isTaken, suffixAgain⟩ := suffix_local isWhole
  refine ⟨whole.rest, by rw [isMark, isTaken, List.append_assoc], ?_⟩
  intro rest' cut
  have ended : whole.rest.head?.any isWordCharacter = false := by
    simpa [guard, Option.ite_none_right_eq_some] using guarded
  have ended' := cut.stops isWordCharacter_of_isBlank ended
  have again : body? (whole.taken ++ rest') = some (body.before (mark ++ rest')) := by
    rw [isTaken, List.append_assoc]
    exact bodyAgain (isMark ▸ cut.append mark)
  simp only [scan?, again, Option.bind_eq_bind, Option.bind_some, suffixAgain cut]
  simp [Body.before, ended', guard]

end Number

end JavaSyntax.Lexeme
