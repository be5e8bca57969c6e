/-!
# Number literals

Integers are decimal, hexadecimal (`0x`) or binary (`0b`), with an optional
`L`. Floating-point literals are decimal, with a fraction, an exponent or an
`f` or `d` suffix, or hexadecimal with a binary exponent `p`. Octal literals
are read as decimal ones.

Underscores may separate digits. A run of digits is read as far as digits and
underscores reach and must not end in an underscore; nothing is asked of its
beginning.
-/

namespace JavaSyntax.Lexeme

/-- The two classes of number literal. -/
inductive NumberClass where
  | integer
  | floating
  deriving DecidableEq, Repr, Inhabited

namespace Number

/-- Whether `character` is a hexadecimal digit. -/
def isHexDigit (character : Char) : Bool :=
  character.isDigit || ('a' ≤ character && character ≤ 'f') || ('A' ≤ character && character ≤ 'F')

/-- Whether `character` is a binary digit. -/
def isBinaryDigit (character : Char) : Bool :=
  character == '0' || character == '1'

/-- Whether `character` continues a word, so that a number must not end before it. -/
def isWordCharacter (character : Char) : Bool :=
  character.isAlphanum || character == '_' || character == '$'

/-- A run of digits and underscores and what follows it; nothing when the run
ends in an underscore. -/
def digits? (isDigit : Char → Bool) (text : List Char) : Option (List Char × List Char) :=
  let belongs := fun character => isDigit character || character == '_'
  let run := text.takeWhile belongs
  if run.getLast? = some '_' then none else some (run, text.dropWhile belongs)

/-- Whether a run, with or without its point, has a digit at all. -/
def hasDigit (run : List Char) : Bool :=
  run.any fun character => character != '_' && character != '.'

/-- A point and the run of digits after it, or nothing, and what follows. -/
def fraction? (isDigit : Char → Bool) : List Char → Option (List Char × List Char)
  | '.' :: rest => (digits? isDigit rest).map fun (run, rest) => ('.' :: run, rest)
  | text => some ([], text)

/-- An optional sign and what follows. -/
def sign : List Char → List Char × List Char
  | '+' :: rest => (['+'], rest)
  | '-' :: rest => (['-'], rest)
  | text => ([], text)

/-- An exponent after `marker`, in either case, or nothing, and what follows. An
exponent has decimal digits, and a sign may stand before them. -/
def exponent? (marker : Char) : List Char → Option (List Char × List Char)
  | [] => some ([], [])
  | first :: rest =>
      if first.toLower = marker then do
        let (sign, rest) := sign rest
        let (run, rest) ← digits? Char.isDigit rest
        guard (hasDigit run)
        some (first :: sign ++ run, rest)
      else some ([], first :: rest)

/-- A number without its suffix, and what follows it. A `decimal` number may take
`f` or `d` although it has neither fraction nor exponent. -/
structure Body where
  floating : Bool
  decimal : Bool
  taken : List Char
  rest : List Char

/-- The body of a hexadecimal number, after `0x`. A fraction needs an exponent. -/
def hexadecimal? (text : List Char) : Option Body := do
  let (whole, rest) ← digits? isHexDigit text
  let (fraction, rest) ← fraction? isHexDigit rest
  guard (hasDigit whole || hasDigit fraction)
  let (exponent, rest) ← exponent? 'p' rest
  guard (fraction.isEmpty || !exponent.isEmpty)
  some ⟨!exponent.isEmpty, false, whole ++ fraction ++ exponent, rest⟩

/-- The body of a binary number, after `0b`. -/
def binary? (text : List Char) : Option Body := do
  let (whole, rest) ← digits? isBinaryDigit text
  guard (hasDigit whole)
  some ⟨false, false, whole, rest⟩

/-- The body of a decimal number. -/
def decimal? (text : List Char) : Option Body := do
  let (whole, rest) ← digits? Char.isDigit text
  let (fraction, rest) ← fraction? Char.isDigit rest
  let (exponent, rest) ← exponent? 'e' rest
  some ⟨!fraction.isEmpty || !exponent.isEmpty, true, whole ++ fraction ++ exponent, rest⟩

/-- A body with the mark of its base before it. -/
def Body.after (base : List Char) (body : Body) : Body :=
  { body with taken := base ++ body.taken }

/-- The body of a number, by its base. -/
def body? : List Char → Option Body
  | '0' :: mark :: rest =>
      if mark.toLower = 'x' then (hexadecimal? rest).map (Body.after ['0', mark])
      else if mark.toLower = 'b' then (binary? rest).map (Body.after ['0', mark])
      else decimal? ('0' :: mark :: rest)
  | text => decimal? text

/-- The class of a number by its body and optional suffix, and the body with the
suffix taken. -/
def suffix (body : Body) : NumberClass × Body :=
  let plain := if body.floating then NumberClass.floating else .integer
  match body.rest with
  | [] => (plain, body)
  | first :: rest =>
      let suffixed := { body with taken := body.taken ++ [first], rest }
      if first.toLower = 'l' && !body.floating then (.integer, suffixed)
      else if (first.toLower = 'f' || first.toLower = 'd') && (body.decimal || body.floating) then
        (.floating, suffixed)
      else (plain, body)

/-- The number at the front of `text`: its class and its own text. There is none
when the literal is malformed or runs into a word. -/
def scan? (text : List Char) : Option (NumberClass × List Char) := do
  let body ← body? text
  let (found, whole) := suffix body
  guard (!whole.rest.head?.any isWordCharacter)
  some (found, whole.taken)

/-- The length of the text that a malformed number spoils: the word it stands in,
points included. -/
def malformedLength (text : List Char) : Nat :=
  (text.takeWhile fun character => isWordCharacter character || character == '.').length

end Number

end JavaSyntax.Lexeme
