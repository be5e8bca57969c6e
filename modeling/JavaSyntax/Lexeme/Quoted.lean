import JavaSyntax.Lexeme.Number

/-!
# Quoted literals

String and character literals hold ordinary characters and escapes. An escape
is a backslash with one of `b t n f r " ' \`, with one to three octal digits,
or with one or more `u` and four hexadecimal digits. Lengths count characters.
-/

namespace JavaSyntax.Lexeme.Quoted

/-- The characters that are an escape by themselves after a backslash. -/
def isSimpleEscape (character : Char) : Bool :=
  "btnfr\"'\\".toList.contains character

/-- Whether `character` is an octal digit. -/
def isOctalDigit (character : Char) : Bool :=
  '0' ≤ character && character ≤ '7'

/-- Whether `character` may stand unescaped between quotes of the kind `quote`. -/
def isOrdinary (quote character : Char) : Bool :=
  character != quote && character != '\\' && character != '\r' && character != '\n'

/-- The length of an escape, its backslash not counted. -/
def escapeLength? (text : List Char) : Option Nat :=
  match text with
  | [] => none
  | first :: _ =>
      if isSimpleEscape first then some 1
      else if isOctalDigit first then some ((text.take 3).takeWhile isOctalDigit).length
      else
        let marks := (text.takeWhile (· == 'u')).length
        let code := (text.drop marks).take 4
        if marks ≠ 0 && code.length = 4 && code.all Number.isHexDigit then some (marks + 4)
        else none

/-- The length of one character or escape between quotes. -/
def itemLength? (quote : Char) : List Char → Option Nat
  | [] => none
  | '\\' :: rest => (escapeLength? rest).map (· + 1)
  | first :: _ => if isOrdinary quote first then some 1 else none

/-- The length of the inside of a string literal and its closing quote, counting
on from `before`. -/
def stringLength? (before : Nat) (text : List Char) : Option Nat :=
  match text with
  | [] => none
  | first :: rest =>
      if first = '"' then some (before + 1)
      else match itemLength? '"' (first :: rest) with
        | some length => stringLength? (before + length) (rest.drop (length - 1))
        | none => none
termination_by text.length
decreasing_by
  simp only [List.length_drop, List.length_cons]
  omega

/-- The length of the inside of a character literal, which is one item, and its
closing quote. -/
def characterLength? (text : List Char) : Option Nat :=
  match itemLength? '\'' text with
  | some length => if text[length]? = some '\'' then some (length + 1) else none
  | none => none

end JavaSyntax.Lexeme.Quoted
