import JavaSyntax.Lexeme.Raw

/-!
# Symbols

Separators and operators. Of the symbols that spell the front of a text, the
longest is taken.
-/

namespace JavaSyntax.Lexeme.Symbol

/-- Every symbol with its text. -/
def spellings : List (List Char × RawToken) :=
  RawToken.symbols.map fun pattern => (pattern.1.toList, pattern.2)

/-- The symbol that is spelled by exactly `length` characters at the front. -/
def ofLength? (text : List Char) (length : Nat) : Option RawToken :=
  (spellings.find? fun spelling =>
    spelling.1.length == length && spelling.1.isPrefixOf text).map (·.2)

/-- The longest symbol at the front, with its length. No symbol has more than
four characters. -/
def scan? (text : List Char) : Option (RawToken × Nat) :=
  [4, 3, 2, 1].findSome? fun length => (ofLength? text length).map (·, length)

end JavaSyntax.Lexeme.Symbol
