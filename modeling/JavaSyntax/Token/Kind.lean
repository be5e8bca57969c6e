/-!
# Token kinds

The kinds of token a Java 8 source file is made of: the reserved words, the
separators, the operators, the literals and identifiers, and the mark that
ends every token list.

Angle brackets are never fused: `>>` is two `gt` tokens, and a shift operator
is recognised later as angle tokens that touch. Only the compound assignments
`<<=`, `>>=` and `>>>=` are tokens of their own.
-/

namespace JavaSyntax

/-- The kind of a token. The declaration order is part of the interface: it
numbers the kinds, and keywords come first. -/
inductive TokenKind where
  | kwAbstract | kwAssert | kwBoolean | kwBreak | kwByte | kwCase | kwCatch | kwChar
  | kwClass | kwConst | kwContinue | kwDefault | kwDo | kwDouble | kwElse | kwEnum
  | kwExtends | kwFinal | kwFinally | kwFloat | kwFor | kwIf | kwGoto | kwImplements
  | kwImport | kwInstanceof | kwInt | kwInterface | kwLong | kwNative | kwNew | kwPackage
  | kwPrivate | kwProtected | kwPublic | kwReturn | kwShort | kwStatic | kwStrictfp
  | kwSuper | kwSwitch | kwSynchronized | kwThis | kwThrow | kwThrows | kwTransient | kwTry
  | kwVoid | kwVolatile | kwWhile | kwTrue | kwFalse | kwNull
  | lParen | rParen | lBrace | rBrace | lBracket | rBracket | semi | comma | dot | ellipsis
  | atSign | colonColon
  | assign | gt | lt | bang | tilde | question | colon | arrow | eqEq | le | ge | ne
  | andAnd | orOr | plusPlus | minusMinus | plus | minus | star | slash | amp | pipe
  | caret | percent | plusAssign | minusAssign | starAssign | slashAssign | ampAssign
  | pipeAssign | caretAssign | percentAssign | shlAssign | shrAssign | ushrAssign
  | integerLiteral | floatingPointLiteral | characterLiteral | stringLiteral | identifier
  | eof
  deriving DecidableEq, Repr, Inhabited

namespace TokenKind

/-- All kinds, in declaration order. -/
def all : List TokenKind :=
  [.kwAbstract, .kwAssert, .kwBoolean, .kwBreak, .kwByte, .kwCase, .kwCatch, .kwChar,
   .kwClass, .kwConst, .kwContinue, .kwDefault, .kwDo, .kwDouble, .kwElse, .kwEnum,
   .kwExtends, .kwFinal, .kwFinally, .kwFloat, .kwFor, .kwIf, .kwGoto, .kwImplements,
   .kwImport, .kwInstanceof, .kwInt, .kwInterface, .kwLong, .kwNative, .kwNew, .kwPackage,
   .kwPrivate, .kwProtected, .kwPublic, .kwReturn, .kwShort, .kwStatic, .kwStrictfp,
   .kwSuper, .kwSwitch, .kwSynchronized, .kwThis, .kwThrow, .kwThrows, .kwTransient,
   .kwTry, .kwVoid, .kwVolatile, .kwWhile, .kwTrue, .kwFalse, .kwNull, .lParen, .rParen,
   .lBrace, .rBrace, .lBracket, .rBracket, .semi, .comma, .dot, .ellipsis, .atSign,
   .colonColon, .assign, .gt, .lt, .bang, .tilde, .question, .colon, .arrow, .eqEq, .le,
   .ge, .ne, .andAnd, .orOr, .plusPlus, .minusMinus, .plus, .minus, .star, .slash, .amp,
   .pipe, .caret, .percent, .plusAssign, .minusAssign, .starAssign, .slashAssign,
   .ampAssign, .pipeAssign, .caretAssign, .percentAssign, .shlAssign, .shrAssign,
   .ushrAssign, .integerLiteral, .floatingPointLiteral, .characterLiteral, .stringLiteral,
   .identifier, .eof]

/-- How many kinds there are. -/
def count : Nat := 106

/-- The position of a kind in the declaration order. -/
def index (kind : TokenKind) : Nat :=
  kind.ctorIdx

/-- The identifier of a kind, as listings and reports spell it. -/
def name : TokenKind → String
  | .kwAbstract => "KwAbstract"
  | .kwAssert => "KwAssert"
  | .kwBoolean => "KwBoolean"
  | .kwBreak => "KwBreak"
  | .kwByte => "KwByte"
  | .kwCase => "KwCase"
  | .kwCatch => "KwCatch"
  | .kwChar => "KwChar"
  | .kwClass => "KwClass"
  | .kwConst => "KwConst"
  | .kwContinue => "KwContinue"
  | .kwDefault => "KwDefault"
  | .kwDo => "KwDo"
  | .kwDouble => "KwDouble"
  | .kwElse => "KwElse"
  | .kwEnum => "KwEnum"
  | .kwExtends => "KwExtends"
  | .kwFinal => "KwFinal"
  | .kwFinally => "KwFinally"
  | .kwFloat => "KwFloat"
  | .kwFor => "KwFor"
  | .kwIf => "KwIf"
  | .kwGoto => "KwGoto"
  | .kwImplements => "KwImplements"
  | .kwImport => "KwImport"
  | .kwInstanceof => "KwInstanceof"
  | .kwInt => "KwInt"
  | .kwInterface => "KwInterface"
  | .kwLong => "KwLong"
  | .kwNative => "KwNative"
  | .kwNew => "KwNew"
  | .kwPackage => "KwPackage"
  | .kwPrivate => "KwPrivate"
  | .kwProtected => "KwProtected"
  | .kwPublic => "KwPublic"
  | .kwReturn => "KwReturn"
  | .kwShort => "KwShort"
  | .kwStatic => "KwStatic"
  | .kwStrictfp => "KwStrictfp"
  | .kwSuper => "KwSuper"
  | .kwSwitch => "KwSwitch"
  | .kwSynchronized => "KwSynchronized"
  | .kwThis => "KwThis"
  | .kwThrow => "KwThrow"
  | .kwThrows => "KwThrows"
  | .kwTransient => "KwTransient"
  | .kwTry => "KwTry"
  | .kwVoid => "KwVoid"
  | .kwVolatile => "KwVolatile"
  | .kwWhile => "KwWhile"
  | .kwTrue => "KwTrue"
  | .kwFalse => "KwFalse"
  | .kwNull => "KwNull"
  | .lParen => "LParen"
  | .rParen => "RParen"
  | .lBrace => "LBrace"
  | .rBrace => "RBrace"
  | .lBracket => "LBracket"
  | .rBracket => "RBracket"
  | .semi => "Semi"
  | .comma => "Comma"
  | .dot => "Dot"
  | .ellipsis => "Ellipsis"
  | .atSign => "At"
  | .colonColon => "ColonColon"
  | .assign => "Assign"
  | .gt => "Gt"
  | .lt => "Lt"
  | .bang => "Bang"
  | .tilde => "Tilde"
  | .question => "Question"
  | .colon => "Colon"
  | .arrow => "Arrow"
  | .eqEq => "EqEq"
  | .le => "Le"
  | .ge => "Ge"
  | .ne => "Ne"
  | .andAnd => "AndAnd"
  | .orOr => "OrOr"
  | .plusPlus => "PlusPlus"
  | .minusMinus => "MinusMinus"
  | .plus => "Plus"
  | .minus => "Minus"
  | .star => "Star"
  | .slash => "Slash"
  | .amp => "Amp"
  | .pipe => "Pipe"
  | .caret => "Caret"
  | .percent => "Percent"
  | .plusAssign => "PlusAssign"
  | .minusAssign => "MinusAssign"
  | .starAssign => "StarAssign"
  | .slashAssign => "SlashAssign"
  | .ampAssign => "AmpAssign"
  | .pipeAssign => "PipeAssign"
  | .caretAssign => "CaretAssign"
  | .percentAssign => "PercentAssign"
  | .shlAssign => "ShlAssign"
  | .shrAssign => "ShrAssign"
  | .ushrAssign => "UshrAssign"
  | .integerLiteral => "IntegerLiteral"
  | .floatingPointLiteral => "FloatingPointLiteral"
  | .characterLiteral => "CharacterLiteral"
  | .stringLiteral => "StringLiteral"
  | .identifier => "Identifier"
  | .eof => "Eof"

/-- The fixed spelling of a keyword, separator or operator, and a description
of the kinds whose text varies. -/
def describe : TokenKind → String
  | .kwAbstract => "abstract"
  | .kwAssert => "assert"
  | .kwBoolean => "boolean"
  | .kwBreak => "break"
  | .kwByte => "byte"
  | .kwCase => "case"
  | .kwCatch => "catch"
  | .kwChar => "char"
  | .kwClass => "class"
  | .kwConst => "const"
  | .kwContinue => "continue"
  | .kwDefault => "default"
  | .kwDo => "do"
  | .kwDouble => "double"
  | .kwElse => "else"
  | .kwEnum => "enum"
  | .kwExtends => "extends"
  | .kwFinal => "final"
  | .kwFinally => "finally"
  | .kwFloat => "float"
  | .kwFor => "for"
  | .kwIf => "if"
  | .kwGoto => "goto"
  | .kwImplements => "implements"
  | .kwImport => "import"
  | .kwInstanceof => "instanceof"
  | .kwInt => "int"
  | .kwInterface => "interface"
  | .kwLong => "long"
  | .kwNative => "native"
  | .kwNew => "new"
  | .kwPackage => "package"
  | .kwPrivate => "private"
  | .kwProtected => "protected"
  | .kwPublic => "public"
  | .kwReturn => "return"
  | .kwShort => "short"
  | .kwStatic => "static"
  | .kwStrictfp => "strictfp"
  | .kwSuper => "super"
  | .kwSwitch => "switch"
  | .kwSynchronized => "synchronized"
  | .kwThis => "this"
  | .kwThrow => "throw"
  | .kwThrows => "throws"
  | .kwTransient => "transient"
  | .kwTry => "try"
  | .kwVoid => "void"
  | .kwVolatile => "volatile"
  | .kwWhile => "while"
  | .kwTrue => "true"
  | .kwFalse => "false"
  | .kwNull => "null"
  | .lParen => "("
  | .rParen => ")"
  | .lBrace => "\x7b"
  | .rBrace => "\x7d"
  | .lBracket => "["
  | .rBracket => "]"
  | .semi => ";"
  | .comma => ","
  | .dot => "."
  | .ellipsis => "..."
  | .atSign => "@"
  | .colonColon => "::"
  | .assign => "="
  | .gt => ">"
  | .lt => "<"
  | .bang => "!"
  | .tilde => "~"
  | .question => "?"
  | .colon => ":"
  | .arrow => "->"
  | .eqEq => "=="
  | .le => "<="
  | .ge => ">="
  | .ne => "!="
  | .andAnd => "&&"
  | .orOr => "||"
  | .plusPlus => "++"
  | .minusMinus => "--"
  | .plus => "+"
  | .minus => "-"
  | .star => "*"
  | .slash => "/"
  | .amp => "&"
  | .pipe => "|"
  | .caret => "^"
  | .percent => "%"
  | .plusAssign => "+="
  | .minusAssign => "-="
  | .starAssign => "*="
  | .slashAssign => "/="
  | .ampAssign => "&="
  | .pipeAssign => "|="
  | .caretAssign => "^="
  | .percentAssign => "%="
  | .shlAssign => "<<="
  | .shrAssign => ">>="
  | .ushrAssign => ">>>="
  | .integerLiteral => "integer literal"
  | .floatingPointLiteral => "floating-point literal"
  | .characterLiteral => "character literal"
  | .stringLiteral => "string literal"
  | .identifier => "identifier"
  | .eof => "end of input"

/-- Reserved words, the literals `true`, `false` and `null` among them. -/
def isKeyword (kind : TokenKind) : Bool :=
  kind.index ≤ kwNull.index

/-- Kinds whose every token has the same text: keywords, separators, operators. -/
def isFixed (kind : TokenKind) : Bool :=
  kind.index < integerLiteral.index

/-- Separators and operators. -/
def isSymbol (kind : TokenKind) : Bool :=
  kind.isFixed && !kind.isKeyword

/-- Kinds that are a whole literal expression by themselves. -/
def isLiteral : TokenKind → Bool
  | .integerLiteral | .floatingPointLiteral | .characterLiteral | .stringLiteral
  | .kwTrue | .kwFalse | .kwNull => true
  | _ => false

/-- How a message mentions a kind: a fixed spelling stands in single quotes. -/
def display (kind : TokenKind) : String :=
  if kind.isFixed then "'" ++ kind.describe ++ "'" else kind.describe

/-- The reserved words. -/
def keywords : List TokenKind :=
  all.filter isKeyword

/-- The separators and operators. -/
def symbols : List TokenKind :=
  all.filter isSymbol

theorem mem_all (kind : TokenKind) : kind ∈ all := by
  cases kind <;> decide

theorem mem_keywords {kind : TokenKind} : kind ∈ keywords ↔ kind.isKeyword = true := by
  simp [keywords, mem_all]

theorem index_lt_count (kind : TokenKind) : kind.index < count := by
  cases kind <;> decide

theorem index_injective {left right : TokenKind} (same : left.index = right.index) :
    left = right := by
  have indexed : ∀ kind : TokenKind, all[kind.index]? = some kind := by
    intro kind
    cases kind <;> rfl
  have := indexed left
  rw [same, indexed right] at this
  exact (Option.some.inj this).symm

end TokenKind

end JavaSyntax
