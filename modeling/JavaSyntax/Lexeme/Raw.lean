import JavaSyntax.Lexeme.Number
import JavaSyntax.Token.Kind

/-!
# Raw tokens

What the scanner recognizes. Keywords, separators and operators are recognized by their texts,
which stand here in tables of their own: nothing is taken from how `TokenKind.describe` spells
the kinds. Most raw tokens have a kind; block comments are recognized and then dropped.
-/

namespace JavaSyntax.Lexeme

/-- What the scanner recognizes. -/
inductive RawToken where
  | kwAbstract | kwAssert | kwBoolean | kwBreak | kwByte | kwCase | kwCatch | kwChar | kwClass
  | kwConst | kwContinue | kwDefault | kwDo | kwDouble | kwElse | kwEnum | kwExtends | kwFinal
  | kwFinally | kwFloat | kwFor | kwIf | kwGoto | kwImplements | kwImport | kwInstanceof | kwInt
  | kwInterface | kwLong | kwNative | kwNew | kwPackage | kwPrivate | kwProtected | kwPublic
  | kwReturn | kwShort | kwStatic | kwStrictfp | kwSuper | kwSwitch | kwSynchronized | kwThis
  | kwThrow | kwThrows | kwTransient | kwTry | kwVoid | kwVolatile | kwWhile | kwTrue | kwFalse
  | kwNull
  | lParen | rParen | lBrace | rBrace | lBracket | rBracket | semi | comma | dot | ellipsis
  | atSign | colonColon | assign | gt | lt | bang | tilde | question | colon | arrow | eqEq | le
  | ge | ne | andAnd | orOr | plusPlus | minusMinus | plus | minus | star | slash | amp | pipe
  | caret | percent | plusAssign | minusAssign | starAssign | slashAssign | ampAssign
  | pipeAssign | caretAssign | percentAssign | shlAssign | shrAssign | ushrAssign
  | number (found : NumberClass)
  | characterLiteral | stringLiteral | identifier
  | blockComment
  deriving DecidableEq, Repr, Inhabited

namespace RawToken

/-- The texts of the keywords. -/
def keywords : List (String × RawToken) :=
  [("abstract", .kwAbstract), ("assert", .kwAssert), ("boolean", .kwBoolean),
   ("break", .kwBreak), ("byte", .kwByte), ("case", .kwCase), ("catch", .kwCatch),
   ("char", .kwChar), ("class", .kwClass), ("const", .kwConst), ("continue", .kwContinue),
   ("default", .kwDefault), ("do", .kwDo), ("double", .kwDouble), ("else", .kwElse),
   ("enum", .kwEnum), ("extends", .kwExtends), ("final", .kwFinal), ("finally", .kwFinally),
   ("float", .kwFloat), ("for", .kwFor), ("if", .kwIf), ("goto", .kwGoto),
   ("implements", .kwImplements), ("import", .kwImport), ("instanceof", .kwInstanceof),
   ("int", .kwInt), ("interface", .kwInterface), ("long", .kwLong), ("native", .kwNative),
   ("new", .kwNew), ("package", .kwPackage), ("private", .kwPrivate),
   ("protected", .kwProtected), ("public", .kwPublic), ("return", .kwReturn),
   ("short", .kwShort), ("static", .kwStatic), ("strictfp", .kwStrictfp), ("super", .kwSuper),
   ("switch", .kwSwitch), ("synchronized", .kwSynchronized), ("this", .kwThis),
   ("throw", .kwThrow), ("throws", .kwThrows), ("transient", .kwTransient), ("try", .kwTry),
   ("void", .kwVoid), ("volatile", .kwVolatile), ("while", .kwWhile), ("true", .kwTrue),
   ("false", .kwFalse), ("null", .kwNull)]

/-- The texts of the separators and operators. -/
def symbols : List (String × RawToken) :=
  [("(", .lParen), (")", .rParen), ("\x7b", .lBrace), ("\x7d", .rBrace), ("[", .lBracket),
   ("]", .rBracket), (";", .semi), (",", .comma), (".", .dot), ("...", .ellipsis),
   ("@", .atSign), ("::", .colonColon), ("=", .assign), (">", .gt), ("<", .lt), ("!", .bang),
   ("~", .tilde), ("?", .question), (":", .colon), ("->", .arrow), ("==", .eqEq), ("<=", .le),
   (">=", .ge), ("!=", .ne), ("&&", .andAnd), ("||", .orOr), ("++", .plusPlus),
   ("--", .minusMinus), ("+", .plus), ("-", .minus), ("*", .star), ("/", .slash), ("&", .amp),
   ("|", .pipe), ("^", .caret), ("%", .percent), ("+=", .plusAssign), ("-=", .minusAssign),
   ("*=", .starAssign), ("/=", .slashAssign), ("&=", .ampAssign), ("|=", .pipeAssign),
   ("^=", .caretAssign), ("%=", .percentAssign), ("<<=", .shlAssign), (">>=", .shrAssign),
   (">>>=", .ushrAssign)]

/-- The kind of a raw token, or nothing for trivia. -/
def kind? : RawToken → Option TokenKind
  | .kwAbstract => some .kwAbstract
  | .kwAssert => some .kwAssert
  | .kwBoolean => some .kwBoolean
  | .kwBreak => some .kwBreak
  | .kwByte => some .kwByte
  | .kwCase => some .kwCase
  | .kwCatch => some .kwCatch
  | .kwChar => some .kwChar
  | .kwClass => some .kwClass
  | .kwConst => some .kwConst
  | .kwContinue => some .kwContinue
  | .kwDefault => some .kwDefault
  | .kwDo => some .kwDo
  | .kwDouble => some .kwDouble
  | .kwElse => some .kwElse
  | .kwEnum => some .kwEnum
  | .kwExtends => some .kwExtends
  | .kwFinal => some .kwFinal
  | .kwFinally => some .kwFinally
  | .kwFloat => some .kwFloat
  | .kwFor => some .kwFor
  | .kwIf => some .kwIf
  | .kwGoto => some .kwGoto
  | .kwImplements => some .kwImplements
  | .kwImport => some .kwImport
  | .kwInstanceof => some .kwInstanceof
  | .kwInt => some .kwInt
  | .kwInterface => some .kwInterface
  | .kwLong => some .kwLong
  | .kwNative => some .kwNative
  | .kwNew => some .kwNew
  | .kwPackage => some .kwPackage
  | .kwPrivate => some .kwPrivate
  | .kwProtected => some .kwProtected
  | .kwPublic => some .kwPublic
  | .kwReturn => some .kwReturn
  | .kwShort => some .kwShort
  | .kwStatic => some .kwStatic
  | .kwStrictfp => some .kwStrictfp
  | .kwSuper => some .kwSuper
  | .kwSwitch => some .kwSwitch
  | .kwSynchronized => some .kwSynchronized
  | .kwThis => some .kwThis
  | .kwThrow => some .kwThrow
  | .kwThrows => some .kwThrows
  | .kwTransient => some .kwTransient
  | .kwTry => some .kwTry
  | .kwVoid => some .kwVoid
  | .kwVolatile => some .kwVolatile
  | .kwWhile => some .kwWhile
  | .kwTrue => some .kwTrue
  | .kwFalse => some .kwFalse
  | .kwNull => some .kwNull
  | .lParen => some .lParen
  | .rParen => some .rParen
  | .lBrace => some .lBrace
  | .rBrace => some .rBrace
  | .lBracket => some .lBracket
  | .rBracket => some .rBracket
  | .semi => some .semi
  | .comma => some .comma
  | .dot => some .dot
  | .ellipsis => some .ellipsis
  | .atSign => some .atSign
  | .colonColon => some .colonColon
  | .assign => some .assign
  | .gt => some .gt
  | .lt => some .lt
  | .bang => some .bang
  | .tilde => some .tilde
  | .question => some .question
  | .colon => some .colon
  | .arrow => some .arrow
  | .eqEq => some .eqEq
  | .le => some .le
  | .ge => some .ge
  | .ne => some .ne
  | .andAnd => some .andAnd
  | .orOr => some .orOr
  | .plusPlus => some .plusPlus
  | .minusMinus => some .minusMinus
  | .plus => some .plus
  | .minus => some .minus
  | .star => some .star
  | .slash => some .slash
  | .amp => some .amp
  | .pipe => some .pipe
  | .caret => some .caret
  | .percent => some .percent
  | .plusAssign => some .plusAssign
  | .minusAssign => some .minusAssign
  | .starAssign => some .starAssign
  | .slashAssign => some .slashAssign
  | .ampAssign => some .ampAssign
  | .pipeAssign => some .pipeAssign
  | .caretAssign => some .caretAssign
  | .percentAssign => some .percentAssign
  | .shlAssign => some .shlAssign
  | .shrAssign => some .shrAssign
  | .ushrAssign => some .ushrAssign
  | .number .integer => some .integerLiteral
  | .number .floating => some .floatingPointLiteral
  | .characterLiteral => some .characterLiteral
  | .stringLiteral => some .stringLiteral
  | .identifier => some .identifier
  | .blockComment => none

end RawToken

end JavaSyntax.Lexeme
