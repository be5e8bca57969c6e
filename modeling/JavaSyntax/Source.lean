import JavaSyntax.Session
import JavaSyntax.Token.Lexing

/-!
# Parsing source text

The entry points of the library: source text in, syntax tree out.
-/

namespace JavaSyntax

/-- Why a strict parse has no tree. -/
inductive ParseFailure where
  | lexical (error : LexicalError)
  | syntactic (error : SyntaxError)
  deriving DecidableEq, Repr, Inhabited

/-- The parse of a source file. -/
def parseUnit (source : String) (config : Config) : Except LexicalError Parse := do
  let tokens ← Token.lex source
  return (Session.start tokens config).parseUnit.1

/-- The parse of a text that is one expression. -/
def parseExpression (source : String) (config : Config) : Except LexicalError Parse := do
  let tokens ← Token.lex source
  return (Session.start tokens config).parseExpression.1

/-- The tree of a source file without errors, or the first error. -/
def parseStrict (source : String) : Except ParseFailure Node :=
  match parseUnit source .strict with
  | .error error => .error (.lexical error)
  | .ok parse =>
      match parse.toExcept with
      | .ok root => .ok root
      | .error error => .error (.syntactic error)

end JavaSyntax
