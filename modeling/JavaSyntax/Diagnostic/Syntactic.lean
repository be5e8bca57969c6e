import JavaSyntax.Span
import JavaSyntax.Token.Kind

/-!
# Syntax errors

What can be wrong with a token list. An error records its cause and the place
it points at; the wording is a function of the cause.
-/

namespace JavaSyntax

/-- The parts of the language at which a token can fit no alternative. -/
inductive Construct where
  | type
  | typeDeclaration
  | member
  | statement
  | switchLabel
  | primary
  deriving DecidableEq, Repr, Inhabited

/-- How a message names a construct. -/
def Construct.name : Construct → String
  | .type => "type"
  | .typeDeclaration => "type declaration"
  | .member => "member"
  | .statement => "statement"
  | .switchLabel => "switch label"
  | .primary => "primary"

/-- What went wrong. -/
inductive SyntaxFault where
  | noViableAlternative (construct : Construct) (found : TokenKind)
  | unexpectedToken (expected found : TokenKind)
  | notAStatement
  | missingCatchOrFinally
  | tooDeeplyNested (limit : Nat)
  deriving DecidableEq, Repr, Inhabited

/-- The wording of a fault. -/
def SyntaxFault.describe : SyntaxFault → String
  | .noViableAlternative construct found =>
      "no viable alternative for " ++ construct.name ++ " at " ++ found.display
  | .unexpectedToken expected found =>
      "expected " ++ expected.display ++ ", found " ++ found.display
  | .notAStatement => "not a statement"
  | .missingCatchOrFinally => "'try' without 'catch' or 'finally'"
  | .tooDeeplyNested limit => "nesting deeper than " ++ limit.repr ++ " levels"

/-- A syntax fault and the text it points at. -/
structure SyntaxError where
  fault : SyntaxFault
  span : Span
  deriving DecidableEq, Repr, Inhabited

namespace SyntaxError

/-- The name under which syntax errors are reported. -/
def code : String := "jcst::parse"

/-- The full message of an error. -/
def message (error : SyntaxError) : String :=
  "parse error: " ++ error.fault.describe

/-- Where an error points. -/
def offset (error : SyntaxError) : Nat :=
  error.span.offset

/-- Fatal errors end the parse even when recovery is on. -/
def isFatal (error : SyntaxError) : Bool :=
  match error.fault with
  | .tooDeeplyNested _ => true
  | _ => false

end SyntaxError

end JavaSyntax
