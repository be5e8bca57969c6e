import JavaSyntax.Language.Primaries
import JavaSyntax.Language.Variables

/-!
# Expressions

Lambdas, assignments, conditionals, binary and unary operators, and casts.
-/

namespace JavaSyntax.Language

open Phrase Condition

/-- `Identifier , ...` -/
def inferredParameters : Phrase :=
  node .inferredFormalParameterList (separated .comma (.expect .identifier))

/-- A single name, or names or typed parameters in parentheses. -/
def lambdaParameters : Phrase :=
  .choose (is .identifier) (node .lambdaParameters .take)
    (node .lambdaParameters (.expect .lParen ++
      .choose (is .rParen) .absent
        (.choose (is .identifier &&& nextIsOneOf 1 [.comma, .rParen]) inferredParameters
          formalParameterList) ++
      .expect .rParen))

/-- A lambda starts here: its parameters are followed by an arrow. -/
def startsLambda : Condition :=
  (is .identifier &&& nextIs 1 .arrow) |||
    (is .lParen &&& .ahead lambdaParameters (is .arrow))

/-- `LambdaParameters -> ( Expression | Block )` -/
def lambda : Phrase :=
  node .lambdaExpression (lambdaParameters ++ .expect .arrow ++
    .choose (is .lBrace) (.call .block) (.call .expression))

/-- `( Type AdditionalBound* )` -/
def castHead : Phrase :=
  .take ++ type ++ repeatWhile (is .amp) additionalBound ++ .expect .rParen

/-- The parentheses just read are a cast. A primitive type always is one; a reference
type is one before an operand without a sign. Before `(` a plain name decides
by itself: a capitalized last part makes a cast, any other a call. -/
def commitsToCast : Condition :=
  let namedCall := is .lParen &&& .shape .plainName
  .shape .primitiveInParentheses ||| (namedCall &&& .shape .capitalizedName) |||
    (.not namedCall &&& among unsignedOperandStart)

/-- A prefix operator or a cast, if there is one. -/
def prefixLink : Phrase :=
  .choose (isOneOf [.plusPlus, .minusMinus, .plus, .minus, .bang, .tilde]) .take
    (onlyIf (is .lParen) (.attempt castHead commitsToCast .nothing .nothing))

/-- `Primary ( ++ | -- )*` -/
def postfixed : Phrase :=
  primary ++ .many
    (.choose (is .plusPlus) (around 1 .postIncrementExpression .take)
      (onlyIf (is .minusMinus) (around 1 .postDecrementExpression .take)))

/-- Prefix operators and casts before an operand; right after a cast the operand may
be a lambda. -/
def unary : Phrase :=
  .prefixed prefixLink
    (.choose (.shape .endsInClosing &&& startsLambda) (.call .lambda) postfixed)

/-- Operands joined by binary operators. -/
def binary : Phrase :=
  .operators unary type

/-- `Binary ( ? Expression : ( Lambda | Conditional ) )?` -/
def conditional : Phrase :=
  binary ++ onlyIf (is .question)
    (around 1 .conditionalExpression (.take ++ .call .expression ++ .expect .colon ++
      .choose startsLambda (.call .lambda) (.call .conditional)))

/-- `Conditional ( AssignmentOperator Expression )?` -/
def assignment : Phrase :=
  conditional ++ onlyIf (among assignmentOperators)
    (around 1 .assignment (.take ++ .call .expression))

/-- A lambda or an assignment. -/
def expression : Phrase :=
  .choose startsLambda lambda assignment

/-- `{ ElementValue , ... }`, an annotation, or a conditional expression. -/
def elementValue : Phrase :=
  .choose (is .lBrace) (bracedList .elementValueArrayInitializer (.call .elementValue))
    (.choose (is .atSign) annotationUse (.call .conditional))

end JavaSyntax.Language
