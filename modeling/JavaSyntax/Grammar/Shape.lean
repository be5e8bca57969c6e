import JavaSyntax.Grammar.Phrase
import JavaSyntax.Text.Uppercase
import JavaSyntax.Tree.Walk

/-!
# Shapes of frames

The tests on slots already read that decide how a reading goes on, and the
requirements that decide whether what was read is legal. Slots are given
latest first.
-/

namespace JavaSyntax

namespace Element

/-- A name followed only by plain field accesses, as in `a.b.c`. -/
def isNameChain : Element → Bool
  | .node .expressionName _ _ => true
  | .node .fieldAccess _ [inner, _, _] => isNameChain inner
  | _ => false

/-- A class type with neither type arguments nor annotations anywhere. -/
def isPlainName (element : Element) : Bool :=
  element.node?.any fun node =>
    node.kind == .classType &&
      node.descendants.all fun below =>
        below.kind != .typeArguments && below.kind != .annotations

/-- Whether the last identifier below starts with an uppercase character. -/
def isCapitalized (element : Element) : Bool :=
  element.node?.any fun node =>
    ((node.tokens.filter (·.kind == .identifier)).getLast?.any fun last =>
      last.text.toList.head?.any Text.isUppercase)

/-- The node that decides whether an expression may stand as a statement: a chain
of suffixes is judged by its last one. -/
def outermost? (element : Element) : Option Node :=
  element.node?.bind fun node =>
    if node.kind = .primary then node.childNodes.head? else some node

/-- Assignments, increments, decrements, calls and instance creations may stand as
statements. -/
def isStatementExpression (element : Element) : Bool :=
  element.outermost?.any fun node =>
    match node.kind with
    | .assignment | .preIncrementExpression | .preDecrementExpression
    | .postIncrementExpression | .postDecrementExpression
    | .methodInvocation | .classInstanceCreationExpression => true
    | _ => false

end Element

/-- Whether a frame has a shape. -/
def Shape.holds (slots : List Element) : Shape → Bool
  | .empty => slots.isEmpty
  | .endsAbsent => slots.head?.any Element.isAbsent
  | .endsInLabel => slots.head?.any (·.nodeKind? == some .switchLabel)
  | .endsInName => slots.head?.any Element.isNameChain
  | .endsInParentheses => slots.head?.any (·.nodeKind? == some .parenthesizedExpression)
  | .endsInClosing => slots.head?.any (·.tokenKind? == some .rParen)
  | .primitiveInParentheses =>
      slots.length == 3 && slots.reverse[1]?.any (·.nodeKind? == some .primitiveType)
  | .plainName => slots.reverse[1]?.any Element.isPlainName
  | .capitalizedName => slots.reverse[1]?.any Element.isCapitalized

/-- The error of a frame that does not satisfy a requirement. An expression that
already holds an error is not blamed again. -/
def Requirement.violation? (slots : List Element) : Requirement → Option SyntaxError
  | .statementExpression =>
      match slots.head?.bind Element.node? with
      | some node =>
          if node.toElement.isStatementExpression || node.hasErrors then none
          else some ⟨.notAStatement, node.span⟩
      | none => none
  | .handler =>
      match slots, slots.getLast?.bind Element.span? with
      | .absent :: .absent :: _, some span => some ⟨.missingCatchOrFinally, span⟩
      | _, _ => none

end JavaSyntax
