import JavaSyntax.Token.Set

/-!
# Sets of tokens with a common role

The sets by which one token of lookahead tells the alternatives of a rule apart.
-/

namespace JavaSyntax.Language

/-- The keywords that are types by themselves. -/
def primitiveTypes : TokenSet :=
  .ofList [.kwBoolean, .kwByte, .kwShort, .kwInt, .kwLong, .kwChar, .kwFloat, .kwDouble]

/-- Tokens that are a literal expression. -/
def literals : TokenSet :=
  .ofList [.integerLiteral, .floatingPointLiteral, .characterLiteral, .stringLiteral, .kwTrue,
    .kwFalse, .kwNull]

/-- Modifiers of types and members. `default` belongs to interface methods. -/
def memberModifiers : TokenSet :=
  .ofList [.kwPublic, .kwProtected, .kwPrivate, .kwAbstract, .kwStatic, .kwFinal, .kwSynchronized,
    .kwNative, .kwTransient, .kwVolatile, .kwStrictfp, .kwDefault]

/-- Modifiers of local variables and parameters. -/
def variableModifiers : TokenSet :=
  .ofList [.kwFinal]

/-- Modifiers of classes declared inside a block. -/
def localClassModifiers : TokenSet :=
  .ofList [.kwAbstract, .kwFinal, .kwStatic, .kwStrictfp]

/-- The assignment operators. -/
def assignmentOperators : TokenSet :=
  .ofList [.assign, .plusAssign, .minusAssign, .starAssign, .slashAssign, .ampAssign, .pipeAssign,
    .caretAssign, .percentAssign, .shlAssign, .shrAssign, .ushrAssign]

/-- Tokens that start an operand without a sign. After a type in parentheses they
decide that it is a cast. -/
def unsignedOperandStart : TokenSet :=
  literals ∪ primitiveTypes ∪
    .ofList [.tilde, .bang, .lParen, .identifier, .kwThis, .kwSuper, .kwNew, .kwVoid]

/-- Tokens that start an expression. -/
def expressionStart : TokenSet :=
  unsignedOperandStart ∪ .ofList [.plus, .minus, .plusPlus, .minusMinus]

/-- The first token of a type without annotations: a name or a primitive type. -/
def typeStart : TokenSet :=
  primitiveTypes ∪ .ofList [.identifier]

end JavaSyntax.Language
