import JavaSyntax.Language.Declarations

/-!
# Statements

Blocks, the statements they hold, and the bodies of constructors. Whether a block
holds a declaration or a statement at the cursor is told by a trial reading of a
type; an `else` goes with the nearest `if` that can still take it.
-/

namespace JavaSyntax.Language

open Phrase Condition

/-- A type followed by a name: `List<String> l` declares, `a < b` does not. -/
def startsLocalVariable : Condition :=
  .ahead type (is .identifier)

/-- The keywords of declarations that a block may hold. -/
def localTypeKeywords : List TokenKind :=
  [.kwClass, .kwInterface, .kwEnum]

/-- A class declared inside a block starts here. -/
def startsLocalClass : Condition :=
  isOneOf (localTypeKeywords ++ [.kwAbstract, .kwStrictfp, .kwStatic]) |||
    (isOneOf [.kwFinal, .atSign] &&&
      .ahead (modifiers localClassModifiers) (isOneOf localTypeKeywords))

/-- A variable declaration starts with a modifier, or with a type and a name. -/
def startsVariable : Condition :=
  isOneOf [.kwFinal, .atSign] ||| (among typeStart &&& startsLocalVariable)

/-- A declaration or a statement. -/
def blockStatement : Phrase :=
  .choose startsLocalClass (modifiers localClassModifiers ++ typeDeclarationRest)
    (.choose startsVariable
      (node .localVariableDeclarationStatement (localVariableDeclaration ++ .expect .semi))
      (.call .statement))

/-- Block statements up to a closing brace or a switch label. -/
def blockStatements : Phrase :=
  repeatWhile (.not (isOneOf [.rBrace, .eof, .kwCase, .kwDefault])) (.progress blockStatement)

/-- `{ BlockStatement* }` -/
def block : Phrase :=
  node .block (.expect .lBrace ++ blockStatements ++ .expect .rBrace)

/-- `( Expression )`, three slots. -/
def parenthesizedCondition : Phrase :=
  .expect .lParen ++ .call .expression ++ .expect .rParen

/-- An expression that may stand as a statement. -/
def statementExpression : Phrase :=
  .call .expression ++ .require .statementExpression

/-- `StatementExpression , ...` -/
def statementExpressionList : Phrase :=
  node .statementExpressionList (separated .comma statementExpression)

/-- `if ( Expression ) Statement ( else Statement )?`; an `else if` opens no nesting
level. -/
def ifStatement : Phrase :=
  .chain .ifStatement
    (.expect .kwIf ++ parenthesizedCondition ++ .call .statement)
    (is .kwElse &&& nextIs 1 .kwIf)
    (.choose (is .kwElse) (.take ++ .call .statement) (.absent ++ .absent))

/-- `assert Expression ( : Expression )? ;` -/
def assertStatement : Phrase :=
  node .assertStatement (.take ++ .call .expression ++
    .choose (is .colon) (.take ++ .call .expression) (.absent ++ .absent) ++ .expect .semi)

/-- `while ( Expression ) Statement` -/
def whileStatement : Phrase :=
  node .whileStatement (.expect .kwWhile ++ parenthesizedCondition ++ .call .statement)

/-- `do Statement while ( Expression ) ;` -/
def doStatement : Phrase :=
  node .doStatement (.expect .kwDo ++ .call .statement ++ .expect .kwWhile ++
    parenthesizedCondition ++ .expect .semi)

/-- The keywords of a switch label. -/
def labelKeywords : List TokenKind :=
  [.kwCase, .kwDefault]

/-- `case Conditional :` or `default :` -/
def switchLabel : Phrase :=
  node .switchLabel
    (.choose (is .kwCase) (.take ++ .call .conditional) .take ++ .expect .colon)

/-- Labels and the statements after them as one node; labels before the closing
brace have none and stand for themselves. -/
def switchGroup : Phrase :=
  .frame 0 (repeatWhile (isOneOf labelKeywords) switchLabel ++ blockStatements ++
    .choose (.shape .endsInLabel) .nothing (.close .switchBlockStatementGroup))

/-- `{ SwitchGroup* SwitchLabel* }` -/
def switchBlock : Phrase :=
  node .switchBlock (.expect .lBrace ++
    repeatWhile (.not (isOneOf [.rBrace, .eof]))
      (.choose (isOneOf labelKeywords) switchGroup (.progress (.noViable .switchLabel))) ++
    .expect .rBrace)

/-- `switch ( Expression ) SwitchBlock` -/
def switchStatement : Phrase :=
  node .switchStatement (.take ++ parenthesizedCondition ++ .call .switchBlock)

/-- What follows `for (` is `Modifier* Type VariableDeclaratorId :`. -/
def startsEnhancedFor : Condition :=
  .ahead (modifiers variableModifiers ++ type ++ variableDeclaratorId) (is .colon)

/-- The rest of a loop over the elements of a collection. -/
def enhancedForRest : Phrase :=
  modifiers variableModifiers ++ type ++ variableDeclaratorId ++ .expect .colon ++
    .call .expression ++ .expect .rParen ++ .call .statement ++ .close .enhancedForStatement

/-- The rest of a loop with initialisation, condition and update, each optional. -/
def basicForRest : Phrase :=
  .choose (is .semi) .absent
    (node .forInit (.choose startsVariable localVariableDeclaration statementExpressionList)) ++
  .expect .semi ++
  .choose (is .semi) .absent (.call .expression) ++
  .expect .semi ++
  .choose (is .rParen) .absent (node .forUpdate statementExpressionList) ++
  .expect .rParen ++ .call .statement ++ .close .basicForStatement

/-- Either kind of `for`. -/
def forStatement : Phrase :=
  .frame 0 (.expect .kwFor ++ .expect .lParen ++
    .choose startsEnhancedFor enhancedForRest basicForRest)

/-- `break Identifier? ;` or `continue Identifier? ;` -/
def jumpStatement (kind : NodeKind) : Phrase :=
  node kind (.take ++ optional (is .identifier) .take ++ .expect .semi)

/-- `return Expression? ;` -/
def returnStatement : Phrase :=
  node .returnStatement (.take ++ .choose (is .semi) .absent (.call .expression) ++ .expect .semi)

/-- `throw Expression ;` -/
def throwStatement : Phrase :=
  node .throwStatement (.take ++ .call .expression ++ .expect .semi)

/-- `synchronized ( Expression ) Block` -/
def synchronizedStatement : Phrase :=
  node .synchronizedStatement (.take ++ parenthesizedCondition ++ .call .block)

/-- `catch ( Modifier* ClassType | ... VariableDeclaratorId ) Block` -/
def catchClause : Phrase :=
  node .catchClause (.take ++ .expect .lParen ++
    node .catchFormalParameter (modifiers variableModifiers ++
      node .catchType (separated .pipe (classType false)) ++ variableDeclaratorId) ++
    .expect .rParen ++ .call .block)

/-- The slots of the catch clauses and of the `finally` clause. -/
def handlers : Phrase :=
  gather .catches (onlyIf (is .kwCatch) catchClause) ++
    optional (is .kwFinally) (node .finallyClause (.take ++ .call .block))

/-- `Modifier* Type VariableDeclaratorId = Expression` -/
def resource : Phrase :=
  node .resource (modifiers variableModifiers ++ type ++ variableDeclaratorId ++
    .expect .assign ++ .call .expression)

/-- `( Resource ; ... )`; a `;` may follow the last resource. -/
def resourceSpecification : Phrase :=
  node .resourceSpecification (.take ++ resource ++
    repeatWhile (is .semi &&& .not (nextIs 1 .rParen)) (.take ++ resource) ++
    onlyIf (is .semi) .take ++ .expect .rParen)

/-- A `try` with or without resources; without, it needs a handler. -/
def tryStatement : Phrase :=
  .choose (nextIs 1 .lParen)
    (node .tryWithResourcesStatement (.take ++ resourceSpecification ++ .call .block ++ handlers))
    (node .tryStatement (.take ++ .call .block ++ handlers ++ .require .handler))

/-- `Identifier : Statement` -/
def labeledStatement : Phrase :=
  node .labeledStatement (.take ++ .take ++ .call .statement)

/-- `StatementExpression ;` -/
def expressionStatement : Phrase :=
  node .expressionStatement (statementExpression ++ .expect .semi)

/-- The statements that start with a keyword of their own, or with `{` or `;`. -/
def keywordStatements : List (TokenKind × Phrase) :=
  [(.lBrace, .call .block), (.semi, node .emptyStatement .take), (.kwIf, ifStatement),
   (.kwAssert, assertStatement), (.kwSwitch, switchStatement), (.kwWhile, whileStatement),
   (.kwDo, doStatement), (.kwFor, forStatement), (.kwBreak, jumpStatement .breakStatement),
   (.kwContinue, jumpStatement .continueStatement), (.kwReturn, returnStatement),
   (.kwThrow, throwStatement), (.kwSynchronized, synchronizedStatement), (.kwTry, tryStatement)]

/-- A statement. -/
def statement : Phrase :=
  keywordStatements.foldr (fun (kind, body) others => .choose (is kind) body others)
    (.choose (is .identifier &&& nextIs 1 .colon) labeledStatement
      (.choose (among expressionStart) expressionStatement (.noViable .statement)))

/-- A call that stands first in a constructor: `this` or `super` with arguments, with
type arguments or a qualifier before it. -/
def constructorCall : Phrase :=
  let finish := arguments ++ .expect .semi ++ .close .explicitConstructorInvocation
  .choose (isOneOf [.kwThis, .kwSuper] &&& nextIs 1 .lParen)
    (.frame 0 (.absent ++ .take ++ finish))
    (.choose (is .lt)
      (.frame 0 (.call (.typeArguments false) ++
        .choose (is .kwThis) .take (.expect .kwSuper) ++ finish))
      (.attempt primary (is .dot &&& nextIsOneOf 1 [.kwSuper, .lt])
        (.frame 1 (.take ++ optionalTypeArguments ++ .expect .kwSuper ++ finish))
        .absent))

/-- `{ ConstructorCall? BlockStatement* }` -/
def constructorBody : Phrase :=
  node .constructorBody (.expect .lBrace ++ constructorCall ++ blockStatements ++ .expect .rBrace)

end JavaSyntax.Language
