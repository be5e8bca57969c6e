import JavaSyntax.Language.Vocabulary
import JavaSyntax.Proofs.Outline.Slots

/-!
# The forms of nodes

For each kind of node the forms that a node of that kind has in a tree without errors:
what stands in each of its slots, in source order.  An optional part that is not there
leaves an absent slot, so it does not change the number of slots; only lists have as many
slots as they have items and separators.

There is no form for an `error` node.
-/

namespace JavaSyntax

namespace NodeKind

/-! ## Kinds with a common role -/

def annotationUses : List NodeKind :=
  [.annotationMarker, .annotationPairs, .annotationSingle]

def types : List NodeKind :=
  [.primitiveType, .classType, .arrayType]

/-- What a suffix of a primary can stand behind. -/
def chainLinks : List NodeKind :=
  [.literal, .expressionName, .thisExpression, .parenthesizedExpression, .qualifiedThis,
    .classLiteral, .fieldAccess, .arrayAccess, .methodInvocation, .methodReference,
    .classInstanceCreationExpression, .arrayCreationExpression]

def primaries : List NodeKind :=
  .primary :: chainLinks

def postfixes : List NodeKind :=
  .postIncrementExpression :: .postDecrementExpression :: primaries

def unaries : List NodeKind :=
  .preIncrementExpression :: .preDecrementExpression :: .unaryExpression :: .castExpression ::
    postfixes

def binaries : List NodeKind :=
  .conditionalOrExpression :: .conditionalAndExpression :: .inclusiveOrExpression ::
    .exclusiveOrExpression :: .andExpression :: .equalityExpression :: .relationalExpression ::
    .instanceofExpression :: .shiftExpression :: .additiveExpression ::
    .multiplicativeExpression :: unaries

def conditionals : List NodeKind :=
  .conditionalExpression :: binaries

def expressions : List NodeKind :=
  .assignment :: .lambdaExpression :: conditionals

def elementValues : List NodeKind :=
  .elementValueArrayInitializer :: annotationUses ++ conditionals

def variableInitializers : List NodeKind :=
  .arrayInitializer :: expressions

def parameters : List NodeKind :=
  [.formalParameter, .lastFormalParameter, .receiverParameter]

def typeDeclarations : List NodeKind :=
  [.normalClassDeclaration, .enumDeclaration, .normalInterfaceDeclaration,
    .annotationTypeDeclaration]

def topDeclarations : List NodeKind :=
  .emptyDeclaration :: typeDeclarations

def imports : List NodeKind :=
  [.singleTypeImportDeclaration, .typeImportOnDemandDeclaration, .singleStaticImportDeclaration,
    .staticImportOnDemandDeclaration]

/-- What may stand in any body, besides its fields and methods. -/
def commonMembers : List NodeKind :=
  .instanceInitializer :: .staticInitializer :: .constructorDeclaration :: topDeclarations

def classMembers : List NodeKind :=
  .fieldDeclaration :: .methodDeclaration :: commonMembers

def interfaceMembers : List NodeKind :=
  .constantDeclaration :: .interfaceMethodDeclaration :: commonMembers

def annotationMembers : List NodeKind :=
  .annotationTypeElementDeclaration :: interfaceMembers

def statements : List NodeKind :=
  [.block, .emptyStatement, .labeledStatement, .expressionStatement, .ifStatement,
    .assertStatement, .switchStatement, .whileStatement, .doStatement, .basicForStatement,
    .enhancedForStatement, .breakStatement, .continueStatement, .returnStatement,
    .throwStatement, .synchronizedStatement, .tryStatement, .tryWithResourcesStatement]

def blockStatements : List NodeKind :=
  .localVariableDeclarationStatement :: typeDeclarations ++ statements

end NodeKind

namespace Part

/-- A token of a kind. -/
def token (kind : TokenKind) : Part :=
  .one (.ofTokens (.singleton kind))

/-- A token of one of some kinds. -/
def tokenOf (kinds : TokenSet) : Part :=
  .one (.ofTokens kinds)

/-- A node of one of some kinds. -/
def nodeOf (kinds : List NodeKind) : Part :=
  .one (.ofNodes kinds)

/-- A node of a kind. -/
def node (kind : NodeKind) : Part :=
  nodeOf [kind]

/-- A slot that may be absent. -/
def optional : Part → Part
  | .one slot => .one { slot with absent := true }
  | .run slot => .run slot

/-- A node of one of some kinds, or a token of one of some others. -/
def either (kinds : List NodeKind) (tokens : TokenSet) : Part :=
  .one ⟨tokens, .ofList kinds, false⟩

/-- Any number of nodes of some kinds, and of tokens of some kinds between them. -/
def items (kinds : List NodeKind) (separators : List TokenKind) : Part :=
  .run ⟨.ofList separators, .ofList kinds, false⟩

/-! ## Slots that many forms share

Those called `some` are absent where there is nothing to stand in them. -/

def expression : Part := nodeOf NodeKind.expressions
def type : Part := nodeOf NodeKind.types
def statement : Part := nodeOf NodeKind.statements
def operand : Part := nodeOf NodeKind.binaries
def chainLink : Part := nodeOf NodeKind.chainLinks
def elementValue : Part := nodeOf NodeKind.elementValues
def someAnnotations : Part := optional (node .annotations)
def someModifiers : Part := optional (node .modifiers)
def someTypeArguments : Part := optional (node .typeArguments)
def someTypeParameters : Part := optional (node .typeParameters)
def someDims : Part := optional (node .dims)

/-- An annotation, or a keyword among the modifiers. -/
def modifier : Slot :=
  ⟨Language.memberModifiers, .ofList NodeKind.annotationUses, false⟩

/-- What stands before `.class` or `::`. -/
def literalHead : Part := either (.primitiveType :: NodeKind.chainLinks) (.singleton .kwVoid)

/-- What stands behind `::`. -/
def referenceTarget : Part := tokenOf (.ofList [.identifier, .kwNew])

/-- A prefix operator that is one token. -/
def prefixOperator : Part :=
  tokenOf (.ofList [.plusPlus, .minusMinus, .plus, .minus, .bang, .tilde])

end Part

open JavaSyntax.Part in
/-- The forms of the nodes of a kind. -/
def NodeKind.forms : NodeKind → List (List Part)
  -- names and types
  | .qualifiedName => [[token .identifier, items [] [.dot, .identifier]]]
  | .expressionName => [[token .identifier]]
  | .primitiveType => [[someAnnotations, tokenOf Language.primitiveTypes]]
  | .classType => [[node .classTypeSegment, items [.classTypeSegment] [.dot]]]
  | .classTypeSegment => [[someAnnotations, token .identifier, someTypeArguments]]
  | .arrayType => [[nodeOf [.primitiveType, .classType], node .dims]]
  | .dims => [[node .dim, items [.dim] []]]
  | .dim => [[someAnnotations, token .lBracket, token .rBracket]]
  | .typeArguments => [[token .lt, items (.wildcard :: types) [.comma], token .gt]]
  | .wildcard => [[someAnnotations, token .question, optional (node .wildcardBounds)]]
  | .wildcardBounds => [[tokenOf (.ofList [.kwExtends, .kwSuper]), type]]
  | .typeParameters =>
      [[token .lt, node .typeParameter, items [.typeParameter] [.comma], token .gt]]
  | .typeParameter => [[someAnnotations, token .identifier, optional (node .typeBound)]]
  | .typeBound => [[token .kwExtends, node .classType, items [.additionalBound] []]]
  | .additionalBound => [[token .amp, node .classType]]
  -- modifiers and annotations
  | .modifiers => [[.one modifier, .run modifier]]
  | .annotations => [[nodeOf annotationUses, items annotationUses []]]
  | .annotationPairs =>
      [[token .atSign, node .qualifiedName, token .lParen, items [.elementValuePair] [.comma],
        token .rParen]]
  | .annotationMarker => [[token .atSign, node .qualifiedName]]
  | .annotationSingle =>
      [[token .atSign, node .qualifiedName, token .lParen, elementValue, token .rParen]]
  | .elementValuePair => [[token .identifier, token .assign, elementValue]]
  | .elementValueArrayInitializer =>
      [[token .lBrace, items elementValues [.comma], token .rBrace]]
  -- source files
  | .compilationUnit =>
      [[optional (node .packageDeclaration), items imports [], items topDeclarations [],
        token .eof]]
  | .packageDeclaration =>
      [[someAnnotations, token .kwPackage, node .qualifiedName, token .semi]]
  | .singleTypeImportDeclaration => [[token .kwImport, node .qualifiedName, token .semi]]
  | .typeImportOnDemandDeclaration =>
      [[token .kwImport, node .qualifiedName, token .dot, token .star, token .semi]]
  | .singleStaticImportDeclaration =>
      [[token .kwImport, token .kwStatic, node .qualifiedName, token .semi]]
  | .staticImportOnDemandDeclaration =>
      [[token .kwImport, token .kwStatic, node .qualifiedName, token .dot, token .star,
        token .semi]]
  | .emptyDeclaration => [[token .semi]]
  -- types and their bodies
  | .normalClassDeclaration =>
      [[someModifiers, token .kwClass, token .identifier, someTypeParameters,
        optional (node .superclass), optional (node .superinterfaces), node .classBody]]
  | .enumDeclaration =>
      [[someModifiers, token .kwEnum, token .identifier, optional (node .superinterfaces),
        node .enumBody]]
  | .normalInterfaceDeclaration =>
      [[someModifiers, token .kwInterface, token .identifier, someTypeParameters,
        optional (node .extendsInterfaces), node .interfaceBody]]
  | .annotationTypeDeclaration =>
      [[someModifiers, token .atSign, token .kwInterface, token .identifier,
        node .annotationTypeBody]]
  | .superclass => [[token .kwExtends, node .classType]]
  | .superinterfaces => [[token .kwImplements, node .interfaceTypeList]]
  | .extendsInterfaces => [[token .kwExtends, node .interfaceTypeList]]
  | .interfaceTypeList | .exceptionTypeList => [[node .classType, items [.classType] [.comma]]]
  | .classBody => [[token .lBrace, items classMembers [], token .rBrace]]
  | .interfaceBody => [[token .lBrace, items interfaceMembers [], token .rBrace]]
  | .annotationTypeBody => [[token .lBrace, items annotationMembers [], token .rBrace]]
  | .enumBody =>
      [[token .lBrace, items [.enumConstant, .enumBodyDeclarations] [.comma], token .rBrace]]
  | .enumConstant =>
      [[someAnnotations, token .identifier, optional (node .arguments), optional (node .classBody)]]
  | .enumBodyDeclarations => [[token .semi, items classMembers []]]
  -- members
  | .fieldDeclaration | .constantDeclaration =>
      [[someModifiers, type, node .variableDeclaratorList, token .semi]]
  | .variableDeclaratorList => [[node .variableDeclarator, items [.variableDeclarator] [.comma]]]
  | .variableDeclarator =>
      [[node .variableDeclaratorId, optional (token .assign),
        optional (nodeOf variableInitializers)]]
  | .variableDeclaratorId => [[token .identifier, someDims]]
  | .arrayInitializer => [[token .lBrace, items variableInitializers [.comma], token .rBrace]]
  | .methodDeclaration | .interfaceMethodDeclaration =>
      [[someModifiers, node .methodHeader, node .methodBody]]
  | .methodHeader =>
      [[someTypeParameters, either types (.singleton .kwVoid), node .methodDeclarator,
        optional (node .throws)]]
  | .methodDeclarator =>
      [[token .identifier, token .lParen, optional (node .formalParameterList), token .rParen,
        someDims]]
  | .formalParameterList => [[nodeOf parameters, items parameters [.comma]]]
  | .formalParameter => [[someModifiers, type, node .variableDeclaratorId]]
  | .lastFormalParameter =>
      [[someModifiers, type, someAnnotations, token .ellipsis, node .variableDeclaratorId]]
  | .receiverParameter =>
      [[someModifiers, type, token .kwThis],
        [someModifiers, type, token .identifier, token .dot, token .kwThis]]
  | .throws => [[token .kwThrows, node .exceptionTypeList]]
  | .methodBody => [[either [.block] (.singleton .semi)]]
  | .instanceInitializer => [[node .block]]
  | .staticInitializer => [[token .kwStatic, node .block]]
  | .constructorDeclaration =>
      [[someModifiers, node .constructorDeclarator, optional (node .throws), node .constructorBody]]
  | .constructorDeclarator =>
      [[someTypeParameters, token .identifier, token .lParen, optional (node .formalParameterList),
        token .rParen]]
  | .constructorBody =>
      [[token .lBrace, optional (node .explicitConstructorInvocation), items blockStatements [],
        token .rBrace]]
  | .explicitConstructorInvocation =>
      [[someTypeArguments, tokenOf (.ofList [.kwThis, .kwSuper]), node .arguments, token .semi],
        [nodeOf primaries, token .dot, someTypeArguments, token .kwSuper, node .arguments,
          token .semi]]
  | .annotationTypeElementDeclaration =>
      [[someModifiers, type, token .identifier, token .lParen, token .rParen, someDims,
        optional (node .defaultValue), token .semi]]
  | .defaultValue => [[token .kwDefault, elementValue]]
  -- statements
  | .localVariableDeclaration => [[someModifiers, type, node .variableDeclaratorList]]
  | .block => [[token .lBrace, items blockStatements [], token .rBrace]]
  | .localVariableDeclarationStatement => [[node .localVariableDeclaration, token .semi]]
  | .emptyStatement => [[token .semi]]
  | .labeledStatement => [[token .identifier, token .colon, statement]]
  | .expressionStatement => [[expression, token .semi]]
  | .ifStatement =>
      [[token .kwIf, token .lParen, expression, token .rParen, statement,
        optional (token .kwElse), optional statement]]
  | .assertStatement =>
      [[token .kwAssert, expression, optional (token .colon), optional expression, token .semi]]
  | .switchStatement =>
      [[token .kwSwitch, token .lParen, expression, token .rParen, node .switchBlock]]
  | .switchBlock =>
      [[token .lBrace, items [.switchBlockStatementGroup, .switchLabel] [], token .rBrace]]
  | .switchBlockStatementGroup =>
      [[node .switchLabel, items [.switchLabel] [], items blockStatements []]]
  | .switchLabel =>
      [[token .kwCase, nodeOf conditionals, token .colon], [token .kwDefault, token .colon]]
  | .whileStatement =>
      [[token .kwWhile, token .lParen, expression, token .rParen, statement]]
  | .doStatement =>
      [[token .kwDo, statement, token .kwWhile, token .lParen, expression, token .rParen,
        token .semi]]
  | .basicForStatement =>
      [[token .kwFor, token .lParen, optional (node .forInit), token .semi, optional expression,
        token .semi, optional (node .forUpdate), token .rParen, statement]]
  | .forInit => [[nodeOf [.localVariableDeclaration, .statementExpressionList]]]
  | .forUpdate => [[node .statementExpressionList]]
  | .statementExpressionList => [[expression, items expressions [.comma]]]
  | .enhancedForStatement =>
      [[token .kwFor, token .lParen, someModifiers, type, node .variableDeclaratorId, token .colon,
        expression, token .rParen, statement]]
  | .breakStatement => [[token .kwBreak, optional (token .identifier), token .semi]]
  | .continueStatement => [[token .kwContinue, optional (token .identifier), token .semi]]
  | .returnStatement => [[token .kwReturn, optional expression, token .semi]]
  | .throwStatement => [[token .kwThrow, expression, token .semi]]
  | .synchronizedStatement =>
      [[token .kwSynchronized, token .lParen, expression, token .rParen, node .block]]
  | .tryStatement =>
      [[token .kwTry, node .block, optional (node .catches), optional (node .finallyClause)]]
  | .tryWithResourcesStatement =>
      [[token .kwTry, node .resourceSpecification, node .block, optional (node .catches),
        optional (node .finallyClause)]]
  | .catches => [[node .catchClause, items [.catchClause] []]]
  | .catchClause =>
      [[token .kwCatch, token .lParen, node .catchFormalParameter, token .rParen, node .block]]
  | .catchFormalParameter => [[someModifiers, node .catchType, node .variableDeclaratorId]]
  | .catchType => [[node .classType, items [.classType] [.pipe]]]
  | .finallyClause => [[token .kwFinally, node .block]]
  | .resourceSpecification =>
      [[token .lParen, node .resource, items [.resource] [.semi], token .rParen]]
  | .resource => [[someModifiers, type, node .variableDeclaratorId, token .assign, expression]]
  -- expressions
  | .expressionRoot => [[expression, token .eof]]
  | .lambdaExpression =>
      [[node .lambdaParameters, token .arrow, nodeOf (.block :: expressions)]]
  | .lambdaParameters =>
      [[token .identifier],
        [token .lParen, optional (nodeOf [.formalParameterList, .inferredFormalParameterList]),
          token .rParen]]
  | .inferredFormalParameterList => [[token .identifier, items [] [.identifier, .comma]]]
  | .assignment =>
      [[nodeOf conditionals, tokenOf Language.assignmentOperators, expression]]
  | .conditionalExpression =>
      [[operand, token .question, expression, token .colon,
        nodeOf (.lambdaExpression :: conditionals)]]
  | .conditionalOrExpression => [[operand, token .orOr, operand]]
  | .conditionalAndExpression => [[operand, token .andAnd, operand]]
  | .inclusiveOrExpression => [[operand, token .pipe, operand]]
  | .exclusiveOrExpression => [[operand, token .caret, operand]]
  | .andExpression => [[operand, token .amp, operand]]
  | .equalityExpression => [[operand, tokenOf (.ofList [.eqEq, .ne]), operand]]
  | .relationalExpression => [[operand, tokenOf (.ofList [.lt, .gt, .le, .ge]), operand]]
  | .instanceofExpression => [[operand, token .kwInstanceof, type]]
  | .shiftExpression =>
      [[operand, token .lt, token .lt, operand], [operand, token .gt, token .gt, operand],
        [operand, token .gt, token .gt, token .gt, operand]]
  | .additiveExpression => [[operand, tokenOf (.ofList [.plus, .minus]), operand]]
  | .multiplicativeExpression =>
      [[operand, tokenOf (.ofList [.star, .slash, .percent]), operand]]
  | .preIncrementExpression | .preDecrementExpression | .unaryExpression =>
      [[prefixOperator, nodeOf unaries]]
  | .castExpression =>
      [[token .lParen, type, items [.additionalBound] [], token .rParen,
        nodeOf (.lambdaExpression :: unaries)]]
  | .postIncrementExpression => [[nodeOf postfixes, token .plusPlus]]
  | .postDecrementExpression => [[nodeOf postfixes, token .minusMinus]]
  | .primary => [[chainLink]]
  | .parenthesizedExpression => [[token .lParen, expression, token .rParen]]
  | .thisExpression => [[token .kwThis]]
  | .qualifiedThis => [[chainLink, token .dot, token .kwThis]]
  | .classLiteral => [[literalHead, someDims, token .dot, token .kwClass]]
  | .fieldAccess =>
      [[either chainLinks (.singleton .kwSuper), token .dot, token .identifier],
        [chainLink, token .dot, token .kwSuper, token .dot, token .identifier]]
  | .arrayAccess => [[chainLink, token .lBracket, expression, token .rBracket]]
  | .methodInvocation =>
      [[either [.parenthesizedExpression] (.singleton .identifier), node .arguments],
        [either chainLinks (.singleton .kwSuper), token .dot, someTypeArguments, token .identifier,
          node .arguments],
        [chainLink, token .dot, token .kwSuper, token .dot, someTypeArguments, token .identifier,
          node .arguments]]
  | .arguments => [[token .lParen, optional (node .argumentList), token .rParen]]
  | .argumentList => [[expression, items expressions [.comma]]]
  | .methodReference =>
      [[token .kwSuper, token .colonColon, someTypeArguments, referenceTarget],
        [literalHead, someDims, token .colonColon, someTypeArguments, referenceTarget],
        [literalHead, token .dot, token .kwSuper, someDims, token .colonColon, someTypeArguments,
          referenceTarget],
        [literalHead, node .typeArguments, items [.typeArguments] [.dot, .identifier], someDims,
          token .colonColon, someTypeArguments, referenceTarget]]
  | .classInstanceCreationExpression =>
      [[optional chainLink, optional (token .dot), token .kwNew, someTypeArguments, node .classType,
        node .arguments, optional (node .classBody)]]
  | .arrayCreationExpression =>
      [[token .kwNew, nodeOf [.primitiveType, .classType], optional (nodeOf [.dims, .dimExprs]),
        optional (nodeOf [.dims, .arrayInitializer])]]
  | .dimExprs => [[node .dimExpr, items [.dimExpr] []]]
  | .dimExpr => [[token .lBracket, expression, token .rBracket]]
  | .literal => [[tokenOf Language.literals]]
  | .error => []

end JavaSyntax
