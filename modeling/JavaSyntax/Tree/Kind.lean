/-!
# Node kinds

The grammatical categories that label the nodes of a syntax tree. Each node
kind belongs to one coarse category.
-/

namespace JavaSyntax

/-- A coarse grouping of node kinds. -/
inductive NodeCategory where
  | name | type | declaration | modifier | statement | expression | literal | error
  deriving DecidableEq, Repr, Inhabited

/-- The kind of a tree node. The declaration order is part of the interface:
listings by kind follow it. -/
inductive NodeKind where
  | qualifiedName | expressionName
  | primitiveType | classType | classTypeSegment | arrayType | dims | dim | typeArguments
  | wildcard | wildcardBounds | typeParameters | typeParameter | typeBound
  | additionalBound
  | modifiers | annotations | annotationPairs | annotationMarker | annotationSingle
  | elementValuePair | elementValueArrayInitializer
  | compilationUnit | packageDeclaration | singleTypeImportDeclaration
  | typeImportOnDemandDeclaration | singleStaticImportDeclaration
  | staticImportOnDemandDeclaration | emptyDeclaration | normalClassDeclaration
  | enumDeclaration | normalInterfaceDeclaration | annotationTypeDeclaration | superclass
  | superinterfaces | extendsInterfaces | interfaceTypeList | classBody | interfaceBody
  | annotationTypeBody | enumBody | enumConstant | enumBodyDeclarations | fieldDeclaration
  | constantDeclaration | variableDeclaratorList | variableDeclarator
  | variableDeclaratorId | arrayInitializer | methodDeclaration
  | interfaceMethodDeclaration | methodHeader | methodDeclarator | formalParameterList
  | formalParameter | lastFormalParameter | receiverParameter | throws | exceptionTypeList
  | methodBody | instanceInitializer | staticInitializer | constructorDeclaration
  | constructorDeclarator | constructorBody | explicitConstructorInvocation
  | annotationTypeElementDeclaration | defaultValue | localVariableDeclaration
  | block | localVariableDeclarationStatement | emptyStatement | labeledStatement
  | expressionStatement | ifStatement | assertStatement | switchStatement | switchBlock
  | switchBlockStatementGroup | switchLabel | whileStatement | doStatement
  | basicForStatement | forInit | forUpdate | statementExpressionList
  | enhancedForStatement | breakStatement | continueStatement | returnStatement
  | throwStatement | synchronizedStatement | tryStatement | tryWithResourcesStatement
  | catches | catchClause | catchFormalParameter | catchType | finallyClause
  | resourceSpecification | resource
  | expressionRoot | lambdaExpression | lambdaParameters | inferredFormalParameterList
  | assignment | conditionalExpression | conditionalOrExpression | conditionalAndExpression
  | inclusiveOrExpression | exclusiveOrExpression | andExpression | equalityExpression
  | relationalExpression | instanceofExpression | shiftExpression | additiveExpression
  | multiplicativeExpression | preIncrementExpression | preDecrementExpression
  | unaryExpression | castExpression | postIncrementExpression | postDecrementExpression
  | primary | parenthesizedExpression | thisExpression | qualifiedThis | classLiteral
  | fieldAccess | arrayAccess | methodInvocation | arguments | argumentList
  | methodReference | classInstanceCreationExpression | arrayCreationExpression | dimExprs
  | dimExpr
  | literal
  | error
  deriving DecidableEq, Repr, Inhabited

namespace NodeKind

/-- All kinds, in declaration order. -/
def all : List NodeKind :=
  [.qualifiedName, .expressionName, .primitiveType, .classType, .classTypeSegment,
   .arrayType, .dims, .dim, .typeArguments, .wildcard, .wildcardBounds, .typeParameters,
   .typeParameter, .typeBound, .additionalBound, .modifiers, .annotations,
   .annotationPairs, .annotationMarker, .annotationSingle, .elementValuePair,
   .elementValueArrayInitializer, .compilationUnit, .packageDeclaration,
   .singleTypeImportDeclaration, .typeImportOnDemandDeclaration,
   .singleStaticImportDeclaration, .staticImportOnDemandDeclaration, .emptyDeclaration,
   .normalClassDeclaration, .enumDeclaration, .normalInterfaceDeclaration,
   .annotationTypeDeclaration, .superclass, .superinterfaces, .extendsInterfaces,
   .interfaceTypeList, .classBody, .interfaceBody, .annotationTypeBody, .enumBody,
   .enumConstant, .enumBodyDeclarations, .fieldDeclaration, .constantDeclaration,
   .variableDeclaratorList, .variableDeclarator, .variableDeclaratorId, .arrayInitializer,
   .methodDeclaration, .interfaceMethodDeclaration, .methodHeader, .methodDeclarator,
   .formalParameterList, .formalParameter, .lastFormalParameter, .receiverParameter,
   .throws, .exceptionTypeList, .methodBody, .instanceInitializer, .staticInitializer,
   .constructorDeclaration, .constructorDeclarator, .constructorBody,
   .explicitConstructorInvocation, .annotationTypeElementDeclaration, .defaultValue,
   .localVariableDeclaration, .block, .localVariableDeclarationStatement, .emptyStatement,
   .labeledStatement, .expressionStatement, .ifStatement, .assertStatement,
   .switchStatement, .switchBlock, .switchBlockStatementGroup, .switchLabel,
   .whileStatement, .doStatement, .basicForStatement, .forInit, .forUpdate,
   .statementExpressionList, .enhancedForStatement, .breakStatement, .continueStatement,
   .returnStatement, .throwStatement, .synchronizedStatement, .tryStatement,
   .tryWithResourcesStatement, .catches, .catchClause, .catchFormalParameter, .catchType,
   .finallyClause, .resourceSpecification, .resource, .expressionRoot, .lambdaExpression,
   .lambdaParameters, .inferredFormalParameterList, .assignment, .conditionalExpression,
   .conditionalOrExpression, .conditionalAndExpression, .inclusiveOrExpression,
   .exclusiveOrExpression, .andExpression, .equalityExpression, .relationalExpression,
   .instanceofExpression, .shiftExpression, .additiveExpression,
   .multiplicativeExpression, .preIncrementExpression, .preDecrementExpression,
   .unaryExpression, .castExpression, .postIncrementExpression, .postDecrementExpression,
   .primary, .parenthesizedExpression, .thisExpression, .qualifiedThis, .classLiteral,
   .fieldAccess, .arrayAccess, .methodInvocation, .arguments, .argumentList,
   .methodReference, .classInstanceCreationExpression, .arrayCreationExpression,
   .dimExprs, .dimExpr, .literal, .error]

/-- The position of a kind in the declaration order. -/
def index (kind : NodeKind) : Nat :=
  kind.ctorIdx

/-- The identifier of a kind, as the printed tree spells it. -/
def name : NodeKind → String
  | .qualifiedName => "QualifiedName"
  | .expressionName => "ExpressionName"
  | .primitiveType => "PrimitiveType"
  | .classType => "ClassType"
  | .classTypeSegment => "ClassTypeSegment"
  | .arrayType => "ArrayType"
  | .dims => "Dims"
  | .dim => "Dim"
  | .typeArguments => "TypeArguments"
  | .wildcard => "Wildcard"
  | .wildcardBounds => "WildcardBounds"
  | .typeParameters => "TypeParameters"
  | .typeParameter => "TypeParameter"
  | .typeBound => "TypeBound"
  | .additionalBound => "AdditionalBound"
  | .modifiers => "Modifiers"
  | .annotations => "Annotations"
  | .annotationPairs => "NormalAnnotation"
  | .annotationMarker => "MarkerAnnotation"
  | .annotationSingle => "SingleElementAnnotation"
  | .elementValuePair => "ElementValuePair"
  | .elementValueArrayInitializer => "ElementValueArrayInitializer"
  | .compilationUnit => "CompilationUnit"
  | .packageDeclaration => "PackageDeclaration"
  | .singleTypeImportDeclaration => "SingleTypeImportDeclaration"
  | .typeImportOnDemandDeclaration => "TypeImportOnDemandDeclaration"
  | .singleStaticImportDeclaration => "SingleStaticImportDeclaration"
  | .staticImportOnDemandDeclaration => "StaticImportOnDemandDeclaration"
  | .emptyDeclaration => "EmptyDeclaration"
  | .normalClassDeclaration => "NormalClassDeclaration"
  | .enumDeclaration => "EnumDeclaration"
  | .normalInterfaceDeclaration => "NormalInterfaceDeclaration"
  | .annotationTypeDeclaration => "AnnotationTypeDeclaration"
  | .superclass => "Superclass"
  | .superinterfaces => "Superinterfaces"
  | .extendsInterfaces => "ExtendsInterfaces"
  | .interfaceTypeList => "InterfaceTypeList"
  | .classBody => "ClassBody"
  | .interfaceBody => "InterfaceBody"
  | .annotationTypeBody => "AnnotationTypeBody"
  | .enumBody => "EnumBody"
  | .enumConstant => "EnumConstant"
  | .enumBodyDeclarations => "EnumBodyDeclarations"
  | .fieldDeclaration => "FieldDeclaration"
  | .constantDeclaration => "ConstantDeclaration"
  | .variableDeclaratorList => "VariableDeclaratorList"
  | .variableDeclarator => "VariableDeclarator"
  | .variableDeclaratorId => "VariableDeclaratorId"
  | .arrayInitializer => "ArrayInitializer"
  | .methodDeclaration => "MethodDeclaration"
  | .interfaceMethodDeclaration => "InterfaceMethodDeclaration"
  | .methodHeader => "MethodHeader"
  | .methodDeclarator => "MethodDeclarator"
  | .formalParameterList => "FormalParameterList"
  | .formalParameter => "FormalParameter"
  | .lastFormalParameter => "LastFormalParameter"
  | .receiverParameter => "ReceiverParameter"
  | .throws => "Throws"
  | .exceptionTypeList => "ExceptionTypeList"
  | .methodBody => "MethodBody"
  | .instanceInitializer => "InstanceInitializer"
  | .staticInitializer => "StaticInitializer"
  | .constructorDeclaration => "ConstructorDeclaration"
  | .constructorDeclarator => "ConstructorDeclarator"
  | .constructorBody => "ConstructorBody"
  | .explicitConstructorInvocation => "ExplicitConstructorInvocation"
  | .annotationTypeElementDeclaration => "AnnotationTypeElementDeclaration"
  | .defaultValue => "DefaultValue"
  | .localVariableDeclaration => "LocalVariableDeclaration"
  | .block => "Block"
  | .localVariableDeclarationStatement => "LocalVariableDeclarationStatement"
  | .emptyStatement => "EmptyStatement"
  | .labeledStatement => "LabeledStatement"
  | .expressionStatement => "ExpressionStatement"
  | .ifStatement => "IfStatement"
  | .assertStatement => "AssertStatement"
  | .switchStatement => "SwitchStatement"
  | .switchBlock => "SwitchBlock"
  | .switchBlockStatementGroup => "SwitchBlockStatementGroup"
  | .switchLabel => "SwitchLabel"
  | .whileStatement => "WhileStatement"
  | .doStatement => "DoStatement"
  | .basicForStatement => "BasicForStatement"
  | .forInit => "ForInit"
  | .forUpdate => "ForUpdate"
  | .statementExpressionList => "StatementExpressionList"
  | .enhancedForStatement => "EnhancedForStatement"
  | .breakStatement => "BreakStatement"
  | .continueStatement => "ContinueStatement"
  | .returnStatement => "ReturnStatement"
  | .throwStatement => "ThrowStatement"
  | .synchronizedStatement => "SynchronizedStatement"
  | .tryStatement => "TryStatement"
  | .tryWithResourcesStatement => "TryWithResourcesStatement"
  | .catches => "Catches"
  | .catchClause => "CatchClause"
  | .catchFormalParameter => "CatchFormalParameter"
  | .catchType => "CatchType"
  | .finallyClause => "Finally"
  | .resourceSpecification => "ResourceSpecification"
  | .resource => "Resource"
  | .expressionRoot => "ExpressionRoot"
  | .lambdaExpression => "LambdaExpression"
  | .lambdaParameters => "LambdaParameters"
  | .inferredFormalParameterList => "InferredFormalParameterList"
  | .assignment => "Assignment"
  | .conditionalExpression => "ConditionalExpression"
  | .conditionalOrExpression => "ConditionalOrExpression"
  | .conditionalAndExpression => "ConditionalAndExpression"
  | .inclusiveOrExpression => "InclusiveOrExpression"
  | .exclusiveOrExpression => "ExclusiveOrExpression"
  | .andExpression => "AndExpression"
  | .equalityExpression => "EqualityExpression"
  | .relationalExpression => "RelationalExpression"
  | .instanceofExpression => "InstanceofExpression"
  | .shiftExpression => "ShiftExpression"
  | .additiveExpression => "AdditiveExpression"
  | .multiplicativeExpression => "MultiplicativeExpression"
  | .preIncrementExpression => "PreIncrementExpression"
  | .preDecrementExpression => "PreDecrementExpression"
  | .unaryExpression => "UnaryExpression"
  | .castExpression => "CastExpression"
  | .postIncrementExpression => "PostIncrementExpression"
  | .postDecrementExpression => "PostDecrementExpression"
  | .primary => "Primary"
  | .parenthesizedExpression => "ParenthesizedExpression"
  | .thisExpression => "ThisExpression"
  | .qualifiedThis => "QualifiedThis"
  | .classLiteral => "ClassLiteral"
  | .fieldAccess => "FieldAccess"
  | .arrayAccess => "ArrayAccess"
  | .methodInvocation => "MethodInvocation"
  | .arguments => "Arguments"
  | .argumentList => "ArgumentList"
  | .methodReference => "MethodReference"
  | .classInstanceCreationExpression => "ClassInstanceCreationExpression"
  | .arrayCreationExpression => "ArrayCreationExpression"
  | .dimExprs => "DimExprs"
  | .dimExpr => "DimExpr"
  | .literal => "Literal"
  | .error => "Error"

/-- The category of a kind. The kinds are declared category by category, so the
first kind of each following category is the bound of the one before. -/
def category (kind : NodeKind) : NodeCategory :=
  if kind.index < primitiveType.index then .name
  else if kind.index < modifiers.index then .type
  else if kind.index < compilationUnit.index then .modifier
  else if kind.index < block.index then .declaration
  else if kind.index < expressionRoot.index then .statement
  else if kind.index < literal.index then .expression
  else if kind.index < error.index then .literal
  else .error

/-- Kinds of statement. -/
def isStatement (kind : NodeKind) : Bool :=
  kind.category == .statement

/-- Kinds of expression, literals and plain names apart. -/
def isExpression (kind : NodeKind) : Bool :=
  kind.category == .expression

theorem mem_all (kind : NodeKind) : kind ∈ all := by
  cases kind <;> decide

end NodeKind

end JavaSyntax
