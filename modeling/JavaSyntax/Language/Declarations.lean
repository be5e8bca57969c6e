import JavaSyntax.Language.Primaries
import JavaSyntax.Language.Variables

/-!
# Declarations

Packages, imports, types and their members.
-/

namespace JavaSyntax

/-- The node of a body. -/
def BodyKind.nodeKind : BodyKind → NodeKind
  | .classBody => .classBody
  | .interfaceBody => .interfaceBody
  | .annotationBody => .annotationTypeBody

/-- The node of a field in a body. -/
def BodyKind.fieldKind : BodyKind → NodeKind
  | .classBody => .fieldDeclaration
  | .interfaceBody | .annotationBody => .constantDeclaration

/-- The node of a method in a body. -/
def BodyKind.methodKind : BodyKind → NodeKind
  | .classBody => .methodDeclaration
  | .interfaceBody | .annotationBody => .interfaceMethodDeclaration

namespace Language

open Phrase Condition

/-- A slot for `Annotation* package QualifiedName ;` -/
def packageDeclaration : Phrase :=
  optional (is .kwPackage ||| (startsAnnotationUse &&& .ahead annotations (is .kwPackage)))
    (node .packageDeclaration
      (annotations ++ .expect .kwPackage ++ qualifiedName ++ .expect .semi))

/-- The end of an import, whose kind depends on a final `. *`. -/
def importEnd (single onDemand : NodeKind) : Phrase :=
  qualifiedName ++
    .choose (is .dot &&& nextIs 1 .star)
      (.take ++ .take ++ .expect .semi ++ .close onDemand)
      (.expect .semi ++ .close single)

/-- `import static? QualifiedName ( . * )? ;` -/
def importDeclaration : Phrase :=
  .frame 0 (.expect .kwImport ++
    .choose (is .kwStatic)
      (.take ++ importEnd .singleStaticImportDeclaration .staticImportOnDemandDeclaration)
      (importEnd .singleTypeImportDeclaration .typeImportOnDemandDeclaration))

/-- A slot for type parameters. -/
def optionalTypeParameters : Phrase :=
  optional (is .lt) typeParameters

/-- A slot for `implements ClassType , ...` -/
def superinterfaces : Phrase :=
  optional (is .kwImplements)
    (node .superinterfaces (.take ++ classTypeList .interfaceTypeList))

/-- A class, after its modifiers. -/
def classRest : Phrase :=
  around 1 .normalClassDeclaration (.expect .kwClass ++ .expect .identifier ++
    optionalTypeParameters ++
    optional (is .kwExtends) (node .superclass (.take ++ classType false)) ++
    superinterfaces ++ .call (.memberBody .classBody))

/-- An enum, after its modifiers. -/
def enumRest : Phrase :=
  around 1 .enumDeclaration (.expect .kwEnum ++ .expect .identifier ++ superinterfaces ++
    .call .enumBody)

/-- An interface, after its modifiers. -/
def interfaceRest : Phrase :=
  around 1 .normalInterfaceDeclaration (.expect .kwInterface ++ .expect .identifier ++
    optionalTypeParameters ++
    optional (is .kwExtends)
      (node .extendsInterfaces (.take ++ classTypeList .interfaceTypeList)) ++
    .call (.memberBody .interfaceBody))

/-- An annotation type, after its modifiers. -/
def annotationTypeRest : Phrase :=
  around 1 .annotationTypeDeclaration (.expect .atSign ++ .expect .kwInterface ++
    .expect .identifier ++ .call (.memberBody .annotationBody))

/-- `@interface` starts here. -/
def startsAnnotationType : Condition :=
  is .atSign &&& nextIs 1 .kwInterface

/-- A type declaration, after its modifiers. -/
def typeDeclarationRest : Phrase :=
  .choose (is .kwClass) classRest
    (.choose (is .kwEnum) enumRest
      (.choose (is .kwInterface) interfaceRest
        (.choose startsAnnotationType annotationTypeRest (noViableAfter .typeDeclaration))))

/-- A lone `;` where a declaration may stand. -/
def emptyDeclaration : Phrase :=
  node .emptyDeclaration .take

/-- A type declaration at the top of a file. -/
def typeDeclaration : Phrase :=
  .choose (is .semi) emptyDeclaration (modifiers memberModifiers ++ typeDeclarationRest)

/-- `Annotation* Identifier Arguments? ClassBody?` -/
def enumConstant : Phrase :=
  node .enumConstant (annotations ++ .expect .identifier ++ optional (is .lParen) arguments ++
    optional (is .lBrace) (.call (.memberBody .classBody)))

/-- A slot for `throws ClassType , ...` -/
def throws : Phrase :=
  optional (is .kwThrows) (node .throws (.take ++ classTypeList .exceptionTypeList))

/-- The rest of a method header, after the slots of its type parameters and result. -/
def methodHeaderRest : Phrase :=
  node .methodDeclarator (.expect .identifier ++ parameterList ++ dims) ++ throws

/-- A block, or `;` where there is none. -/
def methodBody : Phrase :=
  node .methodBody (.choose (is .lBrace) (.call .block) (.expect .semi))

/-- The declarator of a constructor, after the slot of its type parameters. -/
def constructorDeclaratorRest : Phrase :=
  .expect .identifier ++ parameterList

/-- The rest of a constructor, after its declarator. -/
def constructorRest : Phrase :=
  throws ++ .call .constructorBody ++ .close .constructorDeclaration

/-- A field, after its modifiers and type. -/
def fieldRest (body : BodyKind) : Phrase :=
  variableDeclarators ++ .expect .semi ++ .close body.fieldKind

/-- `Identifier ( ) Dims? ( default ElementValue )? ;`, after modifiers and type. -/
def annotationElementRest : Phrase :=
  .expect .identifier ++ .expect .lParen ++ .expect .rParen ++ dims ++
    optional (is .kwDefault) (node .defaultValue (.take ++ .call .elementValue)) ++
    .expect .semi ++ .close .annotationTypeElementDeclaration

/-- A name before `(`. -/
def startsCall : Condition :=
  is .identifier &&& nextIs 1 .lParen

/-- A member that starts with type parameters, after its modifiers. -/
def genericMemberRest (body : BodyKind) : Phrase :=
  .frame 1 (typeParameters ++
    .choose startsCall
      (around 1 .constructorDeclarator constructorDeclaratorRest ++ constructorRest)
      (.choose (is .kwVoid) .take type ++ around 2 .methodHeader methodHeaderRest ++
        methodBody ++ .close body.methodKind))

/-- A member that starts with a type, after its modifiers: a method, a field, or an
element of an annotation type. -/
def typedMemberRest (body : BodyKind) : Phrase :=
  let method := around 1 .methodHeader (.absentFirst ++ methodHeaderRest) ++ methodBody ++
    .close body.methodKind
  .frame 1 (type ++
    .choose startsCall (if body = .annotationBody then annotationElementRest else method)
      (fieldRest body))

/-- A member, after its modifiers. -/
def memberRest (body : BodyKind) : Phrase :=
  .choose (isOneOf [.kwClass, .kwEnum, .kwInterface] ||| startsAnnotationType)
    typeDeclarationRest
    (.choose (is .lt) (genericMemberRest body)
      (.choose startsCall
        (.frame 1 (node .constructorDeclarator (.absent ++ constructorDeclaratorRest) ++
          constructorRest))
        (.choose (is .kwVoid)
          (.frame 1 (.absent ++ .take ++ around 2 .methodHeader methodHeaderRest ++ methodBody ++
            .close body.methodKind))
          (.choose (among typeStart) (typedMemberRest body) (noViableAfter .member)))))

/-- A member of a body. -/
def member (body : BodyKind) : Phrase :=
  .choose (is .semi) emptyDeclaration
    (.choose (is .lBrace) (node .instanceInitializer (.call .block))
      (.choose (is .kwStatic &&& nextIs 1 .lBrace)
        (node .staticInitializer (.take ++ .call .block))
        (modifiers memberModifiers ++ memberRest body)))

/-- Members up to the closing brace. -/
def members (body : BodyKind) : Phrase :=
  repeatWhile (.not (isOneOf [.rBrace, .eof])) (.progress (member body))

/-- `{ Member* }` -/
def memberBody (body : BodyKind) : Phrase :=
  node body.nodeKind (.expect .lBrace ++ members body ++ .expect .rBrace)

/-- An enum constant starts so many places ahead. -/
def startsEnumConstant (distance : Nat) : Condition :=
  nextIs distance .identifier |||
    (nextIs distance .atSign &&& .not (nextIs (distance + 1) .kwInterface))

/-- `{ EnumConstant , ... ( ; Member* )? }`; a comma may follow the last constant. -/
def enumBody : Phrase :=
  node .enumBody (.expect .lBrace ++
    onlyIf (startsEnumConstant 0)
      (enumConstant ++
        repeatWhile (is .comma &&& startsEnumConstant 1) (.take ++ enumConstant) ++
        onlyIf (is .comma) .take) ++
    onlyIf (is .semi) (node .enumBodyDeclarations (.take ++ members .classBody)) ++
    .expect .rBrace)

end Language

end JavaSyntax
