import JavaSyntax.Language.Types

/-!
# Variables and parameters

Declarators with their initializers, which fields and local variables share, and
the parameter lists of methods, constructors and lambdas.
-/

namespace JavaSyntax.Language

open Phrase Condition

/-- `Identifier Dims?` -/
def variableDeclaratorId : Phrase :=
  node .variableDeclaratorId (.expect .identifier ++ dims)

/-- An expression or an array initializer. -/
def variableInitializer : Phrase :=
  .choose (is .lBrace) (.call .arrayInitializer) (.call .expression)

/-- `VariableDeclaratorId ( = VariableInitializer )?` -/
def variableDeclarator : Phrase :=
  node .variableDeclarator (variableDeclaratorId ++
    .choose (is .assign) (.take ++ variableInitializer) (.absent ++ .absent))

/-- `VariableDeclarator , ...` -/
def variableDeclarators : Phrase :=
  node .variableDeclaratorList (separated .comma variableDeclarator)

/-- `Modifier* Type VariableDeclarator , ...` -/
def localVariableDeclaration : Phrase :=
  node .localVariableDeclaration (modifiers variableModifiers ++ type ++ variableDeclarators)

/-- Items in braces with commas between them; a last comma may follow. -/
def bracedList (kind : NodeKind) (item : Phrase) : Phrase :=
  let stops := [.rBrace, .comma, .eof]
  let optionalComma := onlyIf (is .comma) .take
  node kind (.expect .lBrace ++
    onlyIf (.not (isOneOf stops))
      (item ++ repeatWhile (is .comma &&& .not (nextIsOneOf 1 stops)) (.take ++ item) ++
        optionalComma) ++
    optionalComma ++ .expect .rBrace)

/-- `{ VariableInitializer , ... }` -/
def arrayInitializer : Phrase :=
  bracedList .arrayInitializer variableInitializer

/-- A parameter: an ordinary one, a last one with `...`, or the receiver `this`. -/
def formalParameter : Phrase :=
  .frame 0 (modifiers variableModifiers ++ type ++
    .choose (isOneOf [.ellipsis, .atSign])
      (annotations ++ .expect .ellipsis ++ variableDeclaratorId ++ .close .lastFormalParameter)
      (.choose (is .kwThis) (.take ++ .close .receiverParameter)
        (.choose (is .identifier &&& nextIs 1 .dot &&& nextIs 2 .kwThis)
          (.take ++ .take ++ .take ++ .close .receiverParameter)
          (variableDeclaratorId ++ .close .formalParameter))))

/-- `FormalParameter , ...` -/
def formalParameterList : Phrase :=
  node .formalParameterList (separated .comma formalParameter)

/-- `( FormalParameterList? )`, three slots. -/
def parameterList : Phrase :=
  .expect .lParen ++ .choose (is .rParen) .absent formalParameterList ++ .expect .rParen

end JavaSyntax.Language
