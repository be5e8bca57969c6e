import JavaSyntax.Grammar.Phrase
import JavaSyntax.Language.Vocabulary

/-!
# Names, annotations and types

Every type starts with a slot for annotations. The phrases whose names end in
`Rest` expect that slot to be read already and take it into the node they build.
-/

namespace JavaSyntax.Language

open Phrase Condition

/-- The current token is of a set. -/
def among (kinds : TokenSet) : Condition :=
  .next 0 kinds

/-- Identifiers with points between them, as far as they go. -/
def qualifiedName : Phrase :=
  node .qualifiedName
    (.expect .identifier ++ repeatWhile (is .dot &&& nextIs 1 .identifier) (.take ++ .take))

/-- An annotation starts here; `@interface` is none. -/
def startsAnnotationUse : Condition :=
  is .atSign &&& .not (nextIs 1 .kwInterface)

/-- `Identifier = ElementValue` -/
def elementValuePair : Phrase :=
  node .elementValuePair (.expect .identifier ++ .expect .assign ++ .call .elementValue)

/-- `@ Name`, `@ Name ( Pair , ... )` or `@ Name ( ElementValue )` -/
def annotationUse : Phrase :=
  .frame 0 (.expect .atSign ++ qualifiedName ++
    .choose (is .lParen)
      (.choose (nextIs 1 .rParen ||| (nextIs 1 .identifier &&& nextIs 2 .assign))
        (.take ++ onlyIf (.not (is .rParen)) (separated .comma elementValuePair) ++
          .expect .rParen ++ .close .annotationPairs)
        (.take ++ .call .elementValue ++ .expect .rParen ++ .close .annotationSingle))
      (.close .annotationMarker))

/-- A slot for any number of annotations. -/
def annotations : Phrase :=
  gather .annotations (onlyIf startsAnnotationUse annotationUse)

/-- A slot for annotations mixed with modifier keywords. -/
def modifiers (keywords : TokenSet) : Phrase :=
  gather .modifiers (.choose startsAnnotationUse annotationUse (onlyIf (among keywords) .take))

/-- `Annotation* [ ]` starts here. -/
def startsDim : Condition :=
  (is .lBracket &&& nextIs 1 .rBracket) |||
    (startsAnnotationUse &&& .ahead annotations (is .lBracket &&& nextIs 1 .rBracket))

/-- `Annotation* [ ]` -/
def dim : Phrase :=
  node .dim (annotations ++ .expect .lBracket ++ .expect .rBracket)

/-- A slot for any number of dimensions. -/
def dims : Phrase :=
  gather .dims (onlyIf startsDim dim)

/-- An array type around the last slot, if dimensions follow. -/
def arrayDims : Phrase :=
  .frame 1 (.whenAdvanced
    (.frame 0 (.whenAdvanced (repeatWhile startsDim dim) (.close .dims)))
    (.close .arrayType))

/-- A slot for type arguments. -/
def optionalTypeArguments : Phrase :=
  optional (is .lt) (.call (.typeArguments false))

/-- A name with optional type arguments, after its annotations. -/
def classTypeSegment (diamond : Bool) : Phrase :=
  around 1 .classTypeSegment
    (.expect .identifier ++ optional (is .lt) (.call (.typeArguments diamond)))

/-- A class type after its annotations. What follows a point may be no name, as in
`.class`, `.this` and `.*`; then the type ends before the point. -/
def classTypeRest (diamond : Bool) : Phrase :=
  around 1 .classType (classTypeSegment diamond ++
    repeatWhile (is .dot &&& nextIsOneOf 1 [.identifier, .atSign])
      (.take ++ annotations ++ classTypeSegment diamond))

/-- A class type. With `diamond`, `<>` may stand for its arguments. -/
def classType (diamond : Bool) : Phrase :=
  annotations ++ classTypeRest diamond

/-- A primitive type after its annotations. -/
def primitiveTypeRest : Phrase :=
  around 1 .primitiveType .take

/-- A type after its annotations. -/
def typeRest : Phrase :=
  .choose (among primitiveTypes) (primitiveTypeRest ++ arrayDims)
    (.choose (is .identifier) (classTypeRest false ++ arrayDims) (noViableAfter .type))

/-- `Annotation* ( PrimitiveType | ClassType ) Dims?` -/
def type : Phrase :=
  annotations ++ .call .typeRest

/-- A type, or `?` with an optional bound. -/
def typeArgument : Phrase :=
  annotations ++
    .choose (is .question)
      (around 1 .wildcard (.take ++
        optional (isOneOf [.kwExtends, .kwSuper]) (node .wildcardBounds (.take ++ type))))
      (.call .typeRest)

/-- `< TypeArgument , ... >`, or `<>` with `diamond`. -/
def typeArguments (diamond : Bool) : Phrase :=
  let list := separated .comma typeArgument
  node .typeArguments (.expect .lt ++
    (if diamond then onlyIf (.not (is .gt)) list else list) ++ .expect .gt)

/-- `& ClassType` -/
def additionalBound : Phrase :=
  node .additionalBound (.take ++ classType false)

/-- `Annotation* Identifier ( extends ClassType AdditionalBound* )?` -/
def typeParameter : Phrase :=
  node .typeParameter (annotations ++ .expect .identifier ++
    optional (is .kwExtends) (node .typeBound
      (.take ++ classType false ++ repeatWhile (is .amp) additionalBound)))

/-- `< TypeParameter , ... >` -/
def typeParameters : Phrase :=
  node .typeParameters (.expect .lt ++ separated .comma typeParameter ++ .expect .gt)

/-- `ClassType , ...` as one node. -/
def classTypeList (kind : NodeKind) : Phrase :=
  node kind (separated .comma (classType false))

end JavaSyntax.Language
