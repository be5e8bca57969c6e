import JavaSyntax.Language.Types

/-!
# Primary expressions

A primary is a head followed by any number of suffixes. Each suffix becomes a
node around what stands before it, and a chain with at least one suffix is
closed by one `primary` node.
-/

namespace JavaSyntax.Language

open Phrase Condition

/-- `( Expression , ... )`, possibly empty. -/
def arguments : Phrase :=
  node .arguments (.expect .lParen ++
    optional (among expressionStart) (node .argumentList (separated .comma (.call .expression))) ++
    .expect .rParen)

/-- Whether the `[ ]` pairs at the cursor end in `::`, as in `int[]::new`. -/
def dimsLeadToReference : Condition :=
  .ahead (repeatWhile (is .lBracket &&& nextIs 1 .rBracket) (.take ++ .take)) (is .colonColon)

/-- `super .` after a point, if it is there. -/
def optionalSuper : Phrase :=
  onlyIf (is .kwSuper) (.take ++ .expect .dot)

/-- `TypeArguments? Identifier Arguments`, the end of a qualified call. -/
def qualifiedCall : Phrase :=
  optionalTypeArguments ++ .expect .identifier ++ arguments

/-- `:: TypeArguments? ( Identifier | new )`, the end of a method reference. -/
def referenceEnd : Phrase :=
  .expect .colonColon ++ optionalTypeArguments ++
    .choose (is .kwNew) .take (.expect .identifier)

/-- `TypeArguments ( . Identifier TypeArguments? )*`, the rest of a generic type whose
name was read as an expression. -/
def genericTypeRest : Phrase :=
  .call (.typeArguments false) ++
    repeatWhile (is .dot &&& nextIs 1 .identifier)
      (.take ++ .take ++ onlyIf (is .lt) (.call (.typeArguments false)))

/-- A method reference whose left side is the last slot. -/
def methodReferenceRest : Phrase :=
  around 1 .methodReference
    (.choose (is .dot) (.take ++ .expect .kwSuper) (onlyIf (is .lt) genericTypeRest) ++
      dims ++ referenceEnd)

/-- `Dims? . class` after a type. -/
def classLiteralRest : Phrase :=
  around 1 .classLiteral (dims ++ .expect .dot ++ .expect .kwClass)

/-- `new TypeArguments? ClassType Arguments ClassBody?`, after the slots of the
qualifier and its point. -/
def creationRest : Phrase :=
  .expect .kwNew ++ optionalTypeArguments ++ classType true ++ arguments ++
    optional (is .lBrace) (.call (.memberBody .classBody))

/-- `[ Expression ]` starts here, as opposed to `[ ]`. -/
def startsDimExpr : Condition :=
  is .lBracket &&& .not (nextIs 1 .rBracket)

/-- `new ElementType DimExprs Dims?` or `new ElementType Dims ArrayInitializer` -/
def arrayCreation : Phrase :=
  node .arrayCreationExpression (.take ++ annotations ++
    .choose (among primitiveTypes) primitiveTypeRest (classTypeRest false) ++
    .choose startsDimExpr
      (node .dimExprs (repeatWhile startsDimExpr
        (node .dimExpr (.take ++ .call .expression ++ .expect .rBracket))) ++ dims)
      (dims ++ .call .arrayInitializer))

/-- What follows `new` is an array: a primitive type, or a class type before `[`. -/
def createsArray : Condition :=
  .ahead (.take ++ annotations)
    (among primitiveTypes ||| .ahead (classType true) (is .lBracket))

/-- `void` or a primitive type, as the left side of `.class` or `::`. -/
def typeLiteral : Phrase :=
  .choose (is .kwVoid) .take (.absent ++ primitiveTypeRest) ++
    .choose (is .colonColon ||| dimsLeadToReference) methodReferenceRest classLiteralRest

/-- A primary that starts with a name: a call, an indexed name, or the name alone. -/
def namedHead : Phrase :=
  .choose (nextIs 1 .lParen) (node .methodInvocation (.take ++ arguments))
    (.choose (nextIs 1 .lBracket &&& .not (nextIs 2 .rBracket))
      (node .arrayAccess (node .expressionName .take ++ .take ++ .call .expression ++
        .expect .rBracket))
      (node .expressionName .take))

/-- `super` is followed by a member or a method reference. -/
def startsSuperHead : Condition :=
  is .kwSuper &&&
    (nextIs 1 .colonColon ||| (nextIs 1 .dot &&& nextIsOneOf 2 [.lt, .identifier]))

/-- A primary that starts with `super`. -/
def superHead : Phrase :=
  .choose (nextIs 1 .colonColon) (node .methodReference (.take ++ referenceEnd))
    (.choose (nextIs 2 .lt ||| nextIs 3 .lParen)
      (node .methodInvocation (.take ++ .expect .dot ++ qualifiedCall))
      (node .fieldAccess (.take ++ .expect .dot ++ .expect .identifier)))

/-- A primary that starts with `new`. -/
def newHead : Phrase :=
  .choose createsArray arrayCreation
    (node .classInstanceCreationExpression (.absent ++ .absent ++ creationRest))

/-- A token that starts a primary. -/
def startsPrimary : Condition :=
  among (literals ∪ primitiveTypes ∪
    .ofList [.kwThis, .lParen, .identifier, .kwNew, .kwVoid]) ||| startsSuperHead

/-- The head of a primary. -/
def primaryHead : Phrase :=
  .choose (among literals) (node .literal .take)
    (.choose (is .kwThis) (node .thisExpression .take)
      (.choose (is .lParen)
        (node .parenthesizedExpression (.take ++ .call .expression ++ .expect .rParen))
        (.choose (is .identifier) namedHead
          (.choose (is .kwSuper) superHead
            (.choose (is .kwNew) newHead typeLiteral)))))

/-- `.TypeArguments super` belongs to a constructor call and ends the chain. -/
def leadsToSuperCall : Condition :=
  .ahead (.take ++ .call (.typeArguments false)) (is .kwSuper)

/-- A call whose object is the last slot. -/
def callSuffix : Phrase :=
  around 1 .methodInvocation (.take ++ optionalSuper ++ qualifiedCall)

/-- A field access on the last slot. -/
def fieldSuffix : Phrase :=
  around 1 .fieldAccess (.take ++ optionalSuper ++ .expect .identifier)

/-- A suffix that starts with `. super`, if a member or a reference follows. -/
def superSuffix : Phrase :=
  .choose (nextIs 2 .colonColon) methodReferenceRest
    (onlyIf (nextIs 2 .dot)
      (.choose (nextIs 3 .lt ||| nextIs 4 .lParen) callSuffix fieldSuffix))

/-- A suffix that starts with a point, if there is one. -/
def pointSuffix : Phrase :=
  .choose (nextIs 1 .identifier) (.choose (nextIs 2 .lParen) callSuffix fieldSuffix)
    (.choose (nextIs 1 .lt) (.choose leadsToSuperCall .nothing callSuffix)
      (.choose (nextIs 1 .kwNew)
        (around 1 .classInstanceCreationExpression (.take ++ creationRest))
        (.choose (nextIs 1 .kwThis) (around 1 .qualifiedThis (.take ++ .take))
          (.choose (nextIs 1 .kwClass) classLiteralRest
            (onlyIf (nextIs 1 .kwSuper) superSuffix)))))

/-- Type arguments that lead to `::`, as in `List<String>::new`; otherwise `<` is
less-than. -/
def leadsToGenericReference : Condition :=
  .ahead (genericTypeRest ++ dims) (is .colonColon)

/-- The next suffix of the chain in the last slot, if there is one. -/
def suffix : Phrase :=
  .choose (is .dot) pointSuffix
    (.choose (is .lBracket)
      (.choose (nextIs 1 .rBracket)
        (.choose dimsLeadToReference methodReferenceRest classLiteralRest)
        (around 1 .arrayAccess (.take ++ .call .expression ++ .expect .rBracket)))
      (.choose (is .colonColon) methodReferenceRest
        (.choose (is .lt &&& .shape .endsInName)
          (onlyIf leadsToGenericReference methodReferenceRest)
          (onlyIf (is .lParen &&& .shape .endsInParentheses)
            (around 1 .methodInvocation arguments)))))

/-- A head and its suffixes. -/
def primary : Phrase :=
  .choose startsPrimary
    (primaryHead ++ .frame 1 (.whenAdvanced (.many suffix) (.close .primary)))
    (.noViable .primary)

end JavaSyntax.Language
