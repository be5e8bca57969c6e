import JavaSyntax.Proofs.Locality.Sound

/-!
# The walls of the language

Types go no farther than a `;` or a `{` outside of brackets, and everything else but
statements no farther than a `;`.  Statements end with a `;` or a `}`.
-/

namespace JavaSyntax.Language

/-- Where types and the heads of classes end. -/
def headWalls : Walls :=
  .ofList [.semi, .lBrace]

/-- Where expressions and declarations end. -/
def itemWalls : Walls :=
  .singleton .semi

/-- The last token of a statement. -/
def statementEnds : TokenSet :=
  .ofList [.semi, .rBrace]

/-- The walls that each rule keeps to, and its last token where it matters. -/
def bounds : Rule → Bounds
  | .typeRest | .typeArguments _ => ⟨headWalls, .full⟩
  | .statement => ⟨.empty, statementEnds⟩
  | .block | .switchBlock | .memberBody _ | .enumBody => ⟨itemWalls, .singleton .rBrace⟩
  | _ => ⟨itemWalls, .full⟩

/-! The checks are run by the kernel. -/

/-- What is read without braces around it is confined. -/
theorem confined_grammar (rule : Rule) (bare : (bounds rule).last ≠ .singleton .rBrace) :
    confinedRule grammar bounds rule = true := by
  cases rule with
  | block | switchBlock | memberBody _ | enumBody => exact absurd rfl bare
  | typeArguments diamond => cases diamond <;> decide +kernel
  | _ => decide +kernel

theorem keepsTo_blockStatements : blockStatements.keepsTo bounds .empty [] = true := by
  decide +kernel

theorem braced_block : (grammar .block).Braced bounds :=
  .of_eq rfl keepsTo_blockStatements

theorem braced_switchBlock : (grammar .switchBlock).Braced bounds :=
  .of_eq rfl (by decide +kernel)

theorem braced_memberBody (kind : BodyKind) : (grammar (.memberBody kind)).Braced bounds :=
  .of_eq rfl (by cases kind <;> decide +kernel)

open Phrase Condition in
theorem braced_enumBody : (grammar .enumBody).Braced bounds := by
  refine ⟨.enumBody, onlyIf (startsEnumConstant 0)
      (enumConstant ++ repeatWhile (is .comma &&& startsEnumConstant 1) (.take ++ enumConstant) ++
        onlyIf (is .comma) .take) ++
    onlyIf (is .semi) (node .enumBodyDeclarations (.take ++ members .classBody)),
    by decide +kernel, fun rules context => ?_⟩
  funext state
  refine congrArg (State.inFrame state 0) (funext fun inner => ?_)
  simp only [Phrase.run_append]
  cases (Phrase.expect .lBrace).run rules context inner <;> rfl

theorem fenced_grammar : (rule : Rule) → Fenced grammar bounds rule
  | .block => .inr ⟨braced_block, by decide, rfl⟩
  | .switchBlock => .inr ⟨braced_switchBlock, by decide, rfl⟩
  | .memberBody kind => .inr ⟨braced_memberBody kind, by cases kind <;> decide, rfl⟩
  | .enumBody => .inr ⟨braced_enumBody, by decide, rfl⟩
  | .typeArguments diamond => .inl (confined_grammar _ (by cases diamond <;> decide))
  | .typeRest | .expression | .conditional | .lambda | .statement | .constructorBody
  | .elementValue | .arrayInitializer => .inl (confined_grammar _ (by decide))

/-- The rules of the language keep to their walls. -/
theorem guards_grammar (fence : Fence) (depth : Nat) :
    fence.Guards bounds (readRule grammar depth) :=
  readRule_guards fenced_grammar fence depth

end JavaSyntax.Language
