import JavaSyntax.Language.Rules
import JavaSyntax.Proofs.Reading.Moves

/-!
# Phrases put together from parts

Some phrases build nodes that the phrases around them do not build: the parentheses of an
expression, or the suffixes of a primary. What is known of such a part is known of a phrase
that has it inside, if all the rest of that phrase only makes moves of a kind.

Primaries are such parts: they stand deep inside expressions, and in front of the calls
that start a constructor.
-/

namespace JavaSyntax

/-- A phrase is put together from certain parts, and from phrases that only build nodes of
certain kinds. -/
inductive Phrase.Assembled (closes : NodeKind → Bool) (part : Phrase → Prop) : Phrase → Prop where
  | part {phrase : Phrase} : part phrase → Assembled closes part phrase
  | plain {phrase : Phrase} : phrase.closesOnly closes = true → Assembled closes part phrase
  | seq {first second : Phrase} : Assembled closes part first → Assembled closes part second →
      Assembled closes part (first ++ second)
  | choose (condition : Condition) {yes no : Phrase} : Assembled closes part yes →
      Assembled closes part no → Assembled closes part (.choose condition yes no)
  | frame (lead : Nat) {body : Phrase} : Assembled closes part body →
      Assembled closes part (.frame lead body)
  | attempt {trial yes no : Phrase} (accept : Condition) : Assembled closes part trial →
      Assembled closes part yes → Assembled closes part no →
      Assembled closes part (.attempt trial accept yes no)
  | operators {operand type : Phrase} : Assembled closes part operand →
      Assembled closes part type → closes .instanceofExpression = true →
      (∀ level : Level, closes level.nodeKind = true) →
      Assembled closes part (.operators operand type)
  | prefixed {link last : Phrase} : Assembled closes part link → Assembled closes part last →
      (∀ slots, closes (State.prefixKind slots) = true) →
      Assembled closes part (.prefixed link last)

/-- A phrase that builds nodes of certain kinds only, builds nodes of more kinds only. -/
theorem Phrase.closesOnly_mono {closes closes' : NodeKind → Bool}
    (more : ∀ kind, closes kind = true → closes' kind = true) :
    (phrase : Phrase) → phrase.closesOnly closes = true → phrase.closesOnly closes' = true
  | .close kind, builds => more kind builds
  | .nothing, _ | .absent, _ | .absentFirst, _ | .dropAbsent, _ | .take, _ | .expect _, _
  | .noViable _, _ | .require _, _ | .call _, _ => rfl
  | .frame _ body, builds | .many body, builds | .progress body, builds =>
      closesOnly_mono more body builds
  | .seq first second, builds | .choose _ first second, builds
  | .whenAdvanced first second, builds => by
      simp only [closesOnly, Bool.and_eq_true] at builds ⊢
      exact ⟨closesOnly_mono more first builds.1, closesOnly_mono more second builds.2⟩
  | .attempt trial _ yes no, builds => by
      simp only [closesOnly, Bool.and_eq_true] at builds ⊢
      exact ⟨⟨closesOnly_mono more trial builds.1.1, closesOnly_mono more yes builds.1.2⟩,
        closesOnly_mono more no builds.2⟩
  | .operators operand type, builds => by
      simp only [closesOnly, Bool.and_eq_true, List.all_eq_true] at builds ⊢
      exact ⟨⟨⟨closesOnly_mono more operand builds.1.1.1,
        closesOnly_mono more type builds.1.1.2⟩, more _ builds.1.2⟩,
        fun level listed => more _ (builds.2 level listed)⟩
  | .prefixed link last, builds => by
      simp only [closesOnly, Bool.and_eq_true] at builds ⊢
      exact ⟨⟨⟨⟨⟨closesOnly_mono more link builds.1.1.1.1.1,
        closesOnly_mono more last builds.1.1.1.1.2⟩, more _ builds.1.1.1.2⟩,
        more _ builds.1.1.2⟩, more _ builds.1.2⟩, more _ builds.2⟩
  | .chain _ link _ last, builds => by
      simp only [closesOnly, Bool.and_eq_true] at builds ⊢
      exact ⟨⟨more _ builds.1.1, closesOnly_mono more link builds.1.2⟩,
        closesOnly_mono more last builds.2⟩

namespace Phrase.Assembled

variable {closes : NodeKind → Bool} {part : Phrase → Prop} {phrase : Phrase}

/-- What builds nodes of certain kinds only, builds nodes of more kinds only. -/
theorem mono {closes' : NodeKind → Bool} (assembled : Assembled closes part phrase)
    (more : ∀ kind, closes kind = true → closes' kind = true) : Assembled closes' part phrase := by
  induction assembled with
  | part isPart => exact .part isPart
  | plain builds => exact .plain (closesOnly_mono more _ builds)
  | seq _ _ first second => exact .seq first second
  | choose condition _ _ yes no => exact .choose condition yes no
  | frame lead _ body => exact .frame lead body
  | attempt accept _ _ _ trial yes no => exact .attempt accept trial yes no
  | operators _ _ test levels operand type =>
      exact .operators operand type (more _ test) fun level => more _ (levels level)
  | prefixed _ _ kinds link last => exact .prefixed link last fun slots => more _ (kinds slots)

/-- Reading a phrase moves the state as the rules it calls and its parts do. -/
theorem moving {rules : Rule → Context → Step} {building : Building}
    (rulesMove : ∀ context rule, Moving context building (rules rule context))
    (partsMove : ∀ context inner, part inner → Moving context building (inner.run rules context))
    (assembled : Assembled building.closes part phrase) (context : Context) :
    Moving context building (phrase.run rules context) := by
  induction assembled generalizing context with
  | part isPart => exact partsMove context _ isPart
  | plain builds =>
      exact Phrase.run_moving (rulesMove context) (rulesMove context.trial) _ builds
  | seq _ _ first second =>
      intro before after read
      obtain ⟨middle, started, ended⟩ := bind_eq_ok.mp read
      exact (first context _ _ started).trans (second context _ _ ended)
  | choose condition _ _ yes no =>
      intro before after read
      simp only [Phrase.run] at read
      split at read
      · exact yes context _ _ read
      · exact no context _ _ read
  | frame lead _ body => exact State.inFrame_moving lead (body context)
  | attempt accept _ _ _ trial yes no =>
      intro before after read
      simp only [Phrase.run] at read
      split at read
      · rename_i tried fitted
        split at read
        · exact (trial context.trial _ _ fitted).ofTrial.trans (yes context _ _ read)
        · exact no context _ _ read
      · exact no context _ _ read
  | operators _ _ test levels operand type =>
      exact State.operators_moving levels test (operand context) (type context)
  | prefixed _ _ kinds link last =>
      intro before after read
      exact State.prefixed_moving kinds (link context) (last context) _ before after read

end Phrase.Assembled

/-- The nodes around which a nesting level is counted. -/
def NodeKind.isBracketed : NodeKind → Bool
  | .block | .classBody | .interfaceBody | .annotationTypeBody | .enumBody | .constructorBody
  | .switchBlock | .arrayInitializer | .elementValueArrayInitializer | .typeArguments
  | .parenthesizedExpression => true
  | _ => false

/-- The nodes that only primaries are made of. -/
def NodeKind.isOfPrimaries : NodeKind → Bool
  | .primary | .qualifiedThis | .fieldAccess => true
  | _ => false

/-- The nodes that neither count a nesting level nor belong to primaries alone. -/
def NodeKind.isOrdinary (kind : NodeKind) : Bool :=
  !kind.isBracketed && !kind.isOfPrimaries

namespace Language

open Phrase

/-- Besides primaries, no part of a binary expression builds any but ordinary nodes. -/
theorem binary_assembled : binary.Assembled NodeKind.isOrdinary (· = primary) := by
  have postfixed : postfixed.Assembled NodeKind.isOrdinary (· = primary) :=
    .seq (.part rfl) (.plain (by decide))
  have unary : unary.Assembled NodeKind.isOrdinary (· = primary) := by
    refine .prefixed (.plain (by decide)) (.choose _ (.plain (by decide)) postfixed) fun slots => ?_
    unfold State.prefixKind
    split <;> rfl
  have levels (level : Level) : level.nodeKind.isOrdinary = true := by cases level <;> rfl
  exact .operators unary (.plain (by decide)) rfl levels

/-- Nor does any other part of a conditional expression. -/
theorem conditional_assembled : conditional.Assembled NodeKind.isOrdinary (· = primary) :=
  .seq binary_assembled (.plain (by decide))

/-- Nor does any other part of an expression. -/
theorem expression_assembled : expression.Assembled NodeKind.isOrdinary (· = primary) :=
  .choose _ (.plain (by decide)) (.seq conditional_assembled (.plain (by decide)))

/-- Nor does any other part of the call that starts a constructor. -/
theorem constructorCall_assembled :
    constructorCall.Assembled NodeKind.isOrdinary (· = primary) :=
  .choose _ (.plain (by decide)) (.choose _ (.plain (by decide))
    (.attempt _ (.part rfl) (.plain (by decide)) (.plain (by decide))))

/-- Nor does anything else between the braces of a constructor. -/
theorem constructorBody_assembled :
    (Phrase.expect .lBrace ++ constructorCall ++ blockStatements ++ .expect .rBrace).Assembled
      NodeKind.isOrdinary (· = primary) :=
  .seq (.seq (.seq (.plain rfl) constructorCall_assembled) (.plain (by decide))) (.plain rfl)

end Language

end JavaSyntax
