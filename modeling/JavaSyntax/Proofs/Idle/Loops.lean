import JavaSyntax.Proofs.Idle.Stays
import JavaSyntax.Language.Rules

/-!
# Loops that make progress

The body of a loop either declines, which means that all its choices lead to
reading nothing, or it acts.  A body that may act without reading a token would
keep its loop going for ever.  So every loop of the language is checked: there is
no view in which its body acts and stays.
-/

namespace JavaSyntax

namespace Phrase

/-- Whether the choices of a phrase lead to reading nothing. -/
def declines (rules : Rule → Context → Step) (context : Context) : Phrase → State → Bool
  | .nothing, _ => true
  | .choose condition yes no, state =>
      if condition.holds rules context state then yes.declines rules context state
      else no.declines rules context state
  | .attempt trial accept _ no, state =>
      match trial.run rules context.trial state with
      | .ok after =>
          !accept.holds rules context after && no.declines rules context state
      | .error _ => no.declines rules context state
  | _, _ => false

/-- A phrase that declines leaves the state as it is. -/
theorem run_of_declines {rules : Rule → Context → Step} {context : Context} {state : State} :
    (phrase : Phrase) → phrase.declines rules context state = true →
      phrase.run rules context state = .ok state
  | .nothing, _ => rfl
  | .choose condition yes no, declined => by
      simp only [declines] at declined
      simp only [Phrase.run]
      split at declined
      · rename_i holds
        rw [if_pos holds]
        exact run_of_declines yes declined
      · rename_i fails
        rw [if_neg fails]
        exact run_of_declines no declined
  | .attempt trial accept yes no, declined => by
      simp only [declines] at declined
      simp only [Phrase.run]
      cases tried : trial.run rules context.trial state with
      | ok after =>
          simp only [tried, Bool.and_eq_true, Bool.not_eq_true'] at declined
          simp only [declined.1, Bool.false_eq_true, if_false]
          exact run_of_declines no declined.2
      | error error =>
          simp only [tried] at declined
          exact run_of_declines no declined
  | .absent, declined | .absentFirst, declined | .dropAbsent, declined | .take, declined
  | .expect _, declined | .noViable _, declined | .require _, declined | .call _, declined
  | .seq _ _, declined | .frame _ _, declined | .close _, declined | .many _, declined
  | .whenAdvanced _ _, declined | .progress _, declined | .operators _ _, declined
  | .prefixed _ _, declined | .chain _ _ _ _, declined => by cases declined

/-- The view in which a phrase may act and end where it started. -/
def stirs (reads : Rule → TokenSet) : Phrase → View → Option View
  | .nothing, _ => none
  | .choose condition yes no, view =>
      View.join ((condition.glimpse true view).bind (yes.stirs reads))
        ((condition.glimpse false view).bind (no.stirs reads))
  | .attempt trial accept yes no, view =>
      View.join
        (((trial.stays reads false view).bind (accept.glimpse true)).bind (yes.stays reads false))
        (no.stirs reads view)
  | phrase, view => phrase.stays reads false view

end Phrase

namespace Steady

open View

variable {reads : Rule → TokenSet} {rules : Rule → Context → Step}
  (steady : Steady reads rules) {context : Context} {before after : State}

include steady

theorem stirs_of_run : (phrase : Phrase) → ∀ {view : View},
    phrase.run rules context before = .ok after →
      phrase.declines rules context before = false → after.position = before.position →
      view.Fits context before → Possible context (phrase.stirs reads view) after
  | .nothing, _, _, acts, _, _ => by cases acts
  | .choose condition yes no, _, read, acts, still, fits => by
      simp only [Phrase.run] at read
      simp only [Phrase.declines] at acts
      split at read
      · rename_i holds
        rw [if_pos holds] at acts
        exact possible_join (.inl ((fits.glimpse holds).bind
          fun view known => stirs_of_run yes read acts still known))
      · rename_i fails
        rw [if_neg fails] at acts
        exact possible_join (.inr ((fits.glimpse (Bool.eq_false_iff.mpr fails)).bind
          fun view known => stirs_of_run no read acts still known))
  | .attempt trial accept yes no, view, read, acts, still, fits => by
      have stayed : Stayed false before after := ⟨still, (absurd · Bool.false_ne_true)⟩
      simp only [Phrase.run] at read
      simp only [Phrase.declines] at acts
      split at read
      · rename_i tried fitted
        rw [fitted] at acts
        split at read
        · rename_i accepted
          obtain ⟨one, two⟩ := steady.stayed_split fitted read stayed
          have first := possible_trial.mp (steady.stays_of_run false trial fitted one fits)
          have second := first.bind fun view known => known.glimpse accepted
          exact possible_join (.inl (second.bind
            fun view known => steady.stays_of_run false yes read two known))
        · rename_i rejected
          simp only [rejected, Bool.not_false, Bool.true_and] at acts
          exact possible_join (.inr (stirs_of_run no read acts still fits))
      · rename_i error failed
        rw [failed] at acts
        exact possible_join (.inr (stirs_of_run no read acts still fits))
  | .absent, _, read, _, still, fits | .absentFirst, _, read, _, still, fits
  | .dropAbsent, _, read, _, still, fits | .take, _, read, _, still, fits
  | .expect _, _, read, _, still, fits | .noViable _, _, read, _, still, fits
  | .require _, _, read, _, still, fits | .call _, _, read, _, still, fits
  | .seq _ _, _, read, _, still, fits | .frame _ _, _, read, _, still, fits
  | .close _, _, read, _, still, fits | .many _, _, read, _, still, fits
  | .whenAdvanced _ _, _, read, _, still, fits | .progress _, _, read, _, still, fits
  | .operators _ _, _, read, _, still, fits | .prefixed _ _, _, read, _, still, fits
  | .chain _ _ _ _, _, read, _, still, fits =>
      steady.stays_of_run false _ read ⟨still, (absurd · Bool.false_ne_true)⟩ fits

/-- A phrase that cannot stir reads a token or declines. -/
theorem advances_or_declines {phrase : Phrase} (checked : (phrase.stirs reads []).isNone = true)
    (read : phrase.run rules context before = .ok after) :
    before.position < after.position ∨
      phrase.declines rules context before = true ∧ after = before := by
  cases declined : phrase.declines rules context before with
  | true =>
      rw [phrase.run_of_declines declined] at read
      exact .inr ⟨rfl, (Except.ok.inj read).symm⟩
  | false =>
      refine .inl (Nat.lt_of_le_of_ne (steady.forward phrase read) ?_)
      intro still
      have stirred := steady.stirs_of_run phrase read declined still.symm (fits_nil _ _)
      rw [Option.isNone_iff_eq_none.mp checked] at stirred
      exact not_possible_none stirred

end Steady

/-! ## The rules of a grammar -/

/-- What is checked of a grammar: each rule fills the frame, and reads a token where it
starts at one of certain kinds. -/
def steadyRule (grammar : Rule → Phrase) (reads : Rule → TokenSet) (rule : Rule) : Bool :=
  ((grammar rule).stays reads true []).isNone &&
    ((grammar rule).stays reads false [reads rule]).isNone

theorem readRule_steady {grammar : Rule → Phrase} {reads : Rule → TokenSet}
    (checked : ∀ rule, steadyRule grammar reads rule = true) (depth : Nat) :
    Steady reads (readRule grammar depth) := by
  have moving := readRule_moving grammar
  have none : ∀ rule, (grammar rule).stays reads true [] = none ∧
      (grammar rule).stays reads false [reads rule] = none := by
    simpa [steadyRule] using checked
  induction depth with
  | zero =>
      refine ⟨moving 0, ?_, ?_⟩
      · intro _ _ _ _ read
        cases read
      · intro _ _ _ _ read
        cases read
  | succ depth ih =>
      refine ⟨moving (depth + 1), ?_, ?_⟩
      · intro rule context before after read starts
        exact ih.advances_of_stays (none rule).2 (View.fits_singleton starts) read
      · intro rule context before after read
        exact ih.fills_of_stays (none rule).1 (View.fits_nil _ _) read

namespace Language

/-- The kinds at which a rule is sure to read a token. -/
def reads : Rule → TokenSet
  | .typeArguments _ => .singleton .lt
  | .block => .singleton .lBrace
  | _ => .empty

theorem steady_grammar (rule : Rule) : steadyRule grammar reads rule = true := by
  cases rule with
  | typeArguments diamond => cases diamond <;> decide
  | memberBody kind => cases kind <;> decide
  | _ => decide +kernel

end Language

end JavaSyntax
