import Mathlib.Data.List.Chain
import JavaSyntax.Proofs.Reading.Assembled
import JavaSyntax.Proofs.Stretches
import JavaSyntax.Proofs.Tree.Nodes

/-!
# How deep brackets nest

The limit on nested rules is a limit on trees.  Every block, body, initializer, list of type
arguments and parenthesized expression is built by a rule that was called, or around a call
that the rule cannot do without.  So on no way down a tree are there more such nodes than
nesting levels were allowed.
-/

namespace JavaSyntax

namespace Element

mutual

/-- The most bracketed nodes on a way down from a slot. -/
def bracketDepth : Element → Nat
  | .node kind _ children => bracketDepths children + if kind.isBracketed then 1 else 0
  | .token _ => 0
  | .missing _ _ => 0
  | .absent => 0

/-- The most bracketed nodes on a way down from one of some slots. -/
def bracketDepths : List Element → Nat
  | [] => 0
  | first :: rest => max (bracketDepth first) (bracketDepths rest)

end

@[simp] theorem bracketDepths_nil : bracketDepths [] = 0 := by
  simp [bracketDepths]

@[simp] theorem bracketDepths_cons (first : Element) (rest : List Element) :
    bracketDepths (first :: rest) = max first.bracketDepth (bracketDepths rest) := by
  simp [bracketDepths]

@[simp] theorem bracketDepth_node (kind : NodeKind) (span : Span) (children : List Element) :
    (node kind span children).bracketDepth =
      bracketDepths children + if kind.isBracketed then 1 else 0 := by
  simp [bracketDepth]

@[simp] theorem bracketDepth_token (found : Token) : (token found).bracketDepth = 0 := by
  simp [bracketDepth]

@[simp] theorem bracketDepth_missing (expected : TokenKind) (span : Span) :
    (missing expected span).bracketDepth = 0 := by
  simp [bracketDepth]

@[simp] theorem bracketDepth_absent : absent.bracketDepth = 0 := by
  simp [bracketDepth]

/-- Some slots are no deeper than a bound if none of them is. -/
theorem bracketDepths_le {slots : List Element} {bound : Nat} :
    bracketDepths slots ≤ bound ↔ ∀ slot ∈ slots, slot.bracketDepth ≤ bound := by
  induction slots with
  | nil => simp
  | cons first rest ih => rw [bracketDepths_cons, Nat.max_le, ih, List.forall_mem_cons]

end Element

/-- The bracketed nodes on a way down from a node count towards its depth. -/
theorem Node.countP_isBracketed_le {path : List Node}
    (down : path.IsChain fun parent child => child ∈ parent.childNodes) {node : Node}
    (top : path.head? = some node) :
    path.countP (·.kind.isBracketed) ≤ node.toElement.bracketDepth := by
  induction path generalizing node with
  | nil => cases top
  | cons first rest ih =>
      obtain rfl := Option.some.inj top
      rw [List.countP_cons, toElement, Element.bracketDepth_node]
      have below : rest.countP (·.kind.isBracketed) ≤ Element.bracketDepths first.children := by
        cases rest with
        | nil => simp
        | cons next rest =>
            rw [List.isChain_cons_cons] at down
            exact Nat.le_trans (ih down.2 rfl)
              (Element.bracketDepths_le.mp (Nat.le_refl _) _ (mem_childNodes.mp down.1))
      exact Nat.add_le_add_right below _

/-- No slot of the frame is deeper than a bound. -/
def State.Within (bound : Nat) (state : State) : Prop :=
  ∀ slot ∈ state.slots, slot.bracketDepth ≤ bound

/-- A reading adds no slot that is deeper than so many levels. -/
def Shallow (levels : Nat) (before after : State) : Prop :=
  ∀ bound, levels ≤ bound → before.Within bound → after.Within bound

theorem Shallow.mono {levels more : Nat} {before after : State}
    (shallow : Shallow levels before after) (fewer : levels ≤ more) : Shallow more before after :=
  fun bound enough => shallow bound (Nat.le_trans fewer enough)

/-- Readings that build no bracketed node but by the rules they call. -/
def Building.bracketless (levels : Nat) : Building where
  closes := fun kind => !kind.isBracketed
  calls := Shallow levels
  closesError := rfl

/-- All slots of a frame as one node are as deep as the deepest of them, and one deeper if the
node is bracketed. -/
theorem State.Within.finish {bound : Nat} {state : State} (within : state.Within bound)
    (context : Context) (kind : NodeKind) :
    (state.finish context kind state.gathered).bracketDepth ≤
      bound + if kind.isBracketed then 1 else 0 := by
  have deepest : Element.bracketDepths state.gathered ≤ bound :=
    Element.bracketDepths_le.mpr fun slot member => within slot (by simpa [gathered] using member)
  exact Nat.add_le_add_right deepest _

/-- Every sequence of moves that builds no bracketed node adds no deeper slots than the rules
called do. -/
theorem Moves.shallow {context : Context} {levels : Nat} {before after : State}
    (moves : Moves context (.bracketless levels) before after) : Shallow levels before after := by
  intro bound enough within
  refine moves.forall_slots ?_ ?_ (fun _ _ (called : Shallow levels _ _) => called bound enough)
    within
  · intro slot leaf
    cases slot with
    | node => cases leaf
    | _ => simp
  · intro kind span children admitted inside
    have unbracketed : kind.isBracketed = false := by simpa [Building.bracketless] using admitted
    simpa [unbracketed] using Element.bracketDepths_le.mpr inside

namespace Language

open Phrase

variable {rules : Rule → Context → Step} {context : Context} {levels depth : Nat}
  {before after : State}

/-- A node of its own is one level deeper than what it holds. -/
theorem shallow_node {kind : NodeKind} {body : Phrase}
    (inside : ∀ before after, body.run rules context before = .ok after →
      Shallow levels before after)
    (read : (node kind body).run rules context before = .ok after) :
    Shallow (levels + 1) before after := by
  intro bound enough within slot member
  obtain ⟨closed, stepped, rfl⟩ := State.inFrame_eq_ok.mp read
  obtain ⟨inner, held, ended⟩ := bind_eq_ok.mp stepped
  cases ended
  rcases List.mem_append.mp member with whole | behind
  · obtain rfl := List.mem_singleton.mp whole
    have empty : State.Within levels { before with slots := before.slots.take 0 } := by
      simp [State.Within]
    have deepest := (inside _ _ held levels (Nat.le_refl _) empty).finish context kind
    split at deepest <;> omega
  · exact within slot (by simpa using behind)

/-- Whether a rule reads bracketed nodes itself. -/
def readsBrackets : Rule → Bool
  | .typeRest | .expression | .conditional | .lambda | .statement => false
  | _ => true

/-- The rules, with so many levels left, add no slots that are deeper; those that read no
bracketed nodes themselves leave one level for those they call. -/
def RulesShallow (depth : Nat) : Prop :=
  ∀ context rule before after, readRule grammar depth rule context before = .ok after →
    Shallow (if readsBrackets rule then depth else depth - 1) before after

/-- Every rule that is called adds no slots deeper than the levels left. -/
theorem RulesShallow.called (rules : RulesShallow depth) (context : Context) (rule : Rule) :
    Moving context (.bracketless depth) (readRule grammar depth rule context) :=
  fun before after read => .call ((rules context rule before after read).mono (by split <;> omega))

/-- A phrase that builds no bracketed node adds no slots deeper than the levels left. -/
theorem RulesShallow.run (rules : RulesShallow depth) {phrase : Phrase}
    (builds : phrase.closesOnly (fun kind => !kind.isBracketed) = true)
    (read : phrase.run (readRule grammar depth) context before = .ok after) :
    Shallow depth before after :=
  (phrase.run_moving (rules.called context) (rules.called context.trial) builds before after
    read).shallow

/-- The parentheses of an expression. -/
def parentheses : Phrase :=
  node .parenthesizedExpression (.take ++ .call .expression ++ .expect .rParen)

/-- Parentheses take the level that the expression inside needs, and leave it none. -/
theorem RulesShallow.parentheses (rules : RulesShallow depth)
    (read : parentheses.run (readRule grammar depth) context before = .ok after) :
    Shallow depth before after := by
  cases depth with
  | zero =>
      obtain ⟨_, stepped, rfl⟩ := State.inFrame_eq_ok.mp read
      cases stepped
  | succ depth =>
      refine shallow_node (fun before after held => ?_) read
      obtain ⟨inner, called, closing⟩ := bind_eq_ok.mp held
      obtain ⟨opened, taken, called⟩ := bind_eq_ok.mp called
      cases taken
      have expression : Moves context (.bracketless depth) (before.take context) inner :=
        .call (rules context .expression _ _ called)
      exact ((Moves.takeUnlessEnded context before).trans
        (expression.trans (State.expect_moving .rParen _ _ closing))).shallow

/-- Besides parentheses, no part of a primary builds a bracketed node. -/
theorem primary_assembled :
    primary.Assembled (fun kind => !kind.isBracketed) (· = parentheses) :=
  .choose _ (.seq (.choose _ (.plain (by decide)) (.choose _ (.plain (by decide))
    (.choose _ (.part rfl) (.plain (by decide))))) (.plain (by decide))) (.plain (by decide))

/-- A phrase of primaries and phrases that build no bracketed nodes adds no slots deeper than
the levels left. -/
theorem RulesShallow.assembled (rules : RulesShallow depth) {phrase : Phrase}
    (parts : phrase.Assembled NodeKind.isOrdinary (· = primary))
    (read : phrase.run (readRule grammar depth) context before = .ok after) :
    Shallow depth before after := by
  have primaries (context : Context) (inner : Phrase) (isPrimary : inner = primary) :
      Moving context (.bracketless depth) (inner.run (readRule grammar depth) context) := by
    subst isPrimary
    refine primary_assembled.moving rules.called (fun context inner isPart => ?_) context
    subst isPart
    exact fun before after read => .call (rules.parentheses read)
  have ordinary (kind : NodeKind) (checked : kind.isOrdinary = true) :
      (!kind.isBracketed) = true := by
    rw [NodeKind.isOrdinary, Bool.and_eq_true] at checked
    exact checked.1
  exact ((parts.mono ordinary).moving rules.called primaries context before after read).shallow

/-- No rule of the language adds slots that are deeper than the levels it has. -/
theorem rulesShallow (depth : Nat) : RulesShallow depth := by
  induction depth with
  | zero =>
      intro context rule before after read
      cases read
  | succ depth ih =>
      intro context rule before after read
      cases rule with
      | typeRest | lambda | statement => exact ih.run (by decide) read
      | expression => exact ih.assembled expression_assembled read
      | conditional => exact ih.assembled conditional_assembled read
      | typeArguments diamond =>
          exact shallow_node (fun _ _ => ih.run (by cases diamond <;> decide)) read
      | memberBody kind => exact shallow_node (fun _ _ => ih.run (by cases kind <;> decide)) read
      | block | switchBlock | enumBody | arrayInitializer =>
          exact shallow_node (fun _ _ => ih.run (by decide)) read
      | constructorBody =>
          exact shallow_node (fun _ _ => ih.assembled constructorBody_assembled) read
      | elementValue =>
          simp only [readRule, grammar, elementValue, Phrase.run] at read
          split at read
          · exact shallow_node (fun _ _ => ih.run (by decide)) read
          · have other : (Phrase.choose (.is .atSign) annotationUse (.call .conditional)).run
                (readRule grammar depth) context before = .ok after := read
            exact (ih.run (by decide) other).mono (Nat.le_succ depth)

end Language

namespace State

variable {context : Context} {phrase : Phrase}

theorem read_within (builds : phrase.closesOnly (fun kind => !kind.isBracketed) = true)
    {state after : State} (read : Language.read phrase context state = .ok after)
    (within : state.Within context.limit) : after.Within context.limit :=
  (Language.rulesShallow context.limit).run builds read _ (Nat.le_refl _) within

theorem sweep_within (state : State) (within : state.Within context.limit) :
    (state.sweep context).Within context.limit := by
  have moves : Moves context (.bracketless context.limit) state (state.sweep context) :=
    sweep_moves state
  exact moves.shallow _ (Nat.le_refl _) within

theorem readUnit_within (position : Nat) :
    (readUnit context ⟨position, [], []⟩).Within context.limit := by
  refine readUnit_kept (fun listed read within => read_within ?_ read within)
    (fun state error within => sweep_within _ within) (by simp [Within])
  simp only [Language.items, List.mem_cons, List.not_mem_nil, or_false] at listed
  rcases listed with rfl | rfl | rfl <;> decide

theorem readExpression_within (position : Nat) :
    (readExpression context ⟨position, [], []⟩).Within context.limit :=
  readExpression_kept (fun read => read_within rfl read (by simp [Within])) (by simp [Within])
    (fun _ _ within => within) sweep_within

/-- The root of a tree is no bracketed node. -/
theorem bracketDepth_root {state : State} (within : state.Within context.limit) {kind : NodeKind}
    (unbracketed : kind.isBracketed = false) :
    (state.finishParse context kind).root.toElement.bracketDepth ≤ context.limit := by
  have ended : (state.takeAny context).Within context.limit := by
    intro slot member
    rcases List.mem_cons.mp member with rfl | member
    · simp
    · exact within slot member
  have whole := ended.finish context kind
  rwa [unbracketed, if_neg Bool.false_ne_true, Nat.add_zero] at whole

end State

/-- The tree of every call of a session is no deeper than the limit. -/
theorem Session.bracketDepth_call (session : Session) (entry : Entry) :
    (session.call entry).1.root.toElement.bracketDepth ≤ session.context.limit := by
  cases entry with
  | unit => exact State.bracketDepth_root (State.readUnit_within session.position) rfl
  | expression => exact State.bracketDepth_root (State.readExpression_within session.position) rfl

/-- Whatever a session is asked for, on no way down from the root of a tree are there more
bracketed nodes than the nesting limit. -/
theorem bracketed_within_limit (tokens : List Token) (config : Config) (earlier : List Entry)
    (entry : Entry) (path : List Node)
    (down : path.IsChain fun parent child => child ∈ parent.childNodes)
    (top : path.head? = some (((Session.start tokens config).after earlier).call entry).1.root) :
    path.countP (·.kind.isBracketed) ≤ config.maxDepth := by
  have limit : ((Session.start tokens config).after earlier).context.limit = config.maxDepth := by
    rw [(Session.after_within earlier (Nat.zero_le _)).1]
    rfl
  rw [← limit]
  exact Nat.le_trans (Node.countP_isBracketed_le down top) (Session.bracketDepth_call _ entry)

/-- A block in a class, `class A { { } }`, without the end mark. -/
def blockInClass : List Token :=
  [.written .kwClass "class" 0, .written .identifier "A" 6, .written .lBrace "\x7b" 8,
    .written .lBrace "\x7b" 10, .written .rBrace "\x7d" 12, .written .rBrace "\x7d" 14]

/-- The way down to that block when two levels are allowed. -/
def wayToBlock : List Node :=
  ((Session.start blockInClass { maxDepth := 2 }).call .unit).1.root.descendants.filter
    (·.kind ∈ [.compilationUnit, .normalClassDeclaration, .classBody, .instanceInitializer, .block])

/-- Two levels are enough for a block in a class, and the tree uses both of them. -/
theorem bracketed_within_limit_blockInClass :
    wayToBlock.IsChain (fun parent child => child ∈ parent.childNodes) ∧
      wayToBlock.countP (·.kind.isBracketed) ≤ 2 ∧
      2 ≤ wayToBlock.countP (·.kind.isBracketed) :=
  ⟨by decide +kernel,
    bracketed_within_limit blockInClass { maxDepth := 2 } [] .unit wayToBlock (by decide +kernel)
      (by decide +kernel),
    by decide +kernel⟩

end JavaSyntax
