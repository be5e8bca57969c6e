import JavaSyntax.Proofs.Forms.Clean
import JavaSyntax.Proofs.Tree.Yield

/-!
# Balanced brackets

A text that is parsed without errors is properly nested: every bracket that is opened is
closed by one of its sort, and the two are slots of the same node.  In each form of a node
the brackets pair up, and what stands between them is a token that is no bracket, or a node
in which they are nested properly as well.
-/

namespace JavaSyntax

/-- The sorts of brackets. -/
inductive Bracket where
  | round
  | curly
  | square
  deriving DecidableEq, Repr

/-- What an item does to the brackets that are open. -/
inductive Mark where
  | opening (bracket : Bracket)
  | closing (bracket : Bracket)
  deriving DecidableEq, Repr

/-- The mark that a token of a kind is. -/
def TokenKind.mark? : TokenKind → Option Mark
  | .lParen => some (.opening .round)
  | .rParen => some (.closing .round)
  | .lBrace => some (.opening .curly)
  | .rBrace => some (.closing .curly)
  | .lBracket => some (.opening .square)
  | .rBracket => some (.closing .square)
  | _ => none

/-- The kinds of all brackets. -/
def TokenKind.brackets : List TokenKind :=
  [.lParen, .rParen, .lBrace, .rBrace, .lBracket, .rBracket]

/-- The mark that a token is. -/
def Token.mark? (token : Token) : Option Mark :=
  token.kind.mark?

/-- The mark that a slot is. -/
def Element.mark? (element : Element) : Option Mark :=
  element.token?.bind Token.mark?

/-! ## Nesting -/

section Nesting

variable {α : Type} {mark? : α → Option Mark}

/-- Items among which the marks pair up. -/
inductive Balanced (mark? : α → Option Mark) : List α → Prop where
  | nil : Balanced mark? []
  | plain {item : α} {rest : List α} :
      mark? item = none → Balanced mark? rest → Balanced mark? (item :: rest)
  | pair {bracket : Bracket} {first last : α} {inner rest : List α} :
      mark? first = some (.opening bracket) → Balanced mark? inner →
      mark? last = some (.closing bracket) → Balanced mark? rest →
        Balanced mark? (first :: inner ++ last :: rest)

/-- The brackets that are open after an item. -/
def Mark.step : Option Mark → List Bracket → Option (List Bracket)
  | none, stack => some stack
  | some (.opening bracket), stack => some (bracket :: stack)
  | some (.closing bracket), top :: stack => if top = bracket then some stack else none
  | some (.closing _), [] => none

/-- Whether items close the brackets that are open, and all that they open. -/
def nests (mark? : α → Option Mark) : List Bracket → List α → Bool
  | stack, [] => stack.isEmpty
  | stack, first :: rest => (Mark.step (mark? first) stack).any (nests mark? · rest)

theorem nests_plain {item : α} (plain : mark? item = none) (stack : List Bracket)
    (rest : List α) : nests mark? stack (item :: rest) = nests mark? stack rest := by
  simp [nests, plain, Mark.step]

theorem nests_opening {item : α} {bracket : Bracket} (opens : mark? item = some (.opening bracket))
    (stack : List Bracket) (rest : List α) :
    nests mark? stack (item :: rest) = nests mark? (bracket :: stack) rest := by
  simp [nests, opens, Mark.step]

theorem nests_closing {item : α} {bracket : Bracket} (closes : mark? item = some (.closing bracket))
    (stack : List Bracket) (rest : List α) :
    nests mark? (bracket :: stack) (item :: rest) = nests mark? stack rest := by
  simp [nests, closes, Mark.step]

/-- Items that close the brackets of a stack from the top on, with balanced items before
each of them. -/
def Closes (mark? : α → Option Mark) : List Bracket → List α → Prop
  | [], items => Balanced mark? items
  | bracket :: stack, items => ∃ inner last rest, items = inner ++ last :: rest ∧
      Balanced mark? inner ∧ mark? last = some (.closing bracket) ∧ Closes mark? stack rest

namespace Closes

variable {stack : List Bracket} {items : List α}

theorem plain {item : α} (unmarked : mark? item = none) (closes : Closes mark? stack items) :
    Closes mark? stack (item :: items) := by
  cases stack with
  | nil => exact .plain unmarked closes
  | cons bracket stack =>
      obtain ⟨inner, last, rest, rfl, balanced, closing, below⟩ := closes
      exact ⟨item :: inner, last, rest, rfl, .plain unmarked balanced, closing, below⟩

theorem opening {bracket : Bracket} {first : α} (opens : mark? first = some (.opening bracket))
    (closes : Closes mark? (bracket :: stack) items) : Closes mark? stack (first :: items) := by
  obtain ⟨inner, last, rest, rfl, balanced, closing, below⟩ := closes
  cases stack with
  | nil => exact .pair opens balanced closing below
  | cons outer stack =>
      obtain ⟨between, final, after, rfl, others, ends, deeper⟩ := below
      refine ⟨first :: inner ++ last :: between, final, after, ?_,
        .pair opens balanced closing others, ends, deeper⟩
      simp

theorem closing {bracket : Bracket} {last : α} (closing : mark? last = some (.closing bracket))
    (closes : Closes mark? stack items) : Closes mark? (bracket :: stack) (last :: items) :=
  ⟨[], last, items, rfl, .nil, closing, closes⟩

end Closes

theorem closes_of_nests {stack : List Bracket} {items : List α}
    (checked : nests mark? stack items = true) : Closes mark? stack items := by
  induction items generalizing stack with
  | nil =>
      obtain rfl := List.isEmpty_iff.mp checked
      exact .nil
  | cons first rest ih =>
      cases known : mark? first with
      | none =>
          rw [nests_plain known] at checked
          exact (ih checked).plain known
      | some mark =>
          cases mark with
          | opening bracket =>
              rw [nests_opening known] at checked
              exact (ih checked).opening known
          | closing bracket =>
              cases stack with
              | nil => simp [nests, known, Mark.step] at checked
              | cons top stack =>
                  by_cases same : top = bracket
                  · subst same
                    rw [nests_closing known] at checked
                    exact (ih checked).closing known
                  · simp [nests, known, Mark.step, same] at checked

/-- Balanced items leave the open brackets as they are. -/
theorem Balanced.nests_append {items : List α} (balanced : Balanced mark? items)
    (stack : List Bracket) (rest : List α) :
    nests mark? stack (items ++ rest) = nests mark? stack rest := by
  induction balanced generalizing stack rest with
  | nil => rfl
  | plain unmarked _ ih => rw [List.cons_append, nests_plain unmarked, ih]
  | pair opens _ closes _ inside ih =>
      rw [List.append_assoc, List.cons_append, List.cons_append, nests_opening opens, inside,
        nests_closing closes, ih]

theorem balanced_iff {items : List α} : Balanced mark? items ↔ nests mark? [] items = true := by
  constructor
  · intro balanced
    have whole := balanced.nests_append [] []
    rwa [List.append_nil] at whole
  · intro checked
    exact closes_of_nests checked

instance (items : List α) : Decidable (Balanced mark? items) :=
  decidable_of_iff _ balanced_iff.symm

example : ¬Balanced TokenKind.mark? [.lParen, .lBracket, .rParen, .rBracket] := by decide

/-- Some brackets are open wherever balanced items are split. -/
theorem exists_nests_of_append {stack : List Bracket} {before after : List α}
    (checked : nests mark? stack (before ++ after) = true) :
    ∃ opened, nests mark? opened after = true := by
  induction before generalizing stack with
  | nil => exact ⟨stack, checked⟩
  | cons first before ih =>
      obtain ⟨next, _, rest⟩ := (Option.any_eq_true _ _).mp checked
      exact ih rest

namespace Balanced

theorem append {left right : List α} (balanced : Balanced mark? left)
    (others : Balanced mark? right) : Balanced mark? (left ++ right) := by
  rw [balanced_iff, balanced.nests_append]
  exact balanced_iff.mp others

/-- An unmarked item at the end can be left out. -/
theorem of_concat {items : List α} {last : α} (balanced : Balanced mark? (items ++ [last]))
    (unmarked : mark? last = none) : Balanced mark? items := by
  rw [balanced_iff] at balanced ⊢
  rw [← balanced]
  clear balanced
  generalize ([] : List Bracket) = stack
  induction items generalizing stack with
  | nil => rw [List.nil_append, nests_plain unmarked]
  | cons first items ih =>
      simp only [List.cons_append, nests]
      congr 1
      funext stack
      exact ih stack

/-- A bracket that is opened is closed by the first one of its sort that has only balanced
items before it. -/
theorem exists_closing {before after : List α} {first : α} {bracket : Bracket}
    (balanced : Balanced mark? (before ++ first :: after))
    (opens : mark? first = some (.opening bracket)) :
    ∃ inner last rest, after = inner ++ last :: rest ∧
      mark? last = some (.closing bracket) ∧ Balanced mark? inner := by
  obtain ⟨stack, checked⟩ := exists_nests_of_append (balanced_iff.mp balanced)
  rw [nests_opening opens] at checked
  obtain ⟨inner, last, rest, same, inside, closes, _⟩ := closes_of_nests checked
  exact ⟨inner, last, rest, same, closes, inside⟩

end Balanced

end Nesting

/-! ## The brackets of a node -/

namespace Part

/-- The mark that a part is, if it is a bracket. -/
def mark? (part : Part) : Option Mark :=
  (TokenKind.brackets.find? (part = token ·)).bind TokenKind.mark?

/-- Whether it is known of the slots of a part which mark they are. -/
def isDefinite (part : Part) : Bool :=
  part.mark?.isSome || TokenKind.brackets.all (!part.slot.tokens.contains ·)

theorem mark?_run (slot : Slot) : (run slot).mark? = none := by
  simp [mark?, TokenKind.brackets, token]

end Part

theorem TokenKind.mem_brackets {kind : TokenKind} {mark : Mark} (marks : kind.mark? = some mark) :
    kind ∈ brackets := by
  unfold mark? at marks
  split at marks
  case h_7 => cases marks
  all_goals decide

/-- No bracket may stand in a slot. -/
theorem Element.mark?_of_unmarked {slot : Slot}
    (unmarked : TokenKind.brackets.all (!slot.tokens.contains ·) = true) {element : Element}
    (admitted : slot.admits element = true) : element.mark? = none := by
  cases element with
  | node | missing | absent => rfl
  | token found =>
      cases marks : found.kind.mark? with
      | none => exact marks
      | some mark =>
          have without := List.all_eq_true.mp unmarked _ (TokenKind.mem_brackets marks)
          have within : slot.tokens.contains found.kind = true := admitted
          simp [within] at without

/-- One slot is the mark that its part is. -/
theorem Element.mark?_of_admits {slot : Slot} (definite : (Part.one slot).isDefinite = true)
    {element : Element} (admitted : slot.admits element = true) :
    element.mark? = (Part.one slot).mark? := by
  cases known : (Part.one slot).mark? with
  | none =>
      rw [Part.isDefinite, known] at definite
      exact mark?_of_unmarked definite admitted
  | some mark =>
      obtain ⟨kind, found, marks⟩ := Option.bind_eq_some_iff.mp known
      have same : Part.one slot = Part.token kind := by simpa using List.find?_some found
      cases same
      cases element with
      | token found =>
          have isKind : kind = found.kind := by simpa [Slot.admits, Slot.ofTokens] using admitted
          subst isKind
          exact marks
      | node | missing | absent => simp [Slot.admits, Slot.ofTokens, NodeSet.contains] at admitted

/-- The slots of a form nest as the form does. -/
theorem Fits.nests_eq {form : List Part} {elements : List Element} (fits : Fits form elements)
    (definite : form.all Part.isDefinite = true) (stack : List Bracket) :
    nests Element.mark? stack elements = nests Part.mark? stack form := by
  induction fits generalizing stack with
  | nil => rfl
  | one admitted _ ih =>
      obtain ⟨here, others⟩ := (Bool.and_eq_true _ _).mp definite
      simp only [nests, Element.mark?_of_admits here admitted]
      congr 1
      funext opened
      exact ih others opened
  | done _ ih =>
      obtain ⟨_, others⟩ := (Bool.and_eq_true _ _).mp definite
      rw [nests_plain (Part.mark?_run _), ih others]
  | @more slot _ _ _ admitted _ ih =>
      have here : TokenKind.brackets.all (!slot.tokens.contains ·) = true := by
        have known := ((Bool.and_eq_true _ _).mp definite).1
        rwa [Part.isDefinite, Part.mark?_run] at known
      rw [nests_plain (Element.mark?_of_unmarked here admitted), ih definite]

/-- In every form the brackets pair up. -/
theorem NodeKind.nests_of_mem_forms (kind : NodeKind) :
    (kind.forms.all fun form => form.all Part.isDefinite && nests Part.mark? [] form) = true := by
  cases kind <;> decide

theorem Node.WellFormed.balanced {node : Node} (formed : node.WellFormed) :
    Balanced Element.mark? node.children := by
  obtain ⟨form, listed, fits⟩ := formed
  have checked := List.all_eq_true.mp node.kind.nests_of_mem_forms form listed
  rw [Bool.and_eq_true] at checked
  rw [balanced_iff, fits.nests_eq checked.1]
  exact checked.2

/-! ## The brackets of a tree -/

namespace Element

theorem eq_token_of_mark? {element : Element} {mark : Mark} (marks : element.mark? = some mark) :
    ∃ found, element = .token found ∧ found.mark? = some mark := by
  cases element with
  | token found => exact ⟨found, rfl, marks⟩
  | node | missing | absent => cases marks

/-- The tokens of balanced slots are balanced, if those of each slot are that is no mark
itself. -/
theorem balanced_yieldAll {slots : List Element} (balanced : Balanced mark? slots)
    (each : ∀ slot ∈ slots, slot.mark? = none → Balanced Token.mark? slot.yield) :
    Balanced Token.mark? (yieldAll slots) := by
  induction balanced with
  | nil => exact .nil
  | plain unmarked _ ih =>
      rw [yieldAll_cons]
      refine (each _ List.mem_cons_self unmarked).append (ih ?_)
      exact fun slot member => each slot (List.mem_cons_of_mem _ member)
  | pair opens _ closes _ inside ih =>
      obtain ⟨first, rfl, opening⟩ := eq_token_of_mark? opens
      obtain ⟨last, rfl, closing⟩ := eq_token_of_mark? closes
      rw [yieldAll_append, yieldAll_cons, yieldAll_cons, yield_token, yield_token]
      refine .pair opening (inside ?_) closing (ih ?_)
      · intro slot member
        exact each slot (List.mem_append_left _ (List.mem_cons_of_mem _ member))
      · intro slot member
        exact each slot (List.mem_append_right _ (List.mem_cons_of_mem _ member))

mutual

/-- The tokens of a slot that is no mark itself are balanced, if the slots of each node are. -/
theorem balanced_yield :
    (slot : Element) → Good (fun node => Balanced mark? node.children) [slot] →
      slot.mark? = none → Balanced Token.mark? slot.yield
  | .node kind span children, kept, _ => by
      have here : Balanced mark? children :=
        kept _ (List.mem_singleton_self _) ⟨kind, span, children⟩ (by simp)
      rw [yield_node]
      exact balanced_yieldAll here (balanced_yield_of_mem children kept.below)
  | .token found, _, unmarked => by
      rw [yield_token]
      exact .plain unmarked .nil
  | .missing _ _, _, _ => by
      rw [yield_missing]
      exact .nil
  | .absent, _, _ => by
      rw [yield_absent]
      exact .nil

theorem balanced_yield_of_mem :
    (slots : List Element) → Good (fun node => Balanced mark? node.children) slots →
      ∀ slot ∈ slots, slot.mark? = none → Balanced Token.mark? slot.yield
  | [], _, slot, member => by cases member
  | first :: rest, kept, slot, member => by
      cases member with
      | head => exact balanced_yield first kept.head
      | tail _ member => exact balanced_yield_of_mem rest kept.tail slot member

end

end Element

/-- Each bracket that is opened among the slots of a node is closed among them.  The tokens
between the two are balanced, so they belong together in the text as well. -/
def Node.ClosesBrackets (node : Node) : Prop :=
  ∀ before opening after bracket, node.children = before ++ .token opening :: after →
    opening.mark? = some (.opening bracket) →
      ∃ inner closing rest, after = inner ++ .token closing :: rest ∧
        closing.mark? = some (.closing bracket) ∧
        Balanced Token.mark? (Element.yieldAll inner)

section Root

variable {root : Node} (formed : ∀ node ∈ root.descendants, node.WellFormed)

include formed

/-- In and below the slots of any node of a tree, all slots are balanced. -/
theorem Node.balanced_below {node : Node} (member : node ∈ root.descendants) :
    Good (fun below => Balanced Element.mark? below.children) node.children := by
  intro child among below found
  exact (formed below (mem_descendants_of_below member
    (Element.mem_nodesAll.mpr ⟨child, among, found⟩))).balanced

theorem Node.closesBrackets_of_wellFormed {node : Node} (member : node ∈ root.descendants) :
    node.ClosesBrackets := by
  intro before opening after bracket listed opens
  have balanced := (formed node member).balanced
  have kept := balanced_below formed member
  rw [listed] at balanced kept
  obtain ⟨inner, last, rest, rfl, closes, inside⟩ := balanced.exists_closing opens
  obtain ⟨closing, rfl, ends⟩ := Element.eq_token_of_mark? closes
  refine ⟨inner, closing, rest, rfl, ends, Element.balanced_yieldAll inside ?_⟩
  refine Element.balanced_yield_of_mem inner (kept.of_subset fun slot within => ?_)
  exact List.mem_append_right _ (List.mem_cons_of_mem _ (List.mem_append_left _ within))

theorem Node.balanced_tokens : Balanced Token.mark? root.tokens := by
  have member : root ∈ root.descendants := by
    rw [descendants_eq_nodes]
    exact List.mem_cons_self
  rw [tokens_eq_yieldAll]
  exact Element.balanced_yieldAll (formed root member).balanced
    (Element.balanced_yield_of_mem _ (balanced_below formed member))

/-- What holds of a tree whose nodes have their forms and whose tokens are those of a
closed list. -/
theorem Node.brackets_of_wellFormed {tokens : List Token}
    (closed : root.tokens = Token.closed tokens) :
    Balanced Token.mark? (tokens.takeWhile (·.kind != .eof)) ∧
      ∀ node ∈ root.descendants, node.ClosesBrackets := by
  refine ⟨?_, fun node => closesBrackets_of_wellFormed formed⟩
  obtain ⟨mark, ended, same⟩ := Token.closedFrom_eq_takeWhile 0 tokens
  have balanced := balanced_tokens formed
  rw [closed, Token.closed, same] at balanced
  refine balanced.of_concat ?_
  rw [Token.mark?, ended]
  rfl

end Root

/-- Whatever the tokens and the configuration, if a parse reports no error, then the tokens
before the first end mark are balanced, and in the tree every bracket is closed in
the node in which it is opened. -/
theorem brackets_of_clean (tokens : List Token) (config : Config) :
    ((Session.start tokens config).parseUnit.1.errors = [] →
      Balanced Token.mark? (tokens.takeWhile (·.kind != .eof)) ∧
        ∀ node ∈ (Session.start tokens config).parseUnit.1.root.descendants,
          node.ClosesBrackets) ∧
    ((Session.start tokens config).parseExpression.1.errors = [] →
      Balanced Token.mark? (tokens.takeWhile (·.kind != .eof)) ∧
        ∀ node ∈ (Session.start tokens config).parseExpression.1.root.descendants,
          node.ClosesBrackets) := by
  obtain ⟨unit, expression⟩ := wellFormed_of_clean tokens config
  constructor
  · intro clean
    refine Node.brackets_of_wellFormed (unit clean) ?_
    exact Session.tokens_parseWith tokens config .compilationUnit
      (fun context state => state.readUnit context)
      (State.readUnit_lossless _) (State.readUnit_atEnd _)
  · intro clean
    refine Node.brackets_of_wellFormed (expression clean) ?_
    exact Session.tokens_parseWith tokens config .expressionRoot
      (fun context state => state.readExpression context)
      (State.readExpression_lossless []) (State.readExpression_atEnd _)

/-- The tokens of `class A { int[] f() {} }`. -/
def classOfArrayMethod : List Token :=
  [.written .kwClass "class" 0, .written .identifier "A" 6, .written .lBrace "\x7b" 8,
    .written .kwInt "int" 10, .written .lBracket "[" 13, .written .rBracket "]" 14,
    .written .identifier "f" 16, .written .lParen "(" 17, .written .rParen ")" 18,
    .written .lBrace "\x7b" 20, .written .rBrace "\x7d" 21, .written .rBrace "\x7d" 23, .endMark 24]

/-- The tokens of `f(a[b])`. -/
def callOnElement : List Token :=
  [.written .identifier "f" 0, .written .lParen "(" 1, .written .identifier "a" 2,
    .written .lBracket "[" 3, .written .identifier "b" 4, .written .rBracket "]" 5,
    .written .rParen ")" 6, .endMark 7]

/-- A source file and an expression with brackets of all sorts. -/
theorem brackets_of_classOfArrayMethod_callOnElement :
    ((Session.start classOfArrayMethod {}).parseUnit.1.errors = [] ∧
      Balanced Token.mark? (classOfArrayMethod.takeWhile (·.kind != .eof)) ∧
      ∀ node ∈ (Session.start classOfArrayMethod {}).parseUnit.1.root.descendants,
        node.ClosesBrackets) ∧
    (Session.start callOnElement {}).parseExpression.1.errors = [] ∧
      Balanced Token.mark? (callOnElement.takeWhile (·.kind != .eof)) ∧
      ∀ node ∈ (Session.start callOnElement {}).parseExpression.1.root.descendants,
        node.ClosesBrackets := by
  have unit : (Session.start classOfArrayMethod {}).parseUnit.1.errors = [] := by
    decide +kernel
  have expression : (Session.start callOnElement {}).parseExpression.1.errors = [] := by
    decide +kernel
  exact ⟨⟨unit, (brackets_of_clean classOfArrayMethod {}).1 unit⟩,
    expression, (brackets_of_clean callOnElement {}).2 expression⟩

end JavaSyntax
