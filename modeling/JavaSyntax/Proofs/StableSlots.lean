import JavaSyntax.Proofs.Forms.Clean
import JavaSyntax.Proofs.Tree.Yield

/-!
# Stable slots

In a tree that is parsed without errors a slot of a node can be found by its number: every
node has the slots of its kind, and one that is not used is absent rather than left out.
No node is empty, since every form demands a token or a node that is not empty itself.
-/

namespace JavaSyntax

/-- How many slots the nodes of a kind have, where this is the same for all of them. -/
def NodeKind.slotCount? : NodeKind → Option Nat
  | .expressionName | .emptyDeclaration | .methodBody | .instanceInitializer | .emptyStatement
  | .forInit | .forUpdate | .primary | .thisExpression | .literal => some 1
  | .primitiveType | .arrayType | .wildcardBounds | .additionalBound | .annotationMarker
  | .superclass | .superinterfaces | .extendsInterfaces | .variableDeclaratorId | .throws
  | .staticInitializer | .defaultValue | .localVariableDeclarationStatement
  | .expressionStatement | .finallyClause | .expressionRoot | .preIncrementExpression
  | .preDecrementExpression | .unaryExpression | .postIncrementExpression
  | .postDecrementExpression => some 2
  | .classTypeSegment | .dim | .wildcard | .typeParameter | .elementValuePair
  | .singleTypeImportDeclaration | .variableDeclarator | .methodDeclaration
  | .interfaceMethodDeclaration | .formalParameter | .localVariableDeclaration
  | .labeledStatement | .breakStatement | .continueStatement | .returnStatement
  | .throwStatement | .catchFormalParameter | .lambdaExpression | .assignment
  | .conditionalOrExpression | .conditionalAndExpression | .inclusiveOrExpression
  | .exclusiveOrExpression | .andExpression | .equalityExpression | .relationalExpression
  | .instanceofExpression | .additiveExpression | .multiplicativeExpression
  | .parenthesizedExpression | .qualifiedThis | .arguments | .dimExpr => some 3
  | .packageDeclaration | .singleStaticImportDeclaration | .enumConstant | .fieldDeclaration
  | .constantDeclaration | .methodHeader | .constructorDeclaration | .tryStatement
  | .classLiteral | .arrayAccess | .arrayCreationExpression => some 4
  | .annotationSingle | .typeImportOnDemandDeclaration | .enumDeclaration
  | .annotationTypeDeclaration | .methodDeclarator | .lastFormalParameter
  | .constructorDeclarator | .assertStatement | .switchStatement | .whileStatement
  | .synchronizedStatement | .tryWithResourcesStatement | .catchClause | .resource
  | .conditionalExpression => some 5
  | .staticImportOnDemandDeclaration | .normalInterfaceDeclaration => some 6
  | .normalClassDeclaration | .ifStatement | .doStatement
  | .classInstanceCreationExpression => some 7
  | .annotationTypeElementDeclaration => some 8
  | .basicForStatement | .enhancedForStatement => some 9
  | _ => none

namespace Part

/-- Whether a part is one slot. -/
def isSingle : Part → Bool
  | .one _ => true
  | .run _ => false

/-- Whether a part is a slot in which something stands. -/
def isRequired : Part → Bool
  | .one slot => !slot.absent
  | .run _ => false

end Part

namespace Fits

theorem length_eq {parts : List Part} {elements : List Element} (fits : Fits parts elements)
    (single : parts.all Part.isSingle = true) : elements.length = parts.length := by
  induction fits with
  | nil => rfl
  | one _ _ ih =>
      rw [List.all_cons, Bool.and_eq_true] at single
      rw [List.length_cons, List.length_cons, ih single.2]
  | done | more => cases single

/-- A slot that is required is not absent. -/
theorem exists_required {parts : List Part} {elements : List Element} (fits : Fits parts elements)
    (required : parts.any Part.isRequired = true) :
    ∃ element ∈ elements, ∃ slot : Slot, slot.absent = false ∧ slot.admits element = true := by
  induction fits with
  | nil => cases required
  | @one slot parts element elements admitted _ ih =>
      rcases (Bool.or_eq_true _ _).mp required with here | below
      · exact ⟨element, List.mem_cons_self, slot, Bool.not_eq_true' _ ▸ here, admitted⟩
      · obtain ⟨found, member, known⟩ := ih below
        exact ⟨found, List.mem_cons_of_mem _ member, known⟩
  | done _ ih => exact ih required
  | more _ _ ih =>
      obtain ⟨found, member, known⟩ := ih required
      exact ⟨found, List.mem_cons_of_mem _ member, known⟩

end Fits

namespace NodeKind

/-- The forms of a kind have as many slots as its nodes. -/
theorem length_of_mem_forms (kind : NodeKind) :
    (kind.slotCount?.all fun count => kind.forms.all fun form =>
      form.all Part.isSingle && form.length == count) = true := by
  cases kind <;> decide

/-- Something stands in every form. -/
theorem required_of_mem_forms (kind : NodeKind) :
    (kind.forms.all fun form => form.any Part.isRequired) = true := by
  cases kind <;> decide

end NodeKind

theorem Node.WellFormed.length_children {node : Node} (formed : node.WellFormed) {count : Nat}
    (known : node.kind.slotCount? = some count) : node.children.length = count := by
  obtain ⟨form, listed, fits⟩ := formed
  have checked := node.kind.length_of_mem_forms
  rw [known, Option.all_some] at checked
  have here := List.all_eq_true.mp checked form listed
  rw [Bool.and_eq_true, beq_iff_eq] at here
  rw [fits.length_eq here.1, here.2]

theorem Node.WellFormed.exists_required {node : Node} (formed : node.WellFormed) :
    ∃ element ∈ node.children, ∃ slot : Slot,
      slot.absent = false ∧ slot.admits element = true := by
  obtain ⟨form, listed, fits⟩ := formed
  exact fits.exists_required (List.all_eq_true.mp node.kind.required_of_mem_forms form listed)

namespace Element

mutual

/-- A slot in which something stands holds a token, if all nodes have their forms. -/
theorem yield_ne_nil {slot : Slot} (required : slot.absent = false) :
    (element : Element) → slot.admits element = true → Good Node.WellFormed [element] →
      element.yield ≠ []
  | .node kind span children, _, kept => by
      have here : Node.WellFormed ⟨kind, span, children⟩ :=
        kept _ (List.mem_singleton_self _) _ (by simp)
      rw [yield_node]
      exact yieldAll_ne_nil children here.exists_required kept.below
  | .token found, _, _ => by simp
  | .missing _ _, admitted, _ => by cases admitted
  | .absent, admitted, _ => absurd admitted (by simp [Slot.admits, required])

theorem yieldAll_ne_nil : (slots : List Element) →
    (∃ element ∈ slots, ∃ slot : Slot, slot.absent = false ∧ slot.admits element = true) →
      Good Node.WellFormed slots → yieldAll slots ≠ []
  | [], stands, _ => by simp at stands
  | first :: rest, stands, kept => by
      obtain ⟨element, member, slot, required, admitted⟩ := stands
      rw [yieldAll_cons]
      cases member with
      | head =>
          have filled := yield_ne_nil required first admitted kept.head
          exact List.append_ne_nil_of_left_ne_nil filled _
      | tail _ member =>
          have filled :=
            yieldAll_ne_nil rest ⟨element, member, slot, required, admitted⟩ kept.tail
          exact List.append_ne_nil_of_right_ne_nil _ filled

end

end Element

/-- What consumers rely on who find slots by number. -/
structure Node.Stable (node : Node) : Prop where
  filled : node.tokens ≠ []
  formed : node.WellFormed
  counted : ∀ count, node.kind.slotCount? = some count → node.children.length = count

theorem Node.stable_of_wellFormed {root : Node}
    (formed : ∀ node ∈ root.descendants, node.WellFormed) :
    ∀ node ∈ root.descendants, node.Stable := by
  intro node member
  have here := formed node member
  refine ⟨?_, here, fun count => here.length_children⟩
  rw [tokens_eq_yieldAll]
  refine Element.yieldAll_ne_nil node.children here.exists_required ?_
  intro child among below found
  exact formed below (mem_descendants_of_below member
    (Element.mem_nodesAll.mpr ⟨child, among, found⟩))

/-- In every tree parsed without errors, whatever the tokens and the configuration, each
node holds a token and has the slots of its kind. -/
theorem stable_of_clean (tokens : List Token) (config : Config) :
    ((Session.start tokens config).parseUnit.1.errors = [] →
      ∀ node ∈ (Session.start tokens config).parseUnit.1.root.descendants, node.Stable) ∧
    ((Session.start tokens config).parseExpression.1.errors = [] →
      ∀ node ∈ (Session.start tokens config).parseExpression.1.root.descendants, node.Stable) := by
  obtain ⟨unit, expression⟩ := wellFormed_of_clean tokens config
  constructor
  · intro clean
    exact Node.stable_of_wellFormed (unit clean)
  · intro clean
    exact Node.stable_of_wellFormed (expression clean)

/-- The tokens of `class A {}`. -/
def emptyClass : List Token :=
  [.written .kwClass "class" 0, .written .identifier "A" 6, .written .lBrace "\x7b" 8,
    .written .rBrace "\x7d" 9, .endMark 10]

/-- The tokens of `new A()`. -/
def plainCreation : List Token :=
  [.written .kwNew "new" 0, .written .identifier "A" 4, .written .lParen "(" 5,
    .written .rParen ")" 6, .endMark 7]

/-- A class with only a name and a body, and an object made of one: what they do not use
is absent. -/
theorem stable_of_emptyClass_plainCreation :
    ((Session.start emptyClass {}).parseUnit.1.errors = [] ∧
      (∀ node ∈ (Session.start emptyClass {}).parseUnit.1.root.descendants, node.Stable) ∧
      ∃ node ∈ (Session.start emptyClass {}).parseUnit.1.root.descendants,
        node.kind = .normalClassDeclaration ∧ node.children.count .absent = 4) ∧
    (Session.start plainCreation {}).parseExpression.1.errors = [] ∧
      (∀ node ∈ (Session.start plainCreation {}).parseExpression.1.root.descendants,
        node.Stable) ∧
      ∃ node ∈ (Session.start plainCreation {}).parseExpression.1.root.descendants,
        node.kind = .classInstanceCreationExpression ∧ node.children.count .absent = 4 := by
  have unit : (Session.start emptyClass {}).parseUnit.1.errors = [] := by decide
  have expression : (Session.start plainCreation {}).parseExpression.1.errors = [] := by
    decide +kernel
  refine ⟨⟨unit, (stable_of_clean emptyClass {}).1 unit, ?_⟩,
    expression, (stable_of_clean plainCreation {}).2 expression, ?_⟩
  · rw [Node.descendants_eq_nodes]
    decide
  · rw [Node.descendants_eq_nodes]
    decide +kernel

end JavaSyntax
