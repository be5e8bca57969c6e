import JavaSyntax.Grammar.Nesting
import JavaSyntax.Grammar.Shape
import JavaSyntax.Proofs.Tree.Damage
import JavaSyntax.Proofs.Tree.Yield

/-!
# Trees without texts and places

A sketch of a tree keeps the kinds of its nodes and tokens, and of each name only
whether it is capitalized.  That is all of a slot that a reading ever asks about,
so two frames with the same sketch have the same shapes.
-/

namespace JavaSyntax

namespace Token

/-- Whether a token is a name that starts with an uppercase character. -/
def isCapitalName (token : Token) : Bool :=
  token.kind == .identifier && token.text.toList.head?.any Text.isUppercase

/-- A token of which only the kind is kept. -/
def bare (token : Token) : Token :=
  ⟨token.kind, "", .point 0⟩

/-- A token of which the kind is kept, and whether it is a capitalized name. -/
def sketch (token : Token) : Token :=
  ⟨token.kind, if token.isCapitalName then "A" else "", .point 0⟩

@[simp] theorem kind_sketch (token : Token) : token.sketch.kind = token.kind := rfl

@[simp] theorem bare_sketch (token : Token) : token.sketch.bare = token.bare := rfl

theorem isUppercase_sketch {token : Token} (named : token.kind = .identifier) :
    token.sketch.text.toList.head?.any Text.isUppercase =
      token.text.toList.head?.any Text.isUppercase := by
  simp only [sketch, isCapitalName, named]
  cases token.text.toList.head?.any Text.isUppercase with
  | true => decide
  | false => decide

/-- Tokens of the same kind have the same sketch, if names agree on capitals. -/
theorem sketch_eq {left right : Token} (kinds : left.kind = right.kind)
    (names : left.kind = .identifier → (left.text.toList.head?.any Text.isUppercase =
      right.text.toList.head?.any Text.isUppercase)) : left.sketch = right.sketch := by
  have capital : left.isCapitalName = right.isCapitalName := by
    unfold isCapitalName
    rw [← kinds]
    by_cases named : left.kind = .identifier
    · rw [names named]
    · rw [beq_eq_false_iff_ne.mpr named]
      rfl
  simp only [sketch, kinds, capital]

end Token

namespace Element

mutual

/-- A slot with other tokens and without places. -/
def redraw (draw : Token → Token) : Element → Element
  | .node kind _ children => .node kind (.point 0) (redrawAll draw children)
  | .token found => .token (draw found)
  | .missing expected _ => .missing expected (.point 0)
  | .absent => .absent

/-- Some slots with other tokens and without places. -/
def redrawAll (draw : Token → Token) : List Element → List Element
  | [] => []
  | first :: rest => redraw draw first :: redrawAll draw rest

end

theorem redrawAll_eq_map (draw : Token → Token) (slots : List Element) :
    redrawAll draw slots = slots.map (redraw draw) := by
  induction slots with
  | nil => simp [redrawAll]
  | cons first rest ih => simp [redrawAll, ih]

@[simp] theorem redraw_node (draw : Token → Token) (kind : NodeKind) (span : Span)
    (children : List Element) :
    (node kind span children).redraw draw =
      node kind (.point 0) (children.map (redraw draw)) := by
  rw [redraw, redrawAll_eq_map]

@[simp] theorem redraw_token (draw : Token → Token) (found : Token) :
    (token found).redraw draw = token (draw found) := by
  rw [redraw]

@[simp] theorem redraw_missing (draw : Token → Token) (expected : TokenKind) (span : Span) :
    (missing expected span).redraw draw = missing expected (.point 0) := by
  rw [redraw]

@[simp] theorem redraw_absent (draw : Token → Token) : absent.redraw draw = absent := by
  rw [redraw]

variable (draw : Token → Token)

@[simp] theorem isAbsent_redraw (slot : Element) :
    (slot.redraw draw).isAbsent = slot.isAbsent := by
  cases slot <;> simp [isAbsent]

@[simp] theorem nodeKind?_redraw (slot : Element) :
    (slot.redraw draw).nodeKind? = slot.nodeKind? := by
  cases slot <;> simp [nodeKind?, node?]

mutual

@[simp] theorem isDamaged_redraw : (slot : Element) →
    (slot.redraw draw).isDamaged = slot.isDamaged
  | .node kind span children => by
      rw [redraw, isDamaged_node, isDamaged_node, anyDamaged_redraw children]
  | .token _ => by simp
  | .missing _ _ => by simp
  | .absent => by simp

theorem anyDamaged_redraw : (slots : List Element) →
    anyDamaged (redrawAll draw slots) = anyDamaged slots
  | [] => by simp [redrawAll]
  | first :: rest => by
      rw [redrawAll, anyDamaged_cons, anyDamaged_cons, isDamaged_redraw first,
        anyDamaged_redraw rest]

end

mutual

theorem yield_redraw : (slot : Element) → (slot.redraw draw).yield = slot.yield.map draw
  | .node kind span children => by
      rw [redraw, yield_node, yield_node, yieldAll_redraw children]
  | .token _ => by simp
  | .missing _ _ => by simp
  | .absent => by simp

theorem yieldAll_redraw : (slots : List Element) →
    yieldAll (redrawAll draw slots) = (yieldAll slots).map draw
  | [] => by simp [redrawAll]
  | first :: rest => by
      rw [redrawAll, yieldAll_cons, yieldAll_cons, yield_redraw first, yieldAll_redraw rest,
        List.map_append]

end

mutual

theorem redraw_redraw (draw again : Token → Token) : (slot : Element) →
    (slot.redraw draw).redraw again = slot.redraw (again ∘ draw)
  | .node kind span children => by
      rw [redraw, redraw, redraw, redrawAll_redrawAll draw again children]
  | .token _ => by simp
  | .missing _ _ => by simp
  | .absent => by simp

theorem redrawAll_redrawAll (draw again : Token → Token) : (slots : List Element) →
    redrawAll again (redrawAll draw slots) = redrawAll (again ∘ draw) slots
  | [] => by simp [redrawAll]
  | first :: rest => by
      rw [redrawAll, redrawAll, redrawAll, redraw_redraw draw again first,
        redrawAll_redrawAll draw again rest]

end

mutual

theorem kinds_nodes_redraw : (slot : Element) →
    (slot.redraw draw).nodes.map Node.kind = slot.nodes.map Node.kind
  | .node kind span children => by
      rw [redraw, nodes_node, nodes_node, List.map_cons, List.map_cons,
        kinds_nodesAll_redraw children]
  | .token _ => by simp
  | .missing _ _ => by simp
  | .absent => by simp

/-- The kinds of the nodes below are kept. -/
theorem kinds_nodesAll_redraw : (slots : List Element) →
    (nodesAll (redrawAll draw slots)).map Node.kind = (nodesAll slots).map Node.kind
  | [] => by simp [redrawAll]
  | first :: rest => by
      rw [redrawAll, nodesAll_cons, nodesAll_cons, List.map_append, List.map_append,
        kinds_nodes_redraw first, kinds_nodesAll_redraw rest]

end

/-- A slot of which the kinds are kept, and of each name whether it is capitalized. -/
def sketch (slot : Element) : Element :=
  slot.redraw Token.sketch

@[simp] theorem isAbsent_sketch (slot : Element) : slot.sketch.isAbsent = slot.isAbsent :=
  isAbsent_redraw _ slot

@[simp] theorem nodeKind?_sketch (slot : Element) : slot.sketch.nodeKind? = slot.nodeKind? :=
  nodeKind?_redraw _ slot

@[simp] theorem isDamaged_sketch (slot : Element) : slot.sketch.isDamaged = slot.isDamaged :=
  isDamaged_redraw _ slot

@[simp] theorem tokenKind?_sketch (slot : Element) :
    slot.sketch.tokenKind? = slot.tokenKind? := by
  cases slot <;> simp [sketch, tokenKind?, token?]

@[simp] theorem length_yield_sketch (slot : Element) :
    slot.sketch.yield.length = slot.yield.length := by
  rw [sketch, yield_redraw, List.length_map]

@[simp] theorem length_yieldAll_sketch (slots : List Element) :
    (yieldAll (slots.map sketch)).length = (yieldAll slots).length := by
  induction slots with
  | nil => rfl
  | cons first rest ih => simp [ih]

theorem isNameChain_sketch (slot : Element) : slot.sketch.isNameChain = slot.isNameChain := by
  fun_induction isNameChain slot with
  | case1 span children => simp [sketch, isNameChain]
  | case2 span inner first second ih => simpa [sketch, isNameChain] using ih
  | case3 slot notName notField =>
      cases slot with
      | token | missing | absent => simp [sketch, isNameChain]
      | node kind span children =>
          rw [sketch, redraw_node]
          unfold isNameChain
          split
          · rename_i same
            obtain ⟨rfl, -, -⟩ := Element.node.inj same
            exact absurd rfl (notName span children)
          · rename_i inner first second same
            obtain ⟨rfl, -, drawn⟩ := Element.node.inj same
            match children, drawn with
            | [one, two, three], _ => exact absurd rfl (notField span one two three)
          · rfl

/-- Whether all nodes pass a test on their kind can be told from the kinds. -/
theorem all_kinds (test : NodeKind → Bool) (nodes : List Node) :
    (nodes.all fun node => test node.kind) = (nodes.map Node.kind).all test := by
  rw [List.all_map]
  rfl

theorem isPlainName_sketch (slot : Element) : slot.sketch.isPlainName = slot.isPlainName := by
  cases slot with
  | node kind span children =>
      have kinds := kinds_nodesAll_redraw Token.sketch children
      simp only [sketch, redraw, isPlainName, node?, Option.any_some, Node.descendants_eq_nodes,
        List.all_cons]
      rw [all_kinds (fun kind => kind != .typeArguments && kind != .annotations),
        all_kinds (fun kind => kind != .typeArguments && kind != .annotations), kinds]
  | token | missing | absent => simp [sketch, isPlainName, node?]

theorem isCapitalized_sketch (slot : Element) :
    slot.sketch.isCapitalized = slot.isCapitalized := by
  cases slot with
  | node kind span children =>
      have tokens := yieldAll_redraw Token.sketch children
      simp only [sketch, redraw, isCapitalized, node?, Option.any_some, Node.tokens_eq_yieldAll,
        tokens, List.filter_map, List.getLast?_map]
      rw [show ((fun token : Token => token.kind == .identifier) ∘ Token.sketch) =
        fun token => token.kind == .identifier from rfl]
      cases last : ((yieldAll children).filter (·.kind == .identifier)).getLast? with
      | none => rfl
      | some name =>
          have named := (List.mem_filter.mp (List.mem_of_getLast? last)).2
          exact Token.isUppercase_sketch (beq_iff_eq.mp named)
  | token | missing | absent => simp [sketch, isCapitalized, node?]

theorem kind_head?_childNodes_redraw (children : List Element) :
    ((redrawAll draw children).filterMap node?).head?.map Node.kind =
      (children.filterMap node?).head?.map Node.kind := by
  induction children with
  | nil => simp [redrawAll]
  | cons first rest ih =>
      cases first with
      | node => rw [redrawAll, redraw]; rfl
      | token | missing | absent => rw [redrawAll, redraw]; exact ih

/-- Which node decides whether an expression is a statement can be told from the sketch. -/
theorem kind_outermost?_sketch (slot : Element) :
    slot.sketch.outermost?.map Node.kind = slot.outermost?.map Node.kind := by
  cases slot with
  | node kind span children =>
      have heads := kind_head?_childNodes_redraw Token.sketch children
      simp only [sketch, redraw, outermost?, node?, Option.bind_some]
      split
      · exact heads
      · rfl
  | token | missing | absent => simp [sketch, outermost?, node?]

theorem isStatementExpression_sketch (slot : Element) :
    slot.sketch.isStatementExpression = slot.isStatementExpression := by
  have kinds := kind_outermost?_sketch slot
  unfold isStatementExpression
  cases drawn : slot.sketch.outermost? <;> cases outermost : slot.outermost? <;>
    simp only [drawn, outermost, Option.map_some, Option.map_none, reduceCtorEq,
      Option.some.injEq] at kinds
  · rfl
  · simp only [Option.any_some, kinds]

/-- A test that can be made on the sketch of a slot. -/
theorem any_map_sketch {test : Element → Bool} (same : ∀ slot, test slot.sketch = test slot)
    (slot? : Option Element) : (slot?.map sketch).any test = slot?.any test := by
  cases slot? with
  | none => rfl
  | some slot => exact same slot

end Element

/-- The shape of a frame can be told from its sketch. -/
theorem Shape.holds_sketch (slots : List Element) (shape : Shape) :
    shape.holds (slots.map Element.sketch) = shape.holds slots := by
  have ends {test : Element → Bool} (same : ∀ slot, test slot.sketch = test slot) :
      (slots.map Element.sketch).head?.any test = slots.head?.any test := by
    rw [List.head?_map, Element.any_map_sketch same]
  have second {test : Element → Bool} (same : ∀ slot, test slot.sketch = test slot) :
      (slots.map Element.sketch).reverse[1]?.any test = slots.reverse[1]?.any test := by
    rw [← List.map_reverse, List.getElem?_map, Element.any_map_sketch same]
  cases shape with
  | empty => simp [Shape.holds]
  | endsAbsent => exact ends Element.isAbsent_sketch
  | endsInLabel | endsInParentheses => exact ends fun slot => by rw [Element.nodeKind?_sketch]
  | endsInName => exact ends Element.isNameChain_sketch
  | endsInClosing => exact ends fun slot => by rw [Element.tokenKind?_sketch]
  | primitiveInParentheses =>
      rw [Shape.holds, Shape.holds, List.length_map, second fun slot => by
        rw [Element.nodeKind?_sketch]]
  | plainName => exact second Element.isPlainName_sketch
  | capitalizedName => exact second Element.isCapitalized_sketch

theorem State.prefixKind_sketch (slots : List Element) :
    State.prefixKind (slots.map Element.sketch) = State.prefixKind slots := by
  cases slots <;> simp [State.prefixKind]

theorem State.isEmptyError_sketch (slot : Element) :
    State.isEmptyError slot.sketch = State.isEmptyError slot := by
  cases slot with
  | node kind span children =>
      cases children <;> simp [Element.sketch] <;> cases kind <;> rfl
  | token | missing | absent => simp [Element.sketch, State.isEmptyError]

end JavaSyntax
