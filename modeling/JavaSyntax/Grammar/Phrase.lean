import JavaSyntax.Diagnostic.Syntactic
import JavaSyntax.Token.Set
import JavaSyntax.Tree.Kind

/-!
# Phrases

A grammar is written as data. A `Phrase` says how the tokens at the cursor are
read into slots of the node under construction, and a `Condition` says how the
next alternative is told apart: by looking a few tokens ahead, by the slots
read so far, or by a trial reading.

The slots that belong to one node form a frame. Reading appends to the frame,
`frame` opens a new one inside it, and `close` turns all of a frame into one
node. Since a phrase can neither drop nor copy a token, every tree built from
phrases holds exactly the tokens that were read.

Phrases refer to one another's recursion only by the name of a `Rule`, and
every such call opens one nesting level.
-/

namespace JavaSyntax

/-- The three kinds of body that hold a member list. -/
inductive BodyKind where
  | classBody
  | interfaceBody
  | annotationBody
  deriving DecidableEq, Repr, Inhabited

/-- The rules of the grammar that may contain one another. -/
inductive Rule where
  | typeRest
  | typeArguments (diamond : Bool)
  | expression
  | conditional
  | lambda
  | elementValue
  | block
  | statement
  | switchBlock
  | memberBody (kind : BodyKind)
  | constructorBody
  | enumBody
  | arrayInitializer
  deriving DecidableEq, Repr, Inhabited

/-- Properties of the slots in the current frame that decide how to go on. -/
inductive Shape where
  /-- The frame has no slots. -/
  | empty
  /-- The last slot is absent. -/
  | endsAbsent
  /-- The last slot is a switch label. -/
  | endsInLabel
  /-- The last slot is a name, or field accesses on one. -/
  | endsInName
  /-- The last slot is a parenthesized expression. -/
  | endsInParentheses
  /-- The last slot is a closing parenthesis. -/
  | endsInClosing
  /-- The frame is a primitive type in parentheses. -/
  | primitiveInParentheses
  /-- The second slot is a class type without arguments and annotations. -/
  | plainName
  /-- The last identifier of the second slot starts with an uppercase character. -/
  | capitalizedName
  deriving DecidableEq, Repr, Inhabited

/-- What the slots of the current frame have to satisfy for the text to be legal. -/
inductive Requirement where
  /-- The last slot is an expression that may stand as a statement. -/
  | statementExpression
  /-- One of the last two slots, the handlers of a `try`, is there. -/
  | handler
  deriving DecidableEq, Repr, Inhabited

mutual

/-- How the tokens at the cursor are read. -/
inductive Phrase where
  /-- Read nothing. -/
  | nothing
  /-- Append an absent slot. -/
  | absent
  /-- Put an absent slot before the other slots of the frame. -/
  | absentFirst
  /-- Remove the last slot if it is absent. -/
  | dropAbsent
  /-- Read the current token, unless it is an end mark. -/
  | take
  /-- Read a token of a kind, recovering when it is not there. -/
  | expect (kind : TokenKind)
  /-- Report that the current token starts no alternative of a construct. -/
  | noViable (construct : Construct)
  /-- Report an error when the frame does not satisfy a requirement. -/
  | require (requirement : Requirement)
  /-- Follow a rule, one nesting level deeper. -/
  | call (rule : Rule)
  /-- Read one phrase, then another. -/
  | seq (first second : Phrase)
  /-- Read one of two phrases. -/
  | choose (condition : Condition) (yes no : Phrase)
  /-- Read in a new frame that starts with the last `lead` slots of this one. -/
  | frame (lead : Nat) (body : Phrase)
  /-- Turn all slots of the frame into one node. -/
  | close (kind : NodeKind)
  /-- Read a phrase again and again, as long as it reads tokens. -/
  | many (body : Phrase)
  /-- Read a phrase and, if it read any token, another. -/
  | whenAdvanced (body next : Phrase)
  /-- Read a phrase; if it read no token, the current one is put away as an error. -/
  | progress (body : Phrase)
  /-- Try a phrase; if it fits and leads to `accept`, keep it and go on with `yes`,
  otherwise read `no` in its place. -/
  | attempt (trial : Phrase) (accept : Condition) (yes no : Phrase)
  /-- Read operands joined by binary operators; `type` is the right side of a type
  test. -/
  | operators (operand type : Phrase)
  /-- Read prefixes, each a `link`, as long as there are any, and then `last`; every
  prefix becomes a node around what follows it. -/
  | prefixed (link last : Phrase)
  /-- Read a `link`; while `more` holds, the current token joins it to another
  `link` inside it; the innermost one ends with `last`. -/
  | chain (kind : NodeKind) (link : Phrase) (more : Condition) (last : Phrase)

/-- How alternatives are told apart. -/
inductive Condition where
  /-- The token `distance` places ahead is of one of the kinds. -/
  | next (distance : Nat) (kinds : TokenSet)
  /-- The frame has a shape. -/
  | shape (shape : Shape)
  | not (condition : Condition)
  | and (left right : Condition)
  | or (left right : Condition)
  /-- A trial reading fits, and leads to a place where `afterwards` holds. -/
  | ahead (trial : Phrase) (afterwards : Condition)

end

instance : Inhabited Phrase := ⟨.nothing⟩

instance : Append Phrase := ⟨.seq⟩

instance : AndOp Condition := ⟨.and⟩

instance : OrOp Condition := ⟨.or⟩

namespace Condition

/-- The current token is of a kind. -/
def is (kind : TokenKind) : Condition :=
  .next 0 (.singleton kind)

/-- The current token is of one of the listed kinds. -/
def isOneOf (kinds : List TokenKind) : Condition :=
  .next 0 (.ofList kinds)

/-- The token `distance` places ahead is of a kind. -/
def nextIs (distance : Nat) (kind : TokenKind) : Condition :=
  .next distance (.singleton kind)

/-- The token `distance` places ahead is of one of the listed kinds. -/
def nextIsOneOf (distance : Nat) (kinds : List TokenKind) : Condition :=
  .next distance (.ofList kinds)

end Condition

namespace Phrase

/-- Read a phrase only if a condition holds. -/
def onlyIf (condition : Condition) (body : Phrase) : Phrase :=
  .choose condition body .nothing

/-- A slot that is absent unless a condition holds. -/
def optional (condition : Condition) (body : Phrase) : Phrase :=
  .choose condition body .absent

/-- Read a phrase while a condition holds. -/
def repeatWhile (condition : Condition) (body : Phrase) : Phrase :=
  .many (onlyIf condition body)

/-- A node of its own. -/
def node (kind : NodeKind) (body : Phrase) : Phrase :=
  .frame 0 (body ++ .close kind)

/-- A node around the last `lead` slots and what follows them. -/
def around (lead : Nat) (kind : NodeKind) (body : Phrase) : Phrase :=
  .frame lead (body ++ .close kind)

/-- A node of repeated parts, or an absent slot when there are none. -/
def gather (kind : NodeKind) (parts : Phrase) : Phrase :=
  .frame 0 (.many parts ++ .choose (.shape .empty) .absent (.close kind))

/-- Items with a separator between them, at least one. -/
def separated (separator : TokenKind) (item : Phrase) : Phrase :=
  item ++ .repeatWhile (.is separator) (.take ++ item)

/-- Report that the current token starts no alternative, after a leading slot that
belongs to none either. -/
def noViableAfter (construct : Construct) : Phrase :=
  .choose (.shape .endsAbsent) (.dropAbsent ++ .noViable construct)
    (around 1 .error (.noViable construct))

end Phrase

end JavaSyntax
