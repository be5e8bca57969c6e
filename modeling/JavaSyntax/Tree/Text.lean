import JavaSyntax.Tree.Walk

/-!
# Trees as text

Two plain renderings of a tree: the texts of its tokens, and a compact
parenthesised form that also shows the nodes.
-/

namespace JavaSyntax.Node

/-- Append a word, with a space before it unless it is the first. -/
def appendWord (text word : String) : String :=
  if text.isEmpty then text ++ word else text ++ " " ++ word

/-- The texts of all tokens but end marks, with single spaces between them. -/
def text (node : Node) : String :=
  (node.tokens.filter (·.kind != .eof)).foldl (fun text token => appendWord text token.text) ""

/-- What one event adds to the parenthesised form. -/
def dumpEvent (text : String) : Event → String
  | .enter node => appendWord text ("(" ++ node.kind.name)
  | .exit _ => text ++ ")"
  | .token token => if token.kind = .eof then text else appendWord text token.text
  | .missing expected _ => appendWord text ("<missing " ++ expected.describe ++ ">")

/-- A tree as `(Kind slot slot ...)`: tokens are their text, missing tokens are
`<missing x>`, and absent slots and end marks are left out. -/
def dump (node : Node) : String :=
  node.events.foldl dumpEvent ""

end JavaSyntax.Node
