import JavaSyntax.Grammar.Run
import JavaSyntax.Language.Expressions
import JavaSyntax.Language.Statements

/-!
# The grammar of Java 8

The phrase of each rule. Together they are a grammar of whole source files: what a
file holds is read by phrases that call these rules.
-/

namespace JavaSyntax

/-- What each rule reads. -/
def Language.grammar : Rule → Phrase
  | .typeRest => typeRest
  | .typeArguments diamond => typeArguments diamond
  | .expression => expression
  | .conditional => conditional
  | .lambda => lambda
  | .elementValue => elementValue
  | .block => block
  | .statement => statement
  | .switchBlock => switchBlock
  | .memberBody kind => memberBody kind
  | .constructorBody => constructorBody
  | .enumBody => enumBody
  | .arrayInitializer => arrayInitializer

/-- Read a phrase of the language with the whole nesting limit left. -/
def Language.read (phrase : Phrase) (context : Context) : Step :=
  phrase.run (readRule grammar context.limit) context

end JavaSyntax
