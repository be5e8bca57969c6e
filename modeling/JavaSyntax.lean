import JavaSyntax.Span
import JavaSyntax.Token.Basic
import JavaSyntax.Token.Set
import JavaSyntax.Tree.Kind
import JavaSyntax.Text.Letter
import JavaSyntax.Text.Digit
import JavaSyntax.Text.Uppercase
import JavaSyntax.Token.Lexing
import JavaSyntax.Tree.Text
import JavaSyntax.Grammar.Phrase
import JavaSyntax.Grammar.Run
import JavaSyntax.Language.Rules
import JavaSyntax.Source
import JavaSyntax.Main
import JavaSyntax.Tree.Measure
import JavaSyntax.Proofs.Lossless
import JavaSyntax.Proofs.FirstError
import JavaSyntax.Proofs.Tree.Nodes
import JavaSyntax.Proofs.Outline.Basic
import JavaSyntax.Proofs.Outline.Clean
import JavaSyntax.Proofs.Precedence
import JavaSyntax.Proofs.NestingLimit
import JavaSyntax.Proofs.Reading.Appending
import JavaSyntax.Proofs.Idle.Loops
import JavaSyntax.Proofs.Fuel.Enough
import JavaSyntax.Proofs.Termination
import JavaSyntax.Proofs.Idle.Stays
import JavaSyntax.Proofs.Tree.Damage
import JavaSyntax.Proofs.Tree.Sketch
import JavaSyntax.Proofs.Tandem.Sound
import JavaSyntax.Proofs.Tandem.Like
import JavaSyntax.Proofs.Tandem.Steps
import JavaSyntax.Proofs.Tandem.Loops
import JavaSyntax.Proofs.Tandem.Framed
import JavaSyntax.Proofs.Layout
import JavaSyntax.Proofs.Damage
import JavaSyntax.Proofs.Printing.FailingTrials
import JavaSyntax.Proofs.Printing.Lexing
import JavaSyntax.Proofs.Printing.Operands
import JavaSyntax.Proofs.Printing.Operators
import JavaSyntax.Proofs.Printing.RoundTrip
import JavaSyntax.Proofs.Stretches
import JavaSyntax.Proofs.Spans
import JavaSyntax.Proofs.StableSlots
import JavaSyntax.Proofs.Brackets
import JavaSyntax.Proofs.Lexing.Composition
import JavaSyntax.Proofs.Lexing.Tiling
import JavaSyntax.Proofs.Lexing.Relexing
import JavaSyntax.Proofs.Locality.Confine
import JavaSyntax.Proofs.Locality.Grammar
import JavaSyntax.Proofs.Locality.SharedPrefix
import JavaSyntax.Proofs.Trials
import JavaSyntax.Proofs.LargeLimit
import JavaSyntax.Proofs.Layers
import JavaSyntax.Proofs.Concatenation
import JavaSyntax.Proofs.DanglingElse
import JavaSyntax.Proofs.ErrorOrder
import JavaSyntax.Proofs.Reading.Assembled
import JavaSyntax.Proofs.BracketDepth
import JavaSyntax.Proofs.Parentheses
import JavaSyntax.Proofs.Tree.Events
import JavaSyntax.Proofs.MissingTokens
import JavaSyntax.Proofs.SuffixChains
import JavaSyntax.Proofs.Traversals
import JavaSyntax.Proofs.Lexing.FirstFault
import JavaSyntax.Proofs.Lexing.NumberLiterals
import JavaSyntax.Proofs.Lexing.Underscores
