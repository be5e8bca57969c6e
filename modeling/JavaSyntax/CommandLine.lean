import JavaSyntax.Source
import JavaSyntax.Tree.Text

/-!
# The command line

What the arguments ask for, and what the program answers, as pure functions.
There are two commands: `parse` prints the tree of a file and `tokens` lists
its tokens. Errors go to a channel of their own.
-/

namespace JavaSyntax

/-- What the arguments ask for. -/
inductive Command where
  | version
  | parse (path : String) (config : Config) (quiet : Bool)
  | tokens (path : String)
  deriving DecidableEq, Repr, Inhabited

namespace Command

/-- Numbers on the command line are below 2^64. -/
def numberBound : Nat := 18446744073709551616

/-- A decimal number below the bound; a plus sign may stand before it. -/
def number? (text : String) : Option Nat :=
  let digits := match text.toList with
    | '+' :: rest => rest
    | characters => characters
  if digits.isEmpty || !digits.all Char.isDigit then none
  else
    let value := digits.foldl (fun value digit => value * 10 + (digit.toNat - '0'.toNat)) 0
    if value < numberBound then some value else none

/-- The options of `parse` as far as they are read. -/
structure Options where
  path : Option String := none
  strict : Bool := false
  maxDepth : Option Nat := none
  quiet : Bool := false

namespace Options

/-- Take a path. There is only one, and it is not empty. -/
def withPath? (options : Options) (path : String) : Option Options :=
  if options.path.isSome || path.isEmpty then none else some { options with path := some path }

/-- Take the nesting limit, which may be given once. -/
def withMaxDepth? (options : Options) (value : String) : Option Options :=
  if options.maxDepth.isSome then none
  else (number? value).map fun depth => { options with maxDepth := some depth }

/-- Whether an argument is an option rather than a path. -/
def isOption (argument : String) : Bool :=
  argument.startsWith "-" && argument != "-"

/-- Read the arguments after `--`, which are all paths. -/
def readPaths? (options : Options) (arguments : List String) : Option Options :=
  arguments.foldlM withPath? options

/-- Read arguments in any order. Each option may be given once. -/
def read? (options : Options) : List String → Option Options
  | [] => some options
  | "--" :: rest => options.readPaths? rest
  | "--strict" :: rest =>
      if options.strict then none else read? { options with strict := true } rest
  | "--quiet" :: rest => if options.quiet then none else read? { options with quiet := true } rest
  | "-q" :: rest => if options.quiet then none else read? { options with quiet := true } rest
  | "--max-depth" :: value :: rest =>
      if isOption value then none else do read? (← options.withMaxDepth? value) rest
  | argument :: rest => do
      if argument.startsWith "--max-depth=" then
        read? (← options.withMaxDepth? (argument.drop "--max-depth=".length).toString) rest
      else if isOption argument then none
      else read? (← options.withPath? argument) rest

end Options

/-- Read the arguments of `tokens`: one path. -/
def readTokens? : List String → Option Command
  | ["--", path] => if path.isEmpty then none else some (.tokens path)
  | [path, "--"] | [path] =>
      if Options.isOption path || path.isEmpty then none else some (.tokens path)
  | _ => none

/-- The command that the arguments ask for; nothing when they make no sense. -/
def ofArguments? : List String → Option Command
  | "--version" :: _ | "-V" :: _ => some .version
  | "parse" :: rest => do
      let options ← Options.read? {} rest
      let path ← options.path
      let config : Config := { recovery := !options.strict }
      some (.parse path { config with maxDepth := options.maxDepth.getD config.maxDepth }
        options.quiet)
  | "tokens" :: rest => readTokens? rest
  | _ => none

end Command

/-- What a run of the program leaves behind: its exit status, its output, and the
messages about errors. -/
structure Outcome where
  status : Nat
  output : String
  messages : List String
  deriving DecidableEq, Repr, Inhabited

namespace Outcome

/-- A run without errors. -/
def success (output : String) : Outcome :=
  ⟨0, output, []⟩

/-- A run that cannot read its input. -/
def failure (message : String) : Outcome :=
  ⟨1, "", [message]⟩

/-- A run whose arguments make no sense. -/
def misuse : Outcome :=
  ⟨2, "", ["usage: jcst parse [--strict] [--max-depth N] [--quiet] FILE | jcst tokens FILE"]⟩

/-- Text filled up with spaces on the left to a width. -/
def padLeft (width : Nat) (text : String) : String :=
  String.ofList (List.replicate (width - text.length) ' ') ++ text

/-- Text filled up with spaces on the right to a width. -/
def padRight (width : Nat) (text : String) : String :=
  text ++ String.ofList (List.replicate (width - text.length) ' ')

/-- One line of the token listing: the offset, the kind and the text. -/
def tokenLine (token : Token) : String :=
  padLeft 6 token.start.repr ++ " " ++ padRight 22 token.kind.name ++ " " ++ token.text ++ "\n"

/-- List the tokens of a source text. -/
def ofTokens (source : String) : Outcome :=
  match Token.lex source with
  | .ok tokens => success (String.join (tokens.map tokenLine))
  | .error error => failure error.message

/-- Print the tree of a source text unless `quiet`, and report its errors. -/
def ofParse (source : String) (config : Config) (quiet : Bool) : Outcome :=
  match parseUnit source config with
  | .error error => failure error.message
  | .ok parse =>
      { status := if parse.isClean then 0 else 1
        output := if quiet then "" else parse.root.dump ++ "\n"
        messages := parse.errors.map (·.message) }

/-- Apply a function to the text of a file, if there is one and it is UTF-8. -/
def withSource (contents : Option ByteArray) (use : String → Outcome) : Outcome :=
  match contents with
  | none => failure "the file cannot be read"
  | some bytes =>
      match String.fromUTF8? bytes with
      | some source => use source
      | none => failure "the file is not valid UTF-8"

end Outcome

namespace Command

/-- The file a command reads. -/
def path? : Command → Option String
  | .version => none
  | .parse path _ _ | .tokens path => some path

/-- Carry out a command, given the contents of the file it reads. -/
def run (contents : Option ByteArray) : Command → Outcome
  | .version => .success "jcst 0.1.0\n"
  | .parse _ config quiet => .withSource contents (.ofParse · config quiet)
  | .tokens _ => .withSource contents .ofTokens

end Command

end JavaSyntax
