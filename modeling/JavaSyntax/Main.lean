import JavaSyntax.CommandLine

/-!
# The program

Reads the file that the arguments name, carries out the command, and prints
what it leaves behind.
-/

open JavaSyntax

/-- The contents of a file, if it can be read. -/
def readContents (path : String) : IO (Option ByteArray) := do
  try return some (← IO.FS.readBinFile path)
  catch _ => return none

/-- Print an outcome and return its status. -/
def emit (outcome : Outcome) : IO UInt32 := do
  IO.print outcome.output
  for message in outcome.messages do
    IO.eprintln message
  return outcome.status.toUInt32

/-- The entry point. -/
def main (arguments : List String) : IO UInt32 := do
  match Command.ofArguments? arguments with
  | none => emit .misuse
  | some command =>
      let contents ← match command.path? with
        | some path => readContents path
        | none => pure none
      emit (command.run contents)
