import PlusMinus.CommandLine.Prompt

/-! The calculator as a program: arguments and lines in, results and warnings out. -/

namespace PlusMinus.CommandLine

/-- How the program is called. -/
def usage : String := "usage: plusminus [-h] [--actual] [--steps] [expression ...]"

/-- Writes a text at once, and the warnings to the error stream. -/
def display (shown : Shown) : IO Unit := do
  for warning in shown.warnings do
    IO.eprintln warning.message
  let stdout ← IO.getStdout
  stdout.putStr shown.text
  stdout.flush

/-- The next line of the standard input; at its end there is none. -/
def readLine : IO (Option String) := do
  let line ← (← IO.getStdin).getLine
  pure (if line.isEmpty then none else some line)

/-- The lines that a prompt takes at most, which no user gets to. -/
def turnLimit : Nat := twoTo 63

end PlusMinus.CommandLine

open PlusMinus CommandLine in
/-- Calculates with the words of the command line, or starts the prompt when there are none. -/
def main (arguments : List String) : IO UInt32 := do
  let request := Request.ofArguments arguments
  match request with
  | .usage => IO.eprintln usage
  | .help => IO.println usage
  | .run _ => pure ()
  let code ← perform readLine display {} turnLimit request
  pure code.toUInt32
