import Wordbook.CommandLine.Run

/-!
# The program

Runs a command line in the world it is started in.
-/

namespace Wordbook

open CommandLine

/-- The files and the input of the running program. -/
def worldHost : Host IO where
  read path := do
    try return some (← IO.FS.readFile path)
    catch _ => return none
  write path text := do
    try
      IO.FS.writeFile path text
      return true
    catch _ => return false
  input := do (← IO.getStdin).readToEnd

/-- An environment variable is set to anything but zero. -/
def isOn (value : Option String) : Bool := value.any (· != "0")

/-- The output is coloured: because the environment wants it, or because a terminal shows it and the
environment does not mind. -/
def wantsColour : IO Bool := do
  if isOn (← IO.getEnv "CLICOLOR_FORCE") then return true
  else if (← IO.getEnv "NO_COLOR").isSome then return false
  else if (← IO.getEnv "CLICOLOR") == some "0" then return false
  else (← IO.getStdout).isTty

end Wordbook

open Wordbook CommandLine

/-- Runs the program. -/
def main (args : List String) : IO UInt32 := do
  let outcome ← run worldHost (← wantsColour) (← IO.getEnv "CMDDICT_CONFIG") args
  IO.print outcome.output
  match outcome.failure with
  | some failure => IO.eprintln ("Error: " ++ failure.message)
  | none => if outcome.status == 2 then IO.eprint usage
  return outcome.status.toUInt32
