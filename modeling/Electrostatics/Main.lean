import Electrostatics.CommandLine.Run

/-!
# The program

Reads the arguments and the settings file they name, runs the request and writes its
output.  Warnings and failures go to the error stream.
-/

open Electrostatics.CommandLine

/-- The text of a file, absent when it cannot be read. -/
def readText? (path : String) : IO (Option String) := do
  try
    let text ← IO.FS.readFile path
    pure (some text)
  catch _ =>
    pure none

/-- Run the program on its arguments; usage errors end with code two and failures with one. -/
def main (arguments : List String) : IO UInt32 := do
  match Request.ofArguments arguments with
  | .error fault =>
      IO.eprintln ("error: " ++ fault.message)
      pure 2
  | .ok request =>
      let config ←
        match request.configPath? with
        | none => pure none
        | some path => readText? path
      match request.run config with
      | .error failure =>
          IO.eprintln failure.report
          pure 1
      | .ok outcome =>
          outcome.warnings.forM (fun warning => IO.eprintln ("warning: " ++ warning))
          IO.print outcome.output
          pure 0
