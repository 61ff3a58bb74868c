import LiveMarkup.Command.Execute
/-! The program: executes a command and writes what comes of it. -/
namespace LiveMarkup.Command

def usage : String :=
  "Usage: zinc [OPTIONS] COMMAND [ARGS]...\n\nCommands:\n  dev\n  run\n  render\n"

def written : Outcome → String
  | .done output _ => output
  | .help | .version => usage

def perform (w : Workspace) (arguments : List String) : IO UInt32 := do
  match execute w {} arguments with
  | .ok outcome =>
    IO.print (written outcome)
    return 0
  | .error e =>
    IO.eprintln ("Error: " ++ e.message)
    return UInt32.ofNat (e.exitCode?.getD 1)

end LiveMarkup.Command

def main (arguments : List String) : IO UInt32 :=
  LiveMarkup.Command.perform {} arguments
