import MiniPascal.CommandLine.Input
import MiniPascal.CommandLine.Test

/-!
# Commands

A whole command as a function of its arguments, the files it can see and its input.
-/

namespace MiniPascal
namespace CommandLine

/-- How commands are called. -/
def usage : String :=
  "Usage: [run] [OPTIONS] [INPUT]\n" ++
  "       test [OPTIONS] [PATH]...\n" ++
  "\n" ++
  "Options of run:  --dump-tokens  --emit <ast|tokens-json>  --strict  --no-typecheck\n" ++
  "Options of test: --filter <FILTER>  --fail-fast\n" ++
  "Options of both: --diagnostics <text|json>  -v\n"

/-- What to do when the arguments do not start a command. -/
def stop : ArgStop → Transcript
  | .usage => { code := Transcript.usageCode, screen := Screen.err {} usage }
  | .help => { code := 0, screen := Screen.out {} usage }

def execute (args : List String) (files : FileTree) (input : List (Option String))
    (resources : Resources) : Transcript :=
  match Command.read args with
  | .error reason => stop reason
  | .ok (.test test) => runTests test files resources
  | .ok (.run run) =>
      match run.input with
      | some path => runFile run files resources path
      | none => runSession run files resources input

end CommandLine
end MiniPascal
