/-!
# What a command writes

The two streams that a command writes to, and the transcript of a finished command.
-/

namespace MiniPascal

/-- What has been written so far. -/
structure Screen where
  stdout : String := ""
  stderr : String := ""

namespace Screen

def out (screen : Screen) (text : String) : Screen :=
  { screen with stdout := screen.stdout ++ text }

def err (screen : Screen) (text : String) : Screen :=
  { screen with stderr := screen.stderr ++ text }

end Screen

structure Transcript where
  code : Nat
  screen : Screen

namespace Transcript

/-- The exit code of a command that could not do its work. -/
def failureCode : Nat := 1

/-- The exit code after wrong arguments. -/
def usageCode : Nat := 2

/-- The exit code after a program that does not compile. -/
def compileErrorCode : Nat := 65

/-- The exit code after a program that fails. -/
def runtimeErrorCode : Nat := 70

/-- A command that gives up with a message. -/
def failure (screen : Screen) (message : String) : Transcript where
  code := failureCode
  screen := screen.err ("error: " ++ message ++ "\n")

end Transcript

end MiniPascal
