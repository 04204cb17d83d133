import MiniPascal.Token

/-!
# Diagnostics

What the stages in front of execution report: errors and warnings, each with its place.
-/

namespace MiniPascal

inductive Level where
  | error
  | warning
deriving DecidableEq, Repr

namespace Level

def title : Level → String
  | .error => "error"
  | .warning => "warning"

end Level

structure Diagnostic where
  message : String
  level : Level
  span : Span
  file : String
deriving DecidableEq, Repr

namespace Diagnostic

/-- An error that covers a token. -/
def errorAt (token : Token) (message : String) : Diagnostic where
  message
  level := .error
  span := token.span
  file := token.file

def isError (diagnostic : Diagnostic) : Bool :=
  diagnostic.level = .error

def anyError (diagnostics : List Diagnostic) : Bool :=
  diagnostics.any isError

@[simp] theorem anyError_nil : anyError [] = false := rfl

@[simp] theorem anyError_append (xs ys : List Diagnostic) :
    anyError (xs ++ ys) = (anyError xs || anyError ys) := by
  simp [anyError]

end Diagnostic

end MiniPascal
