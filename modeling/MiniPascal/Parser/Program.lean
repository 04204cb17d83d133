import MiniPascal.Parser.Statement
import MiniPascal.Token.Lexer

/-!
# Parsing programs

A program is a sequence of declarations up to the end of the text.  Every step of the parser
passes a token, so one more unit of fuel than there are tokens always suffices.
-/

namespace MiniPascal

/-- The outcome of parsing: the statements or the fault that ended it, the reports, and the next
free node number. -/
structure Parsed (α : Type) where
  result : Except Stop α
  diagnostics : List Diagnostic
  nextId : NodeId

namespace Parse

/-- All declarations of a text. -/
def program (mode : Recovery) (fuel : Nat) : Parse (List Stmt) := do
  let more : Parse Bool := do return !(← atEnd)
  let items ← collect more (declarationItem ((grammar mode fuel).declaration false)) fuel
  return items.flatten

/-- Runs a parser on the tokens of a scan, with fuel for all of them. -/
def run (parser : Nat → Parse α) (firstId : NodeId) (scan : Scan) : Parsed α :=
  match parser (scan.tokens.length + 1) (.start scan.tokens scan.last firstId) with
  | .ok value c => { result := .ok value, diagnostics := c.diagnostics, nextId := c.nextId }
  | .error stop c => { result := .error stop, diagnostics := c.diagnostics, nextId := c.nextId }

end Parse

/-- Parses the tokens of a scan as a program. -/
def parseProgram (mode : Recovery) (firstId : NodeId) (scan : Scan) : Parsed (List Stmt) :=
  Parse.run (Parse.program mode) firstId scan

/-- Parses the expression at the start of a scan; what follows it is left. -/
def parseExpression (scan : Scan) : Parsed Expr :=
  Parse.run Parse.expression 0 scan

end MiniPascal
