import MiniPascal.Diagnostic
import MiniPascal.Parser.Fault
import MiniPascal.Text.Case

/-!
# The cursor

Parsing walks a cursor over the tokens of a text.  A parser either yields a result or stops, and
in both cases leaves the cursor where it got to.  Every parser that can run on takes fuel; running
out of it is kept apart from a fault in the text.
-/

namespace MiniPascal

/-- Why parsing stops. -/
inductive Stop where
  | fault (error : SyntaxError)
  | starved

/-- A place in a token sequence, with the reports and node numbers given out so far. -/
structure Cursor where
  /-- The token passed last. -/
  previous : Token
  /-- The tokens in front, without the one for the end of the text. -/
  ahead : List Token
  /-- The token for the end of the text. -/
  last : Token
  /-- The next free node number. -/
  nextId : NodeId
  diagnostics : List Diagnostic

namespace Cursor

/-- The cursor in front of the first token. -/
def start (tokens : List Token) (last : Token) (firstId : NodeId) : Cursor where
  previous := tokens.headD last
  ahead := tokens
  last
  nextId := firstId
  diagnostics := []

def peek (c : Cursor) : Token :=
  c.ahead.headD c.last

def atEnd (c : Cursor) : Bool :=
  c.ahead.isEmpty

/-- Passes one token; at the end the cursor stays. -/
def advance (c : Cursor) : Cursor :=
  match c.ahead with
  | [] => c
  | token :: rest => { c with previous := token, ahead := rest }

def report (c : Cursor) (diagnostic : Diagnostic) : Cursor :=
  { c with diagnostics := c.diagnostics ++ [diagnostic] }

/-- The words that start a statement after which a faulty one is given up. -/
def startsStatement (token : Token) : Bool :=
  match token.keyword? with
  | some word =>
      word ∈ [.class, .for, .function, .if, .print, .exit, .var, .while]
  | none => false

/-- Skips tokens until a semicolon was passed or a statement starts. -/
def skipToBoundary (previous : Token) : List Token → Token × List Token
  | [] => (previous, [])
  | token :: rest =>
      if previous.symbol? = some .semicolon || startsStatement token then
        (previous, token :: rest)
      else skipToBoundary token rest

/-- Gives up a faulty statement: passes a token, then skips to the next boundary. -/
def synchronize (c : Cursor) : Cursor :=
  let next := c.advance
  let (previous, ahead) := skipToBoundary next.previous next.ahead
  { next with previous, ahead }

end Cursor

/-- A parser of values of type `α`. -/
abbrev Parse := EStateM Stop Cursor

namespace Parse

/-- Stops for lack of fuel. -/
def starve : Parse α :=
  throw .starved

def peek : Parse Token := do
  return (← get).peek

/-- The token passed last. -/
def previous : Parse Token := do
  return (← get).previous

def atEnd : Parse Bool := do
  return (← get).atEnd

def advance : Parse Token := do
  modify Cursor.advance
  previous

def failAt (token : Token) (fault : SyntaxFault) : Parse α :=
  throw (.fault { token, fault })

def fail (fault : SyntaxFault) : Parse α := do
  failAt (← peek) fault

def freshId : Parse NodeId :=
  modifyGet fun c => (c.nextId, { c with nextId := c.nextId + 1 })

def report (diagnostic : Diagnostic) : Parse Unit :=
  modify (·.report diagnostic)

def atSymbol (mark : Symbol) : Parse Bool := do
  return (← peek).symbol? = some mark

def atKeyword (word : Keyword) : Parse Bool := do
  return (← peek).keyword? = some word

def atName : Parse Bool := do
  return (← peek).isIdentifier

/-- Passes a symbol if it is in front. -/
def acceptSymbol (mark : Symbol) : Parse Bool := do
  if ← atSymbol mark then
    discard advance
    return true
  else
    return false

def acceptKeyword (word : Keyword) : Parse Bool := do
  if ← atKeyword word then
    discard advance
    return true
  else
    return false

/-- Passes a symbol that has to be in front. -/
def expectSymbol (mark : Symbol) (fault : SyntaxFault) : Parse Token := do
  if ← atSymbol mark then advance else fail fault

def expectKeyword (word : Keyword) (fault : SyntaxFault) : Parse Token := do
  if ← atKeyword word then advance else fail fault

def expectName (fault : SyntaxFault) : Parse Token := do
  if ← atName then advance else fail fault

/-- Items as long as another one follows. -/
def separated (item : Parse α) (more : Parse Bool) : Nat → Parse (List α)
  | 0 => starve
  | fuel + 1 => do
      let head ← item
      if ← more then
        let tail ← separated item more fuel
        return head :: tail
      else
        return [head]

/-- Items as long as one is in front, possibly none. -/
def collect (more : Parse Bool) (item : Parse α) : Nat → Parse (List α)
  | 0 => starve
  | fuel + 1 => do
      if ← more then
        let head ← item
        let tail ← collect more item fuel
        return head :: tail
      else
        return []

end Parse

end MiniPascal
