import MiniPascal.Machine.Exec

/-!
# Running programs and tests

A machine keeps its store and the distances of names from one program to the next, so that the
lines of a session build on each other.
-/

namespace MiniPascal

/-- A store with the distances of all names seen so far. -/
structure Machine where
  store : Store
  locals : Locals
  host : Host

structure TestOutcome where
  name : String
  span : Span
  /-- The message of a failed test. -/
  failure : Option String

namespace Machine

def start (host : Host) : Machine where
  store := .initial
  locals := ∅
  host

def addLocals (m : Machine) (locals : Locals) : Machine :=
  { m with locals := m.locals ∪ locals }

def global? (m : Machine) (name : String) : Option Value :=
  m.store.find? Store.globals name

/-- The machine without its output so far. -/
def clearOutput (m : Machine) : Machine :=
  { m with store := { m.store with output := "" } }

/-- The context of top-level code. -/
def context (m : Machine) : Context where
  locals := m.locals
  host := m.host
  env := Store.globals

/-- Runs top-level statements up to the first signal. -/
def interpret (m : Machine) (fuel : Nat) (statements : List Stmt) :
    Except Signal Unit × Machine :=
  match Exec.stmts (Exec.callFn m.context fuel) fuel m.context statements m.store with
  | .ok _ store => (.ok (), { m with store })
  | .error signal store => (.error signal, { m with store })

/-! ## Tests -/

/-- Whether one list of characters occurs in another. -/
def occursIn (needle : List Char) : List Char → Bool
  | [] => needle.isEmpty
  | c :: rest => needle.isPrefixOf (c :: rest) || occursIn needle rest

/-- Whether a declaration is a test that the filter lets through: without parameters, with a name
that starts with `test` and contains the filter, both in any letter case. -/
def isTest (filter : Option String) (decl : Function) : Bool :=
  let name := (Text.lower decl.name.lexeme).toList
  "test".toList.isPrefixOf name && decl.params.isEmpty &&
    match filter with
    | some needle => occursIn (Text.lower needle).toList name
    | none => true

/-- The names of tests with their places, each name once, in order. -/
def testNames (filter : Option String) : List String → List Stmt → List Token
  | _, [] => []
  | seen, .function decl :: rest =>
      let name := decl.name.lexeme
      if isTest filter decl && !seen.contains name then
        decl.name :: testNames filter (name :: seen) rest
      else
        testNames filter seen rest
  | seen, _ :: rest => testNames filter seen rest

/-- The function that a test calls. -/
def testFunction? (m : Machine) (name : String) : Option Fn :=
  match m.global? name with
  | some (.function f) => m.store.findOverload f []
  | _ => none

def runTest (m : Machine) (fuel : Nat) (name : Token) : TestOutcome × Machine :=
  match m.testFunction? name.lexeme with
  | none =>
      ({ name := name.lexeme, span := name.span,
         failure := some (RuntimeFault.undefinedVariable name.lexeme).message }, m)
  | some test =>
      match Exec.callFn m.context fuel test [] m.store with
      | .ok _ store =>
          ({ name := name.lexeme, span := name.span, failure := none }, { m with store })
      | .error failure store =>
          ({ name := name.lexeme, span := name.span,
             failure := some (Signal.failed failure).message }, { m with store })

def runEach (fuel : Nat) : Machine → List Token → List TestOutcome × Machine
  | m, [] => ([], m)
  | m, name :: rest =>
      let (outcome, m) := m.runTest fuel name
      let (outcomes, m) := runEach fuel m rest
      (outcome :: outcomes, m)

/-- Runs a program, then its tests. -/
def runTests (m : Machine) (fuel : Nat) (filter : Option String) (statements : List Stmt) :
    Except Signal (List TestOutcome) × Machine :=
  match m.interpret fuel statements with
  | (.error signal, m) => (.error signal, m)
  | (.ok _, m) =>
      let (outcomes, m) := runEach fuel m (testNames filter [] statements)
      (.ok outcomes, m)

end Machine

end MiniPascal
