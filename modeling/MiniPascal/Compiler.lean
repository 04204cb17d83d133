import MiniPascal.Files.Tree
import MiniPascal.Parser.Program
import MiniPascal.Scope.Resolve
import MiniPascal.Typing.Check

/-!
# Compiling

From a source to a program that can run: scanning and parsing it, putting the statements of the
units it uses in the place of each `uses`, resolving names and checking types.  A compiler may be
fed several sources; node numbers and used units carry over.
-/

namespace MiniPascal

/-- How strictly a source is taken. -/
structure CompileOptions where
  /-- Stop at the first syntax fault. -/
  strict : Bool := false
  checkTypes : Bool := true

namespace CompileOptions

/-- What happens after a syntax fault. -/
def recovery (options : CompileOptions) : Recovery :=
  if options.strict then .strict else .synchronize

end CompileOptions

/-- The stage at which compiling fails. -/
inductive CompileFailure where
  | parsing
  | resolution
  | typing
  | starved
deriving DecidableEq, Repr

namespace CompileFailure

def message : CompileFailure → String
  | .parsing => "Parsing failed"
  | .resolution => "Name resolution failed"
  | .typing => "Type checking failed"
  | .starved => "Out of fuel"

end CompileFailure

/-- A program with the distances of its names. -/
structure Compilation where
  program : List Stmt
  locals : Locals

/-- What carries over from one source to the next. -/
structure Compiler where
  options : CompileOptions
  diagnostics : List Diagnostic
  nextId : NodeId
  /-- The clean paths of all sources and units so far. -/
  included : List String
  /-- All tokens scanned so far. -/
  scanned : List Token

namespace Compiler

/-- A compiler that has seen no source. -/
def start (options : CompileOptions) : Compiler where
  options
  diagnostics := []
  nextId := 0
  included := []
  scanned := []

def report (c : Compiler) (diagnostics : List Diagnostic) : Compiler :=
  { c with diagnostics := c.diagnostics ++ diagnostics }

/-- Drops the reports and tokens so far. -/
def clear (c : Compiler) : Compiler :=
  { c with diagnostics := [], scanned := [] }

/-- Takes a path as included. -/
def markIncluded (c : Compiler) (path : String) : Compiler :=
  { c with included := if c.included.contains path then c.included else path :: c.included }

end Compiler

/-- A stage of compiling. -/
abbrev Compile := EStateM CompileFailure Compiler

namespace Compile

/-- Scans and parses a source.  Any error among the reports makes it fail. -/
def parse (source : Source) : Compile (List Stmt) := do
  let c ← get
  let scan := Lexer.scan source
  let parsed := parseProgram c.options.recovery c.nextId scan
  let reports := scan.diagnostics ++ parsed.diagnostics
  set { c.report reports with
    nextId := parsed.nextId
    scanned := c.scanned ++ scan.all }
  match parsed.result with
  | .ok statements => if Diagnostic.anyError reports then throw .parsing else return statements
  | .error (.fault _) => throw .parsing
  | .error .starved => throw .starved

def unitExtension : String := "pas"

/-- The clean path of a unit next to the source that uses it. -/
def unitPath (including : String) (unit : Token) : String :=
  Path.cleanText
    (Path.directory including ++ [.normal (unit.lexeme ++ "." ++ unitExtension)])

/-- Statements in which units have been put in place, and whether one could not be read. -/
structure Expansion where
  statements : List Stmt
  missing : Bool

/-- Puts units in the place of each top-level `uses`. -/
def expandWith (expand : Token → Compile Expansion) : List Stmt → Compile Expansion
  | [] => pure { statements := [], missing := false }
  | .uses _ unit :: rest => do
      let here ← expand unit
      let others ← expandWith expand rest
      return { statements := here.statements ++ others.statements
               missing := here.missing || others.missing }
  | statement :: rest => do
      let others ← expandWith expand rest
      return { others with statements := statement :: others.statements }

/-- Expands a unit that is used by a source at the path `including`.  A unit that was included
before expands to nothing.  Fuel bounds the depth of units within units. -/
def expandUnit (files : FileTree) : Nat → String → Token → Compile Expansion
  | 0, _, _ => throw .starved
  | fuel + 1, including, unit => do
      let path := unitPath including unit
      if (← get).included.contains path then
        return { statements := [], missing := false }
      else
        modify (·.markIncluded path)
        match files.read path with
        | .error _ =>
            modify (·.report [.errorAt unit ("Unable to read unit '" ++ unit.lexeme ++ "'")])
            return { statements := [], missing := true }
        | .ok text =>
            let statements ← parse { path, text }
            expandWith (expandUnit files fuel path) statements

/-- Parses a source with all units it uses.  Units within units are distinct readable files, so
there are no more levels than files. -/
def parseAll (files : FileTree) (source : Source) : Compile (List Stmt) := do
  modify (·.markIncluded (Path.clean source.path))
  let statements ← parse source
  let expansion ← expandWith (expandUnit files (files.size + 2) source.path) statements
  if expansion.missing then throw .parsing else return expansion.statements

def resolve (statements : List Stmt) : Compile Locals := do
  let resolution := Resolution.program statements
  modify (·.report resolution.diagnostics)
  if Diagnostic.anyError resolution.diagnostics then throw .resolution
  else return resolution.locals

/-- Checks the types of a program, if the options say so. -/
def checkTypes (statements : List Stmt) : Compile Unit := do
  if (← get).options.checkTypes then
    let diagnostics := (Typing.checkProgram statements).2
    modify (·.report diagnostics)
    if Diagnostic.anyError diagnostics then throw .typing
  else
    return

def compile (files : FileTree) (source : Source) : Compile Compilation := do
  let program ← parseAll files source
  let locals ← resolve program
  checkTypes program
  return { program, locals }

end Compile

namespace Compiler

/-- Feeds a source to a compiler. -/
def compile (c : Compiler) (files : FileTree) (source : Source) :
    Except CompileFailure Compilation × Compiler :=
  match Compile.compile files source c with
  | .ok compilation c => (.ok compilation, c)
  | .error failure c => (.error failure, c)

theorem compile_run (c : Compiler) (files : FileTree) (source : Source) :
    c.compile files source =
      match Compile.compile files source c with
      | .ok compilation d => (.ok compilation, d)
      | .error failure d => (.error failure, d) := by
  -- `unfold` would evaluate all stages in search of an equation.
  delta compile
  exact Eq.refl _

theorem compile_eq_ok_iff {c d : Compiler} {files : FileTree} {source : Source}
    {compilation : Compilation} :
    c.compile files source = (.ok compilation, d) ↔
      Compile.compile files source c = .ok compilation d := by
  rw [compile_run]
  cases Compile.compile files source c <;> simp

end Compiler

end MiniPascal
