import MiniPascal.CommandLine.Run

/-!
# Running tests from the command line

Each given file, and each source file below a given directory, is compiled and its tests are run.
Files are taken in the order of their paths, each once.
-/

namespace MiniPascal

namespace TestArgs

def reportFormat (args : TestArgs) : ReportFormat :=
  args.format.getD .text

end TestArgs

namespace CommandLine

/-- How many tests passed and failed; a file that does not run counts as a failed test. -/
structure Tally where
  passed : Nat := 0
  failed : Nat := 0

/-- What has been written and counted so far, and whether the run is to stop. -/
structure Progress where
  screen : Screen := {}
  tally : Tally := {}
  stopped : Bool := false

namespace Progress

def out (progress : Progress) (text : String) : Progress :=
  { progress with screen := progress.screen.out text }

def err (progress : Progress) (text : String) : Progress :=
  { progress with screen := progress.screen.err text }

def pass (progress : Progress) : Progress :=
  { progress with tally := { progress.tally with passed := progress.tally.passed + 1 } }

/-- Counts a failed test, which may stop the run. -/
def fail (progress : Progress) (failFast : Bool) : Progress :=
  { progress with
    tally := { progress.tally with failed := progress.tally.failed + 1 }
    stopped := failFast }

end Progress

/-! ## Finding files -/

/-- The wording of a fault of a given path, or of a path below it. -/
def accessFault (path : String) (fault : ReadFault) : String :=
  "Failed to access " ++ Text.quoteString path ++ ": " ++ fault.message

def isSourcePath (path : String) : Bool :=
  Path.hasExtension Compile.unitExtension ((Path.fileName? path).getD "")

/-- A path, if it is that of a source file. -/
def sourceFile? (files : FileTree) (path : String) : Except String (Option String) :=
  match files.stat path with
  | .error fault => .error (accessFault path fault)
  | .ok .directory => .ok none
  | .ok _ => .ok (if isSourcePath path then some path else none)

/-- The paths of the source files that an argument stands for: itself, or all below it. -/
def sourceFiles (files : FileTree) (input : String) : Except String (List String) :=
  match files.locate input with
  | .error fault => .error (accessFault input fault)
  | .ok key => (input :: files.pathsBelow key input).filterMapM (sourceFile? files)

/-- Adds the source files of each argument to sorted paths. -/
def collectFiles (files : FileTree) : List String → List String → Except String (List String)
  | found, [] => .ok found
  | found, input :: rest =>
      match sourceFiles files input with
      | .error message => .error message
      | .ok paths =>
          collectFiles files (paths.foldl (fun sorted path => Path.insertSorted path sorted) found)
            rest

/-! ## Running files -/

/-- The width of a test's name and the dots after it. -/
def dottedWidth : Nat := 55

def verdictLine (name verdict : String) : String :=
  "  Test: " ++ name ++ " " ++ String.ofList (List.replicate (dottedWidth - name.length) '.') ++
    " [ " ++ verdict ++ " ]\n"

/-- Writes and counts outcomes in order. -/
def showOutcomes (failFast : Bool) : Progress → List TestOutcome → Progress
  | progress, [] => progress
  | progress, outcome :: rest =>
      match outcome.failure with
      | none =>
          showOutcomes failFast (progress.out (verdictLine outcome.name "PASS")).pass rest
      | some message =>
          let failed :=
            (progress.out (verdictLine outcome.name "FAIL" ++ "    " ++ message ++ "\n")).fail
              failFast
          if failFast then failed else showOutcomes failFast failed rest

/-- Compiles a file and runs its tests. -/
def testSource (args : TestArgs) (files : FileTree) (resources : Resources) (source : Source)
    (progress : Progress) : Progress :=
  let headed := progress.out (files.displayPath source.path ++ "\n")
  match (Compiler.start {}).compile files source with
  | (.error _, compiler) =>
      (headed.err (Report.diagnostics args.reportFormat files source compiler.diagnostics)).fail
        args.failFast
  | (.ok compilation, _) =>
      let machine := (Machine.start (resources.host source.path)).addLocals compilation.locals
      let (result, ended) := machine.runTests resources.fuel args.filter compilation.program
      let printed := headed.out ended.store.output
      match result with
      | .ok outcomes => showOutcomes args.failFast printed outcomes
      | .error (.failed (.error error)) =>
          (printed.err (Report.runtimeError args.reportFormat files source error)).fail
            args.failFast
      | .error (.failed .starved) => printed.fail args.failFast
      | .error _ => printed

def testFiles (args : TestArgs) (files : FileTree) (resources : Resources) :
    Progress → List String → Except Transcript Progress
  | progress, [] => .ok progress
  | progress, path :: rest =>
      match files.read path with
      | .error fault =>
          .error (.failure progress.screen ("failed to read " ++ path ++ ": " ++ fault.message))
      | .ok text =>
          let next := testSource args files resources { path, text } progress
          if next.stopped then .ok next else testFiles args files resources next rest

def summary (tally : Tally) : String :=
  "\n" ++ toString tally.passed ++ " passed, " ++ toString tally.failed ++ " failed\n"

/-- Runs the tests of all given files, or of those below the current directory. -/
def runTests (args : TestArgs) (files : FileTree) (resources : Resources) : Transcript :=
  let inputs :=
    if args.inputs.isEmpty then [Path.render (.root :: files.current.map .normal)]
    else args.inputs
  match collectFiles files [] inputs with
  | .error message => .failure {} message
  | .ok [] => { code := 0, screen := Screen.out {} "no test files found\n" }
  | .ok paths =>
      match testFiles args files resources {} paths with
      | .error transcript => transcript
      | .ok progress =>
          { code := if progress.tally.failed = 0 then 0 else Transcript.failureCode
            screen := progress.screen.out (summary progress.tally) }

end CommandLine

end MiniPascal
