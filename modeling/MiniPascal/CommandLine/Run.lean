import MiniPascal.CommandLine.Args
import MiniPascal.CommandLine.Screen
import MiniPascal.Report.ProgramListing
import MiniPascal.Session

/-!
# Running programs from the command line

A file is compiled and run once.  Without a file, lines of input are run one by one in a session,
after a prompt each, until the input ends or a line exits.
-/

namespace MiniPascal

namespace RunArgs

def options (args : RunArgs) : CompileOptions where
  strict := args.strict
  checkTypes := !args.noTypecheck

def reportFormat (args : RunArgs) : ReportFormat :=
  args.format.getD .text

end RunArgs

namespace CommandLine

/-- What the programs of a command run with. -/
structure Resources where
  /-- The time in seconds at which the command starts. -/
  now : Float
  fuel : Nat
  /-- The host of the program with a given path.  As the programs of a command run one after the
  other, no two of them need to find the same host. -/
  host : String → Host := fun _ => .still now

/-- Writes what compiling a source shows: its tokens, if asked for, and its reports. -/
def showCompiled (args : RunArgs) (files : FileTree) (source : Source) (compiler : Compiler)
    (screen : Screen) : Screen :=
  let dumped := if args.dumpTokens then screen.out (Report.tokenLines compiler.scanned) else screen
  dumped.err (Report.diagnostics args.reportFormat files source compiler.diagnostics)

/-- Writes how a program ended, if by an error. -/
def showSignal (format : ReportFormat) (files : FileTree) (source : Source)
    (result : Except Signal α) (screen : Screen) : Screen :=
  match result with
  | .error (.failed (.error error)) =>
      screen.err (Report.runtimeError format files source error)
  | _ => screen

def exitCode (result : Except Signal α) : Nat :=
  match result with
  | .error (.failed _) => Transcript.runtimeErrorCode
  | _ => 0

def runSource (args : RunArgs) (files : FileTree) (resources : Resources) (source : Source) :
    Transcript :=
  let listed : Screen :=
    if args.emit.contains .tokensJson then Screen.out {} (Report.tokensJson source) else {}
  match (Compiler.start args.options).compile files source with
  | (.error _, compiler) =>
      { code := Transcript.compileErrorCode
        screen := showCompiled args files source compiler listed }
  | (.ok compilation, compiler) =>
      let compiled := showCompiled args files source compiler listed
      let emitted :=
        if args.emit.contains .ast then compiled.out (Report.programTree compilation.program)
        else compiled
      let machine := (Machine.start (resources.host source.path)).addLocals compilation.locals
      let (result, ended) := machine.interpret resources.fuel compilation.program
      { code := exitCode result
        screen := showSignal args.reportFormat files source result
          (emitted.out ended.store.output) }

def runFile (args : RunArgs) (files : FileTree) (resources : Resources) (input : String) :
    Transcript :=
  match files.read input with
  | .error fault =>
      .failure {} ("Failed to read " ++ Text.quoteString input ++ ": " ++ fault.message)
  | .ok text => runSource args files resources { path := input, text }

/-! ## The prompt -/

def prompt : String := "> "

/-- The path that the lines of a session go by. -/
def sessionPath : String := "REPL"

/-- The source that a line is. -/
def lineSource (line : String) : Source where
  path := sessionPath
  text := line

/-- Whether a line holds nothing but white space. -/
def isBlankLine (line : String) : Bool :=
  (Text.trim line).isEmpty

/-- What follows a line of a session: another line, or the end with an exit code. -/
inductive AfterLine where
  | continue (session : Session)
  | finished (code : Nat)

/-- What follows an outcome: an exit ends the session. -/
def afterOutcome (session : Session) : Outcome → AfterLine
  | .ran (.error (.exit _)) => .finished 0
  | _ => .continue session

/-- Runs a line of a session: what it shows, and what follows. -/
def runLine (args : RunArgs) (files : FileTree) (resources : Resources) (session : Session)
    (line : String) : Screen × AfterLine :=
  let source := lineSource line
  let (outcome, next) := session.feed files resources.fuel source
  let compiled := showCompiled args files source next.compiler {}
  let shown :=
    match outcome with
    | .failed _ => compiled
    | .ran result =>
        showSignal args.reportFormat files source result
          (compiled.out next.machine.store.output)
  (shown, afterOutcome next outcome)

/-- The failure of a session at a line that is no text. -/
def unreadableLine : Transcript :=
  .failure {} ("failed to read from stdin: " ++ ReadFault.message .notText)

/-- Answers a line of input: one that is no text ends the session, a blank one is passed over, and
any other is run. -/
def answerLine (args : RunArgs) (files : FileTree) (resources : Resources) (session : Session) :
    Option String → Screen × AfterLine
  | none => (unreadableLine.screen, .finished unreadableLine.code)
  | some line =>
      if isBlankLine line then ({}, .continue session)
      else runLine args files resources session line

/-- Answers lines up to their end or the end of the session, after a prompt each. -/
def runLines (args : RunArgs) (files : FileTree) (resources : Resources) :
    Session → Screen → List (Option String) → Transcript
  | _, screen, [] => { code := 0, screen := screen.out prompt }
  | session, screen, line :: rest =>
      let (shown, after) := answerLine args files resources session line
      let written := (screen.out (prompt ++ shown.stdout)).err shown.stderr
      match after with
      | .finished code => { code, screen := written }
      | .continue next => runLines args files resources next written rest

def startSession (args : RunArgs) (resources : Resources) : Session :=
  .start args.options (resources.host sessionPath)

/-- A session over lines of input. -/
def runSession (args : RunArgs) (files : FileTree) (resources : Resources)
    (input : List (Option String)) : Transcript :=
  runLines args files resources (startSession args resources) {} input

end CommandLine

end MiniPascal
