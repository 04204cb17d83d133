import MiniPascal.Report.Message

/-!
# Command-line arguments

Options may stand anywhere, long ones with their value after an equals sign or as the next
argument; after `--` everything is a path.  A switch or a single-valued option given twice, an
unknown option, a value that is not offered and one path too many are usage errors.
-/

namespace MiniPascal

/-- How an option is used. -/
inductive OptionKind where
  | switch
  | valued
deriving DecidableEq, Repr

/-- One thing that the arguments say, in order. -/
inductive Arg where
  | path (text : String)
  | switch (name : String)
  | valued (name value : String)
  | help
  | bad

namespace Arg

/-- The options of a command by name, without the two dashes. -/
abbrev Options := List (String × OptionKind)

/-- Whether an argument may be the value of the option in front of it. -/
def isValue (text : String) : Bool :=
  !text.startsWith "-" || text = "-"

/-- A long option, split at its first equals sign. -/
def splitLong (text : String) : String × Option String :=
  let chars := text.toList
  match chars.dropWhile (· ≠ '=') with
  | [] => (text, none)
  | _ :: value => (String.ofList (chars.takeWhile (· ≠ '=')), some (String.ofList value))

/-- One letter after a single dash. -/
def short (letter : Char) : Arg :=
  if letter = 'v' then .switch "verbose"
  else if letter = 'h' || letter = 'V' then .help
  else .bad

/-- What the arguments say.  After the first mistake nothing more is read. -/
def readAll (options : Options) : List String → List Arg
  | [] => []
  | text :: rest =>
      if text = "--" then rest.map .path
      else if text.startsWith "--" then
        let (name, value?) := splitLong (String.ofList (text.toList.drop 2))
        if name = "help" || name = "version" then [if value?.isNone then .help else .bad]
        else
          match options.lookup name, value? with
          | some .switch, none => .switch name :: readAll options rest
          | some .valued, some value => .valued name value :: readAll options rest
          | some .valued, none =>
              match rest with
              | value :: others =>
                  if isValue value then .valued name value :: readAll options others else [.bad]
              | [] => [.bad]
          | _, _ => [.bad]
      else if text.startsWith "-" && text ≠ "-" then
        (text.toList.drop 1).map short ++ readAll options rest
      else .path text :: readAll options rest

end Arg

/-- Why a command does not start. -/
inductive ArgStop where
  | usage
  | help
deriving DecidableEq, Repr

inductive Emit where
  | ast
  | tokensJson
deriving DecidableEq, Repr

structure RunArgs where
  input : Option String := none
  dumpTokens : Bool := false
  emit : List Emit := []
  strict : Bool := false
  noTypecheck : Bool := false
  format : Option ReportFormat := none
  verbose : Nat := 0

structure TestArgs where
  inputs : List String := []
  filter : Option String := none
  failFast : Bool := false
  format : Option ReportFormat := none
  verbose : Nat := 0

namespace Args

def emit? (name : String) : Option Emit :=
  if name = "ast" then some .ast
  else if name = "tokens-json" then some .tokensJson
  else none

def format? (name : String) : Option ReportFormat :=
  if name = "text" then some .text
  else if name = "json" then some .json
  else none

/-- A switch that may be given once. -/
def once (given : Bool) (result : α) : Except ArgStop α :=
  if given then .error .usage else .ok result

def runOptions : Arg.Options := [
  ("dump-tokens", .switch), ("emit", .valued), ("strict", .switch), ("no-typecheck", .switch),
  ("diagnostics", .valued), ("verbose", .switch)]

def testOptions : Arg.Options := [
  ("filter", .valued), ("fail-fast", .switch), ("diagnostics", .valued), ("verbose", .switch)]

/-- Takes in one thing that the arguments of the run command say. -/
def addRun (args : RunArgs) : Arg → Except ArgStop RunArgs
  | .help => .error .help
  | .bad => .error .usage
  | .path text =>
      if text.isEmpty || args.input.isSome then .error .usage
      else .ok { args with input := some text }
  | .switch "dump-tokens" => once args.dumpTokens { args with dumpTokens := true }
  | .switch "strict" => once args.strict { args with strict := true }
  | .switch "no-typecheck" => once args.noTypecheck { args with noTypecheck := true }
  | .switch "verbose" => .ok { args with verbose := args.verbose + 1 }
  | .valued "emit" value =>
      match emit? value with
      | some emit => .ok { args with emit := args.emit ++ [emit] }
      | none => .error .usage
  | .valued "diagnostics" value =>
      match format? value with
      | some format => once args.format.isSome { args with format := some format }
      | none => .error .usage
  | .switch _ => .error .usage
  | .valued _ _ => .error .usage

/-- Takes in one thing that the arguments of the test command say. -/
def addTest (args : TestArgs) : Arg → Except ArgStop TestArgs
  | .help => .error .help
  | .bad => .error .usage
  | .path text =>
      if text.isEmpty then .error .usage else .ok { args with inputs := args.inputs ++ [text] }
  | .switch "fail-fast" => once args.failFast { args with failFast := true }
  | .switch "verbose" => .ok { args with verbose := args.verbose + 1 }
  | .valued "filter" value => once args.filter.isSome { args with filter := some value }
  | .valued "diagnostics" value =>
      match format? value with
      | some format => once args.format.isSome { args with format := some format }
      | none => .error .usage
  | .switch _ => .error .usage
  | .valued _ _ => .error .usage

def readRun (args : List String) : Except ArgStop RunArgs :=
  (Arg.readAll runOptions args).foldlM addRun {}

def readTest (args : List String) : Except ArgStop TestArgs :=
  (Arg.readAll testOptions args).foldlM addTest {}

end Args

/-- What the arguments ask for. -/
inductive Command where
  | run (args : RunArgs)
  | test (args : TestArgs)

namespace Command

/-- Reads all arguments.  The first one may name the command; without a name programs are run. -/
def read (args : List String) : Except ArgStop Command :=
  match args with
  | "test" :: rest => do return .test (← Args.readTest rest)
  | "run" :: rest => do return .run (← Args.readRun rest)
  | _ => do return .run (← Args.readRun args)

end Command

end MiniPascal
