import Std.Time.DateTime.Timestamp
import MiniPascal.CommandLine.Command

/-!
# The program

Reads what a command can see, the files next to its sources and the time, carries the command out
and writes what it shows.  A session answers each line before it reads the next one.
-/

namespace MiniPascal
namespace CommandLine

/-- Enough fuel for every program that ends. -/
def programFuel : Nat := 1000000000000000000

/-- The time in seconds. -/
def currentTime : IO Float := do
  let now ← Std.Time.Timestamp.now
  return Float.ofInt now.toNanosecondsSinceUnixEpoch.val / 1000000000.0

def currentResources : IO Resources :=
  return { now := ← currentTime, fuel := programFuel }

/-! ## Loading files -/

/-- What stands at a path, if it can be seen. -/
def loadNode (path : String) : IO (Option FileNode) := do
  let place := (← IO.currentDir) / path
  if ← place.isDir then
    return some .directory
  else
    try return some (.ofBytes (← IO.FS.readBinFile place))
    catch _ => return none

def namesIn (path : String) : IO (List String) := do
  let place := (← IO.currentDir) / path
  try return ((← place.readDir).map (·.fileName)).toList
  catch _ => return []

def loadPath (path : String) : IO (List (String × FileNode)) := do
  match ← loadNode path with
  | some node => return [(path, node)]
  | none => return []

/-- The source files right in a directory. -/
def loadSources (directory : String) : IO (List (String × FileNode)) := do
  let names := (← namesIn directory).filter (Path.hasExtension Compile.unitExtension)
  return (← names.mapM fun name => loadPath (Path.join directory name)).flatten

/-- The source files in a directory and all directories below it. -/
partial def loadBelow (directory : String) : IO (List (String × FileNode)) := do
  let here ← loadSources directory
  let below ← (← namesIn directory).mapM fun name => do
    let path := Path.join directory name
    match ← loadNode path with
    | some .directory => loadBelow path
    | _ => return []
  return here ++ below.flatten

/-- What an argument leads to: everything on the way to it, and the source files next to it or
below it. -/
def loadArgument (path : String) : IO (List (String × FileNode)) := do
  let parts := Path.parts path
  let way ← (List.range (parts.length + 1)).mapM fun count =>
    loadPath (Path.render (parts.take count))
  let around ←
    match ← loadNode path with
    | some .directory => loadBelow path
    | _ => loadSources (Path.render (Path.directory path))
  return way.flatten ++ around

/-- The files that a command can see. -/
def loadFiles (command : Command) : IO FileTree := do
  let current := FileTree.keyOf [] (← IO.currentDir).toString
  let files ←
    match command with
    | .run run =>
        match run.input with
        | some path => loadArgument path
        | none => loadSources ""
    | .test test =>
        if test.inputs.isEmpty then loadBelow ""
        else pure (← test.inputs.mapM loadArgument).flatten
  return .ofFiles current files

/-! ## Writing -/

def writeScreen (screen : Screen) : IO Unit := do
  IO.print screen.stdout
  (← IO.getStdout).flush
  IO.eprint screen.stderr

def writeTranscript (transcript : Transcript) : IO UInt32 := do
  writeScreen transcript.screen
  return transcript.code.toUInt32

/-- Reads bytes up to the end of a line, after those already read. -/
partial def readBytes (input : IO.FS.Stream) (line : ByteArray) : IO ByteArray := do
  let next ← input.read 1
  if next.isEmpty then
    return line
  else if next.toList = [Input.lineFeed] then
    return line ++ next
  else
    readBytes input (line ++ next)

/-- Reads a line of input; nothing at the end of the input. -/
def readInputLine : IO (Option (Option String)) := do
  let bytes ← readBytes (← IO.getStdin) .empty
  return (Input.lines bytes.toList).head?

/-- Answers lines of input until the session ends.  The clock is read anew for each line. -/
partial def converse (args : RunArgs) (files : FileTree) (resources : Resources)
    (session : Session) : IO UInt32 := do
  writeScreen (Screen.out {} prompt)
  match ← readInputLine with
  | none => return 0
  | some line =>
      let session := { session with machine.host := .still (← currentTime) }
      let (shown, after) := answerLine args files resources session line
      writeScreen shown
      match after with
      | .finished code => return code.toUInt32
      | .continue next => converse args files resources next

def perform (args : List String) : IO UInt32 := do
  let resources ← currentResources
  match Command.read args with
  | .error reason => writeTranscript (stop reason)
  | .ok command =>
      let files ← loadFiles command
      match command with
      | .test test => writeTranscript (runTests test files resources)
      | .run run =>
          match run.input with
          | some path => writeTranscript (runFile run files resources path)
          | none => converse run files resources (startSession run resources)

end CommandLine
end MiniPascal

def main (args : List String) : IO UInt32 :=
  MiniPascal.CommandLine.perform args
