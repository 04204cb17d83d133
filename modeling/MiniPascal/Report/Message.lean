import MiniPascal.Diagnostic
import MiniPascal.Files.Tree
import MiniPascal.Machine.Fault
import MiniPascal.Text.Json

/-!
# Reports to the user

A diagnostic or a runtime error, as a message over the line it points at, or as a JSON object on a
line of its own.
-/

namespace MiniPascal

inductive ReportFormat where
  | text
  | json
deriving DecidableEq, Repr

namespace Report

/-- The line that a report points at, from the source at hand or from the file it names. -/
def lineText? (files : FileTree) (source : Source) (file : String) (line : Nat) :
    Option String :=
  if file = source.path then source.line? line
  else
    match files.read file with
    | .ok text => Text.line? text line
    | .error _ => none

/-- A tab takes four columns, any other character one. -/
def expandTabs (line : List Char) : String :=
  String.join (line.map fun c => if c = '\t' then "    " else String.singleton c)

/-- Blanks as wide as the characters in front of a column. -/
def padding (line : List Char) (column : Nat) : String :=
  String.join ((line.take (column - 1)).map fun c => if c = '\t' then "    " else " ")

/-- The marks below the columns of a span. -/
def carets (span : Span) : String :=
  let width := if span.endLine = span.line then span.endColumn - span.column + 1 else 1
  String.ofList (List.replicate (max width 1) '^')

/-- A report as text: its message, its place, and the line with marks below it. -/
def messageText (files : FileTree) (source : Source) (d : Diagnostic) : String :=
  let marker :=
    match d.level with
    | .error => "  - "
    | .warning => "  ~ "
  let head := marker ++ d.level.title ++ ": " ++ d.message ++ "\n"
  let place :=
    "     --> " ++ files.displayPath d.file ++ ":" ++ toString d.span.line ++ ":" ++
      toString d.span.column ++ "\n"
  match lineText? files source d.file d.span.line with
  | none => head ++ place
  | some line =>
      head ++ place ++ "      " ++ expandTabs line.toList ++ "\n" ++
        "      " ++ padding line.toList d.span.column ++ carets d.span ++ "\n"

def diagnosticJson (d : Diagnostic) : Text.Json :=
  .object [
    ("message", .string d.message),
    ("level", .string d.level.title),
    ("span", .object [
      ("line", .number d.span.line), ("column", .number d.span.column),
      ("end_line", .number d.span.endLine), ("end_column", .number d.span.endColumn)]),
    ("file", .string d.file)]

/-- A runtime error as a JSON object, with its fields in alphabetical order. -/
def runtimeJson (d : Diagnostic) : Text.Json :=
  .object [
    ("file", .string d.file),
    ("kind", .string "runtime"),
    ("level", .string d.level.title),
    ("message", .string d.message),
    ("span", .object [
      ("column", .number d.span.column), ("end_column", .number d.span.endColumn),
      ("end_line", .number d.span.endLine), ("line", .number d.span.line)])]

def diagnostics (format : ReportFormat) (files : FileTree) (source : Source)
    (list : List Diagnostic) : String :=
  String.join <| list.map fun d =>
    match format with
    | .text => messageText files source d
    | .json => (diagnosticJson d).compact ++ "\n"

def runtimeError (format : ReportFormat) (files : FileTree) (source : Source)
    (error : RuntimeError) : String :=
  let d := Diagnostic.errorAt error.token error.message
  match format with
  | .text => messageText files source d
  | .json => (runtimeJson d).compact ++ "\n"

end Report

end MiniPascal
