import MiniPascal.Diagnostic
import MiniPascal.Token.Segment

/-!
# The lexer

Scanning places the segments of a text: tokens are kept, malformed lexemes are reported and
skipped, and a token for the end of the text stands last.
-/

namespace MiniPascal

/-- The outcome of scanning a text: its tokens, the token for the end of the text, and reports
about malformed lexemes. -/
structure Scan where
  tokens : List Token
  last : Token
  diagnostics : List Diagnostic

namespace Scan

/-- The tokens with the one for the end of the text. -/
def all (scan : Scan) : List Token :=
  scan.tokens ++ [scan.last]

end Scan

namespace Lexer

def endToken (file : String) (position : Position) : Token where
  kind := .endOfFile
  lexeme := ""
  position
  file

/-- Adds the segment that starts at `position` in front of what follows it. -/
def place (file : String) (position : Position) (segment : Segment) (rest : Scan) : Scan :=
  let lexeme := String.ofList segment.text
  match segment.kind with
  | .blank | .comment => rest
  | .token kind => { rest with tokens := { kind, lexeme, position, file } :: rest.tokens }
  | .malformed fault =>
      let report : Diagnostic :=
        { message := Segment.faultMessage fault lexeme
          level := .error
          span := .point position
          file }
      { rest with diagnostics := report :: rest.diagnostics }

/-- Scans segments that start at `position`. -/
def scanFrom (file : String) (position : Position) : List Segment → Scan
  | [] => { tokens := [], last := endToken file position, diagnostics := [] }
  | segment :: rest =>
      place file position segment (scanFrom file (position.advance segment.text) rest)

/-- Scans a whole source. -/
def scan (source : Source) : Scan :=
  scanFrom source.path .start (Segment.split source.text.toList)

end Lexer

end MiniPascal
