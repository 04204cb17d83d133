/-!
# Lines of input

Input comes as bytes.  A line ends at a line feed, with one carriage return before it dropped, and
is read as text only then; a line whose bytes are no text cannot be read.
-/

namespace MiniPascal
namespace Input

def lineFeed : UInt8 := 10

def carriageReturn : UInt8 := 13

/-- The bytes of each line, without terminators. -/
def splitLines : List UInt8 → List (List UInt8)
  | [] => []
  | b :: rest =>
      if b = lineFeed then
        [] :: splitLines rest
      else if b = carriageReturn ∧ rest.head? = some lineFeed then
        splitLines rest
      else
        match splitLines rest with
        | [] => [[b]]
        | line :: others => (b :: line) :: others

/-- The text of bytes, if they are text. -/
def decode (bytes : List UInt8) : Option String :=
  String.fromUTF8? ⟨bytes.toArray⟩

/-- The lines of input; those that are no text are absent. -/
def lines (bytes : List UInt8) : List (Option String) :=
  (splitLines bytes).map decode

end Input
end MiniPascal
