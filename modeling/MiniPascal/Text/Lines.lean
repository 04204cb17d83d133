/-!
# Lines of a text

A line ends at a line feed, together with one carriage return right before it.  Text after the
last line feed is a line of its own unless it is empty.
-/

namespace MiniPascal
namespace Text

/-- The lines of a text, without their terminators. -/
def lines : List Char → List (List Char)
  | [] => []
  | c :: rest =>
      if c = '\n' then
        [] :: lines rest
      else if c = '\r' ∧ rest.head? = some '\n' then
        lines rest
      else
        match lines rest with
        | [] => [[c]]
        | line :: others => (c :: line) :: others

/-- The line with a given number, counted from one. -/
def line? (text : String) (number : Nat) : Option String :=
  match number with
  | 0 => none
  | index + 1 => (lines text.toList)[index]?.map String.ofList

@[simp] theorem line?_zero (text : String) : line? text 0 = none := rfl

end Text
end MiniPascal
