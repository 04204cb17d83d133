import MiniPascal.Decimal.Write
import MiniPascal.Machine.Store
import MiniPascal.Text.Quoted

/-!
# Texts of values

How a value is printed.  Containers show their contents.

A container that contains itself has no finite text: writing it out goes on until the stack is used
up, which nothing in the language can catch.  `Store.display` stays total and cuts such a text off
with `...`, at a depth that no container reaches unless it contains itself.
-/

namespace MiniPascal
namespace Store

/-- The text of a value with containers nested at most `depth` deep; deeper ones show as `...`. -/
def displayTo (s : Store) : Nat → Value → String
  | _, .nil => "nil"
  | _, .boolean true => "True"
  | _, .boolean false => "False"
  | _, .integer value => toString value.toInt
  | _, .double value => Decimal.write .plain value
  | _, .char value => String.singleton value
  | _, .string value => value
  | _, .enum member => member.name
  | _, .function f => "<fn " ++ f.name ++ ">"
  | _, .native _ => "<native fn>"
  | _, .class cls => cls.name
  | _, .object self => self.cls.name ++ " instance"
  | 0, .array _ | 0, .list _ | 0, .stack _ | 0, .map _ => "..."
  | depth + 1, .array id | depth + 1, .list id =>
      "[" ++ ", ".intercalate ((s.sequence id).toList.map (displayTo s depth)) ++ "]"
  | depth + 1, .stack id =>
      "[" ++ ", ".intercalate ((s.sequence id).toList.reverse.map (displayTo s depth)) ++ "]"
  | depth + 1, .map id =>
      let entry (item : Value × Value) : String :=
        displayTo s depth item.1 ++ ": " ++ displayTo s depth item.2
      "\x7b" ++ ", ".intercalate ((s.mapEntries id).map entry) ++ "\x7d"

/-- The text of a value. -/
def display (s : Store) (value : Value) : String :=
  s.displayTo (s.sequences.size + s.maps.size + 1) value

/-- The text of a value with its type; characters and strings are quoted. -/
def describe (s : Store) (value : Value) : String :=
  match value with
  | .string text => "String(" ++ Text.quoteString text ++ ")"
  | .char c => "Char(" ++ Text.quoteSingle c ++ ")"
  | other => other.typeName ++ "(" ++ s.display other ++ ")"

end Store
end MiniPascal
