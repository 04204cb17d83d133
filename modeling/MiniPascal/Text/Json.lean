import MiniPascal.Text.Quoted

/-!
# JSON text

A small JSON document type with the two layouts that reports use: everything on one line, and one
item a line with an indent of two spaces.  Fields are written in the order given.
-/

namespace MiniPascal
namespace Text

/-- A JSON document whose objects keep the order of their fields. -/
inductive Json where
  | number (value : Nat)
  | string (value : String)
  | array (items : List Json)
  | object (fields : List (String × Json))

namespace Json

/-- A hexadecimal escape of four digits. -/
def escapeCode (n : Nat) : String :=
  let digits := Nat.toDigits 16 n
  "\\u" ++ String.ofList (List.replicate (4 - digits.length) '0' ++ digits)

/-- One character as it is written inside a JSON string. -/
def escapeChar (c : Char) : String :=
  if c = '"' then "\\\""
  else if c = '\\' then "\\\\"
  else if c = '\n' then "\\n"
  else if c = '\r' then "\\r"
  else if c = '\t' then "\\t"
  else if c = '\x08' then "\\b"
  else if c = '\x0c' then "\\f"
  else if c.toNat < 32 then escapeCode c.toNat
  else String.singleton c

/-- A JSON string literal. -/
def quote (text : String) : String :=
  "\"" ++ String.join (text.toList.map escapeChar) ++ "\""

mutual

/-- A document on one line, without blanks. -/
def compact : Json → String
  | .number value => toString value
  | .string value => quote value
  | .array items => "[" ++ ",".intercalate (compactItems items) ++ "]"
  | .object fields => "\x7b" ++ ",".intercalate (compactFields fields) ++ "\x7d"

def compactItems : List Json → List String
  | [] => []
  | item :: rest => compact item :: compactItems rest

def compactFields : List (String × Json) → List String
  | [] => []
  | (key, value) :: rest => (quote key ++ ":" ++ compact value) :: compactFields rest

end

/-- The start of a line at a given depth. -/
def indent (depth : Nat) : String :=
  String.ofList (List.replicate (2 * depth) ' ')

/-- A bracketed group with one item a line. -/
def layOut (opening closing : String) (depth : Nat) (items : List String) : String :=
  match items with
  | [] => opening ++ closing
  | _ =>
      opening ++ "\n" ++ ",\n".intercalate (items.map (indent (depth + 1) ++ ·)) ++ "\n" ++
        indent depth ++ closing

mutual

/-- A document with one item a line, its first line starting at the given depth. -/
def pretty (depth : Nat) : Json → String
  | .number value => toString value
  | .string value => quote value
  | .array items => layOut "[" "]" depth (prettyItems (depth + 1) items)
  | .object fields => layOut "\x7b" "\x7d" depth (prettyFields (depth + 1) fields)

def prettyItems (depth : Nat) : List Json → List String
  | [] => []
  | item :: rest => pretty depth item :: prettyItems depth rest

def prettyFields (depth : Nat) : List (String × Json) → List String
  | [] => []
  | (key, value) :: rest =>
      (quote key ++ ": " ++ pretty depth value) :: prettyFields depth rest

end

end Json

end Text
end MiniPascal
