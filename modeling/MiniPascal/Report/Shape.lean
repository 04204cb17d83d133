/-!
# Nested listings

Data shown as nested records, tuples and lists, either on one line or with one item a line and an
indent of four spaces.
-/

namespace MiniPascal

/-- Data to be listed. -/
inductive Shape where
  | atom (text : String)
  | tuple (name : String) (items : List Shape)
  | record (name : String) (fields : List (String × Shape))
  | list (items : List Shape)

namespace Shape

def optional : Option Shape → Shape
  | some shape => tuple "Some" [shape]
  | none => atom "None"

mutual

/-- A listing on one line. -/
def compact : Shape → String
  | atom text => text
  | tuple name items => name ++ "(" ++ ", ".intercalate (compactItems items) ++ ")"
  | record name fields =>
      name ++ " \x7b " ++ ", ".intercalate (compactFields fields) ++ " \x7d"
  | list items => "[" ++ ", ".intercalate (compactItems items) ++ "]"

def compactItems : List Shape → List String
  | [] => []
  | item :: rest => compact item :: compactItems rest

def compactFields : List (String × Shape) → List String
  | [] => []
  | (name, value) :: rest => (name ++ ": " ++ compact value) :: compactFields rest

end

/-- The start of a line at a given depth. -/
def indent (depth : Nat) : String :=
  String.ofList (List.replicate (4 * depth) ' ')

/-- A group with one item a line, each followed by a comma. -/
def group (opening closing : String) (depth : Nat) (items : List String) : String :=
  match items with
  | [] => opening ++ closing
  | _ =>
      opening ++ "\n" ++ String.join (items.map fun item => indent (depth + 1) ++ item ++ ",\n") ++
        indent depth ++ closing

mutual

/-- A listing with one item a line, its first line starting at the given depth. -/
def pretty (depth : Nat) : Shape → String
  | atom text => text
  | tuple name items => group (name ++ "(") ")" depth (prettyItems (depth + 1) items)
  | record name fields => group (name ++ " \x7b") "\x7d" depth (prettyFields (depth + 1) fields)
  | list items => group "[" "]" depth (prettyItems (depth + 1) items)

def prettyItems (depth : Nat) : List Shape → List String
  | [] => []
  | item :: rest => pretty depth item :: prettyItems depth rest

def prettyFields (depth : Nat) : List (String × Shape) → List String
  | [] => []
  | (name, value) :: rest =>
      (name ++ ": " ++ pretty depth value) :: prettyFields depth rest

end

end Shape

end MiniPascal
