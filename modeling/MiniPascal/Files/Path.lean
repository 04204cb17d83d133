/-!
# Paths

A path is a text whose parts are divided by slashes.  Empty parts and inner dots are passed over;
a dot at the start of a relative path counts.
-/

namespace MiniPascal

inductive PathPart where
  | root
  | current
  | parent
  | normal (name : String)
deriving DecidableEq, Repr

namespace Path

/-- The texts between slashes. -/
def pieces : List Char → List (List Char)
  | [] => [[]]
  | c :: rest =>
      if c = '/' then [] :: pieces rest
      else
        match pieces rest with
        | [] => [[c]]
        | piece :: others => (c :: piece) :: others

/-- The part that a piece stands for; dots and empty pieces stand for none. -/
def partOf? (piece : List Char) : Option PathPart :=
  match String.ofList piece with
  | "" => none
  | "." => none
  | ".." => some .parent
  | name => some (.normal name)

/-- The parts of a path. -/
def parts (path : String) : List PathPart :=
  let all := pieces path.toList
  let inner := all.filterMap partOf?
  match all with
  | [] :: _ :: _ => .root :: inner
  | ['.'] :: _ => .current :: inner
  | _ => inner

def partText : PathPart → String
  | .root => "/"
  | .current => "."
  | .parent => ".."
  | .normal name => name

/-- The most bytes that a name can have. -/
def maxNameBytes : Nat := 255

/-- The most bytes that a path can have. -/
def maxBytes : Nat := 4095

/-- The text of a path with given parts. -/
def render : List PathPart → String
  | .root :: rest => "/" ++ "/".intercalate (rest.map partText)
  | list => "/".intercalate (list.map partText)

/-- Adds a part to a path that is already clean, given in reverse. -/
def pushClean (reversed : List PathPart) (part : PathPart) : List PathPart :=
  match part with
  | .current => reversed
  | .parent =>
      match reversed with
      | .root :: _ => reversed
      | .normal _ :: rest => rest
      | _ => .parent :: reversed
  | _ => part :: reversed

/-- The parts of a path without dots, and without double dots after a name or the root. -/
def cleanParts (list : List PathPart) : List PathPart :=
  (list.foldl pushClean []).reverse

/-- The text of a path after cleaning; nothing is left of an empty path but a dot. -/
def cleanText (list : List PathPart) : String :=
  match cleanParts list with
  | [] => "."
  | list => render list

def clean (path : String) : String :=
  cleanText (parts path)

/-- The parts of the directory that holds a path. -/
def directory (path : String) : List PathPart :=
  match (parts path).reverse with
  | [] => []
  | .root :: _ => []
  | _ :: rest => rest.reverse

/-- The path of a name inside a directory. -/
def join (path name : String) : String :=
  if path.isEmpty || path.endsWith "/" then path ++ name else path ++ "/" ++ name

/-- Whether a file name ends in an extension, with something in front of its dot. -/
def hasExtension (extension name : String) : Bool :=
  let ending := ("." ++ extension).toList
  let chars := name.toList
  ending.isSuffixOf chars && ending.length < chars.length

def fileName? (path : String) : Option String :=
  match (parts path).getLast? with
  | some (.normal name) => some name
  | _ => none

/-- The order of two parts: root, dot, double dot, then names. -/
def comparePart : PathPart → PathPart → Ordering
  | .root, .root => .eq
  | .root, _ => .lt
  | _, .root => .gt
  | .current, .current => .eq
  | .current, _ => .lt
  | _, .current => .gt
  | .parent, .parent => .eq
  | .parent, _ => .lt
  | _, .parent => .gt
  | .normal a, .normal b => compare a b

/-- The order of two paths, part by part; a path stands before its extensions. -/
def compareParts : List PathPart → List PathPart → Ordering
  | [], [] => .eq
  | [], _ :: _ => .lt
  | _ :: _, [] => .gt
  | a :: as, b :: bs =>
      match comparePart a b with
      | .eq => compareParts as bs
      | other => other

/-- Puts a path in its place among sorted ones, unless an equal one is there. -/
def insertSorted (path : String) : List String → List String
  | [] => [path]
  | other :: rest =>
      match compareParts (parts path) (parts other) with
      | .lt => path :: other :: rest
      | .eq => other :: rest
      | .gt => other :: insertSorted path rest

/-- What leads from one directory to a path, when both start at the root: the way up out of what
they do not share, then down. -/
def difference : List PathPart → List PathPart → List PathPart
  | a :: path, b :: base => if a = b then difference path base else
      List.replicate (base.length + 1) .parent ++ a :: path
  | path, base => List.replicate base.length .parent ++ path

end Path

end MiniPascal
