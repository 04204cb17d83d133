import MiniPascal.Files.Path

/-!
# File trees

What a program can see of a file system: files with their texts, and directories, by absolute
path, together with the current directory.
-/

namespace MiniPascal

/-- What stands at a path. -/
inductive FileNode where
  | text (contents : String)
  /-- A file whose bytes are no text. -/
  | binary
  | directory
deriving DecidableEq, Repr

namespace FileNode

def ofBytes (bytes : ByteArray) : FileNode :=
  match String.fromUTF8? bytes with
  | some contents => text contents
  | none => binary

end FileNode

/-- Why a path cannot be read. -/
inductive ReadFault where
  | missing
  | notDirectory
  | isDirectory
  | nameTooLong
  | notText
deriving DecidableEq, Repr

namespace ReadFault

def message : ReadFault → String
  | .missing => "No such file or directory (os error 2)"
  | .notDirectory => "Not a directory (os error 20)"
  | .isDirectory => "Is a directory (os error 21)"
  | .nameTooLong => "File name too long (os error 36)"
  | .notText => "stream did not contain valid UTF-8"

end ReadFault

/-- Files and directories by the names on the way from the root, and the current directory. -/
structure FileTree where
  current : List String
  entries : List (List String × FileNode)

namespace FileTree

def empty : FileTree where
  current := []
  entries := []

/-- One step down or up from a key. -/
def walk (key : List String) : PathPart → List String
  | .root => []
  | .current => key
  | .parent => key.dropLast
  | .normal name => key ++ [name]

/-- The key that a path stands for, whatever is there. -/
def keyOf (current : List String) (path : String) : List String :=
  (Path.parts path).foldl walk current

/-- A tree of files given by paths. -/
def ofFiles (current : List String) (files : List (String × FileNode)) : FileTree where
  current
  entries := files.map fun file => (keyOf current file.1, file.2)

/-- What stands at a key: a file, or a directory, which may be known only by what it holds. -/
def node? (tree : FileTree) (key : List String) : Option FileNode :=
  match tree.entries.lookup key with
  | some node => some node
  | none =>
      if key.isPrefixOf tree.current || tree.entries.any (key.isPrefixOf ·.1) then
        some .directory
      else none

/-- One step on the way to a path, from a directory. -/
def step (tree : FileTree) (key : List String) (piece : List Char) :
    Except ReadFault (List String) :=
  match tree.node? key with
  | none => .error .missing
  | some .directory =>
      match Path.partOf? piece with
      | some part =>
          if Path.maxNameBytes < (Path.partText part).utf8ByteSize then .error .nameTooLong
          else .ok (walk key part)
      | none => .ok key
  | some _ => .error .notDirectory

/-- The key that a path leads to.  Everything on the way has to be a directory, and the empty path
leads nowhere. -/
def locate (tree : FileTree) (path : String) : Except ReadFault (List String) :=
  if path.isEmpty then .error .missing
  else if Path.maxBytes < path.utf8ByteSize then .error .nameTooLong
  else
    let start := if path.startsWith "/" then [] else tree.current
    (Path.pieces path.toList).foldlM tree.step start

/-- What stands at a path. -/
def stat (tree : FileTree) (path : String) : Except ReadFault FileNode := do
  match tree.node? (← tree.locate path) with
  | some node => return node
  | none => throw .missing

/-- The text of the file at a path. -/
def read (tree : FileTree) (path : String) : Except ReadFault String := do
  match ← tree.stat path with
  | .text contents => return contents
  | .binary => throw .notText
  | .directory => throw .isDirectory

/-- The ways that lead to a way: its beginnings, itself included, but not the empty one. -/
def waysTo (way : List String) : List (List String) :=
  (List.range way.length).map fun count => way.take (count + 1)

/-- The ways from a directory down to all files and directories below it. -/
def waysBelow (tree : FileTree) (key : List String) : List (List String) :=
  tree.entries.flatMap fun entry =>
    if key.isPrefixOf entry.1 then waysTo (entry.1.drop key.length) else []

/-- The paths of all that lies below a directory, each once and in order, so that a directory
stands before what it holds.  They start with the path of the directory. -/
def pathsBelow (tree : FileTree) (key : List String) (directory : String) : List String :=
  (tree.waysBelow key).foldl
    (fun sorted way => Path.insertSorted (way.foldl Path.join directory) sorted) []

def size (tree : FileTree) : Nat :=
  tree.entries.length

/-- A path as it is shown: an absolute one relative to the current directory. -/
def displayPath (tree : FileTree) (path : String) : String :=
  match Path.parts path with
  | .root :: rest =>
      match Path.difference rest (tree.current.map .normal) with
      | [] => path
      | way => Path.render way
  | _ => path

end FileTree

end MiniPascal
