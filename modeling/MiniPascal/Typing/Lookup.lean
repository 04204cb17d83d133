import MiniPascal.Syntax.Stmt
import MiniPascal.Table
import MiniPascal.Text.Case
import MiniPascal.Typing.Chain

/-!
# Types of symbols

What the type checker knows: declared and inferred types of symbols, parents of classes and
element types of containers, each in a stack of scopes over a global table.
-/

namespace MiniPascal

/-- Types by symbol, in a stack of scopes over a global table; the innermost scope stands first. -/
structure TypeTable where
  global : Table String
  scopes : List (Table String)

namespace TypeTable

def empty : TypeTable where
  global := ∅
  scopes := []

/-- Records a type in the innermost scope, or globally at top level. -/
def set (table : TypeTable) (symbol type : String) : TypeTable :=
  match table.scopes with
  | [] => { table with global := table.global.insert symbol type }
  | scope :: outer => { table with scopes := scope.insert symbol type :: outer }

/-- Searches from the innermost scope outward, then globally. -/
def find? (table : TypeTable) (symbol : String) : Option String :=
  (table.scopes.findSome? (·.find? symbol)).or (table.global.find? symbol)

def enter (table : TypeTable) : TypeTable :=
  { table with scopes := ∅ :: table.scopes }

/-- Leaves the innermost scope; at top level nothing happens. -/
def leave (table : TypeTable) : TypeTable :=
  { table with scopes := table.scopes.tail }

/-- The number of entries in all scopes. -/
def size (table : TypeTable) : Nat :=
  table.scopes.foldl (fun count scope => count + scope.size) table.global.size

end TypeTable

/-- All that is known about types at a place. -/
structure TypeLookup where
  declared : TypeTable
  inferred : TypeTable
  parents : TypeTable
  generics : TypeTable
  currentClass : Option String

namespace TypeLookup

/-- Nothing is known. -/
def empty : TypeLookup where
  declared := .empty
  inferred := .empty
  parents := .empty
  generics := .empty
  currentClass := none

def enter (lookup : TypeLookup) : TypeLookup :=
  { lookup with
    declared := lookup.declared.enter
    inferred := lookup.inferred.enter
    parents := lookup.parents.enter
    generics := lookup.generics.enter }

def leave (lookup : TypeLookup) : TypeLookup :=
  { lookup with
    declared := lookup.declared.leave
    inferred := lookup.inferred.leave
    parents := lookup.parents.leave
    generics := lookup.generics.leave }

def declare (lookup : TypeLookup) (symbol type : String) : TypeLookup :=
  { lookup with declared := lookup.declared.set symbol type }

def infer (lookup : TypeLookup) (symbol type : String) : TypeLookup :=
  { lookup with inferred := lookup.inferred.set symbol type }

def inherit (lookup : TypeLookup) (name parent : String) : TypeLookup :=
  { lookup with parents := lookup.parents.set name parent }

/-- Records the type of a container's elements. -/
def specialize (lookup : TypeLookup) (symbol type : String) : TypeLookup :=
  { lookup with generics := lookup.generics.set symbol type }

/-- Whether a value of type `actual` may stand where `expected` is declared: the names agree up to
letter case, or a class on the chain of parents has the expected name.  Places on the chain that
differ only in case count as the same. -/
def isAssignable (lookup : TypeLookup) (expected actual : String) : Bool :=
  Text.sameName expected actual ||
    climb lookup.parents.find? Text.lower expected (lookup.parents.size + 1) []
      (lookup.parents.find? actual)

end TypeLookup

/-- Whether a type name leaves everything open. -/
def isAny (typeName : String) : Bool :=
  Text.sameName typeName anyType

/-- The symbol under which a member of a class is recorded. -/
def memberSymbol (className member : String) : String :=
  className ++ "::" ++ member

end MiniPascal
