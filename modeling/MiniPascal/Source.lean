import MiniPascal.Text.Lines

/-!
# Source texts and places in them

A source is a text together with the name of the file it claims to come from.  Places are given by
line and column, both counted from one; a column counts characters.
-/

namespace MiniPascal

/-- A program text and the path it goes by. -/
structure Source where
  path : String
  text : String

namespace Source

/-- The text of a line, without its terminator. -/
def line? (source : Source) (number : Nat) : Option String :=
  Text.line? source.text number

end Source

structure Position where
  line : Nat
  column : Nat
deriving DecidableEq, Repr

namespace Position

def start : Position where
  line := 1
  column := 1

/-- The place after a character. -/
def step (p : Position) (c : Char) : Position :=
  if c = '\n' then { line := p.line + 1, column := 1 }
  else { p with column := p.column + 1 }

/-- The place after a run of characters. -/
def advance (p : Position) (cs : List Char) : Position :=
  cs.foldl step p

@[simp] theorem advance_nil (p : Position) : p.advance [] = p := rfl

@[simp] theorem advance_cons (p : Position) (c : Char) (cs : List Char) :
    p.advance (c :: cs) = (p.step c).advance cs := rfl

end Position

/-- A stretch of text, both ends included. -/
structure Span where
  line : Nat
  column : Nat
  endLine : Nat
  endColumn : Nat
deriving DecidableEq, Repr

namespace Span

def point (p : Position) : Span where
  line := p.line
  column := p.column
  endLine := p.line
  endColumn := p.column

end Span

end MiniPascal
