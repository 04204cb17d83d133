import MiniPascal.Syntax.Stmt

/-!
# Assignments in a program

Assignments are expressions, so they stand in every kind of statement and at every depth of an
expression.  They are listed with the cast that they stand under, if any, in the order in which a
check of types comes by: values come before the assignments of them.
-/

namespace MiniPascal

/-- An assignment of a value to a name, under a cast or not. -/
structure Assignment where
  cast : Option String
  name : Token
  value : Expr

namespace Expr

mutual

/-- The assignments in an expression under a cast. -/
def assignments (cast : Option String) : Expr → List Assignment
  | .literal _ => []
  | .variable _ _ => []
  | .this _ _ => []
  | .super _ _ _ => []
  | .cast inner typeName => inner.assignments (some typeName)
  | .unary _ _ operand => operand.assignments none
  | .grouping inner => inner.assignments none
  | .binary left _ _ right => left.assignments none ++ right.assignments none
  | .logical left _ _ right => left.assignments none ++ right.assignments none
  | .call callee _ arguments => callee.assignments none ++ listAssignments arguments
  | .get object _ => object.assignments none
  | .subscript _ object index => object.assignments none ++ index.assignments none
  | .map _ entries => entryAssignments entries
  | .assign _ name value => value.assignments none ++ [⟨cast, name, value⟩]
  | .set object _ value => value.assignments none ++ object.assignments none

def listAssignments : List Expr → List Assignment
  | [] => []
  | e :: rest => e.assignments none ++ listAssignments rest

def entryAssignments : List (Expr × Expr) → List Assignment
  | [] => []
  | (key, value) :: rest =>
      key.assignments none ++ value.assignments none ++ entryAssignments rest

end

def optionalAssignments : Option Expr → List Assignment
  | none => []
  | some e => e.assignments none

end Expr

namespace Stmt

mutual

def assignments : Stmt → List Assignment
  | .block body => listAssignments body
  | .classDecl ⟨_, _, _, _, methods⟩ => methodAssignments methods
  | .enumDecl _ => []
  | .function ⟨_, _, _, _, body⟩ => listAssignments body
  | .ifThen condition thenBranch none =>
      condition.assignments none ++ thenBranch.assignments
  | .ifThen condition thenBranch (some elseBranch) =>
      condition.assignments none ++ thenBranch.assignments ++ elseBranch.assignments
  | .while condition body => condition.assignments none ++ body.assignments
  | .try _ body handlers otherwise =>
      listAssignments body ++ handlerAssignments handlers ++ listAssignments otherwise
  | .print _ value => value.assignments none
  | .exit _ value => Expr.optionalAssignments value
  | .raise _ value => Expr.optionalAssignments value
  | .var decl => Expr.optionalAssignments decl.initial
  | .break _ => []
  | .expression value => value.assignments none
  | .uses _ _ => []

def listAssignments : List Stmt → List Assignment
  | [] => []
  | s :: rest => s.assignments ++ listAssignments rest

def methodAssignments : List Function → List Assignment
  | [] => []
  | ⟨_, _, _, _, body⟩ :: rest => listAssignments body ++ methodAssignments rest

def handlerAssignments : List (Handler Stmt) → List Assignment
  | [] => []
  | ⟨_, _, body⟩ :: rest => body.assignments ++ handlerAssignments rest

end

end Stmt

end MiniPascal
