import MiniPascal.Proofs.Syntax.Reference

/-!
# Variables of a program

The variables that a program declares, each at its place.  The first value of a local variable may
not read the variable, but nothing keeps it from assigning to it.
-/

namespace MiniPascal

/-- A variable that is declared at a place. -/
structure LocatedVariable where
  place : Place
  decl : VarDecl

namespace Stmt

def optionalMentions (value : Option Expr) : List Mention :=
  match value with
  | some e => e.mentions
  | none => []

end Stmt

namespace LocatedVariable

/-- A mention assigns to a local variable in the first value of that variable. -/
structure AssignsOwn (v : LocatedVariable) (m : Mention) : Prop where
  isLocal : v.place ≠ []
  write : m.use = .write
  own : m.name = v.decl.name.lexeme
  mem : m ∈ Stmt.optionalMentions v.decl.initial

end LocatedVariable

namespace Stmt

mutual

/-- The variables that are declared in a statement at a place. -/
def locatedVariables (p : Place) : Stmt → List LocatedVariable
  | .block body => listVariables (p.enter (.block body) []) body
  | .classDecl ⟨name, superclass, fields, enums, methods⟩ =>
      methodVariables (p.insideClass ⟨name, superclass, fields, enums, methods⟩) methods
  | .function ⟨kind, name, params, returnType, body⟩ =>
      listVariables ((p.declare [name.lexeme]).enter
        (.function ⟨kind, name, params, returnType, body⟩)
        (params.map fun param => param.name.lexeme)) body
  | .ifThen _ thenBranch none => locatedVariables p thenBranch
  | .ifThen _ thenBranch (some elseBranch) =>
      locatedVariables p thenBranch ++ locatedVariables p elseBranch
  | .while _ body => locatedVariables p body
  | .try _ body handlers otherwise =>
      listVariables (p.enter (.block body) []) body ++ handlerVariables p handlers ++
        listVariables (p.enter (.block otherwise) []) otherwise
  | .var decl => [⟨p, decl⟩]
  | .enumDecl _ | .print _ _ | .exit _ _ | .raise _ _ | .break _ | .expression _ | .uses _ _ => []

def listVariables (p : Place) : List Stmt → List LocatedVariable
  | [] => []
  | s :: rest => locatedVariables p s ++ listVariables (p.declare s.declared) rest

def methodVariables (p : Place) : List Function → List LocatedVariable
  | [] => []
  | ⟨kind, name, params, returnType, body⟩ :: rest =>
      listVariables ((p.enter (.receiver ⟨kind, name, params, returnType, body⟩) ["this"]).enter
        (.function ⟨kind, name, params, returnType, body⟩)
        (params.map fun param => param.name.lexeme)) body ++ methodVariables p rest

def handlerVariables (p : Place) : List (Handler Stmt) → List LocatedVariable
  | [] => []
  | ⟨name, typeName, body⟩ :: rest =>
      locatedVariables (p.enter (.handler ⟨name, typeName, body⟩) [name.lexeme]) body ++
        handlerVariables p rest

end

theorem listVariables_append (p : Place) (xs ys : List Stmt) :
    listVariables p (xs ++ ys) =
      listVariables p xs ++ listVariables (p.declare (declaredBy xs)) ys := by
  induction xs generalizing p with
  | nil => simp [listVariables, declaredBy]
  | cons s rest ih => simp [listVariables, ih, declaredBy, Place.declare_append]

/-- A node of a program assigns to a local variable in the first value of that variable. -/
def AssignsOwn (program : List Stmt) (id : NodeId) : Prop :=
  ∃ var ∈ listVariables [] program, ∃ m : Mention, m.id = id ∧ var.AssignsOwn m

end Stmt

end MiniPascal
