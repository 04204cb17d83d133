import MiniPascal.Syntax.Expr

/-!
# Statements

The tree of a program: statements, and the declarations of variables, enumerations, functions and
classes.  `for` and `case` have no node of their own; they are lowered to loops and conditionals.
-/

namespace MiniPascal

/-- The type name of whatever has no declared type. -/
def anyType : String := "Any"

/-- The keyword that a function is declared with; a method may have none. -/
inductive FunctionKind where
  | function
  | procedure
  | constructor
  | method
deriving DecidableEq, Repr

namespace FunctionKind

def describe : FunctionKind → String
  | .function => "function"
  | .procedure => "procedure"
  | .constructor => "constructor"
  | .method => "method"

def title : FunctionKind → String
  | .function => "Function"
  | .procedure => "Procedure"
  | .constructor => "Constructor"
  | .method => "Method"

end FunctionKind

structure Param where
  name : Token
  typeName : String

/-- A variable with its type, the type of its elements and its first value. -/
structure VarDecl where
  name : Token
  typeName : String
  generic : String
  initial : Option Expr

/-- A field that a class announces; it exists once it is written. -/
structure Field where
  name : Token
  typeName : String
  generic : String

/-- An enumeration and its members in order. -/
structure EnumDecl where
  name : Token
  members : List Token

/-- A reference to the class that another class extends. -/
structure Superclass where
  id : NodeId
  name : Token

/-- A function whose body is a list of statements of type `S`. -/
structure FunctionDecl (S : Type) where
  kind : FunctionKind
  name : Token
  params : List Param
  returnType : String
  body : List S

/-- A class whose methods have statements of type `S`. -/
structure ClassDecl (S : Type) where
  name : Token
  superclass : Option Superclass
  fields : List Field
  enums : List EnumDecl
  methods : List (FunctionDecl S)

structure Handler (S : Type) where
  name : Token
  typeName : Option String
  body : S

inductive Stmt where
  | block (body : List Stmt)
  | classDecl (decl : ClassDecl Stmt)
  | enumDecl (decl : EnumDecl)
  | function (decl : FunctionDecl Stmt)
  | ifThen (condition : Expr) (thenBranch : Stmt) (elseBranch : Option Stmt)
  | while (condition : Expr) (body : Stmt)
  | try (keyword : Token) (body : List Stmt) (handlers : List (Handler Stmt))
      (otherwise : List Stmt)
  | print (keyword : Token) (value : Expr)
  | exit (keyword : Token) (value : Option Expr)
  | raise (keyword : Token) (value : Option Expr)
  | var (decl : VarDecl)
  | break (keyword : Token)
  | expression (value : Expr)
  | uses (keyword unit : Token)

abbrev Function := FunctionDecl Stmt

namespace Stmt

/-- A counting loop as a conditional one: the initial statement opens a block around the loop, and
the increment follows the body in a block of its own. -/
def lowerFor (initial : Option Stmt) (condition increment : Option Expr) (body : Stmt) : Stmt :=
  let step :=
    match increment with
    | some value => .block [body, .expression value]
    | none => body
  let loop := .while (condition.getD (.literal (.boolean true))) step
  match initial with
  | some statement => .block [statement, loop]
  | none => loop

/-- The arms of a `case` as a chain of conditionals; `none` when there is no arm. -/
def lowerCase (arms : List (Expr × Stmt)) (otherwise : Option Stmt) : Option Stmt :=
  arms.foldr (fun arm chain => some (.ifThen arm.1 arm.2 chain)) otherwise

end Stmt

end MiniPascal
