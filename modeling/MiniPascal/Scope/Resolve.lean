import MiniPascal.Scope.Binding

/-!
# Resolving names

A walk over a program that records the distance of every name in a scope.  The scopes follow the
frames that running the program creates: a block, a function, a class and each part of a guarded
block opens one.
-/

namespace MiniPascal

/-- The name of the methods that initialise instances. -/
def initializerName : String := "Init"

inductive FunctionSite where
  | outside | function | method | initializer
deriving DecidableEq, Repr

inductive ClassSite where
  | outside | base | derived
deriving DecidableEq, Repr

/-- What stands around a place. -/
structure Site where
  function : FunctionSite
  enclosing : ClassSite

namespace Site

def top : Site where
  function := .outside
  enclosing := .outside

end Site

namespace Resolution

mutual

/-- Resolves the names of an expression. -/
def expr (site : Site) : Expr → Resolution → Resolution
  | .literal _, r => r
  | .unary _ _ operand, r => expr site operand r
  | .binary left _ _ right, r => expr site right (expr site left r)
  | .logical left _ _ right, r => expr site right (expr site left r)
  | .grouping inner, r => expr site inner r
  | .variable id name, r =>
      let checked := if r.isPending name.lexeme then r.report .ownInitializer name else r
      checked.resolve id name.lexeme
  | .assign id name value, r => (expr site value r).resolve id name.lexeme
  | .call callee _ arguments, r => exprs site arguments (expr site callee r)
  | .get object _, r => expr site object r
  | .set object _ value, r => expr site object (expr site value r)
  | .subscript _ object index, r => expr site index (expr site object r)
  | .map _ items, r => entries site items r
  | .this id keyword, r =>
      match site.enclosing with
      | .outside => r.report .thisOutsideClass keyword
      | _ => r.resolve id "this"
  | .super id keyword _, r =>
      let checked :=
        match site.enclosing with
        | .outside => r.report .superOutsideClass keyword
        | .base => r.report .superWithoutParent keyword
        | .derived => r
      checked.resolve id "super"
  | .cast inner _, r => expr site inner r

def exprs (site : Site) : List Expr → Resolution → Resolution
  | [], r => r
  | e :: rest, r => exprs site rest (expr site e r)

def entries (site : Site) : List (Expr × Expr) → Resolution → Resolution
  | [], r => r
  | (key, value) :: rest, r => entries site rest (expr site value (expr site key r))

end

def optionalExpr (site : Site) (value : Option Expr) (r : Resolution) : Resolution :=
  match value with
  | some e => expr site e r
  | none => r

def enumDecl (decl : EnumDecl) (r : Resolution) : Resolution :=
  decl.members.foldl (fun r member => r.introduce member .enumMember) r

def params (list : List Param) (r : Resolution) : Resolution :=
  list.foldl (fun r param => r.introduce param.name .parameter) r

/-- Introduces a class with its enumerations, resolves its superclass and enters the scopes of its
methods. -/
def enterClass (name : Token) (superclass : Option Superclass) (enums : List EnumDecl)
    (r : Resolution) : Resolution :=
  let named := (enums.foldl (fun r decl => enumDecl decl r) r).introduce name .class
  let inherited :=
    match superclass with
    | some parent =>
        let checked :=
          if parent.name.lexeme = name.lexeme then named.report .selfInheritance parent.name
          else named
        ((checked.resolve parent.id parent.name.lexeme).enter).bindReceiver "super"
    | none => named
  inherited.enter.bindReceiver "this"

def leaveClass (superclass : Option Superclass) (r : Resolution) : Resolution :=
  match superclass with
  | some _ => r.leave.leave
  | none => r.leave

def insideClass (site : Site) (superclass : Option Superclass) : Site :=
  { site with enclosing := if superclass.isSome then .derived else .base }

def insideMethod (site : Site) (name : Token) : Site :=
  { site with function := if name.lexeme = initializerName then .initializer else .method }

/-- Checks a return. -/
def exitSite (site : Site) (keyword : Token) (value : Option Expr) (r : Resolution) :
    Resolution :=
  let left := if site.function = .outside then r.report .topLevelExit keyword else r
  if value.isSome && site.function = .initializer then left.report .initializerResult keyword
  else left

mutual

/-- Resolves the names of a statement. -/
def stmt (site : Site) : Stmt → Resolution → Resolution
  | .block body, r => (stmts site body r.enter).leave
  | .classDecl ⟨name, superclass, _, enums, classMethods⟩, r =>
      leaveClass superclass
        (methods (insideClass site superclass) classMethods (enterClass name superclass enums r))
  | .enumDecl decl, r => enumDecl decl r
  | .function ⟨_, name, parameters, _, body⟩, r =>
      (stmts { site with function := .function } body
        (params parameters (r.introduce name .function).enter)).leave
  | .ifThen condition thenBranch none, r => stmt site thenBranch (expr site condition r)
  | .ifThen condition thenBranch (some elseBranch), r =>
      stmt site elseBranch (stmt site thenBranch (expr site condition r))
  | .while condition body, r => stmt site body (expr site condition r)
  | .try _ body handlerList otherwise, r =>
      (stmts site otherwise (handlers site handlerList (stmts site body r.enter).leave).enter).leave
  | .print _ value, r => expr site value r
  | .exit keyword value, r => optionalExpr site value (exitSite site keyword value r)
  | .raise _ value, r => optionalExpr site value r
  | .var decl, r =>
      (optionalExpr site decl.initial (r.declare decl.name .variable)).define decl.name.lexeme
  | .break _, r => r
  | .expression value, r => expr site value r
  | .uses _ _, r => r

def stmts (site : Site) : List Stmt → Resolution → Resolution
  | [], r => r
  | s :: rest, r => stmts site rest (stmt site s r)

/-- Resolves the methods of a class, each in a scope of its own. -/
def methods (site : Site) : List Function → Resolution → Resolution
  | [], r => r
  | ⟨_, name, parameters, _, body⟩ :: rest, r =>
      methods site rest
        (stmts (insideMethod site name) body (params parameters r.enter)).leave

/-- Resolves handlers, each in a scope that binds its variable. -/
def handlers (site : Site) : List (Handler Stmt) → Resolution → Resolution
  | [], r => r
  | ⟨name, _, body⟩ :: rest, r =>
      handlers site rest (stmt site body (r.enter.introduce name .handler)).leave

end

def program (statements : List Stmt) : Resolution :=
  stmts .top statements start

end Resolution

end MiniPascal
