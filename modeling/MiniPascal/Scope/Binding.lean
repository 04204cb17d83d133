import Std.Data.TreeMap
import MiniPascal.Diagnostic
import MiniPascal.Syntax.Stmt
import MiniPascal.Table

/-!
# Scopes and distances

A scope holds the names declared in one block, function or class body.  The distance of a name is
the number of scopes to leave, from the innermost one outward, until it is found.  Names at top
level are in no scope and have no distance.
-/

namespace MiniPascal

/-- Recorded distances by node number. -/
abbrev Locals := Std.TreeMap NodeId Nat

/-- What declared a name. -/
inductive BindingKind where
  | variable
  | parameter
  | function
  | «class»
  | enumMember
  | handler
  | receiver
deriving DecidableEq, Repr

/-- A declared name; it is defined once its declaration is complete. -/
structure Binding where
  kind : BindingKind
  defined : Bool
deriving DecidableEq, Repr

/-- What a program does with names that it must not, or had better not. -/
inductive ScopeFault where
  | topLevelExit
  | initializerResult
  | ownInitializer
  | thisOutsideClass
  | superOutsideClass
  | superWithoutParent
  | selfInheritance
  | redeclared
deriving DecidableEq, Repr

namespace ScopeFault

def message : ScopeFault → String
  | .topLevelExit => "Can't return from top-level code."
  | .initializerResult => "Can't return a value from an initializer."
  | .ownInitializer => "Can't read local variable in its own initializer."
  | .thisOutsideClass => "Can't use 'this' outside a class."
  | .superOutsideClass => "Can't use 'super' outside a class."
  | .superWithoutParent => "Can't use 'super' in a class with no superclass."
  | .selfInheritance => "A class can't inherit from itself."
  | .redeclared => "Already a variable with this name in this scope."

/-- Leaving top-level code is allowed, but worth a warning. -/
def level : ScopeFault → Level
  | .topLevelExit => .warning
  | _ => .error

/-- The report of a fault at a token. -/
def diagnostic (fault : ScopeFault) (token : Token) : Diagnostic where
  message := fault.message
  level := fault.level
  span := token.span
  file := token.file

end ScopeFault

/-- The scopes around a place, innermost first, with the distances and reports so far. -/
structure Resolution where
  scopes : List (Table Binding)
  locals : Locals
  diagnostics : List Diagnostic

namespace Resolution

/-- Top level, with nothing recorded. -/
def start : Resolution where
  scopes := []
  locals := ∅
  diagnostics := []

def report (r : Resolution) (fault : ScopeFault) (token : Token) : Resolution :=
  { r with diagnostics := r.diagnostics ++ [fault.diagnostic token] }

def enter (r : Resolution) : Resolution :=
  { r with scopes := ∅ :: r.scopes }

def leave (r : Resolution) : Resolution :=
  { r with scopes := r.scopes.tail }

/-- The number of scopes to leave until a name is found. -/
def distance? (scopes : List (Table Binding)) (name : String) : Option Nat :=
  scopes.findIdx? (·.contains name)

/-- Records the distance of a name for a node, if it has one. -/
def resolve (r : Resolution) (id : NodeId) (name : String) : Resolution :=
  match distance? r.scopes name with
  | some distance => { r with locals := r.locals.insert id distance }
  | none => r

/-- Whether a second declaration of a name is an overload. -/
def isOverload (old new : BindingKind) : Bool :=
  old = .function && new = .function

/-- Declares a name in the innermost scope.  Only functions may be declared twice. -/
def declare (r : Resolution) (name : Token) (kind : BindingKind) : Resolution :=
  match r.scopes with
  | [] => r
  | scope :: outer =>
      let checked :=
        match scope.find? name.lexeme with
        | some old => if isOverload old.kind kind then r else r.report .redeclared name
        | none => r
      { checked with scopes := scope.insert name.lexeme { kind, defined := false } :: outer }

/-- Completes the declaration of a name in the innermost scope. -/
def define (r : Resolution) (name : String) : Resolution :=
  match r.scopes with
  | [] => r
  | scope :: outer =>
      match scope.find? name with
      | some binding =>
          { r with scopes := scope.insert name { binding with defined := true } :: outer }
      | none => r

/-- Declares and defines a name at once. -/
def introduce (r : Resolution) (name : Token) (kind : BindingKind) : Resolution :=
  (r.declare name kind).define name.lexeme

/-- Binds `this` or `super` in the innermost scope. -/
def bindReceiver (r : Resolution) (name : String) : Resolution :=
  match r.scopes with
  | [] => r
  | scope :: outer =>
      { r with scopes := scope.insert name { kind := .receiver, defined := true } :: outer }

/-- Whether a name is being declared in the innermost scope and not yet defined. -/
def isPending (r : Resolution) (name : String) : Bool :=
  match r.scopes with
  | [] => false
  | scope :: _ =>
      match scope.find? name with
      | some binding => !binding.defined
      | none => false

end Resolution

end MiniPascal
