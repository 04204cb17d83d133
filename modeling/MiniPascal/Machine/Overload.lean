import MiniPascal.Machine.Store
import MiniPascal.Text.Case
import MiniPascal.Typing.Chain

/-!
# Choosing overloads

A function accepts arguments when each parameter's type is `Any`, the argument's own type, or the
name of a class on the chain of parents above it.  Of several functions with one name, the first
that accepts the arguments is called.
-/

namespace MiniPascal

/-- Whether the chain of parents above `actual` meets a class named `expected`. -/
def isSubtype (parents : Table String) (expected actual : String) : Bool :=
  climb parents.find? id expected (parents.size + 1) [] (parents.find? actual)

def Param.accepts (parents : Table String) (param : Param) (actual : String) : Bool :=
  Text.sameName param.typeName anyType || Text.sameName param.typeName actual ||
    isSubtype parents param.typeName actual

namespace Fn

/-- Whether parameters take arguments of the given types, one by one. -/
def paramsAccept (parents : Table String) : List Param → List String → Bool
  | [], [] => true
  | param :: params, type :: types =>
      param.accepts parents type && paramsAccept parents params types
  | _, _ => false

/-- Whether a function takes arguments of the given types. -/
def accepts (parents : Table String) (f : Fn) (types : List String) : Bool :=
  paramsAccept parents f.decl.params types

end Fn

namespace Store

/-- The function itself or the first of its overloads that takes the arguments. -/
def findOverload (s : Store) (f : Fn) (types : List String) : Option Fn :=
  if f.accepts s.parents types then some f
  else (s.overloadsOf f).find? (·.accepts s.parents types)

/-- The overload that takes the arguments, in the nearest class that declares the name. -/
def findMethodMatching (s : Store) (cls : Class) (name : String) (types : List String) :
    Option Fn :=
  match cls.findMethod name with
  | some method => s.findOverload method types
  | none => none

/-- The first function of the given name, from the innermost frame outward, that takes the
arguments. -/
def findFunction (s : Store) : Env → String → List String → Option Fn
  | [], _, _ => none
  | id :: outer, name, types =>
      let here :=
        match (s.frame id).find? name with
        | some (.function f) => s.findOverload f types
        | _ => none
      match here with
      | some f => some f
      | none => findFunction s outer name types

/-- The instance that a function was bound to. -/
def boundInstance (s : Store) (f : Fn) : Option Instance :=
  match s.findHere? f.closure "this" with
  | some (.object self) => some self
  | _ => none

/-- The number of the frame of global variables. -/
def globalFrame : FrameId := 0

/-- The environment of top-level code. -/
def globals : Env := [globalFrame]

/-- A function chosen for a call, possibly a method that is yet to be bound to an instance. -/
inductive Choice where
  | function (f : Fn)
  | method (f : Fn) (self : Instance)

/-- The method for a bound function whose own overloads do not take the arguments. -/
def chooseMethod (s : Store) (f : Fn) (types : List String) : Option Choice :=
  match s.boundInstance f with
  | some self => (s.findMethodMatching self.cls f.name types).map (.method · self)
  | none => none

/-- The function to call: an overload of the callee, a method of the instance it is bound to, or
a function of the same name around the call or at top level. -/
def chooseOverload (s : Store) (env : Env) (f : Fn) (types : List String) : Option Choice :=
  ((s.findOverload f types).map .function).or <|
    (s.chooseMethod f types).or <|
      ((s.findFunction env f.name types).or (s.findFunction globals f.name types)).map .function

end Store

end MiniPascal
