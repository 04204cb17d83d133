import MiniPascal.Syntax.Stmt
import MiniPascal.Table

/-!
# Values

The values of a running program.  Functions, classes, instances and containers have an identity;
what can change about them is kept in the store under that identity, so a value itself never
changes.
-/

namespace MiniPascal

abbrev FrameId := Nat

/-- An environment: the frames around a place, innermost first. -/
abbrev Env := List FrameId

/-- A function together with the environment it was declared in. -/
structure Fn where
  /-- Its identity, under which the store keeps its overloads. -/
  id : Nat
  decl : Function
  closure : Env
  isInitializer : Bool

namespace Fn

def name (f : Fn) : String :=
  f.decl.name.lexeme

def arity (f : Fn) : Nat :=
  f.decl.params.length

end Fn

inductive Class where
  | mk (id : Nat) (name : String) (superclass : Option Class) (methods : Table Fn)

namespace Class

def id : Class → Nat
  | mk id _ _ _ => id

def name : Class → String
  | mk _ name _ _ => name

/-- The methods that a class declares itself. -/
def methods : Class → Table Fn
  | mk _ _ _ methods => methods

/-- A class and its ancestors, nearest first. -/
def ancestry : Class → List Class
  | mk id name none methods => [mk id name none methods]
  | mk id name (some parent) methods => mk id name (some parent) methods :: ancestry parent

/-- The method of the nearest class that declares the name. -/
def findMethod : Class → String → Option Fn
  | mk _ _ none methods, name => methods.find? name
  | mk _ _ (some parent) methods, name =>
      match methods.find? name with
      | some method => some method
      | none => findMethod parent name

end Class

/-- An instance of a class; the store keeps its fields under its identity. -/
structure Instance where
  id : Nat
  cls : Class

structure EnumMember where
  enumName : String
  name : String
  ordinal : Int64
deriving DecidableEq

/-- The functions that every program can call. -/
inductive Builtin where
  | writeLn | write | str | ord | copy | length | clock | array | list | map | stack
  | assertTrue | assertEqual
deriving DecidableEq, Repr

inductive ContainerOp where
  | arrayGet | arraySet | listGet | listAdd | mapGet | mapPut | mapContains
  | stackPush | stackPop | stackPeek | stackIsEmpty
deriving DecidableEq, Repr

/-- What a native function does. -/
inductive NativeOp where
  | builtin (op : Builtin)
  | member (op : ContainerOp) (target : Nat)
deriving DecidableEq, Repr

/-- A native function; two of them are the same only if they were made together. -/
structure Native where
  id : Nat
  op : NativeOp

/-- Values.  Containers are given by their identity. -/
inductive Value where
  | nil
  | boolean (value : Bool)
  | integer (value : Int64)
  | double (value : Float)
  | char (value : Char)
  | string (value : String)
  | enum (member : EnumMember)
  | function (fn : Fn)
  | native (fn : Native)
  | class (cls : Class)
  | object (ref : Instance)
  | array (id : Nat)
  | list (id : Nat)
  | map (id : Nat)
  | stack (id : Nat)

namespace Value

instance : Inhabited Value := ⟨.nil⟩

def ofLiteral : Literal → Value
  | .nil => .nil
  | .boolean value => .boolean value
  | .integer value => .integer value
  | .double value => .double value
  | .char value => .char value
  | .string value => .string value

/-- Whether a value counts as true in a condition. -/
def isTruthy : Value → Bool
  | .nil => false
  | .boolean value => value
  | .integer value => value ≠ 0
  | .enum member => member.ordinal ≠ 0
  | _ => true

/-- The name of the type of a value, by which overloads and handlers are chosen. -/
def typeName : Value → String
  | .nil => "Nil"
  | .boolean _ => "Boolean"
  | .integer _ => "Integer"
  | .double _ => "Double"
  | .char _ => "Char"
  | .string _ => "String"
  | .enum member => member.enumName
  | .function _ => "Function"
  | .native _ => "Function"
  | .class _ => "Class"
  | .object ref => ref.cls.name
  | .array _ => "Array"
  | .list _ => "List"
  | .map _ => "Map"
  | .stack _ => "Stack"

/-- Equality of values: by content for constants and enumeration members, by identity for all
others.  Values of different kinds are never equal, and no number is not a number. -/
def same : Value → Value → Bool
  | .nil, .nil => true
  | .boolean a, .boolean b => a == b
  | .integer a, .integer b => a == b
  | .double a, .double b => a == b
  | .char a, .char b => a == b
  | .string a, .string b => a == b
  | .enum a, .enum b => a.enumName == b.enumName && a.ordinal == b.ordinal
  | .function a, .function b => a.id == b.id
  | .native a, .native b => a.id == b.id
  | .class a, .class b => a.id == b.id
  | .object a, .object b => a.id == b.id
  | .array a, .array b => a == b
  | .list a, .list b => a == b
  | .map a, .map b => a == b
  | .stack a, .stack b => a == b
  | _, _ => false

end Value

end MiniPascal
