import MiniPascal.Machine.Store
import MiniPascal.Text.Case

/-!
# Containers

Arrays, lists, stacks and maps: their members, subscripts and entries.  A map keeps its keys in
the order in which they came in and has each key once.
-/

namespace MiniPascal

namespace ContainerOp

def arity : ContainerOp → Nat
  | .arrayGet | .listGet | .listAdd | .mapGet | .mapContains | .stackPush => 1
  | .arraySet | .mapPut => 2
  | .stackPop | .stackPeek | .stackIsEmpty => 0

def name : ContainerOp → String
  | .arrayGet | .listGet | .mapGet => "get"
  | .arraySet => "set"
  | .listAdd => "add"
  | .mapPut => "put"
  | .mapContains => "contains"
  | .stackPush => "push"
  | .stackPop => "pop"
  | .stackPeek => "peek"
  | .stackIsEmpty => "isEmpty"

end ContainerOp

namespace Value

/-- A position, from an integer or a rounded double. -/
def toIndex : Value → Except RuntimeFault Nat
  | .integer n => if n < 0 then .error .indexRange else .ok n.toInt.toNat
  | .double x =>
      let n := x.round.toInt64
      if n < 0 then .error .indexRange else .ok n.toInt.toNat
  | _ => .error .indexKind

/-- The kind of container in the message about writing a property, none for other values. -/
def containerKind? : Value → Option String
  | .array _ => some "arrays"
  | .list _ => some "lists"
  | .map _ => some "maps"
  | .stack _ => some "stacks"
  | _ => none

end Value

/-- A member of a container: a method, or its length. -/
inductive Member where
  | method (op : ContainerOp) (target : Nat)
  | length (count : Nat)

namespace Store

/-- The member of a container with a name in small letters.  The outer option is empty for values
that are no containers. -/
def member? (s : Store) (target : Value) (name : String) : Option (Option Member) :=
  match target with
  | .array id => some <|
      if name = "get" then some (.method .arrayGet id)
      else if name = "set" then some (.method .arraySet id)
      else if name = "length" then some (.length (s.sequence id).size)
      else none
  | .list id => some <|
      if name = "get" then some (.method .listGet id)
      else if name = "add" then some (.method .listAdd id)
      else if name = "length" then some (.length (s.sequence id).size)
      else none
  | .map id => some <|
      if name = "get" then some (.method .mapGet id)
      else if name = "put" then some (.method .mapPut id)
      else if name = "contains" then some (.method .mapContains id)
      else none
  | .stack id => some <|
      if name = "push" then some (.method .stackPush id)
      else if name = "pop" then some (.method .stackPop id)
      else if name = "peek" then some (.method .stackPeek id)
      else if name = "isempty" then some (.method .stackIsEmpty id)
      else if name = "length" then some (.length (s.sequence id).size)
      else none
  | _ => none

/-- An element of an array, list or stack. -/
def elementAt (s : Store) (id : Nat) (index : Value) : Except RuntimeFault Value := do
  let i ← index.toIndex
  match (s.sequence id)[i]? with
  | some value => return value
  | none => throw .indexRange

def subscript (s : Store) (target index : Value) : Except RuntimeFault Value :=
  match target with
  | .string text => do
      let i ← index.toIndex
      match text.toList[i]? with
      | some c => return .char c
      | none => throw .indexRange
  | .list id | .array id => s.elementAt id index
  | _ => .error .subscriptKind

end Store

def lookupEntry (key : Value) : List (Value × Value) → Option Value
  | [] => none
  | (existing, value) :: rest => if existing.same key then some value else lookupEntry key rest

/-- Puts a value under a key: in the place of an equal key, or last. -/
def putEntry (key value : Value) : List (Value × Value) → List (Value × Value)
  | [] => [(key, value)]
  | (existing, old) :: rest =>
      if existing.same key then (existing, value) :: rest
      else (existing, old) :: putEntry key value rest

namespace Store

/-- The value of a method of a container, and what it changes. -/
def callContainer (s : Store) (op : ContainerOp) (target : Nat) (arguments : List Value) :
    Except RuntimeFault (Value × (Store → Store)) :=
  let first := arguments.headD .nil
  let second := arguments.tail.headD .nil
  match op with
  | .arrayGet | .listGet => do
      let value ← s.elementAt target first
      return (value, id)
  | .arraySet => do
      let i ← first.toIndex
      if i < (s.sequence target).size then
        return (second, (·.updateSequence target (·.setIfInBounds i second)))
      else
        throw .indexRange
  | .listAdd => .ok (.nil, (·.updateSequence target (·.push first)))
  | .mapGet => .ok ((lookupEntry first (s.mapEntries target)).getD .nil, id)
  | .mapPut => .ok (second, (·.updateMap target (putEntry first second)))
  | .mapContains => .ok (.boolean (lookupEntry first (s.mapEntries target)).isSome, id)
  | .stackPush => .ok (first, (·.updateSequence target (·.push first)))
  | .stackPop =>
      match (s.sequence target).back? with
      | some value => .ok (value, (·.updateSequence target (·.pop)))
      | none => .error .stackEmpty
  | .stackPeek =>
      match (s.sequence target).back? with
      | some value => .ok (value, id)
      | none => .error .stackEmpty
  | .stackIsEmpty => .ok (.boolean (s.sequence target).isEmpty, id)

end Store

end MiniPascal
