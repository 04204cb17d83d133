import MiniPascal.Machine.Fault

/-!
# The store

All that changes while a program runs: the frames of variables, the overloads of functions, the
fields of instances, the contents of containers, the parents of classes, the output and the number
of calls of the host.
-/

namespace MiniPascal

/-- The state of a running program. -/
structure Store where
  frames : Array (Table Value)
  overloads : Array (List Fn)
  fields : Array (Table Value)
  /-- The elements of arrays, lists and stacks; the top of a stack stands last. -/
  sequences : Array (Array Value)
  maps : Array (List (Value × Value))
  classCount : Nat
  nativeCount : Nat
  /-- The parent of each class by name, `Any` for a class without one. -/
  parents : Table String
  output : String
  /-- How often the host has been called. -/
  hostCalls : Nat

namespace Store

/-- The store in which nothing has happened. -/
def empty : Store where
  frames := #[]
  overloads := #[]
  fields := #[]
  sequences := #[]
  maps := #[]
  classCount := 0
  nativeCount := 0
  parents := ∅
  output := ""
  hostCalls := 0

/-! ## Frames -/

def frame (s : Store) (id : FrameId) : Table Value :=
  s.frames.getD id ∅

def newFrame (s : Store) (bindings : Table Value) : FrameId × Store :=
  (s.frames.size, { s with frames := s.frames.push bindings })

/-- Binds a name in a frame, whatever it was bound to. -/
def bindIn (s : Store) (id : FrameId) (name : String) (value : Value) : Store :=
  { s with frames := s.frames.modify id (·.insert name value) }

/-- The value of a name in the innermost frame of an environment. -/
def findHere? (s : Store) (env : Env) (name : String) : Option Value :=
  match env with
  | [] => none
  | id :: _ => (s.frame id).find? name

/-- The value of a name in the frame that lies `distance` frames outward. -/
def findAt? (s : Store) (env : Env) (distance : Nat) (name : String) : Option Value :=
  s.findHere? (env.drop distance) name

/-- The value of a name in the nearest frame that has it. -/
def find? (s : Store) : Env → String → Option Value
  | [], _ => none
  | id :: outer, name =>
      match (s.frame id).find? name with
      | some value => some value
      | none => find? s outer name

/-- Binds a name in the innermost frame, whatever it was bound to. -/
def bindHere (s : Store) (env : Env) (name : String) (value : Value) : Store :=
  match env with
  | [] => s
  | id :: _ => s.bindIn id name value

def frameAt? (env : Env) (distance : Nat) : Option FrameId :=
  (env.drop distance).head?

/-- The nearest frame that has a name. -/
def frameOf? (s : Store) : Env → String → Option FrameId
  | [], _ => none
  | id :: outer, name =>
      if (s.frame id).contains name then some id else frameOf? s outer name

/-- Rebinds a name in the nearest frame that has it. -/
def assign? (s : Store) (env : Env) (name : String) (value : Value) : Option Store :=
  match s.frameOf? env name with
  | some id => some (s.bindIn id name value)
  | none => none

/-- Binds a name in the frame that lies `distance` frames outward, if there is one. -/
def assignAt? (s : Store) (env : Env) (distance : Nat) (name : String) (value : Value) :
    Option Store :=
  match frameAt? env distance with
  | some id => some (s.bindIn id name value)
  | none => none

/-! ## Functions -/

def overloadsOf (s : Store) (f : Fn) : List Fn :=
  s.overloads.getD f.id []

/-- A new function without overloads. -/
def newFn (s : Store) (decl : Function) (closure : Env) (isInitializer : Bool) : Fn × Store :=
  ({ id := s.overloads.size, decl, closure, isInitializer },
    { s with overloads := s.overloads.push [] })

def addOverload (s : Store) (f overload : Fn) : Store :=
  { s with overloads := s.overloads.modify f.id (· ++ [overload]) }

/-- What declaring a name comes to. -/
inductive Definition where
  | fresh
  | overload (existing added : Fn)
  | refused

/-- What declaring a name in the innermost frame comes to: a function declared over a function is
an overload of it, and any other second declaration is refused. -/
def definition (s : Store) (env : Env) (name : String) (value : Value) : Definition :=
  match s.findHere? env name with
  | none => .fresh
  | some (.function existing) =>
      match value with
      | .function added => .overload existing added
      | _ => .refused
  | some _ => .refused

/-- Declares a name in the innermost frame. -/
def define? (s : Store) (env : Env) (name : String) (value : Value) : Option Store :=
  match s.definition env name value with
  | .fresh => some (s.bindHere env name value)
  | .overload existing added => some (s.addOverload existing added)
  | .refused => none

/-- A copy of a function whose environment binds `this`.  It has no overloads of its own. -/
def bindMethod (s : Store) (f : Fn) (self : Instance) : Fn × Store :=
  let (id, framed) := s.newFrame ((∅ : Table Value).insert "this" (.object self))
  framed.newFn f.decl (id :: f.closure) f.isInitializer

/-! ## Instances and containers -/

def fieldsOf (s : Store) (self : Instance) : Table Value :=
  s.fields.getD self.id ∅

/-- A new instance without fields. -/
def newInstance (s : Store) (cls : Class) : Instance × Store :=
  ({ id := s.fields.size, cls }, { s with fields := s.fields.push ∅ })

def setField (s : Store) (self : Instance) (name : String) (value : Value) : Store :=
  { s with fields := s.fields.modify self.id (·.insert name value) }

/-- The elements of an array, list or stack. -/
def sequence (s : Store) (id : Nat) : Array Value :=
  s.sequences.getD id #[]

/-- New elements for an array, list or stack. -/
def newSequence (s : Store) (elements : Array Value) : Nat × Store :=
  (s.sequences.size, { s with sequences := s.sequences.push elements })

/-- Changes the elements of an array, list or stack. -/
def updateSequence (s : Store) (id : Nat) (change : Array Value → Array Value) : Store :=
  { s with sequences := s.sequences.modify id change }

/-- The entries of a map, in the order in which their keys came in. -/
def mapEntries (s : Store) (id : Nat) : List (Value × Value) :=
  s.maps.getD id []

/-- New entries for a map. -/
def newMap (s : Store) (entries : List (Value × Value)) : Nat × Store :=
  (s.maps.size, { s with maps := s.maps.push entries })

/-- Changes the entries of a map. -/
def updateMap (s : Store) (id : Nat)
    (change : List (Value × Value) → List (Value × Value)) : Store :=
  { s with maps := s.maps.modify id change }

def newNative (s : Store) (op : NativeOp) : Native × Store :=
  ({ id := s.nativeCount, op }, { s with nativeCount := s.nativeCount + 1 })

def print (s : Store) (text : String) : Store :=
  { s with output := s.output ++ text }

def countHostCall (s : Store) : Store :=
  { s with hostCalls := s.hostCalls + 1 }

end Store

end MiniPascal
