import MiniPascal.Machine.Builtins
import MiniPascal.Machine.Operator
import MiniPascal.Scope.Resolve

/-!
# Evaluating expressions

Evaluation follows the tree of an expression.  How a function body is run is a parameter, so that
the recursion through calls is apart from the recursion on the tree.
-/

namespace MiniPascal

/-- An evaluation: it may change the store, and fails or yields a result. -/
abbrev Eval := EStateM Failure Store

/-- What evaluation depends on apart from the store. -/
structure Context where
  /-- The distances of names. -/
  locals : Locals
  host : Host
  /-- The frames around the place. -/
  env : Env

namespace Context

/-- The same context in another environment. -/
def inside (cx : Context) (env : Env) : Context :=
  { cx with env }

end Context

namespace Eval

def failAt (token : Token) (fault : RuntimeFault) : Eval α :=
  throw (.error { token, fault, value := none })

/-- The result of a rule, or a failure at a token. -/
def orFail (token : Token) : Except RuntimeFault α → Eval α
  | .ok value => pure value
  | .error fault => failAt token fault

def child (env : Env) (bindings : Table Value) : Eval Env := do
  let id ← modifyGet fun s => s.newFrame bindings
  return id :: env

/-- A method as a function bound to an instance. -/
def bindMethod (method : Fn) (self : Instance) : Eval Fn :=
  modifyGet fun s => s.bindMethod method self

/-- Declares a name in the innermost frame. -/
def define (env : Env) (name : Token) (value : Value) : Eval Unit := do
  match (← get).definition env name.lexeme value with
  | .fresh => modify (·.bindHere env name.lexeme value)
  | .overload existing added => modify (·.addOverload existing added)
  | .refused => failAt name .variableExists

/-! ## Names -/

/-- The instance around a place. -/
def thisInstance? (env : Env) : Eval (Option Instance) := do
  match (← get).find? env "this" with
  | some (.object self) => return some self
  | _ => return none

/-- A property of an instance: its class name, a field, or a bound method. -/
def property? (self : Instance) (name : String) : Eval (Option Value) := do
  if Text.sameName name "classname" then
    return some (.string self.cls.name)
  else
    match ((← get).fieldsOf self).find? name with
    | some value => return some value
    | none =>
        match self.cls.findMethod name with
        | some method => return some (.function (← bindMethod method self))
        | none => return none

/-- The variable that a name refers to: at its distance if it has one, else in the nearest frame
or at top level. -/
def readVariable (cx : Context) (id : NodeId) (name : String) : Eval (Option Value) := do
  let s ← get
  match cx.locals[id]? with
  | some distance => return s.findAt? cx.env distance name
  | none => return (s.find? cx.env name).or (s.find? Store.globals name)

/-- The value of a name: a variable, or else a property of the instance around. -/
def lookUp (cx : Context) (id : NodeId) (name : Token) : Eval Value := do
  match ← readVariable cx id name.lexeme with
  | some value => return value
  | none =>
      match ← thisInstance? cx.env with
      | none => failAt name (.undefinedVariable name.lexeme)
      | some self =>
          match ← property? self name.lexeme with
          | some value => return value
          | none => failAt name (.undefinedVariable name.lexeme)

/-- The frame whose variable a name refers to when it is assigned. -/
def targetFrame? (cx : Context) (id : NodeId) (name : String) : Eval (Option FrameId) := do
  match cx.locals[id]? with
  | some distance => return Store.frameAt? cx.env distance
  | none => return (← get).frameOf? cx.env name

/-- Assigns to a name: to a variable, or else to a field of the instance around. -/
def assign (cx : Context) (id : NodeId) (name : Token) (value : Value) : Eval Value := do
  match ← targetFrame? cx id name.lexeme with
  | some frame =>
      modify (·.bindIn frame name.lexeme value)
      return value
  | none =>
      match ← thisInstance? cx.env with
      | some self =>
          modify (·.setField self name.lexeme value)
          return value
      | none => failAt name (.undefinedVariable name.lexeme)

/-- A method of the superclass, bound to the instance around.  The instance stands in the frame
just inside that of the superclass. -/
def superMethod (cx : Context) (id : NodeId) (keyword method : Token) : Eval Value := do
  match cx.locals[id]? with
  | none => failAt keyword (.undefinedVariable keyword.lexeme)
  | some distance =>
      let s ← get
      match s.findAt? cx.env distance "super" with
      | some (.class superclass) =>
          let receiver :=
            match distance with
            | 0 => none
            | nearer + 1 => s.findAt? cx.env nearer "this"
          match receiver with
          | some (.object self) =>
              match superclass.findMethod method.lexeme with
              | some found => return .function (← bindMethod found self)
              | none => failAt method (.undefinedProperty method.lexeme)
          | _ => failAt keyword (.undefinedVariable "this")
      | _ => failAt keyword (.undefinedVariable keyword.lexeme)

/-! ## Members -/

def memberValue : Member → Eval Value
  | .length count => return Store.count count
  | .method op target => do
      let native ← modifyGet fun s => s.newNative (.member op target)
      return .native native

def getProperty (target : Value) (name : Token) : Eval Value := do
  match target with
  | .object self =>
      match ← property? self name.lexeme with
      | some value => return value
      | none => failAt name (.undefinedProperty name.lexeme)
  | other =>
      match (← get).member? other (Text.lower name.lexeme) with
      | some (some found) => memberValue found
      | some none => failAt name (.undefinedProperty name.lexeme)
      | none => failAt name .noProperties

/-- The instance whose field is written. -/
def fieldOwner (target : Value) (name : Token) : Eval Instance :=
  match target with
  | .object self => return self
  | other =>
      match other.containerKind? with
      | some kind => failAt name (.containerField kind)
      | none => failAt name .noFields

/-! ## Calls -/

/-- A way to run a function on arguments. -/
abbrev Caller := Fn → List Value → Eval Value

/-- Refuses a wrong number of arguments. -/
def checkArity (paren : Token) (expected got : Nat) : Eval Unit :=
  if expected = got then pure () else failAt paren (.arity expected got)

/-- The initializer to run for arguments of the given types: one that takes them, or else the
first of its name. -/
def initializer? (s : Store) (cls : Class) (types : List String) : Option Fn :=
  (cls.findMethod initializerName).map fun first =>
    (s.findMethodMatching cls initializerName types).getD first

/-- Makes an instance and runs its initializer. -/
def instantiate (call : Caller) (cls : Class) (paren : Token) (arguments : List Value) :
    Eval Value := do
  let types := arguments.map Value.typeName
  match initializer? (← get) cls types with
  | none =>
      checkArity paren 0 arguments.length
      let self ← modifyGet fun s => s.newInstance cls
      return .object self
  | some initializer =>
      checkArity paren initializer.arity arguments.length
      let self ← modifyGet fun s => s.newInstance cls
      let bound ← bindMethod initializer self
      discard <| call bound arguments
      return .object self

/-- The function of a choice, a method bound to its instance. -/
def bindChoice : Store.Choice → Eval Fn
  | .function f => return f
  | .method f self => bindMethod f self

def callNative (host : Host) (op : NativeOp) (paren : Token) (arguments : List Value) :
    Eval Value := do
  modify (·.entering op)
  let (value, change) ← orFail paren ((← get).callNative host op arguments)
  modify change
  return value

def applyValue (call : Caller) (cx : Context) (callee : Value) (paren : Token)
    (arguments : List Value) : Eval Value := do
  match callee with
  | .function f =>
      match (← get).chooseOverload cx.env f (arguments.map Value.typeName) with
      | none => failAt paren .noSignature
      | some choice =>
          let selected ← bindChoice choice
          checkArity paren selected.arity arguments.length
          call selected arguments
  | .native native =>
      checkArity paren native.op.arity arguments.length
      callNative cx.host native.op paren arguments
  | .class cls => instantiate call cls paren arguments
  | _ => failAt paren .notCallable

/-! ## Expressions -/

/-- Whether a left operand decides a conjunction or disjunction. -/
def decides (op : LogicalOp) (left : Value) : Bool :=
  match op with
  | .or => left.isTruthy
  | .and => !left.isTruthy

mutual

def expr (call : Caller) (cx : Context) : Expr → Eval Value
  | .literal value => pure (.ofLiteral value)
  | .cast inner _ => expr call cx inner
  | .grouping inner => expr call cx inner
  | .unary op token operand => do
      let value ← expr call cx operand
      orFail token (Value.applyUnary op value)
  | .binary left op token right => do
      let leftValue ← expr call cx left
      let rightValue ← expr call cx right
      orFail token ((← get).applyBinary op leftValue rightValue)
  | .logical left op _ right => do
      let leftValue ← expr call cx left
      if decides op leftValue then return leftValue else expr call cx right
  | .variable id name => lookUp cx id name
  | .this id keyword => lookUp cx id keyword
  | .super id keyword method => superMethod cx id keyword method
  | .assign id name value => do
      let result ← expr call cx value
      assign cx id name result
  | .call callee paren arguments => do
      let target ← expr call cx callee
      let values ← exprs call cx arguments
      applyValue call cx target paren values
  | .get object name => do
      let target ← expr call cx object
      getProperty target name
  | .set object name value => do
      let target ← expr call cx object
      let self ← fieldOwner target name
      let result ← expr call cx value
      modify (·.setField self name.lexeme result)
      return result
  | .subscript bracket object index => do
      let target ← expr call cx object
      let position ← expr call cx index
      orFail bracket ((← get).subscript target position)
  | .map _ items => do
      let contents ← entries call cx items []
      let id ← modifyGet fun s => s.newMap contents
      return .map id

/-- The values of expressions, from left to right. -/
def exprs (call : Caller) (cx : Context) : List Expr → Eval (List Value)
  | [] => pure []
  | e :: rest => do
      let value ← expr call cx e
      let values ← exprs call cx rest
      return value :: values

/-- Puts the entries of a map literal into a map, from left to right. -/
def entries (call : Caller) (cx : Context) :
    List (Expr × Expr) → List (Value × Value) → Eval (List (Value × Value))
  | [], contents => pure contents
  | (key, item) :: rest, contents => do
      let keyValue ← expr call cx key
      let itemValue ← expr call cx item
      entries call cx rest (putEntry keyValue itemValue contents)

end

end Eval

end MiniPascal
