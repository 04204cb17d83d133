import MiniPascal.Machine.Run
import MiniPascal.Proofs.Syntax.Reference

/-!
# Runs with a record

The evaluator beside a record of what it does with frames and names.  Whatever makes a frame, looks
a name up or calls something is spelled out here with the events it records; all else is taken over
as it is.
-/

namespace MiniPascal

/-- What a run records. -/
inductive Event where
  /-- A frame is made for a scope, inside an environment. -/
  | entered (region : Region) (outer : Env) (frame : FrameId)
  /-- A variable or a superclass is looked up. -/
  | read (cx : Context) (id : NodeId) (name : String) (s : Store)
  /-- A method of the superclass is looked up. -/
  | reaching (cx : Context) (id : NodeId) (s : Store)
  /-- The target of a call is about to be evaluated. -/
  | calling (cx : Context) (callee : Expr) (s : Store)
  /-- A target is called, with the store before it was evaluated and the one it is called in. -/
  | called (cx : Context) (callee : Expr) (before : Store) (target : Value)
      (arguments : List Value) (after : Store)

/-- A store with the record of how it came about, the latest event first. -/
structure Traced where
  store : Store
  events : List Event

/-- A computation with a record. -/
abbrev Tracing (ε : Type) := EStateM ε Traced

namespace Trace

def keep (x : EStateM ε Store α) : Tracing ε α := fun t =>
  match x t.store with
  | .ok value s => .ok value { t with store := s }
  | .error e s => .error e { t with store := s }

def note (event : Store → Event) : Tracing ε Unit := fun t =>
  .ok () { t with events := event t.store :: t.events }

/-! ## Frames -/

def enter (region : Region) (env : Env) (bindings : Table Value) : Tracing Failure Env := do
  note fun s => .entered region env s.frames.size
  keep (Eval.child env bindings)

def bindMethod (method : Fn) (self : Instance) : Tracing Failure Fn := do
  note fun s => .entered (.receiver method.decl) method.closure s.frames.size
  keep (Eval.bindMethod method self)

/-! ## Names -/

def property? (self : Instance) (name : String) : Tracing Failure (Option Value) := do
  if Text.sameName name "classname" then
    return some (.string self.cls.name)
  else
    let s ← keep get
    match (s.fieldsOf self).find? name with
    | some value => return some value
    | none =>
        match self.cls.findMethod name with
        | some method => return some (.function (← bindMethod method self))
        | none => return none

/-- The value of a name. -/
def lookUp (cx : Context) (id : NodeId) (name : Token) : Tracing Failure Value := do
  match ← keep (Eval.readVariable cx id name.lexeme) with
  | some value => return value
  | none =>
      match ← keep (Eval.thisInstance? cx.env) with
      | none => keep (Eval.failAt name (.undefinedVariable name.lexeme))
      | some self =>
          match ← property? self name.lexeme with
          | some value => return value
          | none => keep (Eval.failAt name (.undefinedVariable name.lexeme))

def superMethod (cx : Context) (id : NodeId) (keyword method : Token) : Tracing Failure Value := do
  match cx.locals[id]? with
  | none => keep (Eval.failAt keyword (.undefinedVariable keyword.lexeme))
  | some distance =>
      let s ← keep get
      match s.findAt? cx.env distance "super" with
      | some (.class superclass) =>
          let receiver :=
            match distance with
            | 0 => none
            | nearer + 1 => s.findAt? cx.env nearer "this"
          match receiver with
          | some (.object self) =>
              match superclass.findMethod method.lexeme with
              | some found => return .function (← bindMethod found self)
              | none => keep (Eval.failAt method (.undefinedProperty method.lexeme))
          | _ => keep (Eval.failAt keyword (.undefinedVariable "this"))
      | _ => keep (Eval.failAt keyword (.undefinedVariable keyword.lexeme))

def getProperty (target : Value) (name : Token) : Tracing Failure Value := do
  match target with
  | .object self =>
      match ← property? self name.lexeme with
      | some value => return value
      | none => keep (Eval.failAt name (.undefinedProperty name.lexeme))
  | other => keep do
      match (← get).member? other (Text.lower name.lexeme) with
      | some (some found) => Eval.memberValue found
      | some none => Eval.failAt name (.undefinedProperty name.lexeme)
      | none => Eval.failAt name .noProperties

/-! ## Calls -/

abbrev Caller := Fn → List Value → Tracing Failure Value

def instantiate (call : Caller) (cls : Class) (paren : Token) (arguments : List Value) :
    Tracing Failure Value := do
  let s ← keep get
  match Eval.initializer? s cls (arguments.map Value.typeName) with
  | none =>
      keep (Eval.checkArity paren 0 arguments.length)
      let self ← keep (modifyGet fun s => s.newInstance cls)
      return .object self
  | some initializer =>
      keep (Eval.checkArity paren initializer.arity arguments.length)
      let self ← keep (modifyGet fun s => s.newInstance cls)
      let bound ← bindMethod initializer self
      discard <| call bound arguments
      return .object self

def bindChoice : Store.Choice → Tracing Failure Fn
  | .function f => return f
  | .method f self => bindMethod f self

/-- Calls a value. -/
def applyValue (call : Caller) (cx : Context) (callee : Value) (paren : Token)
    (arguments : List Value) : Tracing Failure Value := do
  match callee with
  | .function f =>
      let s ← keep get
      match s.chooseOverload cx.env f (arguments.map Value.typeName) with
      | none => keep (Eval.failAt paren .noSignature)
      | some choice =>
          let selected ← bindChoice choice
          keep (Eval.checkArity paren selected.arity arguments.length)
          call selected arguments
  | .native native => keep do
      Eval.checkArity paren native.op.arity arguments.length
      Eval.callNative cx.host native.op paren arguments
  | .class cls => instantiate call cls paren arguments
  | _ => keep (Eval.failAt paren .notCallable)

/-! ## Expressions -/

mutual

def expr (call : Caller) (cx : Context) : Expr → Tracing Failure Value
  | .literal value => pure (.ofLiteral value)
  | .cast inner _ => expr call cx inner
  | .grouping inner => expr call cx inner
  | .unary op token operand => do
      let value ← expr call cx operand
      keep (Eval.orFail token (Value.applyUnary op value))
  | .binary left op token right => do
      let leftValue ← expr call cx left
      let rightValue ← expr call cx right
      keep do Eval.orFail token ((← get).applyBinary op leftValue rightValue)
  | .logical left op _ right => do
      let leftValue ← expr call cx left
      if Eval.decides op leftValue then return leftValue else expr call cx right
  | .variable id name => do
      note fun s => .read cx id name.lexeme s
      lookUp cx id name
  | .this id keyword => lookUp cx id keyword
  | .super id keyword method => do
      note fun s => .reaching cx id s
      superMethod cx id keyword method
  | .assign id name value => do
      let result ← expr call cx value
      keep (Eval.assign cx id name result)
  | .call callee paren arguments => do
      note fun s => .calling cx callee s
      let before ← keep get
      let target ← expr call cx callee
      let values ← exprs call cx arguments
      note fun after => .called cx callee before target values after
      applyValue call cx target paren values
  | .get object name => do
      let target ← expr call cx object
      getProperty target name
  | .set object name value => do
      let target ← expr call cx object
      let self ← keep (Eval.fieldOwner target name)
      let result ← expr call cx value
      keep (modify (·.setField self name.lexeme result))
      return result
  | .subscript bracket object index => do
      let target ← expr call cx object
      let position ← expr call cx index
      keep do Eval.orFail bracket ((← get).subscript target position)
  | .map _ items => do
      let contents ← entries call cx items []
      let id ← keep (modifyGet fun s => s.newMap contents)
      return .map id

def exprs (call : Caller) (cx : Context) : List Expr → Tracing Failure (List Value)
  | [] => pure []
  | e :: rest => do
      let value ← expr call cx e
      let values ← exprs call cx rest
      return value :: values

/-- Puts the entries of a map literal into a map, from left to right. -/
def entries (call : Caller) (cx : Context) :
    List (Expr × Expr) → List (Value × Value) → Tracing Failure (List (Value × Value))
  | [], contents => pure contents
  | (key, item) :: rest, contents => do
      let keyValue ← expr call cx key
      let itemValue ← expr call cx item
      entries call cx rest (putEntry keyValue itemValue contents)

end

/-! ## Classes -/

def superclass? (cx : Context) : Option Superclass → Tracing Failure (Option Class)
  | none => pure none
  | some parent => do
      note fun s => .read cx parent.id parent.name.lexeme s
      match ← lookUp cx parent.id parent.name with
      | .class cls => return some cls
      | _ => keep (Eval.failAt parent.name .superclassKind)

def methodEnv (decl : ClassDecl Stmt) (env : Env) : Option Class → Tracing Failure Env
  | none => pure env
  | some parent => enter (.parent decl) env ((∅ : Table Value).insert "super" (.class parent))

def defineClass (cx : Context) (decl : ClassDecl Stmt) : Tracing Failure Unit := do
  keep (Exec.defineEnums cx.env decl.enums)
  let superclass ← superclass? cx decl.superclass
  keep (Eval.define cx.env decl.name .nil)
  let env ← methodEnv decl cx.env superclass
  let methods ← keep (Exec.addMethods env ∅ decl.methods)
  let cls ← keep (modifyGet fun s => Exec.newClass decl.name.lexeme superclass methods s)
  keep (modify (·.bindHere cx.env decl.name.lexeme (.class cls)))

/-! ## Statements -/

def ofEval (eval : Tracing Failure α) : Tracing Signal α := fun t =>
  match eval t with
  | .ok value t => .ok value t
  | .error failure t => .error (.failed failure) t

def repeatWhile (condition : Tracing Failure Value) (body : Tracing Signal Unit) :
    Nat → Tracing Signal Unit
  | 0, t => .error (.failed .starved) t
  | fuel + 1, t =>
      match condition t with
      | .error failure t => .error (.failed failure) t
      | .ok value t =>
          if value.isTruthy then
            match body t with
            | .ok _ t => repeatWhile condition body fuel t
            | .error .break t => .ok () t
            | .error signal t => .error signal t
          else .ok () t

def optionalValue (call : Caller) (cx : Context) : Option Expr → Tracing Failure Value
  | none => pure .nil
  | some e => expr call cx e

def raiseValue (call : Caller) (cx : Context) (keyword : Token) :
    Option Expr → Tracing Failure Unit
  | none => keep (Eval.failAt keyword .raisedNothing)
  | some e => do
      let value ← expr call cx e
      keep do
        let text := (← get).display value
        throw (.error { token := keyword, fault := .raised text, value := some value })

def catchError (body : Tracing Signal Unit) (handle : RuntimeError → Tracing Signal Unit) :
    Tracing Signal Unit := fun t =>
  match body t with
  | .error (.failed (.error error)) t => handle error t
  | other => other

mutual

def stmt (call : Caller) (fuel : Nat) (cx : Context) : Stmt → Tracing Signal Unit
  | .block body => do
      let env ← ofEval (enter (.block body) cx.env ∅)
      stmts call fuel (cx.inside env) body
  | .classDecl decl => ofEval (defineClass cx decl)
  | .enumDecl decl => ofEval (keep (Exec.defineEnum cx.env decl))
  | .function decl => ofEval (keep (Exec.defineFunction cx.env decl))
  | .ifThen condition thenBranch none => do
      let value ← ofEval (expr call cx condition)
      if value.isTruthy then stmt call fuel cx thenBranch else pure ()
  | .ifThen condition thenBranch (some elseBranch) => do
      let value ← ofEval (expr call cx condition)
      if value.isTruthy then stmt call fuel cx thenBranch else stmt call fuel cx elseBranch
  | .while condition body =>
      repeatWhile (expr call cx condition) (stmt call fuel cx body) fuel
  | .try _ body handlerList otherwise => do
      let env ← ofEval (enter (.block body) cx.env ∅)
      catchError (stmts call fuel (cx.inside env) body) fun error => do
        let raised := error.raisedValue
        match Exec.findHandler handlerList raised with
        | some index => handler call fuel cx raised handlerList index
        | none =>
            let env ← ofEval (enter (.block otherwise) cx.env ∅)
            stmts call fuel (cx.inside env) otherwise
  | .print keyword value => ofEval do
      let result ← expr call cx value
      keep (Exec.printLine cx.host keyword result)
  | .exit _ value => do
      let result ← ofEval (optionalValue call cx value)
      throw (.exit result)
  | .raise keyword value => ofEval (raiseValue call cx keyword value)
  | .var decl => ofEval do
      let value ← optionalValue call cx decl.initial
      keep (Eval.define cx.env decl.name value)
  | .break _ => throw .break
  | .expression value => ofEval (discard <| expr call cx value)
  | .uses _ _ => pure ()

def stmts (call : Caller) (fuel : Nat) (cx : Context) : List Stmt → Tracing Signal Unit
  | [] => pure ()
  | s :: rest => do
      stmt call fuel cx s
      stmts call fuel cx rest

def handler (call : Caller) (fuel : Nat) (cx : Context) (raised : Value) :
    List (Handler Stmt) → Nat → Tracing Signal Unit
  | [], _ => pure ()
  | ⟨name, typeName, body⟩ :: _, 0 => do
      let env ← ofEval (enter (.handler ⟨name, typeName, body⟩) cx.env
        ((∅ : Table Value).insert name.lexeme raised))
      stmt call fuel (cx.inside env) body
  | _ :: rest, index + 1 => handler call fuel cx raised rest index

end

def resultOf (body : Tracing Signal Unit) : Tracing Failure Value := fun t =>
  match body t with
  | .ok _ t => .ok .nil t
  | .error .break t => .ok .nil t
  | .error (.exit value) t => .ok value t
  | .error (.failed failure) t => .error failure t

def callFn (cx : Context) : Nat → Caller
  | 0, _, _ => throw .starved
  | fuel + 1, f, arguments => do
      let env ← enter (.function f.decl) f.closure (Exec.bindParams ∅ f.decl.params arguments)
      let returned ← resultOf (stmts (callFn cx fuel) fuel (cx.inside env) f.decl.body)
      if f.isInitializer then
        let s ← keep get
        return (s.findHere? f.closure "this").getD .nil
      else
        return returned

def ended : EStateM.Result ε Traced α → Traced
  | .ok _ t => t
  | .error _ t => t

def program (m : Machine) (fuel : Nat) (statements : List Stmt) : Tracing Signal Unit :=
  stmts (callFn m.context fuel) fuel m.context statements

end Trace

end MiniPascal
