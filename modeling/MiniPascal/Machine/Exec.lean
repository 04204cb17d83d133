import MiniPascal.Machine.Eval

/-!
# Executing statements

Execution follows the tree of a statement.  Fuel bounds the rounds of every loop and the depth of
calls; running out of it is a failure of its own kind.
-/

namespace MiniPascal

/-- An execution: it may change the store, and ends normally or by a signal. -/
abbrev Exec := EStateM Signal Store

namespace Exec

/-- An evaluation as part of a statement. -/
def ofEval (eval : Eval α) : Exec α := fun s =>
  match eval s with
  | .ok value s => .ok value s
  | .error failure s => .error (.failed failure) s

/-- Repeats a body as long as a condition holds; `break` in the body ends the loop. -/
def repeatWhile (condition : Eval Value) (body : Exec Unit) : Nat → Exec Unit
  | 0, s => .error (.failed .starved) s
  | fuel + 1, s =>
      match condition s with
      | .error failure s => .error (.failed failure) s
      | .ok value s =>
          if value.isTruthy then
            match body s with
            | .ok _ s => repeatWhile condition body fuel s
            | .error .break s => .ok () s
            | .error signal s => .error signal s
          else .ok () s

/-! ## Handlers -/

/-- Whether a handler is declared for a type of the given name. -/
def handles (typeName : String) (handler : Handler Stmt) : Bool :=
  match handler.typeName with
  | some declared => Text.sameName declared typeName
  | none => false

/-- Whether a handler takes every value. -/
def handlesAll (handler : Handler Stmt) : Bool :=
  match handler.typeName with
  | some declared => Text.sameName declared anyType
  | none => true

/-- The names of the proper ancestors of a value's class, nearest first. -/
def ancestorNames : Value → List String
  | .object self => self.cls.ancestry.tail.map Class.name
  | _ => []

/-- The position of the handler for a value: one for its own type, for its nearest ancestor with a
handler, or else one that takes every value; in each case the first in order. -/
def findHandler (handlers : List (Handler Stmt)) (raised : Value) : Option Nat :=
  ((raised.typeName :: ancestorNames raised).findSome?
    fun name => handlers.findIdx? (handles name)).or (handlers.findIdx? handlesAll)

/-! ## Declarations -/

/-- Declares the members of an enumeration, the first with the given ordinal. -/
def defineMembers (env : Env) (enumName : String) : Nat → List Token → Eval Unit
  | _, [] => pure ()
  | ordinal, member :: rest => do
      Eval.define env member
        (.enum { enumName, name := member.lexeme, ordinal := Int64.ofNat ordinal })
      defineMembers env enumName (ordinal + 1) rest

def defineEnum (env : Env) (decl : EnumDecl) : Eval Unit :=
  defineMembers env decl.name.lexeme 0 decl.members

def defineEnums (env : Env) : List EnumDecl → Eval Unit
  | [] => pure ()
  | decl :: rest => do
      defineEnum env decl
      defineEnums env rest

def defineFunction (env : Env) (decl : Function) : Eval Unit := do
  let f ← modifyGet fun s => s.newFn decl env false
  Eval.define env decl.name (.function f)

/-- The class that a class extends. -/
def superclass? (cx : Context) : Option Superclass → Eval (Option Class)
  | none => pure none
  | some parent => do
      match ← Eval.lookUp cx parent.id parent.name with
      | .class cls => return some cls
      | _ => Eval.failAt parent.name .superclassKind

/-- The environment of methods: under a superclass, a frame that binds `super`. -/
def methodEnv (env : Env) : Option Class → Eval Env
  | none => pure env
  | some parent => Eval.child env ((∅ : Table Value).insert "super" (.class parent))

/-- Adds a method to those of a class, as an overload if the name is taken. -/
def addMethod (env : Env) (methods : Table Fn) (decl : Function) : Eval (Table Fn) := do
  let name := decl.name.lexeme
  let f ← modifyGet fun s => s.newFn decl env (name == initializerName)
  match methods.find? name with
  | some first =>
      modify (·.addOverload first f)
      return methods
  | none => return methods.insert name f

def addMethods (env : Env) : Table Fn → List Function → Eval (Table Fn)
  | methods, [] => pure methods
  | methods, decl :: rest => do
      let extended ← addMethod env methods decl
      addMethods env extended rest

/-- A new class, recorded under its name with its parent. -/
def newClass (name : String) (superclass : Option Class) (methods : Table Fn) (s : Store) :
    Class × Store :=
  let parent := (superclass.map Class.name).getD anyType
  (.mk s.classCount name superclass methods,
    { s with classCount := s.classCount + 1, parents := s.parents.insert name parent })

def defineClass (cx : Context) (decl : ClassDecl Stmt) : Eval Unit := do
  defineEnums cx.env decl.enums
  let superclass ← superclass? cx decl.superclass
  Eval.define cx.env decl.name .nil
  let env ← methodEnv cx.env superclass
  let methods ← addMethods env ∅ decl.methods
  let cls ← modifyGet fun s => newClass decl.name.lexeme superclass methods s
  modify (·.bindHere cx.env decl.name.lexeme (.class cls))

/-! ## Statements -/

/-- The value of an expression that may be absent. -/
def optionalValue (call : Eval.Caller) (cx : Context) : Option Expr → Eval Value
  | none => pure .nil
  | some e => Eval.expr call cx e

/-- Prints a value on a line of its own, which is what `WriteLn` does. -/
def printLine (host : Host) (keyword : Token) (value : Value) : Eval Unit :=
  discard <| Eval.callNative host (.builtin .writeLn) keyword [value]

/-- Raises a value, or nothing. -/
def raiseValue (call : Eval.Caller) (cx : Context) (keyword : Token) :
    Option Expr → Eval Unit
  | none => Eval.failAt keyword .raisedNothing
  | some e => do
      let value ← Eval.expr call cx e
      let text := (← get).display value
      throw (.error { token := keyword, fault := .raised text, value := some value })

/-- Catches an error of a body. -/
def catchError (body : Exec Unit) (handle : RuntimeError → Exec Unit) : Exec Unit := fun s =>
  match body s with
  | .error (.failed (.error error)) s => handle error s
  | other => other

mutual

def stmt (call : Eval.Caller) (fuel : Nat) (cx : Context) : Stmt → Exec Unit
  | .block body => do
      let env ← ofEval (Eval.child cx.env ∅)
      stmts call fuel (cx.inside env) body
  | .classDecl decl => ofEval (defineClass cx decl)
  | .enumDecl decl => ofEval (defineEnum cx.env decl)
  | .function decl => ofEval (defineFunction cx.env decl)
  | .ifThen condition thenBranch none => do
      let value ← ofEval (Eval.expr call cx condition)
      if value.isTruthy then stmt call fuel cx thenBranch else pure ()
  | .ifThen condition thenBranch (some elseBranch) => do
      let value ← ofEval (Eval.expr call cx condition)
      if value.isTruthy then stmt call fuel cx thenBranch else stmt call fuel cx elseBranch
  | .while condition body =>
      repeatWhile (Eval.expr call cx condition) (stmt call fuel cx body) fuel
  | .try _ body handlerList otherwise => do
      let env ← ofEval (Eval.child cx.env ∅)
      catchError (stmts call fuel (cx.inside env) body) fun error => do
        let raised := error.raisedValue
        match findHandler handlerList raised with
        | some index => handler call fuel cx raised handlerList index
        | none =>
            let env ← ofEval (Eval.child cx.env ∅)
            stmts call fuel (cx.inside env) otherwise
  | .print keyword value => ofEval do
      let result ← Eval.expr call cx value
      printLine cx.host keyword result
  | .exit _ value => do
      let result ← ofEval (optionalValue call cx value)
      throw (.exit result)
  | .raise keyword value => ofEval (raiseValue call cx keyword value)
  | .var decl => ofEval do
      let value ← optionalValue call cx decl.initial
      Eval.define cx.env decl.name value
  | .break _ => throw .break
  | .expression value => ofEval (discard <| Eval.expr call cx value)
  | .uses _ _ => pure ()

/-- Executes statements in order up to the first signal. -/
def stmts (call : Eval.Caller) (fuel : Nat) (cx : Context) : List Stmt → Exec Unit
  | [] => pure ()
  | s :: rest => do
      stmt call fuel cx s
      stmts call fuel cx rest

/-- Executes the handler at a position, with its variable bound to the raised value. -/
def handler (call : Eval.Caller) (fuel : Nat) (cx : Context) (raised : Value) :
    List (Handler Stmt) → Nat → Exec Unit
  | [], _ => pure ()
  | ⟨name, _, body⟩ :: _, 0 => do
      let env ← ofEval (Eval.child cx.env ((∅ : Table Value).insert name.lexeme raised))
      stmt call fuel (cx.inside env) body
  | _ :: rest, index + 1 => handler call fuel cx raised rest index

end

/-- The frame of a call: parameters bound to arguments, one by one. -/
def bindParams : Table Value → List Param → List Value → Table Value
  | bindings, param :: params, value :: values =>
      bindParams (bindings.insert param.name.lexeme value) params values
  | bindings, _, _ => bindings

/-- The result of a body: the value it exits with, or nil. -/
def resultOf (body : Exec Unit) : Eval Value := fun s =>
  match body s with
  | .ok _ s => .ok .nil s
  | .error .break s => .ok .nil s
  | .error (.exit value) s => .ok value s
  | .error (.failed failure) s => .error failure s

/-- Calls a function.  An initializer yields the instance it is bound to. -/
def callFn (cx : Context) : Nat → Eval.Caller
  | 0, _, _ => throw .starved
  | fuel + 1, f, arguments => do
      let env ← Eval.child f.closure (bindParams ∅ f.decl.params arguments)
      let returned ← resultOf (stmts (callFn cx fuel) fuel (cx.inside env) f.decl.body)
      if f.isInitializer then
        return ((← get).findHere? f.closure "this").getD .nil
      else
        return returned

end Exec

end MiniPascal
