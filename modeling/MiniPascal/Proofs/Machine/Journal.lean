import MiniPascal.Machine.Run

/-!
# Runs with a journal

The evaluator once more, with a pointer to the current environment and a journal.  The pointer is
what code runs in: entering a scope replaces it, and leaving the scope puts the old one back,
however the code in the scope ends.  The journal has an entry for every expression that is
evaluated, every statement that is executed and every function that is called, made when they end.
-/

namespace MiniPascal

/-- What a run depends on besides its state. -/
structure Setting where
  /-- The distances of names. -/
  locals : Locals
  /-- The time in seconds. -/
  host : Host

def Setting.inside (st : Setting) (env : Env) : Context where
  locals := st.locals
  host := st.host
  env := env

def Machine.setting (m : Machine) : Setting where
  locals := m.locals
  host := m.host

/-- A point of a run: the store, and the context with the current environment. -/
structure Point where
  cx : Context
  store : Store

/-- What can be going on. -/
inductive Activity where
  | expression (e : Expr)
  | statement (s : Stmt)
  | call (f : Fn) (arguments : List Value)

/-- How an activity ends. -/
inductive Ending where
  | value (value : Value)
  | done
  | stopped (signal : Signal)

/-- An activity with the points at which it began and ended. -/
structure Entry where
  activity : Activity
  before : Point
  after : Point
  ending : Ending

/-- The state of a run: the store, the pointer to the current environment, and the entries so far,
the latest first. -/
structure Journal where
  store : Store
  env : Env
  entries : List Entry

/-- A computation with a journal. -/
abbrev Journaling (ε : Type) := EStateM ε Journal

namespace Journal

def point (st : Setting) (j : Journal) : Point where
  cx := st.inside j.env
  store := j.store

def ended : EStateM.Result ε Journal α → Journal
  | .ok _ j => j
  | .error _ j => j

/-- A computation of the evaluator, in the current environment. -/
def here (st : Setting) (x : Context → EStateM ε Store α) : Journaling ε α := fun j =>
  match x (st.inside j.env) j.store with
  | .ok value s => .ok value { j with store := s }
  | .error e s => .error e { j with store := s }

/-- A look at the current environment and the store. -/
def look (st : Setting) (f : Context → Store → α) : Journaling ε α := fun j =>
  .ok (f (st.inside j.env) j.store) j

/-- A computation with another environment as the current one. -/
def within (env : Env) (x : Journaling ε α) : Journaling ε α := fun j =>
  match x { j with env } with
  | .ok value j' => .ok value { j' with env := j.env }
  | .error e j' => .error e { j' with env := j.env }

def noting (st : Setting) (activity : Activity) (ending : α → Ending) (signal : ε → Signal)
    (x : Journaling ε α) : Journaling ε α := fun j =>
  match x j with
  | .ok value j' =>
      .ok value { j' with
        entries := ⟨activity, j.point st, j'.point st, ending value⟩ :: j'.entries }
  | .error e j' =>
      .error e { j' with
        entries := ⟨activity, j.point st, j'.point st, .stopped (signal e)⟩ :: j'.entries }

def evaluating (st : Setting) (activity : Activity) (x : Journaling Failure Value) :
    Journaling Failure Value :=
  noting st activity .value .failed x

def executing (st : Setting) (s : Stmt) (x : Journaling Signal Unit) : Journaling Signal Unit :=
  noting st (.statement s) (fun _ => .done) id x

/-! ## Calls -/

abbrev Caller := Fn → List Value → Journaling Failure Value

def instantiate (call : Caller) (st : Setting) (cls : Class) (paren : Token)
    (arguments : List Value) : Journaling Failure Value := do
  match ← look st fun _ s => Eval.initializer? s cls (arguments.map Value.typeName) with
  | none =>
      here st fun _ => Eval.checkArity paren 0 arguments.length
      let self ← here st fun _ => modifyGet fun s => s.newInstance cls
      return .object self
  | some initializer =>
      here st fun _ => Eval.checkArity paren initializer.arity arguments.length
      let self ← here st fun _ => modifyGet fun s => s.newInstance cls
      let bound ← here st fun _ => Eval.bindMethod initializer self
      discard <| call bound arguments
      return .object self

/-- Calls a value. -/
def applyValue (call : Caller) (st : Setting) (callee : Value) (paren : Token)
    (arguments : List Value) : Journaling Failure Value := do
  match callee with
  | .function f =>
      match ← look st fun cx s => s.chooseOverload cx.env f (arguments.map Value.typeName) with
      | none => here st fun _ => Eval.failAt paren .noSignature
      | some choice =>
          let selected ← here st fun _ => Eval.bindChoice choice
          here st fun _ => Eval.checkArity paren selected.arity arguments.length
          call selected arguments
  | .native native => here st fun cx => do
      Eval.checkArity paren native.op.arity arguments.length
      Eval.callNative cx.host native.op paren arguments
  | .class cls => instantiate call st cls paren arguments
  | _ => here st fun _ => Eval.failAt paren .notCallable

/-! ## Expressions -/

mutual

def expr (call : Caller) (st : Setting) : Expr → Journaling Failure Value
  | .literal value => evaluating st (.expression (.literal value)) <| pure (.ofLiteral value)
  | .cast inner typeName =>
      evaluating st (.expression (.cast inner typeName)) <| expr call st inner
  | .grouping inner => evaluating st (.expression (.grouping inner)) <| expr call st inner
  | .unary op token operand => evaluating st (.expression (.unary op token operand)) do
      let value ← expr call st operand
      here st fun _ => Eval.orFail token (Value.applyUnary op value)
  | .binary left op token right => evaluating st (.expression (.binary left op token right)) do
      let leftValue ← expr call st left
      let rightValue ← expr call st right
      here st fun _ => do Eval.orFail token ((← get).applyBinary op leftValue rightValue)
  | .logical left op token right => evaluating st (.expression (.logical left op token right)) do
      let leftValue ← expr call st left
      if Eval.decides op leftValue then return leftValue else expr call st right
  | .variable id name => evaluating st (.expression (.variable id name)) <|
      here st fun cx => Eval.lookUp cx id name
  | .this id keyword => evaluating st (.expression (.this id keyword)) <|
      here st fun cx => Eval.lookUp cx id keyword
  | .super id keyword method => evaluating st (.expression (.super id keyword method)) <|
      here st fun cx => Eval.superMethod cx id keyword method
  | .assign id name value => evaluating st (.expression (.assign id name value)) do
      let result ← expr call st value
      here st fun cx => Eval.assign cx id name result
  | .call callee paren arguments => evaluating st (.expression (.call callee paren arguments)) do
      let target ← expr call st callee
      let values ← exprs call st arguments
      applyValue call st target paren values
  | .get object name => evaluating st (.expression (.get object name)) do
      let target ← expr call st object
      here st fun _ => Eval.getProperty target name
  | .set object name value => evaluating st (.expression (.set object name value)) do
      let target ← expr call st object
      let self ← here st fun _ => Eval.fieldOwner target name
      let result ← expr call st value
      here st fun _ => modify (·.setField self name.lexeme result)
      return result
  | .subscript bracket object index =>
      evaluating st (.expression (.subscript bracket object index)) do
        let target ← expr call st object
        let position ← expr call st index
        here st fun _ => do Eval.orFail bracket ((← get).subscript target position)
  | .map brace items => evaluating st (.expression (.map brace items)) do
      let contents ← mapItems call st items []
      let id ← here st fun _ => modifyGet fun s => s.newMap contents
      return .map id

def exprs (call : Caller) (st : Setting) : List Expr → Journaling Failure (List Value)
  | [] => pure []
  | e :: rest => do
      let value ← expr call st e
      let values ← exprs call st rest
      return value :: values

/-- Puts the entries of a map literal into a map, from left to right. -/
def mapItems (call : Caller) (st : Setting) :
    List (Expr × Expr) → List (Value × Value) → Journaling Failure (List (Value × Value))
  | [], contents => pure contents
  | (key, item) :: rest, contents => do
      let keyValue ← expr call st key
      let itemValue ← expr call st item
      mapItems call st rest (putEntry keyValue itemValue contents)

end

/-! ## Statements -/

def ofEval (eval : Journaling Failure α) : Journaling Signal α := fun j =>
  match eval j with
  | .ok value j => .ok value j
  | .error failure j => .error (.failed failure) j

def repeatWhile (condition : Journaling Failure Value) (body : Journaling Signal Unit) :
    Nat → Journaling Signal Unit
  | 0, j => .error (.failed .starved) j
  | fuel + 1, j =>
      match condition j with
      | .error failure j => .error (.failed failure) j
      | .ok value j =>
          if value.isTruthy then
            match body j with
            | .ok _ j => repeatWhile condition body fuel j
            | .error .break j => .ok () j
            | .error signal j => .error signal j
          else .ok () j

def optionalValue (call : Caller) (st : Setting) : Option Expr → Journaling Failure Value
  | none => pure .nil
  | some e => expr call st e

def raiseValue (call : Caller) (st : Setting) (keyword : Token) :
    Option Expr → Journaling Failure Unit
  | none => here st fun _ => Eval.failAt keyword .raisedNothing
  | some e => do
      let value ← expr call st e
      here st fun _ => do
        let text := (← get).display value
        throw (.error { token := keyword, fault := .raised text, value := some value })

def catchError (body : Journaling Signal Unit) (handle : RuntimeError → Journaling Signal Unit) :
    Journaling Signal Unit := fun j =>
  match body j with
  | .error (.failed (.error error)) j => handle error j
  | other => other

def child (st : Setting) (bindings : Table Value) : Journaling Signal Env :=
  ofEval (here st fun cx => Eval.child cx.env bindings)

mutual

def stmt (call : Caller) (fuel : Nat) (st : Setting) : Stmt → Journaling Signal Unit
  | .block body => executing st (.block body) do
      let env ← child st ∅
      within env (stmts call fuel st body)
  | .classDecl decl => executing st (.classDecl decl) <|
      ofEval (here st fun cx => Exec.defineClass cx decl)
  | .enumDecl decl => executing st (.enumDecl decl) <|
      ofEval (here st fun cx => Exec.defineEnum cx.env decl)
  | .function decl => executing st (.function decl) <|
      ofEval (here st fun cx => Exec.defineFunction cx.env decl)
  | .ifThen condition thenBranch none => executing st (.ifThen condition thenBranch none) do
      let value ← ofEval (expr call st condition)
      if value.isTruthy then stmt call fuel st thenBranch else pure ()
  | .ifThen condition thenBranch (some elseBranch) =>
      executing st (.ifThen condition thenBranch (some elseBranch)) do
        let value ← ofEval (expr call st condition)
        if value.isTruthy then stmt call fuel st thenBranch else stmt call fuel st elseBranch
  | .while condition body => executing st (.while condition body) <|
      repeatWhile (expr call st condition) (stmt call fuel st body) fuel
  | .try keyword body handlers otherwise => executing st (.try keyword body handlers otherwise) do
      let env ← child st ∅
      catchError (within env (stmts call fuel st body)) fun error => do
        let raised := error.raisedValue
        match Exec.findHandler handlers raised with
        | some index => handler call fuel st raised handlers index
        | none =>
            let env ← child st ∅
            within env (stmts call fuel st otherwise)
  | .print keyword value => executing st (.print keyword value) <| ofEval do
      let result ← expr call st value
      here st fun cx => Exec.printLine cx.host keyword result
  | .exit keyword value => executing st (.exit keyword value) do
      let result ← ofEval (optionalValue call st value)
      throw (.exit result)
  | .raise keyword value => executing st (.raise keyword value) <|
      ofEval (raiseValue call st keyword value)
  | .var decl => executing st (.var decl) <| ofEval do
      let value ← optionalValue call st decl.initial
      here st fun cx => Eval.define cx.env decl.name value
  | .break keyword => executing st (.break keyword) <| throw .break
  | .expression value => executing st (.expression value) <|
      ofEval (discard <| expr call st value)
  | .uses keyword unit => executing st (.uses keyword unit) <| pure ()

def stmts (call : Caller) (fuel : Nat) (st : Setting) : List Stmt → Journaling Signal Unit
  | [] => pure ()
  | s :: rest => do
      stmt call fuel st s
      stmts call fuel st rest

/-- Executes the handler at a position, with its variable bound to the raised value. -/
def handler (call : Caller) (fuel : Nat) (st : Setting) (raised : Value) :
    List (Handler Stmt) → Nat → Journaling Signal Unit
  | [], _ => pure ()
  | ⟨name, _, body⟩ :: _, 0 => do
      let env ← child st ((∅ : Table Value).insert name.lexeme raised)
      within env (stmt call fuel st body)
  | _ :: rest, index + 1 => handler call fuel st raised rest index

end

def resultOf (body : Journaling Signal Unit) : Journaling Failure Value := fun j =>
  match body j with
  | .ok _ j => .ok .nil j
  | .error .break j => .ok .nil j
  | .error (.exit value) j => .ok value j
  | .error (.failed failure) j => .error failure j

def callFn (st : Setting) : Nat → Caller
  | 0, f, arguments => evaluating st (.call f arguments) <| throw .starved
  | fuel + 1, f, arguments => evaluating st (.call f arguments) do
      let env ← here st fun _ => Eval.child f.closure (Exec.bindParams ∅ f.decl.params arguments)
      let returned ← within env (resultOf (stmts (callFn st fuel) fuel st f.decl.body))
      if f.isInitializer then
        look st fun _ s => (s.findHere? f.closure "this").getD .nil
      else
        return returned

def program (m : Machine) (fuel : Nat) (statements : List Stmt) : Journaling Signal Unit :=
  stmts (callFn m.setting fuel) fuel m.setting statements

end Journal

end MiniPascal
