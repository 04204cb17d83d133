import MiniPascal.Proofs.Machine.Trace

/-!
# Erasing records

Without its record, a recorded run is the run of the evaluator: the same result, and the same store
behind it.
-/

namespace MiniPascal
namespace Trace

/-- The outcome of a recorded run without the record. -/
def forget : EStateM.Result ε Traced α → EStateM.Result ε Store α
  | .ok value t => .ok value t.store
  | .error e t => .error e t.store

/-- Without its record, `x` is `y`. -/
def Erases (x : Tracing ε α) (y : EStateM ε Store α) : Prop :=
  ∀ t, forget (x t) = y t.store

namespace Erases

theorem keep (y : EStateM ε Store α) : Erases (Trace.keep y) y := by
  intro t
  unfold Trace.keep
  cases y t.store with
  | ok value s => rfl
  | error e s => rfl

theorem pure (value : α) : Erases (Pure.pure value : Tracing ε α) (Pure.pure value) := by
  intro t
  rfl

theorem throw (e : ε) : Erases (MonadExcept.throw e : Tracing ε α) (MonadExcept.throw e) := by
  intro t
  rfl

theorem bind {x : Tracing ε α} {y : EStateM ε Store α} {f : α → Tracing ε β}
    {g : α → EStateM ε Store β} (hx : Erases x y) (hf : ∀ value, Erases (f value) (g value)) :
    Erases (x >>= f) (y >>= g) := by
  intro t
  have hfirst := hx t
  show forget (EStateM.bind x f t) = EStateM.bind y g t.store
  unfold EStateM.bind
  cases hrun : x t with
  | ok value t' =>
      rw [hrun] at hfirst
      rw [← hfirst]
      exact hf value t'
  | error e t' =>
      rw [hrun] at hfirst
      rw [← hfirst]
      rfl

theorem note {event : Store → Event} {x : Tracing ε α} {y : EStateM ε Store α}
    (hx : Erases x y) : Erases (Trace.note event >>= fun _ => x) y := by
  intro t
  exact hx { t with events := event t.store :: t.events }

theorem discard {x : Tracing ε α} {y : EStateM ε Store α} (hx : Erases x y) :
    Erases (Functor.discard x) (Functor.discard y) := by
  show Erases (x >>= fun _ => Pure.pure ()) (y >>= fun _ => Pure.pure ())
  exact hx.bind fun _ => Erases.pure ()

end Erases

/-! ## Expressions -/

theorem enter_erases (region : Region) (env : Env) (bindings : Table Value) :
    Erases (enter region env bindings) (Eval.child env bindings) :=
  (Erases.keep _).note

theorem bindMethod_erases (method : Fn) (self : Instance) :
    Erases (bindMethod method self) (Eval.bindMethod method self) :=
  (Erases.keep _).note

theorem property?_erases (self : Instance) (name : String) :
    Erases (property? self name) (Eval.property? self name) := by
  unfold property? Eval.property?
  split
  · exact Erases.pure _
  · refine (Erases.keep get).bind fun s => ?_
    cases (s.fieldsOf self).find? name with
    | some value => exact Erases.pure _
    | none =>
        cases self.cls.findMethod name with
        | some method => exact (bindMethod_erases method self).bind fun _ => Erases.pure _
        | none => exact Erases.pure _

theorem lookUp_erases (cx : Context) (id : NodeId) (name : Token) :
    Erases (lookUp cx id name) (Eval.lookUp cx id name) := by
  refine (Erases.keep _).bind fun found => ?_
  cases found with
  | some value => exact Erases.pure _
  | none =>
      refine (Erases.keep _).bind fun receiver => ?_
      cases receiver with
      | none => exact Erases.keep _
      | some self =>
          refine (property?_erases self name.lexeme).bind fun found => ?_
          cases found with
          | some value => exact Erases.pure _
          | none => exact Erases.keep _

theorem superMethod_erases (cx : Context) (id : NodeId) (keyword method : Token) :
    Erases (superMethod cx id keyword method) (Eval.superMethod cx id keyword method) := by
  unfold superMethod Eval.superMethod
  cases cx.locals[id]? with
  | none => exact Erases.keep _
  | some distance =>
      refine (Erases.keep get).bind fun s => ?_
      cases s.findAt? cx.env distance "super" with
      | none => exact Erases.keep _
      | some value =>
          cases value with
          | «class» superclass =>
              cases distance with
              | zero => exact Erases.keep _
              | succ nearer =>
                  dsimp only
                  cases s.findAt? cx.env nearer "this" with
                  | none => exact Erases.keep _
                  | some value =>
                      cases value with
                      | object self =>
                          dsimp only
                          cases superclass.findMethod method.lexeme with
                          | some found =>
                              exact (bindMethod_erases found self).bind fun _ => Erases.pure _
                          | none => exact Erases.keep _
                      | _ => exact Erases.keep _
          | _ => exact Erases.keep _

theorem getProperty_erases (target : Value) (name : Token) :
    Erases (getProperty target name) (Eval.getProperty target name) := by
  unfold getProperty Eval.getProperty
  cases target with
  | object self =>
      refine (property?_erases self name.lexeme).bind fun found => ?_
      cases found with
      | some value => exact Erases.pure _
      | none => exact Erases.keep _
  | _ => exact Erases.keep _

section Calls

variable {call : Caller} {caller : Eval.Caller}

theorem instantiate_erases (hcall : ∀ f arguments, Erases (call f arguments) (caller f arguments))
    (cls : Class) (paren : Token) (arguments : List Value) :
    Erases (instantiate call cls paren arguments)
      (Eval.instantiate caller cls paren arguments) := by
  refine (Erases.keep get).bind fun s => ?_
  cases Eval.initializer? s cls (arguments.map Value.typeName) with
  | none =>
      refine (Erases.keep _).bind fun _ => ?_
      exact (Erases.keep _).bind fun _ => Erases.pure _
  | some initializer =>
      refine (Erases.keep _).bind fun _ => ?_
      refine (Erases.keep _).bind fun self => ?_
      refine (bindMethod_erases initializer self).bind fun bound => ?_
      exact (hcall bound arguments).discard.bind fun _ => Erases.pure _

theorem bindChoice_erases (choice : Store.Choice) :
    Erases (bindChoice choice) (Eval.bindChoice choice) := by
  cases choice with
  | function f => exact Erases.pure _
  | method f self => exact bindMethod_erases f self

theorem applyValue_erases (hcall : ∀ f arguments, Erases (call f arguments) (caller f arguments))
    (cx : Context) (callee : Value) (paren : Token) (arguments : List Value) :
    Erases (applyValue call cx callee paren arguments)
      (Eval.applyValue caller cx callee paren arguments) := by
  unfold applyValue Eval.applyValue
  cases callee with
  | function f =>
      refine (Erases.keep get).bind fun s => ?_
      cases s.chooseOverload cx.env f (arguments.map Value.typeName) with
      | none => exact Erases.keep _
      | some choice =>
          refine (bindChoice_erases choice).bind fun selected => ?_
          exact (Erases.keep _).bind fun _ => hcall selected arguments
  | «class» cls => exact instantiate_erases hcall cls paren arguments
  | _ => exact Erases.keep _

mutual

theorem expr_erases (hcall : ∀ f arguments, Erases (call f arguments) (caller f arguments))
    (cx : Context) : ∀ e, Erases (expr call cx e) (Eval.expr caller cx e)
  | .literal value => Erases.pure _
  | .cast inner _ => expr_erases hcall cx inner
  | .grouping inner => expr_erases hcall cx inner
  | .unary op token operand => (expr_erases hcall cx operand).bind fun _ => Erases.keep _
  | .binary left op token right =>
      (expr_erases hcall cx left).bind fun _ =>
        (expr_erases hcall cx right).bind fun _ => Erases.keep _
  | .logical left op token right => by
      refine (expr_erases hcall cx left).bind fun value => ?_
      cases Eval.decides op value with
      | true => exact Erases.pure _
      | false => exact expr_erases hcall cx right
  | .variable id name => (lookUp_erases cx id name).note
  | .this id keyword => lookUp_erases cx id keyword
  | .super id keyword method => (superMethod_erases cx id keyword method).note
  | .assign id name value => (expr_erases hcall cx value).bind fun _ => Erases.keep _
  | .call callee paren arguments => by
      -- the store in front of the call is read for the record only
      intro t
      have hrecord (before : Store) := (expr_erases hcall cx callee).bind fun target =>
        (exprs_erases hcall cx arguments).bind fun values =>
          @Erases.note _ _ (fun after => .called cx callee before target values after) _ _
            (applyValue_erases hcall cx target paren values)
      exact hrecord t.store { t with events := .calling cx callee t.store :: t.events }
  | .get object name => (expr_erases hcall cx object).bind fun target =>
      getProperty_erases target name
  | .set object name value =>
      (expr_erases hcall cx object).bind fun _ =>
        (Erases.keep _).bind fun _ =>
          (expr_erases hcall cx value).bind fun _ =>
            (Erases.keep _).bind fun _ => Erases.pure _
  | .subscript bracket object index =>
      (expr_erases hcall cx object).bind fun _ =>
        (expr_erases hcall cx index).bind fun _ => Erases.keep _
  | .map _ items =>
      (entries_erases hcall cx items []).bind fun _ =>
        (Erases.keep _).bind fun _ => Erases.pure _

theorem exprs_erases (hcall : ∀ f arguments, Erases (call f arguments) (caller f arguments))
    (cx : Context) : ∀ list, Erases (exprs call cx list) (Eval.exprs caller cx list)
  | [] => Erases.pure _
  | e :: rest =>
      (expr_erases hcall cx e).bind fun _ =>
        (exprs_erases hcall cx rest).bind fun _ => Erases.pure _

theorem entries_erases (hcall : ∀ f arguments, Erases (call f arguments) (caller f arguments))
    (cx : Context) :
    ∀ items contents, Erases (entries call cx items contents) (Eval.entries caller cx items contents)
  | [], _ => Erases.pure _
  | (key, item) :: rest, _ =>
      (expr_erases hcall cx key).bind fun _ =>
        (expr_erases hcall cx item).bind fun _ => entries_erases hcall cx rest _

end

/-! ## Statements -/

theorem superclass?_erases (cx : Context) (parent : Option Superclass) :
    Erases (superclass? cx parent) (Exec.superclass? cx parent) := by
  cases parent with
  | none => exact Erases.pure _
  | some parent =>
      refine Erases.note ?_
      refine (lookUp_erases cx parent.id parent.name).bind fun value => ?_
      cases value with
      | «class» cls => exact Erases.pure _
      | _ => exact Erases.keep _

theorem methodEnv_erases (decl : ClassDecl Stmt) (env : Env) (superclass : Option Class) :
    Erases (methodEnv decl env superclass) (Exec.methodEnv env superclass) := by
  cases superclass with
  | none => exact Erases.pure _
  | some parent => exact enter_erases _ _ _

theorem defineClass_erases (cx : Context) (decl : ClassDecl Stmt) :
    Erases (defineClass cx decl) (Exec.defineClass cx decl) := by
  refine (Erases.keep _).bind fun _ => ?_
  refine (superclass?_erases cx decl.superclass).bind fun superclass => ?_
  refine (Erases.keep _).bind fun _ => ?_
  refine (methodEnv_erases decl cx.env superclass).bind fun env => ?_
  refine (Erases.keep _).bind fun methods => ?_
  exact (Erases.keep _).bind fun cls => Erases.keep _

theorem ofEval_erases {x : Tracing Failure α} {y : Eval α} (hx : Erases x y) :
    Erases (ofEval x) (Exec.ofEval y) := by
  intro t
  have hrun := hx t
  unfold ofEval Exec.ofEval
  rw [← hrun]
  cases x t with
  | ok value t' => rfl
  | error failure t' => rfl

theorem repeatWhile_erases {condition : Tracing Failure Value} {condition' : Eval Value}
    {body : Tracing Signal Unit} {body' : Exec Unit} (hcondition : Erases condition condition')
    (hbody : Erases body body') :
    ∀ fuel, Erases (repeatWhile condition body fuel) (Exec.repeatWhile condition' body' fuel) := by
  intro fuel
  induction fuel with
  | zero =>
      intro t
      rfl
  | succ fuel ih =>
      intro t
      have htest := hcondition t
      unfold repeatWhile Exec.repeatWhile
      rw [← htest]
      cases condition t with
      | error failure t' => rfl
      | ok value t' =>
          simp only [forget]
          cases value.isTruthy with
          | false => rfl
          | true =>
              have hrun := hbody t'
              simp only [if_true]
              rw [← hrun]
              cases body t' with
              | ok _ t'' => exact ih t''
              | error signal t'' => cases signal <;> rfl

theorem optionalValue_erases (hcall : ∀ f arguments, Erases (call f arguments) (caller f arguments))
    (cx : Context) (value : Option Expr) :
    Erases (optionalValue call cx value) (Exec.optionalValue caller cx value) := by
  cases value with
  | none => exact Erases.pure _
  | some e => exact expr_erases hcall cx e

theorem raiseValue_erases (hcall : ∀ f arguments, Erases (call f arguments) (caller f arguments))
    (cx : Context) (keyword : Token) (value : Option Expr) :
    Erases (raiseValue call cx keyword value) (Exec.raiseValue caller cx keyword value) := by
  unfold raiseValue Exec.raiseValue
  cases value with
  | none => exact Erases.keep _
  | some e => exact (expr_erases hcall cx e).bind fun _ => Erases.keep _

theorem catchError_erases {body : Tracing Signal Unit} {body' : Exec Unit}
    {handle : RuntimeError → Tracing Signal Unit} {handle' : RuntimeError → Exec Unit}
    (hbody : Erases body body') (hhandle : ∀ error, Erases (handle error) (handle' error)) :
    Erases (catchError body handle) (Exec.catchError body' handle') := by
  intro t
  have hrun := hbody t
  unfold catchError Exec.catchError
  rw [← hrun]
  cases body t with
  | ok _ t' => rfl
  | error signal t' =>
      cases signal with
      | failed failure =>
          cases failure with
          | error error => exact hhandle error t'
          | starved => rfl
      | _ => rfl

mutual

theorem stmt_erases (hcall : ∀ f arguments, Erases (call f arguments) (caller f arguments))
    (fuel : Nat) (cx : Context) : ∀ s, Erases (stmt call fuel cx s) (Exec.stmt caller fuel cx s)
  | .block body =>
      (ofEval_erases (enter_erases _ _ _)).bind fun env =>
        stmts_erases hcall fuel (cx.inside env) body
  | .classDecl decl => ofEval_erases (defineClass_erases cx decl)
  | .enumDecl decl => ofEval_erases (Erases.keep _)
  | .function decl => ofEval_erases (Erases.keep _)
  | .ifThen condition thenBranch none => by
      refine (ofEval_erases (expr_erases hcall cx condition)).bind fun value => ?_
      cases value.isTruthy with
      | true => exact stmt_erases hcall fuel cx thenBranch
      | false => exact Erases.pure _
  | .ifThen condition thenBranch (some elseBranch) => by
      refine (ofEval_erases (expr_erases hcall cx condition)).bind fun value => ?_
      cases value.isTruthy with
      | true => exact stmt_erases hcall fuel cx thenBranch
      | false => exact stmt_erases hcall fuel cx elseBranch
  | .while condition body =>
      repeatWhile_erases (expr_erases hcall cx condition) (stmt_erases hcall fuel cx body) fuel
  | .try _ body handlerList otherwise => by
      refine (ofEval_erases (enter_erases _ _ _)).bind fun env => ?_
      refine catchError_erases (stmts_erases hcall fuel (cx.inside env) body) fun error => ?_
      dsimp only
      cases Exec.findHandler handlerList error.raisedValue with
      | some index => exact handler_erases hcall fuel cx error.raisedValue handlerList index
      | none =>
          exact (ofEval_erases (enter_erases _ _ _)).bind fun env =>
            stmts_erases hcall fuel (cx.inside env) otherwise
  | .print _ value => ofEval_erases ((expr_erases hcall cx value).bind fun _ => Erases.keep _)
  | .exit _ value =>
      (ofEval_erases (optionalValue_erases hcall cx value)).bind fun _ => Erases.throw _
  | .raise keyword value => ofEval_erases (raiseValue_erases hcall cx keyword value)
  | .var decl =>
      ofEval_erases ((optionalValue_erases hcall cx decl.initial).bind fun _ => Erases.keep _)
  | .break _ => Erases.throw _
  | .expression value => ofEval_erases (expr_erases hcall cx value).discard
  | .uses _ _ => Erases.pure _

theorem stmts_erases (hcall : ∀ f arguments, Erases (call f arguments) (caller f arguments))
    (fuel : Nat) (cx : Context) :
    ∀ list, Erases (stmts call fuel cx list) (Exec.stmts caller fuel cx list)
  | [] => Erases.pure _
  | s :: rest =>
      (stmt_erases hcall fuel cx s).bind fun _ => stmts_erases hcall fuel cx rest

theorem handler_erases (hcall : ∀ f arguments, Erases (call f arguments) (caller f arguments))
    (fuel : Nat) (cx : Context) (raised : Value) :
    ∀ handlers index, Erases (handler call fuel cx raised handlers index)
      (Exec.handler caller fuel cx raised handlers index)
  | [], _ => Erases.pure _
  | ⟨_, _, body⟩ :: _, 0 =>
      (ofEval_erases (enter_erases _ _ _)).bind fun env =>
        stmt_erases hcall fuel (cx.inside env) body
  | _ :: rest, index + 1 => handler_erases hcall fuel cx raised rest index

end

end Calls

theorem resultOf_erases {body : Tracing Signal Unit} {body' : Exec Unit}
    (hbody : Erases body body') : Erases (resultOf body) (Exec.resultOf body') := by
  intro t
  have hrun := hbody t
  unfold resultOf Exec.resultOf
  rw [← hrun]
  cases body t with
  | ok _ t' => rfl
  | error signal t' => cases signal <;> rfl

theorem callFn_erases (cx : Context) :
    ∀ fuel f arguments, Erases (callFn cx fuel f arguments) (Exec.callFn cx fuel f arguments) := by
  intro fuel
  induction fuel with
  | zero =>
      intro f arguments
      exact Erases.throw _
  | succ fuel ih =>
      intro f arguments
      refine (enter_erases _ _ _).bind fun env => ?_
      refine (resultOf_erases (stmts_erases ih fuel (cx.inside env) f.decl.body)).bind
        fun returned => ?_
      cases f.isInitializer with
      | true => exact (Erases.keep get).bind fun s => Erases.pure _
      | false => exact Erases.pure _

theorem program_erases (m : Machine) (fuel : Nat) (statements : List Stmt) :
    Erases (program m fuel statements)
      (Exec.stmts (Exec.callFn m.context fuel) fuel m.context statements) :=
  stmts_erases (callFn_erases m.context fuel) fuel m.context statements

end Trace

end MiniPascal
