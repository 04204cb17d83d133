import MiniPascal.Proofs.Machine.Journal
import MiniPascal.Proofs.Sequence

/-!
# The pointer to the current environment

Without its journal, a run is a run of the evaluator in the current environment: the same result,
and the same store behind it.  However it ends, the pointer is back where it was.
-/

namespace MiniPascal
namespace Journal

/-- The outcome of a run without the journal. -/
def forget : EStateM.Result ε Journal α → EStateM.Result ε Store α
  | .ok value j => .ok value j.store
  | .error e j => .error e j.store

/-- Without its journal `x` is `y` in the current environment, and it leaves the pointer there. -/
def Follows (st : Setting) (x : Journaling ε α) (y : Context → EStateM ε Store α) : Prop :=
  ∀ j, forget (x j) = y (st.inside j.env) j.store ∧ (ended (x j)).env = j.env

variable {st : Setting}

namespace Follows

theorem here (y : Context → EStateM ε Store α) : Follows st (Journal.here st y) y := by
  intro j
  unfold Journal.here
  cases y (st.inside j.env) j.store with
  | ok value s => exact ⟨rfl, rfl⟩
  | error e s => exact ⟨rfl, rfl⟩

theorem pure (value : α) :
    Follows st (Pure.pure value : Journaling ε α) fun _ => Pure.pure value :=
  fun _ => ⟨rfl, rfl⟩

theorem throw (e : ε) :
    Follows st (MonadExcept.throw e : Journaling ε α) fun _ => MonadExcept.throw e :=
  fun _ => ⟨rfl, rfl⟩

theorem bind {x : Journaling ε α} {y : Context → EStateM ε Store α} {f : α → Journaling ε β}
    {g : Context → α → EStateM ε Store β} (hx : Follows st x y)
    (hf : ∀ value, Follows st (f value) fun cx => g cx value) :
    Follows st (x >>= f) fun cx => y cx >>= g cx := by
  intro j
  have hfirst := hx j
  show forget (EStateM.bind x f j) = EStateM.bind (y _) (g _) j.store ∧
    (ended (EStateM.bind x f j)).env = j.env
  unfold EStateM.bind
  cases hrun : x j with
  | ok value j' =>
      rw [hrun] at hfirst
      rcases hfirst with ⟨hsame, henv⟩
      change j'.env = j.env at henv
      rw [← hsame, ← henv]
      exact hf value j'
  | error e j' =>
      rw [hrun] at hfirst
      rcases hfirst with ⟨hsame, henv⟩
      rw [← hsame]
      exact ⟨rfl, henv⟩

theorem discard {x : Journaling ε α} {y : Context → EStateM ε Store α} (hx : Follows st x y) :
    Follows st (Functor.discard x) fun cx => Functor.discard (y cx) := by
  show Follows st (x >>= fun _ => Pure.pure ()) fun cx => y cx >>= fun _ => Pure.pure ()
  exact hx.bind fun _ => .pure ()

theorem within {env : Env} {x : Journaling ε α} {y : Context → EStateM ε Store α}
    (hx : Follows st x y) : Follows st (Journal.within env x) fun cx => y (cx.inside env) := by
  intro j
  have hinside := (hx { j with env }).1
  unfold Journal.within
  cases hrun : x { j with env } with
  | ok value j' =>
      rw [hrun] at hinside
      exact ⟨hinside, rfl⟩
  | error e j' =>
      rw [hrun] at hinside
      exact ⟨hinside, rfl⟩

theorem look {q : Context → Store → α} {f : α → Journaling ε β} {y : Context → EStateM ε Store β}
    (hf : ∀ value, ∃ g : Context → EStateM ε Store β, Follows st (f value) g ∧
      ∀ cx s, q cx s = value → y cx s = g cx s) : Follows st (Journal.look st q >>= f) y := by
  intro j
  rcases hf (q (st.inside j.env) j.store) with ⟨g, hrest, hy⟩
  have hrun := hrest j
  rw [← hy _ _ rfl] at hrun
  exact hrun

theorem noting {activity : Activity} {ending : α → Ending} {signal : ε → Signal}
    {x : Journaling ε α} {y : Context → EStateM ε Store α} (hx : Follows st x y) :
    Follows st (Journal.noting st activity ending signal x) y := by
  intro j
  have hrun := hx j
  unfold Journal.noting
  cases hx : x j with
  | ok value j' =>
      rw [hx] at hrun
      exact hrun
  | error e j' =>
      rw [hx] at hrun
      exact hrun

theorem evaluating {activity : Activity} {x : Journaling Failure Value} {y : Context → Eval Value}
    (hx : Follows st x y) : Follows st (Journal.evaluating st activity x) y :=
  hx.noting

theorem executing {s : Stmt} {x : Journaling Signal Unit} {y : Context → Exec Unit}
    (hx : Follows st x y) : Follows st (Journal.executing st s x) y :=
  hx.noting

end Follows

/-! ## Expressions -/

section Calls

variable {call : Caller} {caller : Eval.Caller}

theorem instantiate_follows
    (hcall : ∀ f arguments, Follows st (call f arguments) fun _ => caller f arguments)
    (cls : Class) (paren : Token) (arguments : List Value) :
    Follows st (instantiate call st cls paren arguments) fun _ =>
      Eval.instantiate caller cls paren arguments := by
  refine .look fun initializer => ?_
  cases initializer with
  | none =>
      refine ⟨_, (Follows.here _).bind fun _ => (Follows.here _).bind fun _ => .pure _, ?_⟩
      intro cx s hnone
      unfold Eval.instantiate
      rw [get_bind, hnone]
  | some initializer =>
      refine ⟨_, (Follows.here _).bind fun _ => (Follows.here _).bind fun self =>
        (Follows.here _).bind fun bound => (hcall bound arguments).discard.bind fun _ =>
          .pure _, ?_⟩
      intro cx s hsome
      unfold Eval.instantiate
      rw [get_bind, hsome]

theorem applyValue_follows
    (hcall : ∀ f arguments, Follows st (call f arguments) fun _ => caller f arguments)
    (callee : Value) (paren : Token) (arguments : List Value) :
    Follows st (applyValue call st callee paren arguments) fun cx =>
      Eval.applyValue caller cx callee paren arguments := by
  unfold applyValue Eval.applyValue
  cases callee with
  | function f =>
      refine .look fun choice => ?_
      cases choice with
      | none =>
          refine ⟨_, .here _, fun cx s hnone => ?_⟩
          simp only [get_bind, hnone]
      | some choice =>
          refine ⟨_, (Follows.here _).bind fun selected => (Follows.here _).bind fun _ =>
            hcall selected arguments, fun cx s hsome => ?_⟩
          simp only [get_bind, hsome]
  | «class» cls => exact instantiate_follows hcall cls paren arguments
  | _ => exact .here _

mutual

theorem expr_follows
    (hcall : ∀ f arguments, Follows st (call f arguments) fun _ => caller f arguments) :
    ∀ e, Follows st (expr call st e) fun cx => Eval.expr caller cx e
  | .literal value => (Follows.pure _).evaluating
  | .cast inner _ => (expr_follows hcall inner).evaluating
  | .grouping inner => (expr_follows hcall inner).evaluating
  | .unary _ _ operand => ((expr_follows hcall operand).bind fun _ => .here _).evaluating
  | .binary left _ _ right =>
      ((expr_follows hcall left).bind fun _ =>
        (expr_follows hcall right).bind fun _ => .here _).evaluating
  | .logical left op _ right => by
      refine ((expr_follows hcall left).bind fun value => ?_).evaluating
      cases Eval.decides op value with
      | true => exact .pure _
      | false => exact expr_follows hcall right
  | .variable _ _ => (Follows.here _).evaluating
  | .this _ _ => (Follows.here _).evaluating
  | .super _ _ _ => (Follows.here _).evaluating
  | .assign _ _ value => ((expr_follows hcall value).bind fun _ => .here _).evaluating
  | .call callee paren arguments =>
      ((expr_follows hcall callee).bind fun target =>
        (exprs_follows hcall arguments).bind fun values =>
          applyValue_follows hcall target paren values).evaluating
  | .get object _ => ((expr_follows hcall object).bind fun _ => .here _).evaluating
  | .set object _ value =>
      ((expr_follows hcall object).bind fun _ => (Follows.here _).bind fun _ =>
        (expr_follows hcall value).bind fun _ => (Follows.here _).bind fun _ => .pure _).evaluating
  | .subscript _ object index =>
      ((expr_follows hcall object).bind fun _ =>
        (expr_follows hcall index).bind fun _ => .here _).evaluating
  | .map _ items =>
      ((mapItems_follows hcall items []).bind fun _ =>
        (Follows.here _).bind fun _ => .pure _).evaluating

theorem exprs_follows
    (hcall : ∀ f arguments, Follows st (call f arguments) fun _ => caller f arguments) :
    ∀ list, Follows st (exprs call st list) fun cx => Eval.exprs caller cx list
  | [] => .pure _
  | e :: rest =>
      (expr_follows hcall e).bind fun _ => (exprs_follows hcall rest).bind fun _ => .pure _

theorem mapItems_follows
    (hcall : ∀ f arguments, Follows st (call f arguments) fun _ => caller f arguments) :
    ∀ items contents, Follows st (mapItems call st items contents) fun cx =>
      Eval.entries caller cx items contents
  | [], _ => .pure _
  | (key, item) :: rest, _ =>
      (expr_follows hcall key).bind fun _ =>
        (expr_follows hcall item).bind fun _ => mapItems_follows hcall rest _

end

end Calls

/-! ## Control -/

theorem ofEval_follows {x : Journaling Failure α} {y : Context → Eval α} (hx : Follows st x y) :
    Follows st (ofEval x) fun cx => Exec.ofEval (y cx) := by
  intro j
  have hrun := hx j
  show forget (ofEval x j) = Exec.ofEval (y (st.inside j.env)) j.store ∧ _
  unfold ofEval Exec.ofEval
  rw [← hrun.1]
  cases hx : x j with
  | ok value j' =>
      rw [hx] at hrun
      exact ⟨rfl, hrun.2⟩
  | error failure j' =>
      rw [hx] at hrun
      exact ⟨rfl, hrun.2⟩

theorem child_follows (bindings : Table Value) :
    Follows st (child st bindings) fun cx => Exec.ofEval (Eval.child cx.env bindings) :=
  ofEval_follows (.here _)

theorem resultOf_follows {body : Journaling Signal Unit} {body' : Context → Exec Unit}
    (hbody : Follows st body body') :
    Follows st (resultOf body) fun cx => Exec.resultOf (body' cx) := by
  intro j
  have hrun := hbody j
  show forget (resultOf body j) = Exec.resultOf (body' (st.inside j.env)) j.store ∧ _
  unfold resultOf Exec.resultOf
  rw [← hrun.1]
  cases hb : body j with
  | ok _ j' =>
      rw [hb] at hrun
      exact ⟨rfl, hrun.2⟩
  | error signal j' =>
      rw [hb] at hrun
      cases signal <;> exact ⟨rfl, hrun.2⟩

theorem catchError_follows {body : Journaling Signal Unit} {body' : Context → Exec Unit}
    {handle : RuntimeError → Journaling Signal Unit} {handle' : Context → RuntimeError → Exec Unit}
    (hbody : Follows st body body')
    (hhandle : ∀ error, Follows st (handle error) fun cx => handle' cx error) :
    Follows st (catchError body handle) fun cx => Exec.catchError (body' cx) (handle' cx) := by
  intro j
  have hrun := hbody j
  show forget (catchError body handle j) =
    Exec.catchError (body' (st.inside j.env)) (handle' (st.inside j.env)) j.store ∧ _
  unfold catchError Exec.catchError
  rw [← hrun.1]
  cases hb : body j with
  | ok _ j' =>
      rw [hb] at hrun
      exact ⟨rfl, hrun.2⟩
  | error signal j' =>
      rw [hb] at hrun
      have henv : j'.env = j.env := hrun.2
      cases signal with
      | failed failure =>
          cases failure with
          | error error =>
              rw [← henv]
              exact hhandle error j'
          | starved => exact ⟨rfl, henv⟩
      | _ => exact ⟨rfl, henv⟩

theorem repeatWhile_follows {condition : Journaling Failure Value}
    {condition' : Context → Eval Value} {body : Journaling Signal Unit}
    {body' : Context → Exec Unit} (hcondition : Follows st condition condition')
    (hbody : Follows st body body') :
    ∀ fuel, Follows st (repeatWhile condition body fuel) fun cx =>
      Exec.repeatWhile (condition' cx) (body' cx) fuel := by
  intro fuel
  induction fuel with
  | zero => exact fun j => ⟨rfl, rfl⟩
  | succ fuel ih =>
      intro j
      have htest := hcondition j
      show forget (repeatWhile condition body (fuel + 1) j) =
        Exec.repeatWhile (condition' (st.inside j.env)) (body' (st.inside j.env)) (fuel + 1)
          j.store ∧ _
      unfold repeatWhile Exec.repeatWhile
      rw [← htest.1]
      cases hc : condition j with
      | error failure j₁ =>
          rw [hc] at htest
          exact ⟨rfl, htest.2⟩
      | ok value j₁ =>
          rw [hc] at htest
          have henv : j₁.env = j.env := htest.2
          simp only [forget]
          cases value.isTruthy with
          | false => exact ⟨rfl, henv⟩
          | true =>
              have hround := hbody j₁
              simp only [if_true]
              rw [← henv, ← hround.1]
              cases hb : body j₁ with
              | ok _ j₂ =>
                  rw [hb] at hround
                  have henv' : j₂.env = j₁.env := hround.2
                  rw [← henv']
                  exact ih j₂
              | error signal j₂ =>
                  rw [hb] at hround
                  cases signal <;> exact ⟨rfl, hround.2⟩

/-! ## Statements -/

section Statements

variable {call : Caller} {caller : Eval.Caller}

theorem optionalValue_follows
    (hcall : ∀ f arguments, Follows st (call f arguments) fun _ => caller f arguments)
    (value : Option Expr) :
    Follows st (optionalValue call st value) fun cx => Exec.optionalValue caller cx value := by
  cases value with
  | none => exact .pure _
  | some e => exact expr_follows hcall e

theorem raiseValue_follows
    (hcall : ∀ f arguments, Follows st (call f arguments) fun _ => caller f arguments)
    (keyword : Token) (value : Option Expr) :
    Follows st (raiseValue call st keyword value) fun cx =>
      Exec.raiseValue caller cx keyword value := by
  unfold raiseValue Exec.raiseValue
  cases value with
  | none => exact .here _
  | some e => exact (expr_follows hcall e).bind fun _ => .here _

mutual

theorem stmt_follows
    (hcall : ∀ f arguments, Follows st (call f arguments) fun _ => caller f arguments)
    (fuel : Nat) :
    ∀ s, Follows st (stmt call fuel st s) fun cx => Exec.stmt caller fuel cx s
  | .block body =>
      ((child_follows ∅).bind fun _ => (stmts_follows hcall fuel body).within).executing
  | .classDecl _ => (ofEval_follows (.here _)).executing
  | .enumDecl _ => (ofEval_follows (.here _)).executing
  | .function _ => (ofEval_follows (.here _)).executing
  | .ifThen condition thenBranch none => by
      refine ((ofEval_follows (expr_follows hcall condition)).bind fun value => ?_).executing
      cases value.isTruthy with
      | true => exact stmt_follows hcall fuel thenBranch
      | false => exact .pure _
  | .ifThen condition thenBranch (some elseBranch) => by
      refine ((ofEval_follows (expr_follows hcall condition)).bind fun value => ?_).executing
      cases value.isTruthy with
      | true => exact stmt_follows hcall fuel thenBranch
      | false => exact stmt_follows hcall fuel elseBranch
  | .while condition body =>
      (repeatWhile_follows (expr_follows hcall condition) (stmt_follows hcall fuel body)
        fuel).executing
  | .try _ body handlers otherwise => by
      refine ((child_follows ∅).bind fun _ =>
        catchError_follows (stmts_follows hcall fuel body).within fun error => ?_).executing
      dsimp only
      cases Exec.findHandler handlers error.raisedValue with
      | some index => exact handler_follows hcall fuel error.raisedValue handlers index
      | none => exact (child_follows ∅).bind fun _ => (stmts_follows hcall fuel otherwise).within
  | .print _ value => (ofEval_follows ((expr_follows hcall value).bind fun _ => .here _)).executing
  | .exit _ value =>
      ((ofEval_follows (optionalValue_follows hcall value)).bind fun _ => .throw _).executing
  | .raise keyword value => (ofEval_follows (raiseValue_follows hcall keyword value)).executing
  | .var decl =>
      (ofEval_follows ((optionalValue_follows hcall decl.initial).bind fun _ => .here _)).executing
  | .break _ => (Follows.throw _).executing
  | .expression value => (ofEval_follows (expr_follows hcall value).discard).executing
  | .uses _ _ => (Follows.pure _).executing

theorem stmts_follows
    (hcall : ∀ f arguments, Follows st (call f arguments) fun _ => caller f arguments)
    (fuel : Nat) :
    ∀ list, Follows st (stmts call fuel st list) fun cx => Exec.stmts caller fuel cx list
  | [] => .pure _
  | s :: rest => (stmt_follows hcall fuel s).bind fun _ => stmts_follows hcall fuel rest

theorem handler_follows
    (hcall : ∀ f arguments, Follows st (call f arguments) fun _ => caller f arguments)
    (fuel : Nat) (raised : Value) :
    ∀ handlers index, Follows st (handler call fuel st raised handlers index) fun cx =>
      Exec.handler caller fuel cx raised handlers index
  | [], _ => .pure _
  | ⟨_, _, body⟩ :: _, 0 => (child_follows _).bind fun _ => (stmt_follows hcall fuel body).within
  | _ :: rest, index + 1 => handler_follows hcall fuel raised rest index

end

end Statements

theorem callFn_follows (st : Setting) :
    ∀ fuel f arguments, Follows st (callFn st fuel f arguments) fun _ =>
      Exec.callFn (st.inside Store.globals) fuel f arguments := by
  intro fuel
  induction fuel with
  | zero => exact fun f arguments => (Follows.throw _).evaluating
  | succ fuel ih =>
      intro f arguments
      refine ((Follows.here _).bind fun env => ?_).evaluating
      have hbody : Follows st (within env (resultOf (stmts (callFn st fuel) fuel st f.decl.body)))
          fun _ => Exec.resultOf (Exec.stmts (Exec.callFn (st.inside Store.globals) fuel) fuel
            (st.inside env) f.decl.body) :=
        (resultOf_follows (stmts_follows ih fuel f.decl.body)).within
      refine hbody.bind fun returned => ?_
      cases f.isInitializer with
      | true => exact fun j => ⟨rfl, rfl⟩
      | false => exact .pure _

theorem program_follows (m : Machine) (fuel : Nat) (statements : List Stmt) :
    Follows m.setting (program m fuel statements) fun cx =>
      Exec.stmts (Exec.callFn m.context fuel) fuel cx statements :=
  stmts_follows (callFn_follows m.setting fuel) fuel statements

end Journal

end MiniPascal
