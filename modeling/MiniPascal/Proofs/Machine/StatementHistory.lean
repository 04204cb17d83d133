import MiniPascal.Proofs.Machine.ExpressionHistory

/-!
# Statements and declared classes

Executing a statement leads from a record that is reached to one that is reached.  Only the
declaration of a class adds to the classes that are declared, and what it adds extends one of them.
-/

namespace MiniPascal

namespace Trace

variable {history : List Class} {t : Traced}

/-! ## Declarations -/

theorem defineMembers_leads {env : Env} {enumName : String} :
    ∀ {members : List Token} {ordinal : Nat} {history : List Class} {t : Traced},
      t.Reached history →
      EvalLeads (keep (Exec.defineMembers env enumName ordinal members)) history t fun _ _ => True
  | [], _, _, _, h => .keep_pure h trivial
  | _ :: _, _, _, _, h => by
      refine .keep_bind ((define_leads h ?_).bind fun _ _ _ _ h₁ _ => defineMembers_leads h₁)
      trivial

theorem defineEnums_leads {env : Env} :
    ∀ {decls : List EnumDecl} {history : List Class} {t : Traced}, t.Reached history →
      EvalLeads (keep (Exec.defineEnums env decls)) history t fun _ _ => True
  | [], _, _, h => .keep_pure h trivial
  | _ :: _, _, _, h =>
      .keep_bind ((defineMembers_leads h).bind fun _ _ _ _ h₁ _ => defineEnums_leads h₁)

theorem newFn_leads {decl : Function} {env : Env} {isInitializer : Bool} (h : t.Reached history) :
    EvalLeads (keep (modifyGet fun s => s.newFn decl env isInitializer)) history t
      fun _ _ => True :=
  .keep_modifyGet h h.store.newFn trivial

theorem defineFunction_leads {env : Env} {decl : Function} (h : t.Reached history) :
    EvalLeads (keep (Exec.defineFunction env decl)) history t fun _ _ => True :=
  .keep_bind ((newFn_leads h).bind fun _ _ _ _ h₁ _ => define_leads h₁ trivial)

theorem superclass?_leads {cx : Context} {parent? : Option Superclass} (h : t.Reached history) :
    EvalLeads (superclass? cx parent?) history t fun later cls? => ∀ cls ∈ cls?, cls ∈ later := by
  cases parent? with
  | none => exact .pure h fun cls hcls => by cases hcls
  | some parent =>
      refine .note h h.moment fun _ h' _ => ?_
      refine (lookUp_leads h').bind fun later t₁ value _ h₁ hvalue => ?_
      cases value with
      | «class» cls =>
          refine .pure h₁ fun found hfound => ?_
          cases hfound
          exact hvalue
      | _ => exact failAt_leads h₁

theorem within_singleton {name : String} {value : Value} (hvalue : value.Within history) :
    ∀ key found, ((∅ : Table Value).insert name value).find? key = some found →
      found.Within history := by
  intro key found hfound
  rw [Table.find?_insert] at hfound
  split at hfound <;> cases hfound
  exact hvalue

theorem methodEnv_leads {decl : ClassDecl Stmt} {env : Env} {superclass : Option Class}
    (h : t.Reached history) (hsuper : ∀ cls ∈ superclass, cls ∈ history) :
    EvalLeads (methodEnv decl env superclass) history t fun _ _ => True := by
  cases superclass with
  | none => exact .pure h trivial
  | some parent =>
      have hparent : (Value.class parent).Within history := hsuper parent rfl
      exact enter_leads h (within_singleton hparent)

theorem addMethod_leads {env : Env} {methods : Table Fn} {decl : Function} (h : t.Reached history) :
    EvalLeads (keep (Exec.addMethod env methods decl)) history t fun _ _ => True := by
  refine .keep_bind ((newFn_leads h).bind fun _ _ added _ h₁ _ => ?_)
  split
  · exact .of_ok rfl (h₁.withStore h₁.store.addOverload) trivial
  · exact .keep_pure h₁ trivial

theorem addMethods_leads {env : Env} :
    ∀ {decls : List Function} {methods : Table Fn} {history : List Class} {t : Traced},
      t.Reached history →
      EvalLeads (keep (Exec.addMethods env methods decls)) history t fun _ _ => True
  | [], _, _, _, h => .keep_pure h trivial
  | _ :: _, _, _, _, h =>
      .keep_bind ((addMethod_leads h).bind fun _ _ _ _ h₁ _ => addMethods_leads h₁)

/-- The class that is declared is the latest one from then on. -/
theorem newClass_leads {name : String} {superclass : Option Class} {methods : Table Fn}
    (h : t.Reached history) (hsuper : ∀ parent ∈ superclass, parent ∈ history) :
    EvalLeads (keep (modifyGet fun s => Exec.newClass name superclass methods s)) history t
      fun later cls => cls ∈ later :=
  ⟨_, List.suffix_cons _ _, h.withStore (h.store.declare hsuper), List.mem_cons_self⟩

theorem defineClass_leads {cx : Context} {decl : ClassDecl Stmt} (h : t.Reached history) :
    EvalLeads (defineClass cx decl) history t fun _ _ => True := by
  refine (defineEnums_leads h).bind fun _ _ _ _ h₁ _ => ?_
  refine (superclass?_leads h₁).bind fun earlier _ superclass _ h₂ hsuper => ?_
  have hnil (history : List Class) : Value.nil.Within history := trivial
  refine (define_leads h₂ (hnil earlier)).bind fun _ _ _ hle₃ h₃ _ => ?_
  refine (methodEnv_leads h₃ fun cls hcls => hle₃.subset (hsuper cls hcls)).bind
    fun _ _ env hle₄ h₄ _ => ?_
  refine (addMethods_leads h₄).bind fun _ _ methods hle₅ h₅ _ => ?_
  refine (newClass_leads h₅ fun cls hcls =>
    ((hle₃.trans hle₄).trans hle₅).subset (hsuper cls hcls)).bind fun _ _ cls _ h₆ hcls => ?_
  exact .keep_modify h₆ (h₆.store.bindHere hcls)

/-! ## Statements -/

abbrev ExecLeads (x : Tracing Signal α) (history : List Class) (t : Traced)
    (Q : List Class → α → Prop) : Prop :=
  Leads Signal.Within x history t Q

theorem ofEval_leads {x : Tracing Failure α} {Q : List Class → α → Prop}
    (hx : EvalLeads x history t Q) : ExecLeads (ofEval x) history t Q := by
  unfold EvalLeads Leads at hx
  unfold ExecLeads Leads ofEval
  cases hrun : x t with
  | ok value t' =>
      rw [hrun] at hx
      exact hx
  | error failure t' =>
      rw [hrun] at hx
      exact hx

theorem repeatWhile_leads {condition : Tracing Failure Value} {body : Tracing Signal Unit}
    (hcondition : ∀ {history t}, t.Reached history → EvalLeads condition history t Value.Within)
    (hbody : ∀ {history t}, t.Reached history → ExecLeads body history t fun _ _ => True)
    (fuel : Nat) (h : t.Reached history) :
    ExecLeads (repeatWhile condition body fuel) history t fun _ _ => True := by
  induction fuel generalizing history t with
  | zero => exact ⟨history, List.suffix_refl _, h, trivial⟩
  | succ fuel ih =>
      have hfirst := hcondition h
      unfold EvalLeads Leads at hfirst
      cases hrun : condition t with
      | error failure t₁ =>
          rw [hrun] at hfirst
          unfold ExecLeads Leads repeatWhile
          rw [hrun]
          exact hfirst
      | ok value t₁ =>
          rw [hrun] at hfirst
          rcases hfirst with ⟨h₁, hle₁, ht₁, -⟩
          by_cases htruthy : value.isTruthy = true
          · have hround := hbody ht₁
            unfold ExecLeads Leads at hround
            cases hrun' : body t₁ with
            | ok _ t₂ =>
                rw [hrun'] at hround
                rcases hround with ⟨h₂, hle₂, ht₂, -⟩
                refine Leads.of_run (hle₁.trans hle₂) ?_ (ih ht₂)
                simp only [repeatWhile, hrun, htruthy, if_true, hrun']
            | error signal t₂ =>
                rw [hrun'] at hround
                rcases hround with ⟨h₂, hle₂, ht₂, hsignal⟩
                unfold ExecLeads Leads repeatWhile
                simp only [hrun, htruthy, if_true, hrun']
                cases signal with
                | «break» => exact ⟨h₂, hle₁.trans hle₂, ht₂, trivial⟩
                | _ => exact ⟨h₂, hle₁.trans hle₂, ht₂, hsignal⟩
          · unfold ExecLeads Leads repeatWhile
            simp only [hrun, htruthy]
            exact ⟨h₁, hle₁, ht₁, trivial⟩

theorem catchError_leads {body : Tracing Signal Unit} {handle : RuntimeError → Tracing Signal Unit}
    (hbody : ExecLeads body history t fun _ _ => True)
    (hhandle : ∀ error later t', t'.Reached later → (Failure.error error).Within later →
      ExecLeads (handle error) later t' fun _ _ => True) :
    ExecLeads (catchError body handle) history t fun _ _ => True := by
  unfold ExecLeads Leads at hbody
  cases hrun : body t with
  | ok _ t₁ =>
      rw [hrun] at hbody
      unfold ExecLeads Leads catchError
      rw [hrun]
      exact hbody
  | error signal t₁ =>
      rw [hrun] at hbody
      rcases hbody with ⟨h₁, hle, ht₁, hsignal⟩
      rcases signal with _ | value | (error | _)
      case failed.error =>
        refine Leads.of_run hle ?_ (hhandle error h₁ t₁ ht₁ hsignal)
        simp only [catchError, hrun]
      all_goals
        unfold ExecLeads Leads catchError
        rw [hrun]
        exact ⟨h₁, hle, ht₁, hsignal⟩

theorem resultOf_leads {body : Tracing Signal Unit}
    (hbody : ExecLeads body history t fun _ _ => True) :
    EvalLeads (resultOf body) history t Value.Within := by
  unfold ExecLeads Leads at hbody
  unfold EvalLeads Leads resultOf
  cases hrun : body t with
  | ok _ t₁ =>
      rw [hrun] at hbody
      exact hbody
  | error signal t₁ =>
      rw [hrun] at hbody
      cases signal with
      | «break» => exact hbody
      | exit value => exact hbody
      | failed failure => exact hbody

section Statements

variable {call : Caller} (hcall : CallerLeads call)
include hcall

theorem optionalValue_leads {cx : Context} {value : Option Expr} (h : t.Reached history) :
    EvalLeads (optionalValue call cx value) history t Value.Within := by
  cases value with
  | none => exact .pure h trivial
  | some e => exact expr_leads hcall cx e h

theorem raiseValue_leads {cx : Context} {keyword : Token} {value : Option Expr}
    (h : t.Reached history) :
    EvalLeads (raiseValue call cx keyword value) history t fun _ _ => True := by
  cases value with
  | none => exact failAt_leads h
  | some e =>
      refine (expr_leads hcall cx e h).bind fun later t₁ result _ h₁ hresult => .keep_look ?_
      refine .keep_throw h₁ fun value hvalue => ?_
      cases hvalue
      exact hresult

end Statements

mutual

theorem stmt_leads {call : Caller} (hcall : CallerLeads call) (fuel : Nat) :
    ∀ (statement : Stmt) (cx : Context) {history : List Class} {t : Traced}, t.Reached history →
      ExecLeads (stmt call fuel cx statement) history t fun _ _ => True
  | .block body, cx, _, _, h => by
      rw [stmt]
      refine (ofEval_leads (enter_leads h fun _ _ hvalue => by cases hvalue)).bind
        fun _ _ env _ h₁ _ => ?_
      exact stmts_leads hcall fuel body (cx.inside env) h₁
  | .classDecl decl, cx, _, _, h => by
      rw [stmt]
      exact ofEval_leads (defineClass_leads h)
  | .enumDecl decl, cx, _, _, h => by
      rw [stmt]
      exact ofEval_leads (defineMembers_leads h)
  | .function decl, cx, _, _, h => by
      rw [stmt]
      exact ofEval_leads (defineFunction_leads h)
  | .ifThen condition thenBranch none, cx, _, _, h => by
      rw [stmt]
      refine (ofEval_leads (expr_leads hcall cx condition h)).bind fun _ _ value _ h₁ _ => ?_
      split
      · exact stmt_leads hcall fuel thenBranch cx h₁
      · exact .pure h₁ trivial
  | .ifThen condition thenBranch (some elseBranch), cx, _, _, h => by
      rw [stmt]
      refine (ofEval_leads (expr_leads hcall cx condition h)).bind fun _ _ value _ h₁ _ => ?_
      split
      · exact stmt_leads hcall fuel thenBranch cx h₁
      · exact stmt_leads hcall fuel elseBranch cx h₁
  | .while condition body, cx, _, _, h => by
      rw [stmt]
      exact repeatWhile_leads (expr_leads hcall cx condition) (stmt_leads hcall fuel body cx) fuel h
  | .try _ body handlers otherwise, cx, _, _, h => by
      have hnothing {history : List Class} :
          ∀ name value, (∅ : Table Value).find? name = some value → value.Within history :=
        fun _ _ hvalue => by cases hvalue
      rw [stmt]
      refine (ofEval_leads (enter_leads h hnothing)).bind fun _ _ env _ h₁ _ => ?_
      refine catchError_leads (stmts_leads hcall fuel body (cx.inside env) h₁) ?_
      intro error later t₂ h₂ herror
      dsimp only
      split
      · next index _ =>
          exact handler_leads hcall fuel handlers index cx h₂
            (RuntimeError.within_raisedValue herror)
      · exact (ofEval_leads (enter_leads h₂ hnothing)).bind fun _ _ env _ h₃ _ =>
          stmts_leads hcall fuel otherwise (cx.inside env) h₃
  | .print _ value, cx, _, _, h => by
      rw [stmt]
      refine ofEval_leads ((expr_leads hcall cx value h).bind fun _ _ result _ h₁ hresult => ?_)
      have harguments := List.forall_mem_singleton.mpr hresult
      exact .keep_bind ((callNative_leads h₁ harguments).bind fun _ _ _ _ h₂ _ =>
        .keep_pure h₂ trivial)
  | .exit _ value, cx, _, _, h => by
      rw [stmt]
      exact (ofEval_leads (optionalValue_leads hcall h)).bind fun _ _ result _ h₁ hresult =>
        .throw h₁ hresult
  | .raise keyword value, cx, _, _, h => by
      rw [stmt]
      exact ofEval_leads (raiseValue_leads hcall h)
  | .var decl, cx, _, _, h => by
      rw [stmt]
      exact ofEval_leads ((optionalValue_leads hcall h).bind fun _ _ value _ h₁ hvalue =>
        define_leads h₁ hvalue)
  | .break _, cx, _, _, h => by
      rw [stmt]
      exact .throw h trivial
  | .expression value, cx, _, _, h => by
      rw [stmt]
      exact ofEval_leads (expr_leads hcall cx value h).discard
  | .uses _ _, cx, _, _, h => by
      rw [stmt]
      exact .pure h trivial

theorem stmts_leads {call : Caller} (hcall : CallerLeads call) (fuel : Nat) :
    ∀ (list : List Stmt) (cx : Context) {history : List Class} {t : Traced}, t.Reached history →
      ExecLeads (stmts call fuel cx list) history t fun _ _ => True
  | [], cx, _, _, h => by
      rw [stmts]
      exact .pure h trivial
  | statement :: rest, cx, _, _, h => by
      rw [stmts]
      exact (stmt_leads hcall fuel statement cx h).bind fun _ _ _ _ h₁ _ =>
        stmts_leads hcall fuel rest cx h₁

theorem handler_leads {call : Caller} (hcall : CallerLeads call) (fuel : Nat) {raised : Value} :
    ∀ (handlers : List (Handler Stmt)) (index : Nat) (cx : Context) {history : List Class}
      {t : Traced}, t.Reached history → raised.Within history →
      ExecLeads (handler call fuel cx raised handlers index) history t fun _ _ => True
  | [], _, cx, _, _, h, _ => by
      rw [handler]
      exact .pure h trivial
  | ⟨name, typeName, body⟩ :: _, 0, cx, _, _, h, hraised => by
      rw [handler]
      exact (ofEval_leads (enter_leads h (within_singleton hraised))).bind fun _ _ env _ h₁ _ =>
        stmt_leads hcall fuel body (cx.inside env) h₁
  | _ :: rest, index + 1, cx, _, _, h, hraised => by
      rw [handler]
      exact handler_leads hcall fuel rest index cx h hraised

end

/-! ## Calls and programs -/

theorem callFn_leads (cx : Context) : ∀ fuel, CallerLeads (callFn cx fuel)
  | 0 => fun _ _ _ _ h _ => .throw h trivial
  | fuel + 1 => by
      intro f arguments history t h harguments
      refine (enter_leads h fun _ value hvalue =>
        harguments value (mem_of_find?_bindParams hvalue)).bind fun _ _ env _ h₁ _ => ?_
      refine (resultOf_leads (stmts_leads (callFn_leads cx fuel) fuel f.decl.body (cx.inside env)
        h₁)).bind fun _ t₂ returned _ h₂ hreturned => ?_
      split
      · refine .look (.pure h₂ ?_)
        cases hthis : t₂.store.findHere? f.closure "this" with
        | none => trivial
        | some self => exact h₂.store.within (.of_findHere? hthis)
      · exact .pure h₂ hreturned

theorem program_leads (m : Machine) (fuel : Nat) (statements : List Stmt) (h : t.Reached history) :
    ExecLeads (program m fuel statements) history t fun _ _ => True :=
  stmts_leads (callFn_leads m.context fuel) fuel statements m.context h

end Trace

theorem Leads.ended {F : List Class → ε → Prop} {x : Tracing ε α} {history : List Class}
    {t : Traced} {Q : List Class → α → Prop} (h : Leads F x history t Q) :
    ∃ later, history <:+ later ∧ (Trace.ended (x t)).Reached later := by
  unfold Leads at h
  cases hrun : x t with
  | ok value t' =>
      rw [hrun] at h
      rcases h with ⟨later, hlater, h, -⟩
      exact ⟨later, hlater, h⟩
  | error e t' =>
      rw [hrun] at h
      rcases h with ⟨later, hlater, h, -⟩
      exact ⟨later, hlater, h⟩

end MiniPascal
