import MiniPascal.Machine.Run
import MiniPascal.Proofs.Machine.Following
import MiniPascal.Proofs.Machine.Locality

/-!
# Running again with more fuel and more distances

Statements do the same with more fuel, and with another table of distances that agrees with the old
one on the numbers in their own references and in the bodies of the functions that the store
carries.
-/

namespace MiniPascal

/-- The references of the body of a function have numbers in a set. -/
def FunctionDecl.Within (B : NodeId → Prop) (decl : Function) : Prop :=
  ∃ p, ∀ r ∈ Stmt.listReferences p decl.body, B r.mention.id

theorem FunctionDecl.Within.imp {B B' : NodeId → Prop} {decl : Function} (h : decl.Within B)
    (hB : ∀ id, B id → B' id) : decl.Within B' := by
  rcases h with ⟨p, h⟩
  exact ⟨p, fun r hr => hB _ (h r hr)⟩

namespace Exec

variable {P : Function → Prop} {s : Store}

/-! ## Declarations -/

theorem defineMembers_follows {env : Env} {enumName : String} :
    ∀ {members : List Token} {ordinal : Nat} {s : Store}, s.Carries P →
      Eval.Follows P (defineMembers env enumName ordinal members)
        (defineMembers env enumName ordinal members) s fun _ => True
  | [], _, _, h => .pure h trivial
  | _ :: _, _, _, h => by
      refine (Eval.define_follows h ?_).bind fun _ _ h₁ _ => defineMembers_follows h₁
      trivial

theorem defineEnums_follows {env : Env} : ∀ {decls : List EnumDecl} {s : Store}, s.Carries P →
    Eval.Follows P (defineEnums env decls) (defineEnums env decls) s fun _ => True
  | [], _, h => .pure h trivial
  | _ :: _, _, h => (defineMembers_follows h).bind fun _ _ h₁ _ => defineEnums_follows h₁

theorem newFn_follows {decl : Function} {env : Env} {isInitializer : Bool} (h : s.Carries P)
    (hdecl : P decl) :
    Eval.Follows P (modifyGet fun s => s.newFn decl env isInitializer)
      (modifyGet fun s => s.newFn decl env isInitializer) s fun f => P f.decl :=
  .modifyGet h.newFn hdecl

theorem defineFunction_follows {env : Env} {decl : Function} (h : s.Carries P) (hdecl : P decl) :
    Eval.Follows P (defineFunction env decl) (defineFunction env decl) s fun _ => True :=
  (newFn_follows h hdecl).bind fun _ _ h₁ hf => Eval.define_follows h₁ hf

theorem superclass?_follows {cx : Context} {parent? : Option Superclass} (h : s.Carries P) :
    Eval.Follows P (superclass? cx parent?) (superclass? cx parent?) s fun cls? =>
      ∀ cls ∈ cls?, cls.Carries P := by
  cases parent? with
  | none => exact .pure h (by simp)
  | some parent =>
      refine (Eval.lookUp_follows h).bind fun value s₁ h₁ hvalue => ?_
      cases value with
      | «class» cls =>
          refine .pure h₁ fun found hfound => ?_
          cases hfound
          exact hvalue
      | _ => exact Eval.failAt_follows h₁

theorem methodEnv_follows {env : Env} {superclass : Option Class} (h : s.Carries P)
    (hsuper : ∀ cls ∈ superclass, cls.Carries P) :
    Eval.Follows P (methodEnv env superclass) (methodEnv env superclass) s fun _ => True := by
  cases superclass with
  | none => exact .pure h trivial
  | some parent =>
      refine Eval.child_follows h fun name value hvalue => ?_
      rw [Table.find?_insert] at hvalue
      split at hvalue
      · cases hvalue
        exact hsuper parent rfl
      · cases hvalue

theorem addMethod_follows {env : Env} {methods : Table Fn} {decl : Function} (h : s.Carries P)
    (hmethods : ∀ name f, methods.find? name = some f → P f.decl) (hdecl : P decl) :
    Eval.Follows P (addMethod env methods decl) (addMethod env methods decl) s fun extended =>
      ∀ name f, extended.find? name = some f → P f.decl := by
  refine (newFn_follows h hdecl).bind fun added s₁ h₁ hadded => ?_
  split
  · exact (MiniPascal.Follows.modify (h₁.addOverload hadded)).bind fun _ s₂ h₂ _ =>
      .pure h₂ hmethods
  · refine .pure h₁ fun name f hf => ?_
    rw [Table.find?_insert] at hf
    split at hf
    · cases hf
      exact hadded
    · exact hmethods name f hf

theorem addMethods_follows {env : Env} : ∀ {decls : List Function} {methods : Table Fn}
    {s : Store}, s.Carries P → (∀ name f, methods.find? name = some f → P f.decl) →
    (∀ decl ∈ decls, P decl) →
    Eval.Follows P (addMethods env methods decls) (addMethods env methods decls) s fun extended =>
      ∀ name f, extended.find? name = some f → P f.decl
  | [], _, _, h, hmethods, _ => .pure h hmethods
  | _ :: _, _, _, h, hmethods, hdecls => by
      rcases List.forall_mem_cons.mp hdecls with ⟨hdecl, hrest⟩
      exact (addMethod_follows h hmethods hdecl).bind fun _ _ h₁ hextended =>
        addMethods_follows h₁ hextended hrest

theorem defineClass_follows {cx : Context} {decl : ClassDecl Stmt} (h : s.Carries P)
    (hmethods : ∀ method ∈ decl.methods, P method) :
    Eval.Follows P (defineClass cx decl) (defineClass cx decl) s fun _ => True := by
  refine (defineEnums_follows h).bind fun _ s₁ h₁ _ => ?_
  refine (superclass?_follows h₁).bind fun superclass s₂ h₂ hsuper => ?_
  have hnil : (Value.nil).Carries P := trivial
  refine (Eval.define_follows h₂ hnil).bind fun _ s₃ h₃ _ => ?_
  refine (methodEnv_follows h₃ hsuper).bind fun env s₄ h₄ _ => ?_
  refine (addMethods_follows h₄ (fun _ _ hf => by cases hf) hmethods).bind
    fun methods s₅ h₅ hadded => ?_
  refine MiniPascal.Follows.bind (Q := fun cls => cls.Carries P) (.modifyGet ?_ ?_) ?_
  · exact h₅.counted rfl rfl rfl ⟨h₅.contents.sequences, h₅.contents.maps⟩
  · exact .mk hsuper hadded
  · exact fun cls s₆ h₆ hcls => .modify (h₆.bindHere hcls)

/-! ## Statements -/

abbrev Follows (P : Function → Prop) (x y : Exec α) (s : Store) (Q : α → Prop) : Prop :=
  MiniPascal.Follows P (.failed .starved) (Signal.Carries P) x y s Q

theorem ofEval_follows {x y : Eval α} {Q : α → Prop} (h : Eval.Follows P x y s Q) :
    Follows P (ofEval x) (ofEval y) s Q := by
  unfold Eval.Follows MiniPascal.Follows at h
  unfold Follows MiniPascal.Follows ofEval
  cases hrun : x s with
  | ok value s' =>
      rw [hrun] at h
      rw [h.1]
      exact ⟨rfl, h.2⟩
  | error failure s' =>
      rw [hrun] at h
      rcases h with rfl | ⟨hy, hs', hfailure⟩
      · exact .inl rfl
      · rw [hy]
        exact .inr ⟨rfl, hs', hfailure⟩

theorem repeatWhile_follows {condition condition' : Eval Value} {body body' : Exec Unit}
    (hcondition : ∀ {s : Store}, s.Carries P →
      Eval.Follows P condition condition' s (Value.Carries P))
    (hbody : ∀ {s : Store}, s.Carries P → Follows P body body' s fun _ => True) :
    ∀ {fuel fuel' : Nat} {s : Store}, fuel ≤ fuel' → s.Carries P →
      Follows P (repeatWhile condition body fuel) (repeatWhile condition' body' fuel') s
        fun _ => True
  | 0, _, _, _, _ => .inl rfl
  | fuel + 1, 0, _, hfuel, _ => by omega
  | fuel + 1, fuel' + 1, s, hfuel, h => by
      have hvalue := hcondition h
      unfold Eval.Follows MiniPascal.Follows at hvalue
      unfold Follows MiniPascal.Follows
      simp only [repeatWhile]
      cases hrun : condition s with
      | error failure s₁ =>
          rw [hrun] at hvalue
          rcases hvalue with rfl | ⟨hrun', h₁, hfailure⟩
          · exact .inl rfl
          · rw [hrun']
            exact .inr ⟨rfl, h₁, hfailure⟩
      | ok value s₁ =>
          rw [hrun] at hvalue
          rcases hvalue with ⟨hrun', h₁, -⟩
          rw [hrun']
          dsimp only
          by_cases htrue : value.isTruthy = true
          · simp only [if_pos htrue]
            have hround := hbody h₁
            unfold Follows MiniPascal.Follows at hround
            cases hrun : body s₁ with
            | ok _ s₂ =>
                rw [hrun] at hround
                rw [hround.1]
                exact repeatWhile_follows hcondition hbody (Nat.le_of_succ_le_succ hfuel) hround.2.1
            | error signal s₂ =>
                rw [hrun] at hround
                rcases hround with rfl | ⟨hrun', h₂, hsignal⟩
                · exact .inl rfl
                · rw [hrun']
                  cases signal with
                  | «break» => exact ⟨rfl, h₂, trivial⟩
                  | exit result => exact .inr ⟨rfl, h₂, hsignal⟩
                  | failed failure => exact .inr ⟨rfl, h₂, hsignal⟩
          · simp only [if_neg htrue]
            exact ⟨trivial, h₁, trivial⟩

theorem catchError_follows {body body' : Exec Unit} {handle handle' : RuntimeError → Exec Unit}
    (hbody : Follows P body body' s fun _ => True)
    (hhandle : ∀ error {s : Store}, s.Carries P → (Failure.error error).Carries P →
      Follows P (handle error) (handle' error) s fun _ => True) :
    Follows P (catchError body handle) (catchError body' handle') s fun _ => True := by
  unfold Follows MiniPascal.Follows at hbody ⊢
  unfold catchError
  cases hrun : body s with
  | ok _ s₁ =>
      rw [hrun] at hbody
      rw [hbody.1]
      exact ⟨rfl, hbody.2⟩
  | error signal s₁ =>
      rw [hrun] at hbody
      rcases hbody with rfl | ⟨hrun', h₁, hsignal⟩
      · exact .inl rfl
      · rw [hrun']
        cases signal with
        | «break» => exact .inr ⟨rfl, h₁, trivial⟩
        | exit value => exact .inr ⟨rfl, h₁, hsignal⟩
        | failed failure =>
            cases failure with
            | starved => exact .inl rfl
            | error error => exact hhandle error h₁ hsignal

theorem resultOf_follows {body body' : Exec Unit} (hbody : Follows P body body' s fun _ => True) :
    Eval.Follows P (resultOf body) (resultOf body') s (Value.Carries P) := by
  unfold Follows MiniPascal.Follows at hbody
  unfold Eval.Follows MiniPascal.Follows resultOf
  cases hrun : body s with
  | ok _ s₁ =>
      rw [hrun] at hbody
      rw [hbody.1]
      exact ⟨rfl, hbody.2⟩
  | error signal s₁ =>
      rw [hrun] at hbody
      rcases hbody with rfl | ⟨hrun', h₁, hsignal⟩
      · exact .inl rfl
      · rw [hrun']
        cases signal with
        | «break» => exact ⟨rfl, h₁, trivial⟩
        | exit value => exact ⟨rfl, h₁, hsignal⟩
        | failed failure => exact .inr ⟨rfl, h₁, hsignal⟩

variable {call call' : Eval.Caller}

theorem optionalValue_follows (hcall : Eval.CallerFollows P call call') {cx : Context}
    {value : Option Expr} (h : s.Carries P) :
    Eval.Follows P (optionalValue call cx value) (optionalValue call' cx value) s
      (Value.Carries P) := by
  cases value with
  | none => exact .pure h trivial
  | some e => exact Eval.expr_follows hcall cx e h

theorem printLine_follows {host : Host} {keyword : Token} {value : Value} (h : s.Carries P)
    (hvalue : value.Carries P) :
    Eval.Follows P (printLine host keyword value) (printLine host keyword value) s fun _ => True :=
  (Eval.callNative_follows h (List.forall_mem_singleton.mpr hvalue)).discard

theorem raiseValue_follows (hcall : Eval.CallerFollows P call call') {cx : Context}
    {keyword : Token} {value : Option Expr} (h : s.Carries P) :
    Eval.Follows P (raiseValue call cx keyword value) (raiseValue call' cx keyword value) s
      fun _ => True := by
  cases value with
  | none => exact Eval.failAt_follows h
  | some e =>
      refine (Eval.expr_follows hcall cx e h).bind fun result s₁ h₁ hresult => .look ?_
      refine .throw h₁ fun value hvalue => ?_
      cases hvalue
      exact hresult

section Within

variable {B : NodeId → Prop}

/-- The references of methods are those of their bodies. -/
theorem within_of_methodReferences {p : Place} : ∀ {methods : List Function},
    (∀ r ∈ Stmt.methodReferences p methods, B r.mention.id) →
      ∀ method ∈ methods, method.Within B
  | [], _, _, hmethod => by cases hmethod
  | ⟨kind, name, params, returnType, body⟩ :: rest, h, method, hmethod => by
      rcases List.forall_mem_append.mp h with ⟨hbody, hrest⟩
      rcases List.mem_cons.mp hmethod with rfl | hmethod
      · exact ⟨_, hbody⟩
      · exact within_of_methodReferences hrest method hmethod

/-- What a second run may have: calls that follow, and more fuel for its loops. -/
structure Rerun (B : NodeId → Prop) (call call' : Eval.Caller) (fuel fuel' : Nat) : Prop where
  calls : Eval.CallerFollows (FunctionDecl.Within B) call call'
  fuel : fuel ≤ fuel'

variable {fuel fuel' : Nat}

mutual

theorem stmt_follows (hrun : Rerun B call call' fuel fuel') :
    ∀ (statement : Stmt) (p : Place) (cx : Context) {s : Store},
      (∀ r ∈ Stmt.references p statement, B r.mention.id) → s.Carries (FunctionDecl.Within B) →
        Follows (FunctionDecl.Within B) (stmt call fuel cx statement)
          (stmt call' fuel' cx statement) s fun _ => True
  | .block body, p, cx, s, hB, h => by
      rw [stmt, stmt]
      refine (ofEval_follows (Eval.child_follows h fun _ _ hvalue => by cases hvalue)).bind
        fun env s₁ h₁ _ => ?_
      exact stmts_follows hrun body _ (cx.inside env) hB h₁
  | .classDecl ⟨name, superclass, fields, enums, methods⟩, p, cx, s, hB, h => by
      rw [stmt, stmt]
      exact ofEval_follows (defineClass_follows h
        (within_of_methodReferences (List.forall_mem_append.mp hB).2))
  | .enumDecl decl, p, cx, s, hB, h => by
      rw [stmt, stmt]
      exact ofEval_follows (defineMembers_follows h)
  | .function ⟨kind, name, params, returnType, body⟩, p, cx, s, hB, h => by
      rw [stmt, stmt]
      exact ofEval_follows (defineFunction_follows h ⟨_, hB⟩)
  | .ifThen condition thenBranch none, p, cx, s, hB, h => by
      rw [stmt, stmt]
      refine (ofEval_follows (Eval.expr_follows hrun.calls cx condition h)).bind
        fun value s₁ h₁ _ => ?_
      split
      · exact stmt_follows hrun thenBranch p cx (List.forall_mem_append.mp hB).2 h₁
      · exact .pure h₁ trivial
  | .ifThen condition thenBranch (some elseBranch), p, cx, s, hB, h => by
      rcases List.forall_mem_append.mp hB with ⟨hfirst, helse⟩
      rw [stmt, stmt]
      refine (ofEval_follows (Eval.expr_follows hrun.calls cx condition h)).bind
        fun value s₁ h₁ _ => ?_
      split
      · exact stmt_follows hrun thenBranch p cx (List.forall_mem_append.mp hfirst).2 h₁
      · exact stmt_follows hrun elseBranch p cx helse h₁
  | .while condition body, p, cx, s, hB, h => by
      rw [stmt, stmt]
      exact repeatWhile_follows (Eval.expr_follows hrun.calls cx condition)
        (stmt_follows hrun body p cx (List.forall_mem_append.mp hB).2) hrun.fuel h
  | .try keyword body handlers otherwise, p, cx, s, hB, h => by
      rcases List.forall_mem_append.mp hB with ⟨hfirst, hotherwise⟩
      rcases List.forall_mem_append.mp hfirst with ⟨hbody, hhandlers⟩
      have hchild {s : Store} (h : s.Carries (FunctionDecl.Within B)) :
          Follows (FunctionDecl.Within B) (ofEval (Eval.child cx.env ∅))
            (ofEval (Eval.child cx.env ∅)) s fun _ => True :=
        ofEval_follows (Eval.child_follows h fun _ _ hvalue => by cases hvalue)
      rw [stmt, stmt]
      refine (hchild h).bind fun env s₁ h₁ _ => ?_
      refine catchError_follows (stmts_follows hrun body _ (cx.inside env) hbody h₁) ?_
      intro error s₂ h₂ herror
      dsimp only
      split
      · next index _ =>
          exact handler_follows hrun (RuntimeError.carries_raisedValue herror) handlers index p cx
            hhandlers h₂
      · exact (hchild h₂).bind fun env s₃ h₃ _ =>
          stmts_follows hrun otherwise _ (cx.inside env) hotherwise h₃
  | .print keyword value, p, cx, s, hB, h => by
      rw [stmt, stmt]
      exact ofEval_follows ((Eval.expr_follows hrun.calls cx value h).bind
        fun result s₁ h₁ hresult => printLine_follows h₁ hresult)
  | .exit keyword value, p, cx, s, hB, h => by
      rw [stmt, stmt]
      exact (ofEval_follows (optionalValue_follows hrun.calls h)).bind fun result s₁ h₁ hresult =>
        .throw h₁ hresult
  | .raise keyword value, p, cx, s, hB, h => by
      rw [stmt, stmt]
      exact ofEval_follows (raiseValue_follows hrun.calls h)
  | .var decl, p, cx, s, hB, h => by
      rw [stmt, stmt]
      exact ofEval_follows ((optionalValue_follows hrun.calls h).bind fun value s₁ h₁ hvalue =>
        Eval.define_follows h₁ hvalue)
  | .break keyword, p, cx, s, hB, h => by
      rw [stmt, stmt]
      exact .throw h trivial
  | .expression value, p, cx, s, hB, h => by
      rw [stmt, stmt]
      exact ofEval_follows (Eval.expr_follows hrun.calls cx value h).discard
  | .uses _ _, p, cx, s, hB, h => by
      rw [stmt, stmt]
      exact .pure h trivial

theorem stmts_follows (hrun : Rerun B call call' fuel fuel') :
    ∀ (list : List Stmt) (p : Place) (cx : Context) {s : Store},
      (∀ r ∈ Stmt.listReferences p list, B r.mention.id) → s.Carries (FunctionDecl.Within B) →
        Follows (FunctionDecl.Within B) (stmts call fuel cx list) (stmts call' fuel' cx list) s
          fun _ => True
  | [], p, cx, s, hB, h => by
      rw [stmts, stmts]
      exact .pure h trivial
  | statement :: rest, p, cx, s, hB, h => by
      rcases List.forall_mem_append.mp hB with ⟨hfirst, hrest⟩
      rw [stmts, stmts]
      exact (stmt_follows hrun statement p cx hfirst h).bind fun _ s₁ h₁ _ =>
        stmts_follows hrun rest _ cx hrest h₁

theorem handler_follows (hrun : Rerun B call call' fuel fuel') {raised : Value}
    (hraised : raised.Carries (FunctionDecl.Within B)) :
    ∀ (handlers : List (Handler Stmt)) (index : Nat) (p : Place) (cx : Context) {s : Store},
      (∀ r ∈ Stmt.handlerReferences p handlers, B r.mention.id) →
        s.Carries (FunctionDecl.Within B) →
        Follows (FunctionDecl.Within B) (handler call fuel cx raised handlers index)
          (handler call' fuel' cx raised handlers index) s fun _ => True
  | [], _, p, cx, s, hB, h => by
      rw [handler, handler]
      exact .pure h trivial
  | ⟨name, typeName, body⟩ :: rest, 0, p, cx, s, hB, h => by
      rw [handler, handler]
      refine (ofEval_follows (Eval.child_follows h fun key value hvalue => ?_)).bind
        fun env s₁ h₁ _ =>
          stmt_follows hrun body _ (cx.inside env) (List.forall_mem_append.mp hB).1 h₁
      rw [Table.find?_insert] at hvalue
      split at hvalue
      · cases hvalue
        exact hraised
      · cases hvalue
  | _ :: rest, index + 1, p, cx, s, hB, h => by
      rw [handler, handler]
      exact handler_follows hrun hraised rest index p cx (List.forall_mem_append.mp hB).2 h

end

end Within

/-! ## Calls -/

/-- Calls do the same with more fuel and with distances that agree on the bodies of functions. -/
theorem callFn_follows {B : NodeId → Prop} {cx : Context} {locals : Locals}
    (hagree : ∀ id, B id → locals[id]? = cx.locals[id]?) :
    ∀ {fuel fuel' : Nat}, fuel ≤ fuel' →
      Eval.CallerFollows (FunctionDecl.Within B) (callFn cx fuel)
        (callFn (cx.withLocals locals) fuel')
  | 0, _, _ => fun _ _ _ _ _ _ => .inl rfl
  | fuel + 1, 0, hfuel => by omega
  | fuel + 1, fuel' + 1, hfuel => by
      intro f arguments s hf harguments h
      rcases id hf with ⟨p, hbody⟩
      refine (Eval.child_follows h fun _ value hvalue =>
        harguments value (mem_of_find?_bindParams hvalue)).bind fun env s₁ h₁ _ => ?_
      have hrun : Rerun B (callFn cx fuel) (callFn (cx.withLocals locals) fuel') fuel fuel' :=
        ⟨callFn_follows hagree (by omega), by omega⟩
      have hsame : stmts (callFn (cx.withLocals locals) fuel') fuel'
          ((cx.withLocals locals).inside env) f.decl.body =
          stmts (callFn (cx.withLocals locals) fuel') fuel' (cx.inside env) f.decl.body :=
        stmts_agree _ fuel' f.decl.body p (cx.inside env) fun r hr => hagree _ (hbody r hr)
      rw [hsame]
      refine (resultOf_follows (stmts_follows hrun f.decl.body p (cx.inside env) hbody h₁)).bind
        fun returned s₂ h₂ hreturned => ?_
      split
      · refine .look (.pure h₂ ?_)
        cases hthis : s₂.findHere? f.closure "this" with
        | none => trivial
        | some self => exact h₂.findHere? hthis
      · exact .pure h₂ hreturned

theorem stmts_append (call : Eval.Caller) (fuel : Nat) (cx : Context) (xs ys : List Stmt) :
    stmts call fuel cx (xs ++ ys) = stmts call fuel cx xs >>= fun _ => stmts call fuel cx ys := by
  induction xs with
  | nil => rfl
  | cons statement rest ih =>
      rw [List.cons_append, stmts, stmts, ih]
      exact (bind_assoc _ _ _).symm

end Exec

/-! ## Programs -/

namespace Machine

variable {m m' : Machine} {fuel : Nat} {xs : List Stmt}

theorem interpret_ok_iff : m.interpret fuel xs = (.ok (), m') ↔
    m' = { m with store := m'.store } ∧
      Exec.stmts (Exec.callFn m.context fuel) fuel m.context xs m.store = .ok () m'.store := by
  unfold interpret
  cases Exec.stmts (Exec.callFn m.context fuel) fuel m.context xs m.store with
  | ok _ store =>
      constructor
      · intro h
        cases h
        exact ⟨rfl, rfl⟩
      · rintro ⟨hm', hstore⟩
        cases hstore
        rw [hm']
  | error signal store =>
      constructor
      · intro h
        cases h
      · rintro ⟨-, hstore⟩
        cases hstore

/-- What follows a program that ends normally goes on where it ends. -/
theorem interpret_append (h : m.interpret fuel xs = (.ok (), m')) (ys : List Stmt) :
    m.interpret fuel (xs ++ ys) = m'.interpret fuel ys := by
  rcases interpret_ok_iff.mp h with ⟨hm', hrun⟩
  have hcontext : m'.context = m.context := by rw [hm']; rfl
  have hboth : Exec.stmts (Exec.callFn m.context fuel) fuel m.context (xs ++ ys) m.store =
      Exec.stmts (Exec.callFn m.context fuel) fuel m.context ys m'.store := by
    rw [Exec.stmts_append]
    show EStateM.bind _ _ m.store = _
    rw [EStateM.bind, hrun]
  unfold interpret
  rw [hboth, hcontext]
  cases Exec.stmts (Exec.callFn m.context fuel) fuel m.context ys m'.store with
  | ok _ store => rw [hm']
  | error signal store => rw [hm']

/-- A program that ends normally does so with more fuel, and with other distances that agree on the
numbers in its references and in the functions it starts with. -/
theorem interpret_again {B : NodeId → Prop} (h : m.interpret fuel xs = (.ok (), m'))
    (hB : ∀ r ∈ Stmt.listReferences [] xs, B r.mention.id)
    (hstore : m.store.Carries (FunctionDecl.Within B)) :
    m'.store.Carries (FunctionDecl.Within B) ∧
      ∀ locals : Locals, (∀ id, B id → locals[id]? = m.locals[id]?) → ∀ fuel', fuel ≤ fuel' →
        Machine.interpret { m with locals } fuel' xs = (.ok (), { m' with locals }) := by
  rcases interpret_ok_iff.mp h with ⟨hm', hrun⟩
  have hfollows (locals : Locals) (hagree : ∀ id, B id → locals[id]? = m.locals[id]?)
      (fuel' : Nat) (hfuel : fuel ≤ fuel') :
      m'.store.Carries (FunctionDecl.Within B) ∧
        Exec.stmts (Exec.callFn (m.context.withLocals locals) fuel') fuel'
          (m.context.withLocals locals) xs m.store = .ok () m'.store := by
    have hcalls : Eval.CallerFollows (FunctionDecl.Within B) (Exec.callFn m.context fuel)
        (Exec.callFn (m.context.withLocals locals) fuel') := Exec.callFn_follows hagree hfuel
    have hagain := Exec.stmts_follows ⟨hcalls, hfuel⟩ xs [] m.context hB hstore
    unfold Exec.Follows Follows at hagain
    rw [hrun] at hagain
    refine ⟨hagain.2.1, ?_⟩
    rw [Exec.stmts_agree _ fuel' xs [] m.context fun r hr => hagree _ (hB r hr)]
    exact hagain.1
  refine ⟨(hfollows m.locals (fun _ _ => rfl) fuel (Nat.le_refl fuel)).1, ?_⟩
  intro locals hagree fuel' hfuel
  refine interpret_ok_iff.mpr ⟨?_, (hfollows locals hagree fuel' hfuel).2⟩
  rw [hm']

end Machine

end MiniPascal
