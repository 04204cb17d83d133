import MiniPascal.Proofs.Machine.MapEntries
import MiniPascal.Proofs.Machine.Subtypes

/-!
# Runs that fill maps

Whatever a machine runs, a map changes only when something is put into it: each map that there is
has been filled by puts, and further runs only add to them.
-/

namespace MiniPascal

/-! ## What a run does to maps -/

namespace Store

/-- Each map of the first store has been filled further, and each new map has been filled too. -/
structure Fills (s s' : Store) : Prop where
  old : ∀ id puts, s.Filled id puts → ∃ more, s'.Filled id (puts ++ more)
  new : ∀ id, s.maps.size ≤ id → id < s'.maps.size → ∃ puts, s'.Filled id puts

theorem Fills.of_maps {s s' : Store} (h : s'.maps = s.maps) : s.Fills s' where
  old id puts hfilled := ⟨[], (List.append_nil puts).symm ▸ hfilled.other (by rw [h])⟩
  new id hle hlt := absurd hlt (Nat.not_lt.mpr (h ▸ hle))

theorem Fills.trans {s s' s'' : Store} (h : s.Fills s') (h' : s'.Fills s'') : s.Fills s'' where
  old id puts hfilled := by
    rcases h.old id puts hfilled with ⟨more, hmore⟩
    rcases h'.old id _ hmore with ⟨further, hfurther⟩
    exact ⟨more ++ further, (List.append_assoc puts more further) ▸ hfurther⟩
  new id hle hlt := by
    rcases Nat.lt_or_ge id s'.maps.size with hbefore | hafter
    · rcases h.new id hle hbefore with ⟨puts, hputs⟩
      rcases h'.old id puts hputs with ⟨more, hmore⟩
      exact ⟨puts ++ more, hmore⟩
    · exact h'.new id hafter hlt

theorem Filled.lt_size {id : Nat} {puts : List (Value × Value)} {s : Store}
    (h : s.Filled id puts) : id < s.maps.size :=
  (Array.getElem?_eq_some_iff.mp h.getElem?_maps).1

theorem Fills.of_push {s s' : Store} {contents : List (Value × Value)}
    (hmaps : s'.maps = s.maps.push contents) (hfilled : ∃ puts, s'.Filled s.maps.size puts) :
    s.Fills s' where
  old id puts h := by
    refine ⟨[], (List.append_nil puts).symm ▸ h.other ?_⟩
    rw [hmaps, Array.getElem?_push, if_neg (Nat.ne_of_lt h.lt_size)]
  new id hle hlt := by
    rw [hmaps, Array.size_push] at hlt
    rw [Nat.le_antisymm (Nat.le_of_lt_succ hlt) hle]
    exact hfilled

theorem Fills.of_update {s s' : Store} {target : Nat}
    {change : List (Value × Value) → List (Value × Value)}
    (hmaps : s'.maps = s.maps.modify target change)
    (hfilled : ∀ puts, s.Filled target puts → ∃ more, s'.Filled target (puts ++ more)) :
    s.Fills s' where
  old id puts h := by
    by_cases hsame : target = id
    · exact hsame ▸ hfilled puts (hsame ▸ h)
    · refine ⟨[], (List.append_nil puts).symm ▸ h.other ?_⟩
      rw [hmaps, Array.getElem?_modify, if_neg hsame]
  new id hle hlt := by
    rw [hmaps, Array.size_modify] at hlt
    exact absurd hlt (Nat.not_lt.mpr hle)

end Store

/-- However it ends, the computation changes maps by filling them only. -/
def Filling (x : EStateM ε Store α) : Prop :=
  ∀ s : Store, s.Fills (stateAfter x s)

namespace Filling

theorem pure (value : α) : Filling (Pure.pure value : EStateM ε Store α) :=
  fun _ => .of_maps rfl

theorem throw (e : ε) : Filling (MonadExcept.throw e : EStateM ε Store α) :=
  fun _ => .of_maps rfl

theorem get : Filling (MonadState.get : EStateM ε Store Store) :=
  fun _ => .of_maps rfl

theorem bind {x : EStateM ε Store α} {f : α → EStateM ε Store β} (hx : Filling x)
    (hf : ∀ value, Filling (f value)) : Filling (x >>= f) := by
  intro s
  have hfirst := hx s
  cases hrun : x s with
  | ok value s' =>
      rw [stateAfter_of_ok hrun] at hfirst
      rw [stateAfter, bind_of_ok hrun]
      exact hfirst.trans (hf value s')
  | error e s' =>
      rw [stateAfter_of_error hrun] at hfirst
      rw [stateAfter_of_error (bind_of_error hrun)]
      exact hfirst

theorem of_modify {change : Store → Store} (h : ∀ s : Store, (change s).maps = s.maps) :
    Filling (modify change : EStateM ε Store Unit) :=
  fun s => .of_maps (h s)

theorem of_modifyGet {change : Store → α × Store} (h : ∀ s : Store, (change s).2.maps = s.maps) :
    Filling (modifyGet change : EStateM ε Store α) :=
  fun s => .of_maps (h s)

theorem discard {x : EStateM ε Store α} (hx : Filling x) : Filling (Functor.discard x) :=
  hx.bind fun _ => .pure ()

end Filling

namespace Eval

theorem failAt_filling (token : Token) (fault : RuntimeFault) :
    Filling (failAt token fault : Eval α) :=
  .throw _

theorem orFail_filling (token : Token) (result : Except RuntimeFault α) :
    Filling (orFail token result) := by
  cases result with
  | ok value => exact .pure value
  | error fault => exact failAt_filling token fault

theorem child_filling (env : Env) (bindings : Table Value) : Filling (child env bindings) :=
  (Filling.of_modifyGet fun _ => rfl).bind fun _ => .pure _

theorem bindMethod_filling (method : Fn) (self : Instance) : Filling (bindMethod method self) :=
  .of_modifyGet fun _ => rfl

theorem bindHere_maps (s : Store) (env : Env) (name : String) (value : Value) :
    (s.bindHere env name value).maps = s.maps := by
  cases env <;> rfl

theorem define_filling (env : Env) (name : Token) (value : Value) :
    Filling (define env name value) := by
  refine Filling.get.bind fun s => ?_
  split
  · exact .of_modify fun s => bindHere_maps s env _ value
  · exact .of_modify fun _ => rfl
  · exact failAt_filling name _

theorem thisInstance?_filling (env : Env) : Filling (thisInstance? env) := by
  refine Filling.get.bind fun s => ?_
  split <;> exact .pure _

theorem property?_filling (self : Instance) (name : String) : Filling (property? self name) := by
  unfold property?
  split
  · exact .pure _
  · refine Filling.get.bind fun s => ?_
    split
    · exact .pure _
    · split
      · exact (bindMethod_filling _ self).bind fun _ => .pure _
      · exact .pure _

theorem lookUp_filling (cx : Context) (id : NodeId) (name : Token) :
    Filling (lookUp cx id name) := by
  have hread : Filling (readVariable cx id name.lexeme) := by
    refine Filling.get.bind fun s => ?_
    split <;> exact .pure _
  refine hread.bind fun found => ?_
  split
  · exact .pure _
  · refine (thisInstance?_filling cx.env).bind fun self => ?_
    split
    · exact failAt_filling name _
    · refine (property?_filling _ name.lexeme).bind fun property => ?_
      split
      · exact .pure _
      · exact failAt_filling name _

theorem assign_filling (cx : Context) (id : NodeId) (name : Token) (value : Value) :
    Filling (assign cx id name value) := by
  have htarget : Filling (targetFrame? cx id name.lexeme) := by
    unfold targetFrame?
    split
    · exact .pure _
    · exact Filling.get.bind fun _ => .pure _
  refine htarget.bind fun frame => ?_
  split
  · refine Filling.bind (.of_modify fun _ => ?_) fun _ => .pure _
    rfl
  · refine (thisInstance?_filling cx.env).bind fun self => ?_
    split
    · refine Filling.bind (.of_modify fun _ => ?_) fun _ => .pure _
      rfl
    · exact failAt_filling name _

theorem superMethod_filling (cx : Context) (id : NodeId) (keyword method : Token) :
    Filling (superMethod cx id keyword method) := by
  unfold superMethod
  split
  · exact failAt_filling keyword _
  · refine Filling.get.bind fun s => ?_
    split
    · dsimp only
      split
      · split
        · exact (bindMethod_filling _ _).bind fun _ => .pure _
        · exact failAt_filling method _
      · exact failAt_filling keyword _
    · exact failAt_filling keyword _

theorem memberValue_filling (found : Member) : Filling (memberValue found) := by
  cases found with
  | length count => exact .pure _
  | method op target => exact (Filling.of_modifyGet fun _ => rfl).bind fun _ => .pure _

theorem getProperty_filling (target : Value) (name : Token) :
    Filling (getProperty target name) := by
  unfold getProperty
  split
  · refine (property?_filling _ name.lexeme).bind fun property => ?_
    split
    · exact .pure _
    · exact failAt_filling name _
  · refine Filling.get.bind fun s => ?_
    split
    · exact memberValue_filling _
    · exact failAt_filling name _
    · exact failAt_filling name _

theorem fieldOwner_filling (target : Value) (name : Token) : Filling (fieldOwner target name) := by
  unfold fieldOwner
  split
  · exact .pure _
  · split
    · exact failAt_filling name _
    · exact failAt_filling name _

theorem checkArity_filling (paren : Token) (expected got : Nat) :
    Filling (checkArity paren expected got) := by
  unfold checkArity
  split
  · exact .pure _
  · exact failAt_filling paren _

theorem bindChoice_filling (choice : Store.Choice) : Filling (bindChoice choice) := by
  cases choice with
  | function f => exact .pure _
  | method f self => exact bindMethod_filling f self

section Calls

variable {call : Caller}

/-- Besides `put` and the function that makes maps, no native function changes a map. -/
theorem maps_of_callNative {s : Store} {host : Host} {op : NativeOp} {arguments : List Value}
    {value : Value} {change : Store → Store} (hput : ∀ target, op ≠ .member .mapPut target)
    (hmap : op ≠ .builtin .map) (hrun : s.callNative host op arguments = .ok (value, change)) :
    (change s).maps = s.maps := by
  cases op with
  | builtin op =>
      cases op with
      | map => exact absurd rfl hmap
      | ord | length | array =>
          rcases exists_of_bind_ok hrun with ⟨n, -, hrest⟩
          cases hrest
          rfl
      | copy =>
          rcases exists_of_bind_ok hrun with ⟨start, -, hstart⟩
          rcases exists_of_bind_ok hstart with ⟨stop, -, hstop⟩
          rcases exists_of_bind_ok hstop with ⟨text, -, hrest⟩
          cases hrest
          rfl
      | assertTrue | assertEqual =>
          dsimp only [Store.callNative, Store.callBuiltin] at hrun
          split at hrun <;> cases hrun
          rfl
      | writeLn | write =>
          rcases Store.eq_of_write hrun with ⟨-, rfl⟩
          rfl
      | str | clock | list | stack =>
          cases hrun
          rfl
  | member op target =>
      cases op with
      | mapPut => exact absurd rfl (hput target)
      | arrayGet | listGet =>
          rcases exists_of_bind_ok hrun with ⟨element, -, hrest⟩
          cases hrest
          rfl
      | arraySet =>
          rcases exists_of_bind_ok hrun with ⟨i, -, hrest⟩
          split at hrest <;> cases hrest
          rfl
      | stackPop | stackPeek =>
          dsimp only [Store.callNative, Store.callContainer] at hrun
          split at hrun <;> cases hrun
          rfl
      | listAdd | mapGet | mapContains | stackPush | stackIsEmpty =>
          cases hrun
          rfl

theorem callNative_filling (host : Host) {op : NativeOp} (paren : Token) (arguments : List Value)
    (hput : ∀ target, op ≠ .member .mapPut target) (hmap : op ≠ .builtin .map) :
    Filling (callNative host op paren arguments) := by
  intro s
  rw [stateAfter, callNative_apply]
  rcases s.exists_entering op with ⟨calls, hcalls⟩
  rw [hcalls]
  cases hrun : ({ s with hostCalls := calls } : Store).callNative host op arguments with
  | error fault => exact .of_maps rfl
  | ok outcome => exact .of_maps (maps_of_callNative hput hmap hrun)

theorem applyNative_filling (cx : Context) (native : Native) (paren : Token)
    (arguments : List Value) : Filling (applyValue call cx (.native native) paren arguments) := by
  intro s
  by_cases harity : native.op.arity = arguments.length
  · have hcall : applyValue call cx (.native native) paren arguments s = _ :=
      applyValue_native harity
    rcases native with ⟨number, op⟩
    by_cases hput : ∃ target, op = .member .mapPut target
    · rcases hput with ⟨target, rfl⟩
      rw [stateAfter_of_ok hcall]
      rcases List.length_eq_two.mp harity.symm with ⟨key, item, rfl⟩
      exact .of_update rfl fun puts h => ⟨_, h.put rfl hcall⟩
    · by_cases hmap : op = .builtin .map
      · cases hmap
        rw [stateAfter_of_ok hcall]
        rw [List.eq_nil_of_length_eq_zero harity.symm] at hcall
        exact .of_push rfl ⟨[], .made rfl hcall⟩
      · rw [stateAfter, hcall]
        exact callNative_filling cx.host paren arguments (fun target h => hput ⟨target, h⟩) hmap s
  · have hfail : applyValue call cx (.native native) paren arguments s =
        failAt paren (.arity native.op.arity arguments.length) s := by
      rw [applyValue, checkArity, if_neg harity]
      rfl
    rw [stateAfter, hfail]
    exact .of_maps rfl

theorem instantiate_filling (hcall : ∀ f arguments, Filling (call f arguments)) (cls : Class)
    (paren : Token) (arguments : List Value) : Filling (instantiate call cls paren arguments) := by
  have hnew : Filling (modifyGet fun s => s.newInstance cls : Eval Instance) :=
    .of_modifyGet fun _ => rfl
  refine Filling.get.bind fun s => ?_
  split
  · exact (checkArity_filling _ _ _).bind fun _ => hnew.bind fun _ => .pure _
  · refine (checkArity_filling _ _ _).bind fun _ => hnew.bind fun self => ?_
    refine (bindMethod_filling _ self).bind fun bound => ?_
    exact (hcall bound arguments).discard.bind fun _ => .pure _

theorem applyValue_filling (hcall : ∀ f arguments, Filling (call f arguments)) (cx : Context)
    (callee : Value) (paren : Token) (arguments : List Value) :
    Filling (applyValue call cx callee paren arguments) := by
  have hother : Filling (failAt paren .notCallable : Eval Value) := failAt_filling _ _
  cases callee with
  | function f =>
      refine Filling.get.bind fun s => ?_
      split
      · exact failAt_filling _ _
      · refine (bindChoice_filling _).bind fun selected => ?_
        exact (checkArity_filling _ _ _).bind fun _ => hcall selected arguments
  | native native => exact applyNative_filling cx native paren arguments
  | «class» cls => exact instantiate_filling hcall cls paren arguments
  | _ => exact hother

/-- A map literal makes a map and puts its items into it. -/
theorem literal_filling {cx : Context} {bracket : Token} {items : List (Expr × Expr)}
    (hpairs : Filling (pairs call cx items)) : Filling (expr call cx (.map bracket items)) := by
  intro s
  have hitems := hpairs s
  have hexpr : expr call cx (.map bracket items) =
      pairs call cx items >>= fun puts => do
        let id ← modifyGet fun s => s.newMap (putAll puts [])
        return .map id := by
    rw [expr, entries_eq_putAll, bind_assoc]
    rfl
  cases hrun : pairs call cx items s with
  | error e between =>
      rw [stateAfter_of_error hrun] at hitems
      rw [hexpr, stateAfter_of_error (bind_of_error hrun)]
      exact hitems
  | ok puts between =>
      rw [stateAfter_of_ok hrun] at hitems
      have hliteral : expr call cx (.map bracket items) s =
          .ok (.map between.maps.size) (between.newMap (putAll puts [])).2 := by
        rw [hexpr, bind_of_ok hrun]
        rfl
      rw [stateAfter_of_ok hliteral]
      exact hitems.trans (.of_push rfl ⟨puts, .literal hrun hliteral⟩)

mutual

theorem expr_filling (hcall : ∀ f arguments, Filling (call f arguments)) (cx : Context) :
    ∀ e, Filling (expr call cx e)
  | .literal _ => .pure _
  | .cast inner _ => expr_filling hcall cx inner
  | .grouping inner => expr_filling hcall cx inner
  | .unary _ token operand =>
      (expr_filling hcall cx operand).bind fun _ => orFail_filling token _
  | .binary left _ token right =>
      (expr_filling hcall cx left).bind fun _ => (expr_filling hcall cx right).bind fun _ =>
        Filling.get.bind fun _ => orFail_filling token _
  | .logical left op _ right => by
      refine (expr_filling hcall cx left).bind fun value => ?_
      split
      · exact .pure _
      · exact expr_filling hcall cx right
  | .variable id name => lookUp_filling cx id name
  | .this id keyword => lookUp_filling cx id keyword
  | .super id keyword method => superMethod_filling cx id keyword method
  | .assign id name value =>
      (expr_filling hcall cx value).bind fun result => assign_filling cx id name result
  | .call callee paren arguments =>
      (expr_filling hcall cx callee).bind fun target =>
        (exprs_filling hcall cx arguments).bind fun values =>
          applyValue_filling hcall cx target paren values
  | .get object name =>
      (expr_filling hcall cx object).bind fun target => getProperty_filling target name
  | .set object name value => by
      refine (expr_filling hcall cx object).bind fun target => ?_
      refine (fieldOwner_filling target name).bind fun self => ?_
      refine (expr_filling hcall cx value).bind fun result => ?_
      refine Filling.bind (.of_modify fun _ => ?_) fun _ => .pure _
      rfl
  | .subscript bracket object index =>
      (expr_filling hcall cx object).bind fun _ => (expr_filling hcall cx index).bind fun _ =>
        Filling.get.bind fun _ => orFail_filling bracket _
  | .map _ items => literal_filling (pairs_filling hcall cx items)

theorem exprs_filling (hcall : ∀ f arguments, Filling (call f arguments)) (cx : Context) :
    ∀ list, Filling (exprs call cx list)
  | [] => .pure _
  | e :: rest =>
      (expr_filling hcall cx e).bind fun _ => (exprs_filling hcall cx rest).bind fun _ => .pure _

theorem pairs_filling (hcall : ∀ f arguments, Filling (call f arguments)) (cx : Context) :
    ∀ items, Filling (pairs call cx items)
  | [] => .pure _
  | (key, item) :: rest =>
      (expr_filling hcall cx key).bind fun _ => (expr_filling hcall cx item).bind fun _ =>
        (pairs_filling hcall cx rest).bind fun _ => .pure _

end

end Calls

end Eval

/-! ## Statements -/

namespace Filling

theorem ofEval {x : Eval α} (hx : Filling x) : Filling (Exec.ofEval x) := by
  intro s
  have hrun := hx s
  unfold stateAfter Exec.ofEval at *
  cases hresult : x s <;> simpa only [hresult] using hrun

theorem repeatWhile {condition : Eval Value} {body : Exec Unit} (hcondition : Filling condition)
    (hbody : Filling body) : ∀ fuel, Filling (Exec.repeatWhile condition body fuel)
  | 0 => fun _ => .of_maps rfl
  | fuel + 1 => by
      intro s
      have hfirst := hcondition s
      rw [stateAfter, Exec.repeatWhile]
      cases hvalue : condition s with
      | error failure s₁ => rwa [stateAfter_of_error hvalue] at hfirst
      | ok value s₁ =>
          rw [stateAfter_of_ok hvalue] at hfirst
          dsimp only
          by_cases htruthy : value.isTruthy = true
          · have hround := hbody s₁
            rw [if_pos htruthy]
            cases hresult : body s₁ with
            | ok _ s₂ =>
                rw [stateAfter_of_ok hresult] at hround
                exact (hfirst.trans hround).trans (repeatWhile hcondition hbody fuel s₂)
            | error signal s₂ =>
                rw [stateAfter_of_error hresult] at hround
                cases signal <;> exact hfirst.trans hround
          · rw [if_neg htruthy]
            exact hfirst

theorem catchError {body : Exec Unit} {handle : RuntimeError → Exec Unit} (hbody : Filling body)
    (hhandle : ∀ error, Filling (handle error)) : Filling (Exec.catchError body handle) := by
  intro s
  have hfirst := hbody s
  rw [stateAfter, Exec.catchError]
  cases hresult : body s with
  | ok _ s' => rwa [stateAfter_of_ok hresult] at hfirst
  | error signal s' =>
      rw [stateAfter_of_error hresult] at hfirst
      cases signal with
      | failed failure =>
          cases failure with
          | error error => exact hfirst.trans (hhandle error s')
          | _ => exact hfirst
      | _ => exact hfirst

theorem resultOf {body : Exec Unit} (hbody : Filling body) : Filling (Exec.resultOf body) := by
  intro s
  have hrun := hbody s
  unfold stateAfter Exec.resultOf at *
  cases hresult : body s with
  | ok _ s' => simpa only [hresult] using hrun
  | error signal s' =>
      simp only [hresult] at hrun
      cases signal <;> exact hrun

end Filling

namespace Exec

theorem defineMembers_filling (env : Env) (enumName : String) (members : List Token) :
    ∀ ordinal, Filling (defineMembers env enumName ordinal members) := by
  induction members with
  | nil => exact fun _ => .pure _
  | cons member rest ih => exact fun ordinal => (Eval.define_filling _ _ _).bind fun _ => ih _

theorem defineEnums_filling (env : Env) (decls : List EnumDecl) :
    Filling (defineEnums env decls) := by
  induction decls with
  | nil => exact .pure _
  | cons decl rest ih => exact (defineMembers_filling env _ _ 0).bind fun _ => ih

theorem defineFunction_filling (env : Env) (decl : Function) :
    Filling (defineFunction env decl) := by
  refine Filling.bind (.of_modifyGet fun _ => ?_) fun f => Eval.define_filling env decl.name _
  rfl

theorem superclass?_filling (cx : Context) (parent : Option Superclass) :
    Filling (superclass? cx parent) := by
  cases parent with
  | none => exact .pure _
  | some parent =>
      refine (Eval.lookUp_filling cx parent.id parent.name).bind fun value => ?_
      split
      · exact .pure _
      · exact Eval.failAt_filling _ _

theorem methodEnv_filling (env : Env) (superclass : Option Class) :
    Filling (methodEnv env superclass) := by
  cases superclass with
  | none => exact .pure _
  | some parent => exact Eval.child_filling env _

theorem addMethods_filling (env : Env) (list : List Function) :
    ∀ methods, Filling (addMethods env methods list) := by
  induction list with
  | nil => exact fun _ => .pure _
  | cons decl rest ih =>
      intro methods
      refine Filling.bind ?_ ih
      refine Filling.bind (.of_modifyGet fun _ => ?_) fun f => ?_
      · rfl
      · split
        · refine Filling.bind (.of_modify fun _ => ?_) fun _ => .pure _
          rfl
        · exact .pure _

theorem defineClass_filling (cx : Context) (decl : ClassDecl Stmt) :
    Filling (defineClass cx decl) := by
  refine (defineEnums_filling cx.env decl.enums).bind fun _ => ?_
  refine (superclass?_filling cx decl.superclass).bind fun superclass => ?_
  refine (Eval.define_filling cx.env decl.name .nil).bind fun _ => ?_
  refine (methodEnv_filling cx.env superclass).bind fun env => ?_
  refine (addMethods_filling env decl.methods ∅).bind fun methods => ?_
  refine Filling.bind (.of_modifyGet fun _ => ?_) fun cls => .of_modify fun s => ?_
  · rfl
  · exact Eval.bindHere_maps s cx.env _ _

theorem printLine_filling (host : Host) (keyword : Token) (value : Value) :
    Filling (printLine host keyword value) :=
  (Eval.callNative_filling host keyword [value] (fun _ h => by cases h)
    (fun h => by cases h)).discard

section Statements

variable {call : Eval.Caller}

theorem optionalValue_filling (hcall : ∀ f arguments, Filling (call f arguments)) (cx : Context)
    (value : Option Expr) : Filling (optionalValue call cx value) := by
  cases value with
  | none => exact .pure _
  | some e => exact Eval.expr_filling hcall cx e

theorem raiseValue_filling (hcall : ∀ f arguments, Filling (call f arguments)) (cx : Context)
    (keyword : Token) (value : Option Expr) : Filling (raiseValue call cx keyword value) := by
  cases value with
  | none => exact Eval.failAt_filling keyword _
  | some e =>
      exact (Eval.expr_filling hcall cx e).bind fun _ => Filling.get.bind fun _ => .throw _

mutual

theorem stmt_filling (hcall : ∀ f arguments, Filling (call f arguments)) (fuel : Nat)
    (cx : Context) : ∀ s, Filling (stmt call fuel cx s)
  | .block body =>
      (Eval.child_filling _ _).ofEval.bind fun _ => stmts_filling hcall fuel _ body
  | .classDecl decl => (defineClass_filling cx decl).ofEval
  | .enumDecl decl => (defineMembers_filling cx.env _ _ 0).ofEval
  | .function decl => (defineFunction_filling cx.env decl).ofEval
  | .ifThen condition thenBranch none => by
      refine (Eval.expr_filling hcall cx condition).ofEval.bind fun value => ?_
      split
      · exact stmt_filling hcall fuel cx thenBranch
      · exact .pure _
  | .ifThen condition thenBranch (some elseBranch) => by
      refine (Eval.expr_filling hcall cx condition).ofEval.bind fun value => ?_
      split
      · exact stmt_filling hcall fuel cx thenBranch
      · exact stmt_filling hcall fuel cx elseBranch
  | .while condition body =>
      .repeatWhile (Eval.expr_filling hcall cx condition) (stmt_filling hcall fuel cx body) fuel
  | .try _ body handlers otherwise => by
      refine (Eval.child_filling _ _).ofEval.bind fun env => ?_
      refine Filling.catchError (stmts_filling hcall fuel _ body) fun error => ?_
      dsimp only
      split
      · exact handler_filling hcall fuel cx error.raisedValue handlers _
      · exact (Eval.child_filling _ _).ofEval.bind fun _ => stmts_filling hcall fuel _ otherwise
  | .print keyword value =>
      ((Eval.expr_filling hcall cx value).bind fun result =>
        printLine_filling cx.host keyword result).ofEval
  | .exit _ value => (optionalValue_filling hcall cx value).ofEval.bind fun _ => .throw _
  | .raise keyword value => (raiseValue_filling hcall cx keyword value).ofEval
  | .var decl =>
      ((optionalValue_filling hcall cx decl.initial).bind fun value =>
        Eval.define_filling cx.env decl.name value).ofEval
  | .break _ => .throw _
  | .expression value => (Eval.expr_filling hcall cx value).discard.ofEval
  | .uses _ _ => .pure _

theorem stmts_filling (hcall : ∀ f arguments, Filling (call f arguments)) (fuel : Nat)
    (cx : Context) : ∀ list, Filling (stmts call fuel cx list)
  | [] => .pure _
  | s :: rest => (stmt_filling hcall fuel cx s).bind fun _ => stmts_filling hcall fuel cx rest

theorem handler_filling (hcall : ∀ f arguments, Filling (call f arguments)) (fuel : Nat)
    (cx : Context) (raised : Value) :
    ∀ handlers index, Filling (handler call fuel cx raised handlers index)
  | [], _ => .pure _
  | ⟨_, _, body⟩ :: _, 0 =>
      (Eval.child_filling _ _).ofEval.bind fun _ => stmt_filling hcall fuel _ body
  | _ :: rest, index + 1 => handler_filling hcall fuel cx raised rest index

end

end Statements

theorem callFn_filling (cx : Context) :
    ∀ fuel f arguments, Filling (callFn cx fuel f arguments) := by
  intro fuel
  induction fuel with
  | zero => exact fun _ _ => .throw _
  | succ fuel ih =>
      intro f arguments
      refine (Eval.child_filling _ _).bind fun env => ?_
      refine (stmts_filling ih fuel _ f.decl.body).resultOf.bind fun returned => ?_
      split
      · exact Filling.get.bind fun _ => .pure _
      · exact .pure _

end Exec

/-! ## Machines -/

namespace Machine

theorem interpret_fills (m : Machine) (fuel : Nat) (statements : List Stmt) :
    m.store.Fills (m.interpret fuel statements).2.store := by
  have hrun := Exec.stmts_filling (Exec.callFn_filling m.context fuel) fuel m.context statements
    m.store
  unfold interpret
  cases hresult : Exec.stmts (Exec.callFn m.context fuel) fuel m.context statements m.store with
  | ok _ s => rwa [stateAfter_of_ok hresult] at hrun
  | error signal s => rwa [stateAfter_of_error hresult] at hrun

theorem runTest_fills (m : Machine) (fuel : Nat) (name : Token) :
    m.store.Fills (m.runTest fuel name).2.store := by
  unfold runTest
  cases m.testFunction? name.lexeme with
  | none => exact .of_maps rfl
  | some test =>
      have hrun := Exec.callFn_filling m.context fuel test [] m.store
      dsimp only
      cases hresult : Exec.callFn m.context fuel test [] m.store with
      | ok _ s => rwa [stateAfter_of_ok hresult] at hrun
      | error failure s => rwa [stateAfter_of_error hresult] at hrun

theorem runEach_fills (fuel : Nat) (names : List Token) :
    ∀ m : Machine, m.store.Fills (runEach fuel m names).2.store := by
  induction names with
  | nil => exact fun m => .of_maps rfl
  | cons name rest ih => exact fun m => (m.runTest_fills fuel name).trans (ih _)

theorem runTests_fills (m : Machine) (fuel : Nat) (filter : Option String)
    (statements : List Stmt) : m.store.Fills (m.runTests fuel filter statements).2.store := by
  have hprogram := m.interpret_fills fuel statements
  unfold runTests
  rcases hrun : m.interpret fuel statements with ⟨_ | _, m'⟩ <;> rw [hrun] at hprogram
  · exact hprogram
  · exact hprogram.trans (runEach_fills fuel _ m')

theorem perform_fills (m : Machine) (task : Task) : m.store.Fills (m.perform task).store := by
  cases task with
  | addLocals locals => exact .of_maps rfl
  | clearOutput => exact .of_maps rfl
  | interpret fuel statements => exact m.interpret_fills fuel statements
  | runTests fuel filter statements => exact m.runTests_fills fuel filter statements

theorem performAll_fills (m : Machine) (tasks : List Task) :
    m.store.Fills (m.performAll tasks).store := by
  induction tasks generalizing m with
  | nil => exact .of_maps rfl
  | cons task rest ih => exact (m.perform_fills task).trans (ih _)

/-- Every map of a machine has been filled by puts, whatever the machine has run. -/
theorem exists_filled (host : Host) (tasks : List Task) {id : Nat}
    (h : id < ((start host).performAll tasks).store.maps.size) :
    ∃ puts, ((start host).performAll tasks).store.Filled id puts :=
  ((start host).performAll_fills tasks).new id (Nat.zero_le id) h

end Machine

end MiniPascal
