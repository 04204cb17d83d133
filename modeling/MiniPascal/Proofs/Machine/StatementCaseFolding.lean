import MiniPascal.Proofs.Machine.ExpressionCaseFolding

/-!
# Statements with folded words

Folded statements run in a folded store as the statements themselves do: declarations, loops,
handlers and calls, and so whole programs.
-/

namespace MiniPascal
namespace Trace

variable {words : Keyword → Bool}

/-! ## Declarations -/

theorem defineMembers_mirrors (env : Env) (enumName : String) (members : List Token) :
    ∀ ordinal, Mirrors words id (keep (Exec.defineMembers env enumName ordinal members))
      (Exec.defineMembers env enumName ordinal members) := by
  induction members with
  | nil =>
      intro ordinal
      exact Mirrors.keep_pure rfl
  | cons member rest ih =>
      intro ordinal
      apply Mirrors.keep_bind
      · exact define_mirrors env member rfl
      · intro _
        exact ih (ordinal + 1)

theorem defineEnums_mirrors (env : Env) (enums : List EnumDecl) :
    Mirrors words id (keep (Exec.defineEnums env enums)) (Exec.defineEnums env enums) := by
  induction enums with
  | nil => exact Mirrors.keep_pure rfl
  | cons decl rest ih =>
      apply Mirrors.keep_bind
      · exact defineMembers_mirrors env decl.name.lexeme decl.members 0
      · intro _
        exact ih

theorem defineFunction_mirrors (env : Env) (decl : Function) :
    Mirrors words id (keep (Exec.defineFunction env decl))
      (Exec.defineFunction env (decl.fold words)) := by
  apply Mirrors.keep_bind
  · exact Mirrors.keep_modifyGet fun s => s.newFn_fold words decl env false
  · intro f
    exact define_mirrors env decl.name rfl

theorem superclass?_mirrors (cx : Context) (parent : Option Superclass) :
    Mirrors words (Option.map (Class.fold words)) (superclass? cx parent)
      (Exec.superclass? cx parent) := by
  cases parent with
  | none => exact Mirrors.pure rfl
  | some parent =>
      apply Mirrors.note
      apply (lookUp_mirrors cx parent.id parent.name).bind
      intro value
      cases value with
      | «class» cls => exact Mirrors.pure rfl
      | _ => exact failAt_mirrors rfl rfl

theorem methodEnv_mirrors (decl : ClassDecl Stmt) (env : Env) (superclass : Option Class) :
    Mirrors words id (methodEnv decl env superclass)
      (Exec.methodEnv env (superclass.map (Class.fold words))) := by
  cases superclass with
  | none => exact Mirrors.pure rfl
  | some parent =>
      apply enter_mirrors
      rw [Table.map_insert, Table.map_empty]
      rfl

theorem addMethod_mirrors (env : Env) (methods : Table Fn) (decl : Function) :
    Mirrors words (Table.map (Fn.fold words)) (keep (Exec.addMethod env methods decl))
      (Exec.addMethod env (methods.map (Fn.fold words)) (decl.fold words)) := by
  unfold Exec.addMethod
  apply Mirrors.keep_bind
  · exact Mirrors.keep_modifyGet fun s => s.newFn_fold words decl env _
  · intro f
    rw [Function.name_fold, Table.find?_map]
    cases methods.find? decl.name.lexeme with
    | some first =>
        apply Mirrors.keep_bind
        · exact Mirrors.keep_modify fun s => (s.addOverload_fold words first f).symm
        · intro _
          exact Mirrors.keep_pure rfl
    | none => exact Mirrors.keep_pure (Table.map_insert _ _ _ _).symm

theorem addMethods_mirrors (env : Env) (decls : List Function) :
    ∀ methods, Mirrors words (Table.map (Fn.fold words)) (keep (Exec.addMethods env methods decls))
      (Exec.addMethods env (methods.map (Fn.fold words)) (decls.map (Function.fold words))) := by
  induction decls with
  | nil =>
      intro methods
      exact Mirrors.keep_pure rfl
  | cons decl rest ih =>
      intro methods
      apply Mirrors.keep_bind (addMethod_mirrors env methods decl)
      intro extended
      exact ih extended

theorem defineClass_mirrors (cx : Context) (decl : ClassDecl Stmt) :
    Mirrors words id (defineClass cx decl) (Exec.defineClass cx (decl.fold words)) := by
  apply (defineEnums_mirrors cx.env decl.enums).bind
  intro _
  apply (superclass?_mirrors cx decl.superclass).bind
  intro superclass
  apply Mirrors.bind
  · exact define_mirrors cx.env decl.name rfl
  · intro _
    apply (methodEnv_mirrors decl cx.env superclass).bind
    intro env
    apply (addMethods_mirrors env decl.methods ∅).bind
    intro methods
    apply Mirrors.bind
    · exact Mirrors.keep_modifyGet fun s =>
        Exec.newClass_fold words decl.name.lexeme superclass methods s
    · intro cls
      exact Mirrors.keep_modify fun s =>
        (s.bindHere_fold words cx.env decl.name.lexeme (.class cls)).symm

/-! ## Control -/

theorem optionalValue_mirrors {call : Caller} {caller : Eval.Caller}
    (hcall : CallerMirrors words call caller) (hthis : words .this = false) (cx : Context)
    (value : Option Expr) :
    Mirrors words (Value.fold words) (optionalValue call cx value)
      (Exec.optionalValue caller cx (value.map (Expr.fold words))) := by
  cases value with
  | none => exact Mirrors.pure rfl
  | some e => exact expr_mirrors hcall hthis cx e

theorem raiseValue_mirrors {call : Caller} {caller : Eval.Caller}
    (hcall : CallerMirrors words call caller) (hthis : words .this = false) (cx : Context)
    (keyword : Token) (value : Option Expr) :
    Mirrors words id (raiseValue call cx keyword value)
      (Exec.raiseValue caller cx (keyword.fold words) (value.map (Expr.fold words))) := by
  cases value with
  | none => exact failAt_mirrors (keyword.fold_fold_all words) rfl
  | some e =>
      apply (expr_mirrors hcall hthis cx e).bind
      intro raised
      apply Mirrors.keep
      intro s
      refine .error (.error ⟨keyword.fold_fold_all words, ?_, rfl⟩) rfl
      exact congrArg RuntimeFault.raised (s.display_fold words raised)

theorem ofEval_mirrors {α β : Type} {f : α → β} {x : Tracing Failure α} {y : Eval β}
    (hx : Mirrors words f x y) : Mirrors words f (ofEval x) (Exec.ofEval y) := by
  intro t
  have hrun := hx t
  unfold ofEval Exec.ofEval
  cases hx : x t with
  | ok value t' =>
      rw [hx] at hrun
      refine ⟨hrun.1, fun hreach => ?_⟩
      rw [(hrun.2 hreach).of_ok]
      exact .ok rfl rfl
  | error failure t' =>
      rw [hx] at hrun
      refine ⟨hrun.1, fun hreach => ?_⟩
      rcases (hrun.2 hreach).of_error with ⟨failure', hfailure, hy⟩
      rw [hy]
      exact .error (.failed hfailure) rfl

theorem resultOf_mirrors {body : Tracing Signal Unit} {body' : Exec Unit}
    (hbody : Mirrors words id body body') :
    Mirrors words (Value.fold words) (resultOf body) (Exec.resultOf body') := by
  intro t
  have hrun := hbody t
  unfold resultOf Exec.resultOf
  cases hx : body t with
  | ok value t' =>
      rw [hx] at hrun
      refine ⟨hrun.1, fun hreach => ?_⟩
      rw [(hrun.2 hreach).of_ok]
      exact .ok rfl rfl
  | error signal t' =>
      rw [hx] at hrun
      constructor
      · cases signal <;> exact hrun.1
      · intro hreach
        have hreach' : AllReach t'.events := by
          cases signal <;> exact hreach
        rcases (hrun.2 hreach').of_error with ⟨signal', hsignal, hy⟩
        rw [hy]
        cases hsignal with
        | «break» => exact .ok rfl rfl
        | exit value => exact .ok rfl rfl
        | failed hfailure => exact .error hfailure rfl

theorem repeatWhile_mirrors {condition : Tracing Failure Value} {condition' : Eval Value}
    {body : Tracing Signal Unit} {body' : Exec Unit}
    (hcondition : Mirrors words (Value.fold words) condition condition')
    (hbody : Mirrors words id body body') :
    ∀ fuel, Mirrors words id (repeatWhile condition body fuel)
      (Exec.repeatWhile condition' body' fuel) := by
  intro fuel
  induction fuel with
  | zero =>
      intro t
      exact ⟨List.Subset.refl _, fun _ => .error (.failed .starved) rfl⟩
  | succ fuel ih =>
      intro t
      have htest := hcondition t
      unfold repeatWhile Exec.repeatWhile
      cases hx : condition t with
      | error failure t' =>
          rw [hx] at htest
          refine ⟨htest.1, fun hreach => ?_⟩
          rcases (htest.2 hreach).of_error with ⟨failure', hfailure, hy⟩
          rw [hy]
          exact .error (.failed hfailure) rfl
      | ok value t' =>
          rw [hx] at htest
          cases htruth : value.isTruthy with
          | false =>
              simp only [htruth, Bool.false_eq_true, if_false]
              refine ⟨htest.1, fun hreach => ?_⟩
              rw [(htest.2 hreach).of_ok]
              simp only [Value.isTruthy_fold, htruth, Bool.false_eq_true, if_false]
              exact .ok rfl rfl
          | true =>
              simp only [htruth, if_true]
              have hround := hbody t'
              cases hrun : body t' with
              | ok _ t'' =>
                  rw [hrun] at hround
                  have hrest := ih t''
                  have hafter := List.Subset.trans hround.1 hrest.1
                  refine ⟨List.Subset.trans htest.1 hafter, fun hreach => ?_⟩
                  rw [(htest.2 (hreach.mono hafter)).of_ok]
                  simp only [Value.isTruthy_fold, htruth, if_true]
                  rw [(hround.2 (hreach.mono hrest.1)).of_ok]
                  exact hrest.2 hreach
              | error signal t'' =>
                  rw [hrun] at hround
                  constructor
                  · cases signal <;> exact List.Subset.trans htest.1 hround.1
                  · intro hreach
                    have hreach' : AllReach t''.events := by
                      cases signal <;> exact hreach
                    rw [(htest.2 (hreach'.mono hround.1)).of_ok]
                    simp only [Value.isTruthy_fold, htruth, if_true]
                    rcases (hround.2 hreach').of_error with ⟨signal', hsignal, hy⟩
                    rw [hy]
                    cases hsignal with
                    | «break» => exact .ok rfl rfl
                    | exit value => exact .error (.exit value) rfl
                    | failed hfailure => exact .error (.failed hfailure) rfl

theorem catchError_mirrors {body : Tracing Signal Unit} {body' : Exec Unit}
    {handle : RuntimeError → Tracing Signal Unit} {handle' : RuntimeError → Exec Unit}
    (hbody : Mirrors words id body body')
    (hhandle : ∀ error error', error.Matches words error' →
      Mirrors words id (handle error) (handle' error')) :
    Mirrors words id (catchError body handle) (Exec.catchError body' handle') := by
  intro t
  have hrun := hbody t
  unfold catchError Exec.catchError
  cases hx : body t with
  | ok value t' =>
      rw [hx] at hrun
      refine ⟨hrun.1, fun hreach => ?_⟩
      rw [(hrun.2 hreach).of_ok]
      exact .ok rfl rfl
  | error signal t' =>
      rw [hx] at hrun
      cases signal with
      | failed failure =>
          cases failure with
          | error error =>
              have hgrows := (hhandle error
                { error with value := error.value.map (Value.fold words) } ⟨rfl, rfl, rfl⟩ t').1
              refine ⟨List.Subset.trans hrun.1 hgrows, fun hreach => ?_⟩
              rcases (hrun.2 (hreach.mono hgrows)).of_error with ⟨signal', hsignal, hy⟩
              rw [hy]
              cases hsignal with
              | failed hfailure =>
                  cases hfailure with
                  | error herror => exact (hhandle error _ herror t').2 hreach
          | starved =>
              refine ⟨hrun.1, fun hreach => ?_⟩
              rcases (hrun.2 hreach).of_error with ⟨signal', hsignal, hy⟩
              rw [hy]
              cases hsignal with
              | failed hfailure =>
                  cases hfailure
                  exact .error (.failed .starved) rfl
      | «break» | exit value =>
          refine ⟨hrun.1, fun hreach => ?_⟩
          rcases (hrun.2 hreach).of_error with ⟨signal', hsignal, hy⟩
          rw [hy]
          cases hsignal
          exact .error (by constructor) rfl

mutual

theorem stmt_mirrors {call : Caller} {caller : Eval.Caller}
    (hcall : CallerMirrors words call caller) (hthis : words .this = false) (fuel : Nat)
    (cx : Context) : ∀ s, Mirrors words id (stmt call fuel cx s)
      (Exec.stmt caller fuel cx (s.fold words))
  | .block body => by
      apply (ofEval_mirrors (enter_mirrors (.block body) cx.env rfl)).bind
      intro env
      exact stmts_mirrors hcall hthis fuel (cx.inside env) body
  | .classDecl decl => by
      rw [Stmt.fold_classDecl]
      exact ofEval_mirrors (defineClass_mirrors cx decl)
  | .enumDecl decl => by
      apply ofEval_mirrors
      exact defineMembers_mirrors cx.env decl.name.lexeme decl.members 0
  | .function decl => by
      rw [Stmt.fold_function]
      exact ofEval_mirrors (defineFunction_mirrors cx.env decl)
  | .ifThen condition thenBranch none => by
      apply (ofEval_mirrors (expr_mirrors hcall hthis cx condition)).bind
      intro value
      rw [Value.isTruthy_fold]
      cases value.isTruthy with
      | true => exact stmt_mirrors hcall hthis fuel cx thenBranch
      | false => exact Mirrors.pure rfl
  | .ifThen condition thenBranch (some elseBranch) => by
      apply (ofEval_mirrors (expr_mirrors hcall hthis cx condition)).bind
      intro value
      rw [Value.isTruthy_fold]
      cases value.isTruthy with
      | true => exact stmt_mirrors hcall hthis fuel cx thenBranch
      | false => exact stmt_mirrors hcall hthis fuel cx elseBranch
  | .while condition body =>
      repeatWhile_mirrors (expr_mirrors hcall hthis cx condition)
        (stmt_mirrors hcall hthis fuel cx body) fuel
  | .try keyword body handlerList otherwise => by
      apply (ofEval_mirrors (enter_mirrors (.block body) cx.env rfl)).bind
      intro env
      apply catchError_mirrors (stmts_mirrors hcall hthis fuel (cx.inside env) body)
      intro error error' herror
      rw [herror.raisedValue, Stmt.foldHandlers_eq_map]
      dsimp only
      rw [Exec.findHandler_fold]
      cases Exec.findHandler handlerList error.raisedValue with
      | some index =>
          have hhandler := handler_mirrors hcall hthis fuel cx error.raisedValue handlerList index
          rw [Stmt.foldHandlers_eq_map] at hhandler
          exact hhandler
      | none =>
          apply (ofEval_mirrors (enter_mirrors (.block otherwise) cx.env rfl)).bind
          intro env
          exact stmts_mirrors hcall hthis fuel (cx.inside env) otherwise
  | .print keyword value => by
      apply ofEval_mirrors
      apply (expr_mirrors hcall hthis cx value).bind
      intro result
      apply Mirrors.keep_bind
      · exact callNative_mirrors cx.host (.builtin .writeLn) [result]
          (keyword.fold_fold_all words)
      · intro _
        exact Mirrors.keep_pure rfl
  | .exit keyword value => by
      apply (ofEval_mirrors (optionalValue_mirrors hcall hthis cx value)).bind
      intro result
      exact Mirrors.throw (.exit result)
  | .raise keyword value => ofEval_mirrors (raiseValue_mirrors hcall hthis cx keyword value)
  | .var decl => by
      apply ofEval_mirrors
      apply (optionalValue_mirrors hcall hthis cx decl.initial).bind
      intro value
      exact define_mirrors cx.env decl.name rfl
  | .break keyword => Mirrors.throw .break
  | .expression value => ofEval_mirrors (expr_mirrors hcall hthis cx value).discard
  | .uses keyword unit => Mirrors.pure rfl

theorem stmts_mirrors {call : Caller} {caller : Eval.Caller}
    (hcall : CallerMirrors words call caller) (hthis : words .this = false) (fuel : Nat)
    (cx : Context) : ∀ list, Mirrors words id (stmts call fuel cx list)
      (Exec.stmts caller fuel cx (Stmt.foldList words list))
  | [] => Mirrors.pure rfl
  | s :: rest => by
      apply (stmt_mirrors hcall hthis fuel cx s).bind
      intro _
      exact stmts_mirrors hcall hthis fuel cx rest

theorem handler_mirrors {call : Caller} {caller : Eval.Caller}
    (hcall : CallerMirrors words call caller) (hthis : words .this = false) (fuel : Nat)
    (cx : Context) (raised : Value) : ∀ handlers index,
      Mirrors words id (handler call fuel cx raised handlers index)
        (Exec.handler caller fuel cx (raised.fold words) (Stmt.foldHandlers words handlers) index)
  | [], _ => Mirrors.pure rfl
  | ⟨name, typeName, body⟩ :: _, 0 => by
      have hbindings : (∅ : Table Value).insert name.lexeme (raised.fold words) =
          ((∅ : Table Value).insert name.lexeme raised).map (Value.fold words) := by
        rw [Table.map_insert, Table.map_empty]
      apply (ofEval_mirrors (enter_mirrors (.handler ⟨name, typeName, body⟩) cx.env hbindings)).bind
      intro env
      exact stmt_mirrors hcall hthis fuel (cx.inside env) body
  | _ :: rest, index + 1 => handler_mirrors hcall hthis fuel cx raised rest index

end

/-! ## Programs -/

theorem callFn_mirrors (hthis : words .this = false) (cx : Context) :
    ∀ fuel, CallerMirrors words (callFn cx fuel) (Exec.callFn cx fuel) := by
  intro fuel
  induction fuel with
  | zero =>
      intro f arguments
      exact Mirrors.throw .starved
  | succ fuel ih =>
      intro f arguments
      apply Mirrors.bind
      · apply enter_mirrors
        rw [Exec.bindParams_fold]
        rfl
      · intro env
        apply (resultOf_mirrors (stmts_mirrors ih hthis fuel (cx.inside env) f.decl.body)).bind
        intro returned
        rw [Fn.isInitializer_fold]
        cases f.isInitializer with
        | true =>
            apply Mirrors.bind Mirrors.look
            intro s
            apply Mirrors.pure
            rw [Fn.closure_fold, Store.findHere?_fold]
            exact Option.getD_map (Value.fold words) .nil _
        | false => exact Mirrors.pure rfl

theorem program_mirrors (hthis : words .this = false) (m : Machine) (fuel : Nat)
    (statements : List Stmt) :
    Mirrors words id (program m fuel statements)
      (Exec.stmts (Exec.callFn m.context fuel) fuel m.context (Stmt.foldList words statements)) :=
  stmts_mirrors (callFn_mirrors hthis m.context fuel) hthis fuel m.context statements

end Trace

end MiniPascal
