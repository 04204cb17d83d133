import MiniPascal.Proofs.Machine.Chronicle

/-!
# Runs and what their entries tell

Every evaluation, execution and call goes on from the journal that it is run with, in the ways that
its entries tell, and its own entry is the last one.
-/

namespace MiniPascal
namespace Journal

variable {st : Setting}

/-! ## Expressions -/

/-- An evaluation of an expression. -/
abbrev Evaluated (st : Setting) (activity : Activity) (x : Journaling Failure Value) : Prop :=
  Noted st activity .value .failed x

theorem Evaluated.of_proceeds {e : Expr} {x : Journaling Failure Value} (hx : Proceeds Local x)
    (hplain : (Activity.expression e).binds = false) :
    Evaluated st (.expression e) (evaluating st (.expression e) x) :=
  Noted.plain hx rfl hplain

section Calls

variable {call : Caller}

theorem instantiate_proceeds
    (hcall : ∀ f arguments, Evaluated st (.call f arguments) (call f arguments))
    (cls : Class) (paren : Token) (arguments : List Value) :
    Proceeds Local (instantiate call st cls paren arguments) := by
  have hnew : ∀ cx : Context, Steady (modifyGet fun s => s.newInstance cls : Eval Instance) :=
    fun _ => .of_modifyGet fun _ => .of_eq rfl rfl
  refine (Proceeds.look _).bind fun initializer => ?_
  cases initializer with
  | none =>
      refine (Proceeds.here fun _ => Eval.checkArity_steady _ _ _).bind fun _ => ?_
      exact (Proceeds.here hnew).bind fun self => .pure _
  | some initializer =>
      refine (Proceeds.here fun _ => Eval.checkArity_steady _ _ _).bind fun _ => ?_
      refine (Proceeds.here hnew).bind fun self => ?_
      refine (Proceeds.here fun _ => Eval.bindMethod_steady _ _).bind fun bound => ?_
      exact (hcall bound arguments).proceeds.discard.bind fun _ => .pure _

theorem applyValue_proceeds
    (hcall : ∀ f arguments, Evaluated st (.call f arguments) (call f arguments))
    (callee : Value) (paren : Token) (arguments : List Value) :
    Proceeds Local (applyValue call st callee paren arguments) := by
  have hother : Proceeds Local (here st fun _ => Eval.failAt paren .notCallable :
      Journaling Failure Value) := .here fun _ => Eval.failAt_steady _ _
  cases callee with
  | function f =>
      refine (Proceeds.look _).bind fun choice => ?_
      cases choice with
      | none => exact .here fun _ => Eval.failAt_steady _ _
      | some choice =>
          refine (Proceeds.here fun _ => Eval.bindChoice_steady choice).bind fun selected => ?_
          refine (Proceeds.here fun _ => Eval.checkArity_steady _ _ _).bind fun _ => ?_
          exact (hcall selected arguments).proceeds
  | native native =>
      exact .here fun cx => (Eval.checkArity_steady paren _ _).bind fun _ =>
        Eval.callNative_steady cx.host native.op paren arguments
  | «class» cls => exact instantiate_proceeds hcall cls paren arguments
  | _ => exact hother

mutual

theorem expr_evaluated
    (hcall : ∀ f arguments, Evaluated st (.call f arguments) (call f arguments)) :
    ∀ e, Evaluated st (.expression e) (expr call st e)
  | .literal value => .of_proceeds (.pure _) rfl
  | .cast inner typeName => .of_proceeds (expr_evaluated hcall inner).proceeds rfl
  | .grouping inner => .of_proceeds (expr_evaluated hcall inner).proceeds rfl
  | .unary op token operand => by
      refine .of_proceeds ((expr_evaluated hcall operand).proceeds.bind fun value => ?_) rfl
      exact .here fun _ => Eval.orFail_steady _ _
  | .binary left op token right => by
      refine .of_proceeds ((expr_evaluated hcall left).proceeds.bind fun leftValue => ?_) rfl
      refine (expr_evaluated hcall right).proceeds.bind fun rightValue => ?_
      exact .here fun _ => Steady.get.bind fun s => Eval.orFail_steady _ _
  | .logical left op token right => by
      refine .of_proceeds ((expr_evaluated hcall left).proceeds.bind fun value => ?_) rfl
      cases Eval.decides op value with
      | true => exact .pure _
      | false => exact (expr_evaluated hcall right).proceeds
  | .variable id name => .of_proceeds (.here fun cx => Eval.lookUp_steady cx id name) rfl
  | .this id keyword => .of_proceeds (.here fun cx => Eval.lookUp_steady cx id keyword) rfl
  | .super id keyword method =>
      .of_proceeds (.here fun cx => Eval.superMethod_steady cx id keyword method) rfl
  | .assign id name value => .assigning (expr_evaluated hcall value)
  | .call callee paren arguments => by
      refine .of_proceeds ((expr_evaluated hcall callee).proceeds.bind fun target => ?_) rfl
      refine (exprs_proceeds hcall arguments).bind fun values => ?_
      exact applyValue_proceeds hcall target paren values
  | .get object name => by
      refine .of_proceeds ((expr_evaluated hcall object).proceeds.bind fun target => ?_) rfl
      exact .here fun _ => Eval.getProperty_steady target name
  | .set object name value => by
      refine .of_proceeds ((expr_evaluated hcall object).proceeds.bind fun target => ?_) rfl
      refine (Proceeds.here fun _ => Eval.fieldOwner_steady target name).bind fun self => ?_
      refine (expr_evaluated hcall value).proceeds.bind fun result => ?_
      refine (Proceeds.here fun _ => Steady.of_modify fun s => ?_).bind fun _ => .pure _
      exact .of_eq rfl rfl
  | .subscript bracket object index => by
      refine .of_proceeds ((expr_evaluated hcall object).proceeds.bind fun target => ?_) rfl
      refine (expr_evaluated hcall index).proceeds.bind fun position => ?_
      exact .here fun _ => Steady.get.bind fun s => Eval.orFail_steady _ _
  | .map brace items => by
      refine .of_proceeds ((mapItems_proceeds hcall items []).bind fun contents => ?_) rfl
      refine (Proceeds.here fun _ => Steady.of_modifyGet fun s => ?_).bind fun id => .pure _
      exact .of_eq rfl rfl

theorem exprs_proceeds
    (hcall : ∀ f arguments, Evaluated st (.call f arguments) (call f arguments)) :
    ∀ list, Proceeds Local (exprs call st list)
  | [] => .pure _
  | e :: rest =>
      (expr_evaluated hcall e).proceeds.bind fun _ =>
        (exprs_proceeds hcall rest).bind fun _ => .pure _

theorem mapItems_proceeds
    (hcall : ∀ f arguments, Evaluated st (.call f arguments) (call f arguments)) :
    ∀ items contents, Proceeds Local (mapItems call st items contents)
  | [], _ => .pure _
  | (key, item) :: rest, _ =>
      (expr_evaluated hcall key).proceeds.bind fun _ =>
        (expr_evaluated hcall item).proceeds.bind fun _ =>
          mapItems_proceeds hcall rest _

end

/-! ## Statements -/

theorem optionalValue_proceeds
    (hcall : ∀ f arguments, Evaluated st (.call f arguments) (call f arguments))
    (value : Option Expr) : Proceeds Local (optionalValue call st value) := by
  cases value with
  | none => exact .pure _
  | some e => exact (expr_evaluated hcall e).proceeds

theorem raiseValue_proceeds
    (hcall : ∀ f arguments, Evaluated st (.call f arguments) (call f arguments))
    (keyword : Token) (value : Option Expr) :
    Proceeds Local (raiseValue call st keyword value) := by
  cases value with
  | none =>
      show Proceeds Local (here st fun _ => Eval.failAt keyword .raisedNothing)
      exact .here fun _ => Eval.failAt_steady keyword _
  | some e =>
      refine (expr_evaluated hcall e).proceeds.bind fun value => ?_
      exact .here fun _ => Steady.get.bind fun s => .throw _

/-- The first value of a variable has the last entry before that of the declaration. -/
theorem firstValue
    (hcall : ∀ f arguments, Evaluated st (.call f arguments) (call f arguments))
    {e : Entry} {initial : Option Expr} {j j' : Journal} {inner : List Entry} {value : Value}
    (hbefore : e.before = j.point st) (hrun : optionalValue call st initial j = .ok value j')
    (hgoes : Onward (Local j.env) j inner j') : e.FirstValue inner initial value j'.store := by
  unfold Entry.FirstValue
  cases initial with
  | none =>
      cases hrun
      rfl
  | some x =>
      rcases expr_evaluated hcall x j with ⟨before, hfirst⟩
      change expr call st x j = .ok value j' at hrun
      have hentries := hfirst.entries
      rw [hrun, entryOf_of_ok hrun] at hentries
      rw [List.append_cancel_right (hgoes.entries.symm.trans hentries)]
      exact ⟨_, List.mem_cons_self, rfl, hbefore.symm, rfl, rfl⟩

theorem initializes
    (hcall : ∀ f arguments, Evaluated st (.call f arguments) (call f arguments))
    (decl : VarDecl) {j j' : Journal} {inner : List Entry} {value : Value}
    {s' : Store} (hrun : optionalValue call st decl.initial j = .ok value j')
    (hgoes : Onward (Local j.env) j inner j')
    (hdefine : Eval.define j.env decl.name value j'.store = .ok () s') :
    let e : Entry := ⟨.statement (.var decl), j.point st, ⟨st.inside j.env, s'⟩, .done⟩
    e.Initializes inner ∧ e.Accounted inner j'.store := by
  intro e
  have hdefine' := Exec.define_ok hdefine
  have hvalue : e.FirstValue inner decl.initial value j'.store := firstValue hcall rfl hrun hgoes
  refine ⟨?_, .of_var rfl rfl hvalue hdefine'⟩
  intro decl' hactivity _
  cases hactivity
  exact ⟨value, j'.store, hdefine', hvalue⟩

end Calls

abbrev Executed (st : Setting) (s : Stmt) (x : Journaling Signal Unit) : Prop :=
  Noted st (.statement s) (fun _ => .done) id x

theorem Executed.of_proceeds {s : Stmt} {x : Journaling Signal Unit} (hx : Proceeds Local x)
    (hscope : s.opensScope = false) (hplain : (Activity.statement s).binds = false) :
    Executed st s (executing st s x) :=
  Noted.plain hx hscope hplain

/-- An execution that only declares names, of no functions and classes. -/
theorem Executed.of_declares {s : Stmt} {y : Context → Eval Unit}
    (hy : ∀ cx, Declares cx.env s.declared (y cx)) (hsettling : ∀ cx, Settling (y cx))
    (hscope : s.opensScope = false) (hplain : (Activity.statement s).binds = false) :
    Executed st s (executing st s (ofEval (here st y))) := by
  have hbinds (activity : Activity) (h : Activity.statement s = activity) :
      activity.binds = false := h ▸ hplain
  refine Noted.declaring (y := fun _ => y) (.pure ()) (fun _ => hy) hscope ?_ ?_
  · intro _ cx store _ _ hrun
    have hsettles := hsettling cx store
    rw [hrun] at hsettles
    exact hsettles
  · intro j _ _ j' s' _ _ hrun
    have hsettles := hsettling (st.inside j.env) j'.store
    rw [hrun] at hsettles
    refine ⟨fun decl h => ?_, .of_settles hsettles fun _ _ _ => hplain⟩
    cases hbinds _ h

theorem Executed.of_function (decl : Function) :
    Executed st (.function decl) (executing st (.function decl)
      (ofEval (here st fun cx => Exec.defineFunction cx.env decl))) := by
  refine Noted.declaring (s := .function decl)
    (y := fun _ cx => Exec.defineFunction cx.env decl) (.pure ())
    (fun _ cx => Exec.defineFunction_declares decl) rfl ?_ ?_
  · intro _ cx store e store' hrun
    have hnew : store.Settles (store.newFn decl cx.env false).2 := .newFn _ _ _ _
    exact hnew.trans (Exec.define_error_settles _ _ _ _ _ hrun)
  · intro j inner _ j' s' hpure _ hrun
    cases hpure
    refine ⟨fun decl h => ?_, .of_function rfl rfl hrun⟩
    cases h

theorem Executed.of_class (decl : ClassDecl Stmt) :
    Executed st (.classDecl decl) (executing st (.classDecl decl)
      (ofEval (here st fun cx => Exec.defineClass cx decl))) := by
  refine Noted.declaring (s := .classDecl decl) (y := fun _ cx => Exec.defineClass cx decl)
    (.pure ()) (fun _ cx => Exec.defineClass_declares cx decl) rfl ?_ ?_
  · intro _ cx store e store' hrun
    have hsettles := Exec.defineClass_settling cx decl store
    rw [hrun] at hsettles
    exact hsettles
  · intro j inner _ j' s' hpure _ hrun
    cases hpure
    have hsettles := Exec.defineClass_settling (st.inside j.env) decl j.store
    rw [hrun] at hsettles
    refine ⟨fun decl h => ?_, .of_class rfl hsettles hrun⟩
    cases h

theorem child_enters (bindings : Table Value) (j : Journal) : ∃ outer bindings',
    child st bindings j =
      .ok (j.store.frames.size :: outer) { j with store := (j.store.newFrame bindings').2 } :=
  ⟨j.env, bindings, rfl⟩

section Statements

variable {call : Caller}

/-- The value of a condition or another value in a statement. -/
theorem condition_proceeds
    (hcall : ∀ f arguments, Evaluated st (.call f arguments) (call f arguments))
    (e : Expr) : Proceeds Local (ofEval (expr call st e)) :=
  (expr_evaluated hcall e).proceeds.ofEval

mutual

theorem stmt_executed
    (hcall : ∀ f arguments, Evaluated st (.call f arguments) (call f arguments))
    (fuel : Nat) :
    ∀ s, Executed st s (stmt call fuel st s)
  | .block body => by
      refine Noted.scoped (Proceeds.inside (child_enters ∅) fun env => ?_) rfl
      exact (stmts_proceeds hcall fuel body).within
  | .classDecl decl => .of_class decl
  | .enumDecl decl =>
      .of_declares (fun cx => Exec.defineMembers_declares decl.name.lexeme decl.members 0)
        (fun cx => Exec.defineMembers_settling decl.name.lexeme decl.members 0) rfl rfl
  | .function decl => .of_function decl
  | .ifThen condition thenBranch none => by
      refine Executed.of_proceeds ((condition_proceeds hcall condition).bind fun value => ?_) rfl
        rfl
      cases value.isTruthy with
      | true => exact (stmt_executed hcall fuel thenBranch).proceeds
      | false => exact .pure _
  | .ifThen condition thenBranch (some elseBranch) => by
      refine Executed.of_proceeds ((condition_proceeds hcall condition).bind fun value => ?_) rfl
        rfl
      cases value.isTruthy with
      | true => exact (stmt_executed hcall fuel thenBranch).proceeds
      | false => exact (stmt_executed hcall fuel elseBranch).proceeds
  | .while condition body =>
      .of_proceeds (.repeatWhile (expr_evaluated hcall condition).proceeds
        (stmt_executed hcall fuel body).proceeds fuel) rfl rfl
  | .try keyword body handlers otherwise => by
      refine Noted.scoped (Proceeds.inside (child_enters ∅) fun env => ?_) rfl
      refine Proceeds.catchError (stmts_proceeds hcall fuel body).within fun error => ?_
      refine (show Proceeds Secluded _ from ?_).imp fun _ _ => False.elim
      dsimp only
      cases Exec.findHandler handlers error.raisedValue with
      | some index => exact handler_proceeds hcall fuel error.raisedValue handlers index
      | none =>
          refine Proceeds.inside (child_enters ∅) fun env => ?_
          exact (stmts_proceeds hcall fuel otherwise).within
  | .print keyword value => by
      have hprint : Proceeds Local (expr call st value >>= fun result =>
          here st fun cx => Exec.printLine cx.host keyword result) :=
        (expr_evaluated hcall value).proceeds.bind fun result =>
          .here fun cx => Exec.printLine_steady cx.host keyword result
      exact Executed.of_proceeds hprint.ofEval rfl rfl
  | .exit keyword value =>
      .of_proceeds ((optionalValue_proceeds hcall value).ofEval.bind fun _ => .throw _) rfl rfl
  | .raise keyword value =>
      .of_proceeds (raiseValue_proceeds hcall keyword value).ofEval rfl rfl
  | .var decl =>
      .declaring (s := .var decl) (optionalValue_proceeds hcall decl.initial)
        (fun value cx => Exec.define_declares decl.name value) rfl
        (fun value cx => Exec.define_error_settles decl.name value)
        fun _ _ _ _ _ => initializes hcall decl
  | .break keyword => .of_proceeds (.throw _) rfl rfl
  | .expression value =>
      .of_proceeds (expr_evaluated hcall value).proceeds.discard.ofEval rfl rfl
  | .uses keyword unit => .of_proceeds (.pure _) rfl rfl

theorem stmts_proceeds
    (hcall : ∀ f arguments, Evaluated st (.call f arguments) (call f arguments))
    (fuel : Nat) :
    ∀ list, Proceeds Local (stmts call fuel st list)
  | [] => .pure _
  | s :: rest => (stmt_executed hcall fuel s).proceeds.bind fun _ => stmts_proceeds hcall fuel rest

theorem handler_proceeds
    (hcall : ∀ f arguments, Evaluated st (.call f arguments) (call f arguments))
    (fuel : Nat) (raised : Value) :
    ∀ handlers index, Proceeds Secluded (handler call fuel st raised handlers index)
  | [], _ => .pure _
  | ⟨_, _, body⟩ :: _, 0 =>
      .inside (child_enters _) fun _ => (stmt_executed hcall fuel body).proceeds.within
  | _ :: rest, index + 1 => handler_proceeds hcall fuel raised rest index

end

end Statements

/-! ## Calls and programs -/

theorem callFn_evaluated (st : Setting) :
    ∀ fuel f arguments, Evaluated st (.call f arguments) (callFn st fuel f arguments) := by
  intro fuel
  induction fuel with
  | zero => exact fun f arguments => Noted.scoped (.throw _) rfl
  | succ fuel ih =>
      intro f arguments
      refine Noted.scoped (Proceeds.inside (fun j => ⟨f.closure, _, rfl⟩) fun env => ?_) rfl
      refine (Proceeds.resultOf (stmts_proceeds ih fuel f.decl.body)).within.bind fun returned => ?_
      cases f.isInitializer with
      | true =>
          rw [if_pos rfl]
          exact .look _
      | false => exact .pure _

theorem program_proceeds (m : Machine) (fuel : Nat) (statements : List Stmt) :
    Proceeds Local (program m fuel statements) :=
  stmts_proceeds (callFn_evaluated m.setting fuel) fuel statements

end Journal

end MiniPascal
