import MiniPascal.Machine.Exec
import MiniPascal.Proofs.Syntax.Reference

/-!
# The distances that a run depends on

Evaluation looks at the distances of the names it evaluates and at no others.  Two tables of
distances that agree on the references of an expression or of statements make the same
computation of them, as long as calls are made in the same way.
-/

namespace MiniPascal

namespace Context

def withLocals (cx : Context) (locals : Locals) : Context :=
  { cx with locals }

theorem withLocals_inside (cx : Context) (locals : Locals) (env : Env) :
    (cx.withLocals locals).inside env = (cx.inside env).withLocals locals := rfl

end Context

namespace Eval

variable {cx : Context} {locals : Locals}

theorem readVariable_withLocals {id : NodeId} (h : locals[id]? = cx.locals[id]?) (name : String) :
    readVariable (cx.withLocals locals) id name = readVariable cx id name := by
  unfold readVariable
  rw [show (cx.withLocals locals).locals[id]? = cx.locals[id]? from h]
  rfl

theorem lookUp_withLocals {id : NodeId} (h : locals[id]? = cx.locals[id]?) (name : Token) :
    lookUp (cx.withLocals locals) id name = lookUp cx id name := by
  unfold lookUp
  rw [readVariable_withLocals h]
  rfl

theorem assign_withLocals {id : NodeId} (h : locals[id]? = cx.locals[id]?) (name : Token)
    (value : Value) : assign (cx.withLocals locals) id name value = assign cx id name value := by
  have htarget : targetFrame? (cx.withLocals locals) id name.lexeme =
      targetFrame? cx id name.lexeme := by
    unfold targetFrame?
    rw [show (cx.withLocals locals).locals[id]? = cx.locals[id]? from h]
    rfl
  unfold assign
  rw [htarget]
  rfl

theorem superMethod_withLocals {id : NodeId} (h : locals[id]? = cx.locals[id]?)
    (keyword method : Token) :
    superMethod (cx.withLocals locals) id keyword method = superMethod cx id keyword method := by
  unfold superMethod
  rw [show (cx.withLocals locals).locals[id]? = cx.locals[id]? from h]
  rfl

mutual

theorem expr_withLocals (call : Caller) : ∀ e : Expr,
    (∀ m ∈ e.mentions, locals[m.id]? = cx.locals[m.id]?) →
      expr call (cx.withLocals locals) e = expr call cx e
  | .literal _, _ => by rw [expr, expr]
  | .cast inner _, h => by
      rw [expr, expr]
      exact expr_withLocals call inner h
  | .grouping inner, h => by
      rw [expr, expr]
      exact expr_withLocals call inner h
  | .unary op token operand, h => by rw [expr, expr, expr_withLocals call operand h]
  | .binary left op token right, h => by
      rcases List.forall_mem_append.mp h with ⟨hleft, hright⟩
      rw [expr, expr, expr_withLocals call left hleft, expr_withLocals call right hright]
  | .logical left op token right, h => by
      rcases List.forall_mem_append.mp h with ⟨hleft, hright⟩
      rw [expr, expr, expr_withLocals call left hleft, expr_withLocals call right hright]
  | .variable id name, h => by
      rw [expr, expr]
      exact lookUp_withLocals (h ⟨id, name.lexeme, .read⟩ List.mem_cons_self) name
  | .this id keyword, h => by
      rw [expr, expr]
      exact lookUp_withLocals (h ⟨id, "this", .receiver⟩ List.mem_cons_self) keyword
  | .super id keyword method, h => by
      rw [expr, expr]
      exact superMethod_withLocals (h ⟨id, "super", .receiver⟩ List.mem_cons_self) keyword method
  | .assign id name value, h => by
      rcases List.forall_mem_append.mp h with ⟨hvalue, hname⟩
      rw [expr, expr, expr_withLocals call value hvalue]
      refine bind_congr fun result => ?_
      exact assign_withLocals (hname ⟨id, name.lexeme, .write⟩ List.mem_cons_self) name result
  | .call callee paren arguments, h => by
      rcases List.forall_mem_append.mp h with ⟨hcallee, harguments⟩
      rw [expr, expr, expr_withLocals call callee hcallee,
        exprs_withLocals call arguments harguments]
      rfl
  | .get object name, h => by rw [expr, expr, expr_withLocals call object h]
  | .set object name value, h => by
      rcases List.forall_mem_append.mp h with ⟨hobject, hvalue⟩
      rw [expr, expr, expr_withLocals call object hobject, expr_withLocals call value hvalue]
  | .subscript bracket object index, h => by
      rcases List.forall_mem_append.mp h with ⟨hobject, hindex⟩
      rw [expr, expr, expr_withLocals call object hobject, expr_withLocals call index hindex]
  | .map _ items, h => by rw [expr, expr, entries_withLocals call items h]

theorem exprs_withLocals (call : Caller) : ∀ list : List Expr,
    (∀ m ∈ Expr.listMentions list, locals[m.id]? = cx.locals[m.id]?) →
      exprs call (cx.withLocals locals) list = exprs call cx list
  | [], _ => by rw [exprs, exprs]
  | e :: rest, h => by
      rcases List.forall_mem_append.mp h with ⟨hfirst, hrest⟩
      rw [exprs, exprs, expr_withLocals call e hfirst, exprs_withLocals call rest hrest]

theorem entries_withLocals (call : Caller) : ∀ list : List (Expr × Expr),
    (∀ m ∈ Expr.entryMentions list, locals[m.id]? = cx.locals[m.id]?) →
      entries call (cx.withLocals locals) list = entries call cx list
  | [], _ => by
      funext contents
      rw [entries, entries]
  | (key, item) :: rest, h => by
      rcases List.forall_mem_append.mp h with ⟨hentry, hrest⟩
      rcases List.forall_mem_append.mp hentry with ⟨hkey, hitem⟩
      funext contents
      rw [entries, entries, expr_withLocals call key hkey, expr_withLocals call item hitem,
        entries_withLocals call rest hrest]

end

end Eval

namespace Exec

variable {cx : Context} {locals : Locals}

def Agree (locals locals' : Locals) (references : List Reference) : Prop :=
  ∀ r ∈ references, locals[r.mention.id]? = locals'[r.mention.id]?

theorem agree_mentions {p : Place} {mentions : List Mention}
    (h : Agree locals cx.locals (mentions.map (Mention.located p))) :
    ∀ m ∈ mentions, locals[m.id]? = cx.locals[m.id]? :=
  fun m hm => h (m.located p) (List.mem_map_of_mem hm)

theorem optionalValue_withLocals (call : Eval.Caller) {value : Option Expr}
    (h : ∀ e ∈ value, ∀ m ∈ e.mentions, locals[m.id]? = cx.locals[m.id]?) :
    optionalValue call (cx.withLocals locals) value = optionalValue call cx value := by
  cases value with
  | none => rfl
  | some e => exact Eval.expr_withLocals call e (h e rfl)

theorem optionalValue_agree (call : Eval.Caller) {p : Place} {value : Option Expr}
    (h : Agree locals cx.locals (Stmt.optionalReferences p value)) :
    optionalValue call (cx.withLocals locals) value = optionalValue call cx value := by
  refine optionalValue_withLocals call fun e he => ?_
  cases he
  exact agree_mentions h

theorem raiseValue_agree (call : Eval.Caller) {p : Place} {value : Option Expr}
    (h : Agree locals cx.locals (Stmt.optionalReferences p value)) (keyword : Token) :
    raiseValue call (cx.withLocals locals) keyword value = raiseValue call cx keyword value := by
  cases value with
  | none => rfl
  | some e =>
      unfold raiseValue
      dsimp only
      rw [Eval.expr_withLocals call e (agree_mentions h)]

theorem defineClass_agree {p : Place} {decl : ClassDecl Stmt}
    (h : Agree locals cx.locals (Stmt.parentReferences p decl)) :
    defineClass (cx.withLocals locals) decl = defineClass cx decl := by
  have hparent : superclass? (cx.withLocals locals) decl.superclass =
      superclass? cx decl.superclass := by
    unfold Stmt.parentReferences at h
    cases hsuper : decl.superclass with
    | none => rfl
    | some parent =>
        rw [hsuper] at h
        have hid : locals[parent.id]? = cx.locals[parent.id]? := h _ List.mem_cons_self
        unfold superclass?
        dsimp only
        rw [Eval.lookUp_withLocals hid]
  unfold defineClass
  rw [hparent]
  rfl

mutual

theorem stmt_agree (call : Eval.Caller) (fuel : Nat) : ∀ (s : Stmt) (p : Place) (cx : Context),
    Agree locals cx.locals (s.references p) →
      stmt call fuel (cx.withLocals locals) s = stmt call fuel cx s
  | .block body, p, cx, h => by
      rw [stmt, stmt]
      refine bind_congr fun env => ?_
      exact stmts_agree call fuel body _ (cx.inside env) h
  | .classDecl decl, p, cx, h => by
      rw [stmt, stmt, defineClass_agree (List.forall_mem_append.mp h).1]
  | .enumDecl decl, _, cx, _ => by
      rw [stmt, stmt]
      rfl
  | .function decl, _, cx, _ => by
      rw [stmt, stmt]
      rfl
  | .ifThen condition thenBranch none, p, cx, h => by
      rcases List.forall_mem_append.mp h with ⟨hcondition, hthen⟩
      rw [stmt, stmt, Eval.expr_withLocals call condition (agree_mentions hcondition),
        stmt_agree call fuel thenBranch p cx hthen]
  | .ifThen condition thenBranch (some elseBranch), p, cx, h => by
      rcases List.forall_mem_append.mp h with ⟨hfirst, helse⟩
      rcases List.forall_mem_append.mp hfirst with ⟨hcondition, hthen⟩
      rw [stmt, stmt, Eval.expr_withLocals call condition (agree_mentions hcondition),
        stmt_agree call fuel thenBranch p cx hthen, stmt_agree call fuel elseBranch p cx helse]
  | .while condition body, p, cx, h => by
      rcases List.forall_mem_append.mp h with ⟨hcondition, hbody⟩
      rw [stmt, stmt, Eval.expr_withLocals call condition (agree_mentions hcondition),
        stmt_agree call fuel body p cx hbody]
  | .try keyword body handlers otherwise, p, cx, h => by
      rcases List.forall_mem_append.mp h with ⟨hfirst, hotherwise⟩
      rcases List.forall_mem_append.mp hfirst with ⟨hbody, hhandlers⟩
      rw [stmt, stmt]
      refine bind_congr fun env => ?_
      rw [Context.withLocals_inside, stmts_agree call fuel body _ (cx.inside env) hbody]
      congr 1
      funext error
      dsimp only
      split
      · exact handler_agree call fuel _ handlers _ p cx hhandlers
      · refine bind_congr fun env => ?_
        exact stmts_agree call fuel otherwise _ (cx.inside env) hotherwise
  | .print keyword value, p, cx, h => by
      rw [stmt, stmt, Eval.expr_withLocals call value (agree_mentions h)]
      rfl
  | .exit keyword value, p, cx, h => by rw [stmt, stmt, optionalValue_agree call h]
  | .raise keyword value, p, cx, h => by rw [stmt, stmt, raiseValue_agree call h]
  | .var decl, p, cx, h => by
      have hinitial : optionalValue call (cx.withLocals locals) decl.initial =
          optionalValue call cx decl.initial := by
        refine optionalValue_withLocals call fun e he m hm => ?_
        change Agree _ _ (Stmt.initialReferences p decl) at h
        unfold Stmt.initialReferences at h
        rw [he] at h
        exact h (m.initial p decl.name.lexeme) (List.mem_map_of_mem hm)
      rw [stmt, stmt, hinitial]
      rfl
  | .break keyword, _, cx, _ => by rw [stmt, stmt]
  | .expression value, p, cx, h => by
      rw [stmt, stmt, Eval.expr_withLocals call value (agree_mentions h)]
  | .uses _ _, _, cx, _ => by rw [stmt, stmt]

theorem stmts_agree (call : Eval.Caller) (fuel : Nat) :
    ∀ (list : List Stmt) (p : Place) (cx : Context),
      Agree locals cx.locals (Stmt.listReferences p list) →
        stmts call fuel (cx.withLocals locals) list = stmts call fuel cx list
  | [], _, cx, _ => by rw [stmts, stmts]
  | s :: rest, p, cx, h => by
      rcases List.forall_mem_append.mp h with ⟨hfirst, hrest⟩
      rw [stmts, stmts, stmt_agree call fuel s p cx hfirst, stmts_agree call fuel rest _ cx hrest]

theorem handler_agree (call : Eval.Caller) (fuel : Nat) (raised : Value) :
    ∀ (handlers : List (Handler Stmt)) (index : Nat) (p : Place) (cx : Context),
      Agree locals cx.locals (Stmt.handlerReferences p handlers) →
        handler call fuel (cx.withLocals locals) raised handlers index =
          handler call fuel cx raised handlers index
  | [], _, _, cx, _ => by rw [handler, handler]
  | ⟨name, typeName, body⟩ :: rest, 0, p, cx, h => by
      rw [handler, handler]
      refine bind_congr fun env => ?_
      exact stmt_agree call fuel body _ (cx.inside env) (List.forall_mem_append.mp h).1
  | _ :: rest, index + 1, p, cx, h => by
      rw [handler, handler]
      exact handler_agree call fuel raised rest index p cx (List.forall_mem_append.mp h).2

end

end Exec

end MiniPascal
