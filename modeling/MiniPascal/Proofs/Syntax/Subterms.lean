import MiniPascal.Syntax.Stmt

/-!
# Parts of expressions and statements

What stands in an expression or a statement: all expressions in it, however deep, each with all
that it is built from.
-/

namespace MiniPascal

namespace Expr

mutual

/-- An expression with all that it is built from. -/
def subterms : Expr → List Expr
  | .literal value => [.literal value]
  | .unary op token operand => .unary op token operand :: operand.subterms
  | .binary left op token right =>
      .binary left op token right :: (left.subterms ++ right.subterms)
  | .logical left op token right =>
      .logical left op token right :: (left.subterms ++ right.subterms)
  | .grouping inner => .grouping inner :: inner.subterms
  | .variable id name => [.variable id name]
  | .assign id name value => .assign id name value :: value.subterms
  | .call callee paren arguments =>
      .call callee paren arguments :: (callee.subterms ++ listSubterms arguments)
  | .get object name => .get object name :: object.subterms
  | .set object name value => .set object name value :: (object.subterms ++ value.subterms)
  | .subscript bracket object index =>
      .subscript bracket object index :: (object.subterms ++ index.subterms)
  | .map bracket entries => .map bracket entries :: entrySubterms entries
  | .this id keyword => [.this id keyword]
  | .super id keyword method => [.super id keyword method]
  | .cast inner typeName => .cast inner typeName :: inner.subterms

def listSubterms : List Expr → List Expr
  | [] => []
  | e :: rest => e.subterms ++ listSubterms rest

def entrySubterms : List (Expr × Expr) → List Expr
  | [] => []
  | (key, value) :: rest => key.subterms ++ value.subterms ++ entrySubterms rest

end

def optionSubterms : Option Expr → List Expr
  | none => []
  | some e => e.subterms

/-- What an expression is built from, without itself. -/
def inner (e : Expr) : List Expr :=
  e.subterms.tail

theorem mem_subterms (e : Expr) : e ∈ e.subterms := by
  cases e <;> exact List.mem_cons_self

theorem inner_subset_subterms (e : Expr) : e.inner ⊆ e.subterms :=
  fun _ => List.mem_of_mem_tail

theorem optionSubterms_subset_getD (e? : Option Expr) (e : Expr) :
    optionSubterms e? ⊆ (e?.getD e).subterms := by
  cases e? with
  | none => exact List.nil_subset _
  | some e => exact List.Subset.refl _

theorem entrySubterms_eq (entries : List (Expr × Expr)) :
    entrySubterms entries = entries.flatMap fun entry => entry.1.subterms ++ entry.2.subterms := by
  induction entries with
  | nil => rfl
  | cons entry rest ih => rw [entrySubterms, ih, List.flatMap_cons]

end Expr

namespace Stmt

mutual

/-- The expressions in a statement, with all that they are built from. -/
def exprs : Stmt → List Expr
  | .block body => listExprs body
  | .classDecl ⟨_, _, _, _, methods⟩ => methodExprs methods
  | .function ⟨_, _, _, _, body⟩ => listExprs body
  | .ifThen condition thenBranch none => condition.subterms ++ thenBranch.exprs
  | .ifThen condition thenBranch (some elseBranch) =>
      condition.subterms ++ thenBranch.exprs ++ elseBranch.exprs
  | .while condition body => condition.subterms ++ body.exprs
  | .try _ body handlers otherwise =>
      listExprs body ++ handlerExprs handlers ++ listExprs otherwise
  | .print _ value => value.subterms
  | .exit _ value => Expr.optionSubterms value
  | .raise _ value => Expr.optionSubterms value
  | .var decl => Expr.optionSubterms decl.initial
  | .expression value => value.subterms
  | .enumDecl _ | .break _ | .uses _ _ => []

def listExprs : List Stmt → List Expr
  | [] => []
  | s :: rest => s.exprs ++ listExprs rest

def methodExprs : List Function → List Expr
  | [] => []
  | ⟨_, _, _, _, body⟩ :: rest => listExprs body ++ methodExprs rest

def handlerExprs : List (Handler Stmt) → List Expr
  | [] => []
  | ⟨_, _, body⟩ :: rest => body.exprs ++ handlerExprs rest

end

def optionExprs : Option Stmt → List Expr
  | none => []
  | some s => s.exprs

theorem listExprs_eq (list : List Stmt) : listExprs list = list.flatMap exprs := by
  induction list with
  | nil => rfl
  | cons s rest ih => rw [listExprs, ih, List.flatMap_cons]

theorem listExprs_append (list more : List Stmt) :
    listExprs (list ++ more) = listExprs list ++ listExprs more := by
  rw [listExprs_eq, listExprs_eq, listExprs_eq, List.flatMap_append]

theorem listExprs_flatten (lists : List (List Stmt)) :
    listExprs lists.flatten = lists.flatMap listExprs := by
  induction lists with
  | nil => rfl
  | cons list rest ih => rw [List.flatten_cons, listExprs_append, ih, List.flatMap_cons]

theorem initial_subset_listExprs {decl : VarDecl} {decls : List VarDecl} (h : decl ∈ decls) :
    Expr.optionSubterms decl.initial ⊆ listExprs (decls.map .var) := by
  intro e he
  have hvar : e ∈ (var decl).exprs := by rwa [exprs]
  rw [listExprs_eq]
  exact List.mem_flatMap.mpr ⟨var decl, List.mem_map_of_mem h, hvar⟩

theorem methodExprs_eq (methods : List Function) :
    methodExprs methods = methods.flatMap fun decl => (function decl).exprs := by
  induction methods with
  | nil => rfl
  | cons decl rest ih => rw [methodExprs, ih, List.flatMap_cons, exprs]

theorem handlerExprs_eq (handlers : List (Handler Stmt)) :
    handlerExprs handlers = handlers.flatMap fun handler => handler.body.exprs := by
  induction handlers with
  | nil => rfl
  | cons handler rest ih => rw [handlerExprs, ih, List.flatMap_cons]

theorem exprs_function (decl : Function) : (function decl).exprs = listExprs decl.body := by
  cases decl
  rw [exprs]

theorem exprs_classDecl (decl : ClassDecl Stmt) :
    (classDecl decl).exprs = decl.methods.flatMap fun method => (function method).exprs := by
  cases decl
  rw [exprs, methodExprs_eq]

theorem exprs_ifThen (condition : Expr) (thenBranch : Stmt) (elseBranch : Option Stmt) :
    (ifThen condition thenBranch elseBranch).exprs =
      condition.subterms ++ thenBranch.exprs ++ optionExprs elseBranch := by
  cases elseBranch with
  | none => rw [exprs, optionExprs, List.append_nil]
  | some s => rw [exprs, optionExprs]

/-! ## Lowered statements -/

theorem exprs_lowerFor (initial : Option Stmt) (condition increment : Option Expr) (body : Stmt) :
    (lowerFor initial condition increment body).exprs =
      optionExprs initial ++ (condition.getD (.literal (.boolean true))).subterms ++ body.exprs ++
        Expr.optionSubterms increment := by
  cases initial <;> cases increment <;>
    simp [lowerFor, exprs, listExprs, optionExprs, Expr.optionSubterms]

theorem subset_exprs_lowerFor (initial : Option Stmt) (condition increment : Option Expr)
    (body : Stmt) : optionExprs initial ++ Expr.optionSubterms condition ++
      Expr.optionSubterms increment ++ body.exprs ⊆
        (lowerFor initial condition increment body).exprs := by
  intro e he
  rw [exprs_lowerFor]
  simp only [List.mem_append] at he ⊢
  rcases he with ((hinitial | hcondition) | hincrement) | hbody
  · exact .inl (.inl (.inl hinitial))
  · exact .inl (.inl (.inr (Expr.optionSubterms_subset_getD condition _ hcondition)))
  · exact .inr hincrement
  · exact .inl (.inr hbody)

/-- A choice keeps the conditions and statements of its arms. -/
theorem exprs_lowerCase (arms : List (Expr × Stmt)) (otherwise : Option Stmt) :
    optionExprs (lowerCase arms otherwise) =
      (arms.flatMap fun arm => arm.1.subterms ++ arm.2.exprs) ++ optionExprs otherwise := by
  induction arms with
  | nil => rfl
  | cons arm rest ih =>
      have hcons : lowerCase (arm :: rest) otherwise =
          some (.ifThen arm.1 arm.2 (lowerCase rest otherwise)) := rfl
      rw [hcons, optionExprs, exprs_ifThen, ih, List.flatMap_cons]
      simp only [List.append_assoc]

end Stmt

end MiniPascal
