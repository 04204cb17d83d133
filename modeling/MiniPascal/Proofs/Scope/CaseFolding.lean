import MiniPascal.Proofs.Syntax.CaseFolding
import MiniPascal.Scope.Resolve
import MiniPascal.Typing.Check

/-!
# Names and types of folded programs

Resolving names and checking types do not look at how reserved words are spelled.  The distances and
reports of a folded program are those of the program itself.
-/

namespace MiniPascal

variable (words : Keyword → Bool)

/-! ## Distances -/

namespace Resolution

@[simp] theorem report_fold (r : Resolution) (fault : ScopeFault) (token : Token) :
    r.report fault (token.fold words) = r.report fault token := by
  simp [report, ScopeFault.diagnostic]

mutual

theorem expr_fold (site : Site) : ∀ (e : Expr) (r : Resolution),
    expr site (e.fold words) r = expr site e r
  | .literal _, r => by rw [Expr.fold]
  | .unary _ _ operand, r => by
      rw [Expr.fold, expr, expr]
      exact expr_fold site operand r
  | .binary left _ _ right, r => by
      rw [Expr.fold, expr, expr, expr_fold site left, expr_fold site right]
  | .logical left _ _ right, r => by
      rw [Expr.fold, expr, expr, expr_fold site left, expr_fold site right]
  | .grouping inner, r => by
      rw [Expr.fold, expr, expr]
      exact expr_fold site inner r
  | .variable _ _, r => by rw [Expr.fold]
  | .assign _ _ value, r => by rw [Expr.fold, expr, expr, expr_fold site value]
  | .call callee _ arguments, r => by
      rw [Expr.fold, expr, expr, expr_fold site callee, exprs_fold site arguments]
  | .get object _, r => by
      rw [Expr.fold, expr, expr]
      exact expr_fold site object r
  | .set object _ value, r => by
      rw [Expr.fold, expr, expr, expr_fold site value, expr_fold site object]
  | .subscript _ object index, r => by
      rw [Expr.fold, expr, expr, expr_fold site object, expr_fold site index]
  | .map _ items, r => by
      rw [Expr.fold, expr, expr]
      exact entries_fold site items r
  | .this _ keyword, r => by
      rw [Expr.fold]
      split
      · rw [expr, expr, report_fold]
      · rfl
  | .super _ keyword _, r => by
      rw [Expr.fold, expr, expr, report_fold, report_fold]
  | .cast inner _, r => by
      rw [Expr.fold, expr, expr]
      exact expr_fold site inner r

theorem exprs_fold (site : Site) : ∀ (list : List Expr) (r : Resolution),
    exprs site (Expr.foldList words list) r = exprs site list r
  | [], r => by rw [Expr.foldList]
  | e :: rest, r => by
      rw [Expr.foldList, exprs, exprs, expr_fold site e, exprs_fold site rest]

theorem entries_fold (site : Site) : ∀ (items : List (Expr × Expr)) (r : Resolution),
    entries site (Expr.foldEntries words items) r = entries site items r
  | [], r => by rw [Expr.foldEntries]
  | (key, value) :: rest, r => by
      rw [Expr.foldEntries, entries, entries, expr_fold site key, expr_fold site value,
        entries_fold site rest]

end

theorem optionalExpr_fold (site : Site) (value : Option Expr) (r : Resolution) :
    optionalExpr site (value.map (Expr.fold words)) r = optionalExpr site value r := by
  cases value with
  | none => rfl
  | some e => exact expr_fold words site e r

theorem exitSite_fold (site : Site) (keyword : Token) (value : Option Expr) (r : Resolution) :
    exitSite site (keyword.fold words) (value.map (Expr.fold words)) r =
      exitSite site keyword value r := by
  simp [exitSite]

mutual

theorem stmt_fold (site : Site) : ∀ (s : Stmt) (r : Resolution),
    stmt site (s.fold words) r = stmt site s r
  | .block body, r => by rw [Stmt.fold, stmt, stmt, stmts_fold site body]
  | .classDecl ⟨name, superclass, fields, enums, classMethods⟩, r => by
      rw [Stmt.fold, stmt, stmt, methods_fold _ classMethods]
  | .enumDecl decl, r => by rw [Stmt.fold]
  | .function ⟨kind, name, parameters, returnType, body⟩, r => by
      rw [Stmt.fold, stmt, stmt, stmts_fold _ body]
  | .ifThen condition thenBranch none, r => by
      rw [Stmt.fold, stmt, stmt, expr_fold, stmt_fold site thenBranch]
  | .ifThen condition thenBranch (some elseBranch), r => by
      rw [Stmt.fold, stmt, stmt, expr_fold, stmt_fold site thenBranch, stmt_fold site elseBranch]
  | .while condition body, r => by rw [Stmt.fold, stmt, stmt, expr_fold, stmt_fold site body]
  | .try keyword body handlerList otherwise, r => by
      rw [Stmt.fold, stmt, stmt, stmts_fold site body, handlers_fold site handlerList,
        stmts_fold site otherwise]
  | .print _ value, r => by
      rw [Stmt.fold, stmt, stmt]
      exact expr_fold words site value r
  | .exit keyword value, r => by
      rw [Stmt.fold, stmt, stmt, exitSite_fold, optionalExpr_fold]
  | .raise _ value, r => by rw [Stmt.fold, stmt, stmt, optionalExpr_fold]
  | .var decl, r => by rw [Stmt.fold, stmt, stmt, VarDecl.fold, optionalExpr_fold]
  | .break _, r => by rw [Stmt.fold, stmt, stmt]
  | .expression value, r => by
      rw [Stmt.fold, stmt, stmt]
      exact expr_fold words site value r
  | .uses _ _, r => by rw [Stmt.fold, stmt, stmt]

theorem stmts_fold (site : Site) : ∀ (list : List Stmt) (r : Resolution),
    stmts site (Stmt.foldList words list) r = stmts site list r
  | [], r => by rw [Stmt.foldList]
  | s :: rest, r => by
      rw [Stmt.foldList, stmts, stmts, stmt_fold site s, stmts_fold site rest]

theorem methods_fold (site : Site) : ∀ (list : List Function) (r : Resolution),
    methods site (Stmt.foldMethods words list) r = methods site list r
  | [], r => by rw [Stmt.foldMethods]
  | ⟨kind, name, parameters, returnType, body⟩ :: rest, r => by
      rw [Stmt.foldMethods, methods, methods, stmts_fold _ body, methods_fold site rest]

theorem handlers_fold (site : Site) : ∀ (list : List (Handler Stmt)) (r : Resolution),
    handlers site (Stmt.foldHandlers words list) r = handlers site list r
  | [], r => by rw [Stmt.foldHandlers]
  | ⟨name, typeName, body⟩ :: rest, r => by
      rw [Stmt.foldHandlers, handlers, handlers, stmt_fold site body, handlers_fold site rest]

end

theorem program_fold (statements : List Stmt) :
    program (Stmt.foldList words statements) = program statements :=
  stmts_fold words .top statements start

end Resolution

/-! ## Types -/

def TypeError.report (error : TypeError) : Diagnostic :=
  .errorAt error.token error.message

namespace Typing

/-- A type, or the report that there is none. -/
def reported (type : Except TypeError α) : Except Diagnostic α :=
  type.mapError TypeError.report

theorem reported_bind {x y : Except TypeError α} {f g : α → Except TypeError β}
    (hxy : reported y = reported x) (hfg : ∀ value, reported (g value) = reported (f value)) :
    reported (y >>= g) = reported (x >>= f) := by
  cases x with
  | ok value =>
      cases y with
      | ok value' =>
          cases hxy
          exact hfg value
      | error error' => cases hxy
  | error error =>
      cases y with
      | ok value' => cases hxy
      | error error' =>
          exact congrArg (Except.error (α := β)) (Except.error.inj (α := α) hxy)

theorem reported_error_fold (token : Token) (fault : TypeFault) :
    reported (.error ⟨token.fold words, fault⟩ : Except TypeError α) =
      reported (.error ⟨token, fault⟩) :=
  congrArg (Except.error (α := α)) (Diagnostic.errorAt_fold words token fault.message)

theorem arithmeticType_fold (op : BinaryOp) (token : Token) (left right : String) :
    reported (arithmeticType op (token.fold words) left right) =
      reported (arithmeticType op token left right) := by
  unfold arithmeticType
  split
  · rfl
  · split
    · rfl
    · split
      · rfl
      · exact reported_error_fold words token _

theorem logicalType_fold (token : Token) (left right : String) :
    reported (logicalType (token.fold words) left right) =
      reported (logicalType token left right) := by
  unfold logicalType
  split
  · exact reported_error_fold words token _
  · rfl

theorem elementType_fold (lookup : TypeLookup) (object : Expr) (target : String) :
    elementType lookup (object.fold words) target = elementType lookup object target := by
  unfold elementType
  cases object <;> rw [Expr.fold]

theorem reduce_fold (lookup : TypeLookup) : ∀ (e : Expr) (symbols : TypeTable),
    reported (reduce lookup symbols (e.fold words)) = reported (reduce lookup symbols e)
  | .cast _ _, _ => by rw [Expr.fold, reduce, reduce]
  | .literal _, _ => by rw [Expr.fold]
  | .unary _ _ operand, symbols => by
      rw [Expr.fold, reduce, reduce]
      exact reduce_fold lookup operand symbols
  | .grouping inner, symbols => by
      rw [Expr.fold, reduce, reduce]
      exact reduce_fold lookup inner symbols
  | .binary left op token right, symbols => by
      rw [Expr.fold, reduce, reduce]
      split
      · rfl
      · apply reported_bind (reduce_fold lookup left symbols)
        intro leftType
        apply reported_bind (reduce_fold lookup right symbols)
        intro rightType
        exact arithmeticType_fold words op token leftType rightType
  | .logical left _ token right, symbols => by
      rw [Expr.fold, reduce, reduce]
      apply reported_bind (reduce_fold lookup left symbols)
      intro leftType
      apply reported_bind (reduce_fold lookup right symbols)
      intro rightType
      exact logicalType_fold words token leftType rightType
  | .variable _ _, _ => by rw [Expr.fold]
  | .get object name, symbols => by
      rw [Expr.fold, reduce, reduce]
      apply reported_bind (reduce_fold lookup object symbols)
      intro known
      dsimp only
      split
      · apply reported_bind (reduce_fold lookup object lookup.inferred)
        intro receiver
        rfl
      · rfl
  | .call callee _ _, symbols => by
      rw [Expr.fold, reduce, reduce]
      apply reported_bind (reduce_fold lookup callee symbols)
      intro result
      cases callee <;> rw [Expr.fold]
  | .subscript _ object _, symbols => by
      rw [Expr.fold, reduce, reduce]
      apply reported_bind (reduce_fold lookup object symbols)
      intro target
      rw [elementType_fold]
  | .map _ _, _ => by rw [Expr.fold, reduce, reduce]
  | .this _ _, _ => by rw [Expr.fold, reduce, reduce]
  | .assign _ _ _, _ => by rw [Expr.fold, reduce, reduce]
  | .set _ _ _, _ => by rw [Expr.fold, reduce, reduce]
  | .super _ _ _, _ => by rw [Expr.fold, reduce, reduce]

/-- What a check comes to: a result or a report, and what is known then. -/
def outcome : EStateM.Result TypeError TypeLookup α → Except Diagnostic α × TypeLookup
  | .ok value lookup => (.ok value, lookup)
  | .error error lookup => (.error error.report, lookup)

def Agree (x y : Check α) : Prop :=
  ∀ lookup, outcome (y lookup) = outcome (x lookup)

namespace Agree

theorem refl (x : Check α) : Agree x x :=
  fun _ => rfl

theorem bind {x y : Check α} {f g : α → Check β} (hxy : Agree x y)
    (hfg : ∀ value, Agree (f value) (g value)) : Agree (x >>= f) (y >>= g) := by
  intro lookup
  have hrun := hxy lookup
  show outcome (EStateM.bind y g lookup) = outcome (EStateM.bind x f lookup)
  unfold EStateM.bind
  cases hx : x lookup with
  | ok value lookup' =>
      rw [hx] at hrun
      cases hy : y lookup with
      | ok value' lookup'' =>
          rw [hy] at hrun
          cases hrun
          exact hfg value lookup'
      | error error' lookup'' =>
          rw [hy] at hrun
          cases hrun
  | error error lookup' =>
      rw [hx] at hrun
      cases hy : y lookup with
      | ok value' lookup'' =>
          rw [hy] at hrun
          cases hrun
      | error error' lookup'' =>
          rw [hy] at hrun
          simp only [outcome, Prod.mk.injEq, Except.error.injEq] at hrun ⊢
          exact hrun

theorem look {f g : TypeLookup → Check α} (h : ∀ lookup, Agree (f lookup) (g lookup)) :
    Agree (get >>= f) (get >>= g) :=
  fun lookup => h lookup lookup

theorem inScope {x y : Check α} (h : Agree x y) : Agree (inScope x) (inScope y) := by
  intro lookup
  have hrun := h lookup.enter
  unfold Typing.inScope
  cases hx : x lookup.enter <;> cases hy : y lookup.enter <;>
    simp_all [outcome]

theorem insideClass {x y : Check α} (name : String) (h : Agree x y) :
    Agree (insideClass name x) (insideClass name y) := by
  intro lookup
  have hrun := h { lookup with currentClass := some name }
  unfold Typing.insideClass
  cases hx : x { lookup with currentClass := some name } <;>
    cases hy : y { lookup with currentClass := some name } <;> simp_all [outcome]

end Agree

theorem mismatch_fold (keyword : Token) (fault : TypeFault) :
    Agree (mismatch keyword fault : Check α) (mismatch (keyword.fold words) fault) := by
  intro lookup
  exact congrArg (fun report => (Except.error report, lookup))
    (Diagnostic.errorAt_fold words keyword fault.message)

theorem typeOf_fold (e : Expr) : Agree (typeOf e) (typeOf (e.fold words)) := by
  apply Agree.look
  intro lookup
  have htype := reduce_fold words lookup e lookup.declared
  unfold TypeLookup.typeOf
  cases hold : reduce lookup lookup.declared e with
  | ok type =>
      rw [hold] at htype
      cases hnew : reduce lookup lookup.declared (e.fold words) with
      | ok type' =>
          rw [hnew] at htype
          cases htype
          exact Agree.refl _
      | error error' =>
          rw [hnew] at htype
          cases htype
  | error error =>
      rw [hold] at htype
      cases hnew : reduce lookup lookup.declared (e.fold words) with
      | ok type' =>
          rw [hnew] at htype
          cases htype
      | error error' =>
          rw [hnew] at htype
          intro known
          exact congrArg (fun report => (Except.error report, known)) (Except.error.inj htype)

theorem checkAssign_fold (cast : Option String) (name : Token) (value : Expr) :
    Agree (checkAssign cast name value) (checkAssign cast name (value.fold words)) := by
  apply Agree.look
  intro lookup
  split
  · exact Agree.refl _
  · split
    · exact Agree.refl _
    · apply (typeOf_fold words value).bind
      intro inferred
      exact Agree.refl _

theorem checkSet_fold (cast : Option String) (object : Expr) (name : Token) (inferred : String) :
    Agree (checkSet cast object name inferred)
      (checkSet cast (object.fold words) name inferred) := by
  apply (typeOf_fold words object).bind
  intro receiver
  exact Agree.refl _

mutual

theorem checkExpr_fold (cast : Option String) : ∀ e : Expr,
    Agree (checkExpr cast e) (checkExpr cast (e.fold words))
  | .literal _ => by rw [Expr.fold]; exact Agree.refl _
  | .variable _ _ => by rw [Expr.fold]; exact Agree.refl _
  | .this _ _ => by rw [Expr.fold, checkExpr, checkExpr]; exact Agree.refl _
  | .super _ _ _ => by rw [Expr.fold, checkExpr, checkExpr]; exact Agree.refl _
  | .cast inner typeName => by
      rw [Expr.fold, checkExpr, checkExpr]
      exact checkExpr_fold (some typeName) inner
  | .unary _ _ operand => by
      rw [Expr.fold, checkExpr, checkExpr]
      exact checkExpr_fold none operand
  | .grouping inner => by
      rw [Expr.fold, checkExpr, checkExpr]
      exact checkExpr_fold none inner
  | .binary left _ _ right => by
      rw [Expr.fold, checkExpr, checkExpr]
      exact (checkExpr_fold none left).bind fun _ => checkExpr_fold none right
  | .logical left _ _ right => by
      rw [Expr.fold, checkExpr, checkExpr]
      exact (checkExpr_fold none left).bind fun _ => checkExpr_fold none right
  | .call callee _ arguments => by
      rw [Expr.fold, checkExpr, checkExpr]
      exact (checkExpr_fold none callee).bind fun _ => checkExprs_fold arguments
  | .get object _ => by
      rw [Expr.fold, checkExpr, checkExpr]
      exact checkExpr_fold none object
  | .subscript _ object index => by
      rw [Expr.fold, checkExpr, checkExpr]
      exact (checkExpr_fold none object).bind fun _ => checkExpr_fold none index
  | .map _ entries => by
      rw [Expr.fold, checkExpr, checkExpr]
      exact checkEntries_fold entries
  | .assign _ name value => by
      rw [Expr.fold, checkExpr, checkExpr]
      exact (checkExpr_fold none value).bind fun _ => checkAssign_fold words cast name value
  | .set object name value => by
      rw [Expr.fold, checkExpr, checkExpr]
      apply (typeOf_fold words value).bind
      intro inferred
      apply (checkExpr_fold none value).bind
      intro _
      exact (checkExpr_fold none object).bind fun _ => checkSet_fold words cast object name inferred

theorem checkExprs_fold : ∀ list : List Expr,
    Agree (checkExprs list) (checkExprs (Expr.foldList words list))
  | [] => by rw [Expr.foldList]; exact Agree.refl _
  | e :: rest => by
      rw [Expr.foldList, checkExprs, checkExprs]
      exact (checkExpr_fold none e).bind fun _ => checkExprs_fold rest

theorem checkEntries_fold : ∀ items : List (Expr × Expr),
    Agree (checkEntries items) (checkEntries (Expr.foldEntries words items))
  | [] => by rw [Expr.foldEntries]; exact Agree.refl _
  | (key, value) :: rest => by
      rw [Expr.foldEntries, checkEntries, checkEntries]
      apply (checkExpr_fold none key).bind
      intro _
      exact (checkExpr_fold none value).bind fun _ => checkEntries_fold rest

end

theorem checkVar_fold (decl : VarDecl) : Agree (checkVar decl) (checkVar (decl.fold words)) := by
  unfold checkVar VarDecl.fold
  cases decl.initial with
  | none => exact Agree.refl _
  | some initial =>
      apply (checkExpr_fold words none initial).bind
      intro _
      apply (typeOf_fold words initial).bind
      intro inferred
      exact Agree.refl _

theorem checkExit_fold (around : Option Callable) (keyword : Token) (value : Expr) :
    Agree (checkExit around keyword value)
      (checkExit around (keyword.fold words) (value.fold words)) := by
  unfold checkExit
  cases around with
  | none => exact Agree.refl _
  | some function =>
      dsimp only
      split
      · exact mismatch_fold words keyword _
      · apply (checkExpr_fold words none value).bind
        intro _
        apply (typeOf_fold words value).bind
        intro inferred
        apply Agree.look
        intro lookup
        split
        · exact Agree.refl _
        · exact mismatch_fold words keyword _

theorem register_fold (lookup : TypeLookup) (s : Stmt) :
    register lookup (s.fold words) = register lookup s := by
  cases s with
  | classDecl decl =>
      rw [Stmt.fold_classDecl]
      simp only [register, registerClass, ClassDecl.fold, List.foldl_map]
      rfl
  | function decl =>
      rw [Stmt.fold_function]
      rfl
  | ifThen condition thenBranch elseBranch =>
      rw [Stmt.fold_ifThen]
      rfl
  | _ => rw [Stmt.fold] <;> rfl

theorem declaring_fold (list : List Stmt) {x y : Check Unit} (h : Agree x y) :
    Agree (declaring list x) (declaring (Stmt.foldList words list) y) := by
  intro lookup
  have hregister : (Stmt.foldList words list).foldl register lookup =
      list.foldl register lookup := by
    rw [Stmt.foldList_eq_map, List.foldl_map]
    simp only [register_fold]
  show outcome (y ((Stmt.foldList words list).foldl register lookup)) =
    outcome (x (list.foldl register lookup))
  rw [hregister]
  exact h _

mutual

theorem checkStmt_fold (around : Option Callable) : ∀ s : Stmt,
    Agree (checkStmt around s) (checkStmt around (s.fold words))
  | .block body => by
      rw [Stmt.fold, checkStmt, checkStmt]
      exact (declaring_fold words body (checkEach_fold around body)).inScope
  | .classDecl ⟨name, superclass, fields, enums, methods⟩ => by
      rw [Stmt.fold, checkStmt, checkStmt]
      apply Agree.insideClass
      have hbody := (Agree.refl (declareFields fields)).bind fun _ => checkMethods_fold methods
      cases superclass with
      | none => exact hbody.inScope
      | some parent => exact hbody.inScope.inScope
  | .function ⟨kind, name, params, returnType, body⟩ => by
      rw [Stmt.fold, checkStmt, checkStmt]
      apply Agree.inScope
      exact (Agree.refl _).bind fun _ => declaring_fold words body (checkEach_fold _ body)
  | .ifThen condition thenBranch none => by
      rw [Stmt.fold, checkStmt, checkStmt]
      exact (checkExpr_fold words none condition).bind fun _ => checkStmt_fold around thenBranch
  | .ifThen condition thenBranch (some elseBranch) => by
      rw [Stmt.fold, checkStmt, checkStmt]
      apply (checkExpr_fold words none condition).bind
      intro _
      exact (checkStmt_fold around thenBranch).bind fun _ => checkStmt_fold around elseBranch
  | .while condition body => by
      rw [Stmt.fold, checkStmt, checkStmt]
      exact (checkExpr_fold words none condition).bind fun _ => checkStmt_fold around body
  | .try keyword body handlers otherwise => by
      rw [Stmt.fold, checkStmt, checkStmt]
      apply (declaring_fold words body (checkEach_fold around body)).inScope.bind
      intro _
      apply (checkHandlers_fold around handlers).bind
      intro _
      exact (declaring_fold words otherwise (checkEach_fold around otherwise)).inScope
  | .exit keyword none => by
      rw [Stmt.fold, Option.map_none, checkStmt, checkStmt]
      exact Agree.refl _
  | .exit keyword (some value) => by
      rw [Stmt.fold, Option.map_some, checkStmt, checkStmt]
      exact checkExit_fold words around keyword value
  | .var decl => by
      rw [Stmt.fold, checkStmt, checkStmt]
      exact checkVar_fold words decl
  | .expression value => by
      rw [Stmt.fold, checkStmt, checkStmt]
      exact checkExpr_fold words none value
  | .enumDecl _ => by rw [Stmt.fold]; exact Agree.refl _
  | .print _ _ => by rw [Stmt.fold, checkStmt, checkStmt]; exact Agree.refl _
  | .raise _ _ => by rw [Stmt.fold, checkStmt, checkStmt]; exact Agree.refl _
  | .break _ => by rw [Stmt.fold, checkStmt, checkStmt]; exact Agree.refl _
  | .uses _ _ => by rw [Stmt.fold, checkStmt, checkStmt]; exact Agree.refl _

theorem checkEach_fold (around : Option Callable) : ∀ list : List Stmt,
    Agree (checkEach around list) (checkEach around (Stmt.foldList words list))
  | [] => by rw [Stmt.foldList]; exact Agree.refl _
  | s :: rest => by
      rw [Stmt.foldList, checkEach, checkEach]
      exact (checkStmt_fold around s).bind fun _ => checkEach_fold around rest

theorem checkMethods_fold : ∀ list : List Function,
    Agree (checkMethods list) (checkMethods (Stmt.foldMethods words list))
  | [] => by rw [Stmt.foldMethods]; exact Agree.refl _
  | ⟨kind, name, params, returnType, body⟩ :: rest => by
      rw [Stmt.foldMethods, checkMethods, checkMethods]
      have hmethod := (Agree.refl (declareParams params)).bind fun _ =>
        declaring_fold words body (checkEach_fold (some { kind, returnType }) body)
      exact hmethod.inScope.bind fun _ => checkMethods_fold rest

theorem checkHandlers_fold (around : Option Callable) : ∀ list : List (Handler Stmt),
    Agree (checkHandlers around list) (checkHandlers around (Stmt.foldHandlers words list))
  | [] => by rw [Stmt.foldHandlers]; exact Agree.refl _
  | ⟨name, typeName, body⟩ :: rest => by
      rw [Stmt.foldHandlers, checkHandlers, checkHandlers]
      have hbody := (Agree.refl (modify fun (lookup : TypeLookup) =>
        lookup.declare name.lexeme (typeName.getD anyType))).bind fun _ =>
          checkStmt_fold around body
      exact hbody.inScope.bind fun _ => checkHandlers_fold around rest

end

theorem checkProgram_fold (statements : List Stmt) :
    checkProgram (Stmt.foldList words statements) = checkProgram statements := by
  have hrun := declaring_fold words statements (checkEach_fold words none statements) .empty
  unfold checkProgram checkStmts
  cases hx : declaring statements (checkEach none statements) .empty <;>
    cases hy : declaring (Stmt.foldList words statements)
      (checkEach none (Stmt.foldList words statements)) .empty <;>
    simp_all [outcome, TypeError.report]

end Typing

end MiniPascal
