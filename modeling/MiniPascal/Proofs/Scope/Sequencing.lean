import MiniPascal.Proofs.Scope.ProgramDistances

/-!
# Resolving one program after another

The resolver looks at scopes only.  What it has reported and recorded before stays in front, and
nothing is in scope behind a program, so a program that follows another one is resolved as if it
stood alone.
-/

namespace MiniPascal

namespace Resolution

/-- The same scopes, with the reports and distances of `base` in front. -/
structure Over (base r r' : Resolution) : Prop where
  scopes : r'.scopes = r.scopes
  diagnostics : r'.diagnostics = base.diagnostics ++ r.diagnostics
  locals : ∀ id : NodeId, r'.locals[id]? = (r.locals[id]?).or base.locals[id]?

theorem over_start {base : Resolution} (h : base.scopes = []) : Over base start base := by
  refine ⟨h, (List.append_nil _).symm, fun id => ?_⟩
  rw [show start.locals[id]? = none from Std.TreeMap.getElem?_emptyc, Option.none_or]

namespace Over

variable {base r r' : Resolution} (h : Over base r r')
include h

theorem report (fault : ScopeFault) (token : Token) :
    Over base (r.report fault token) (r'.report fault token) := by
  refine ⟨h.scopes, ?_, h.locals⟩
  show r'.diagnostics ++ _ = base.diagnostics ++ (r.diagnostics ++ _)
  rw [h.diagnostics, List.append_assoc]

theorem resolve (id : NodeId) (name : String) :
    Over base (r.resolve id name) (r'.resolve id name) := by
  refine ⟨?_, ?_, fun key => ?_⟩
  · rw [scopes_resolve, scopes_resolve, h.scopes]
  · rw [diagnostics_resolve, diagnostics_resolve, h.diagnostics]
  · rw [locals_resolve, locals_resolve, h.scopes, h.locals key]
    split
    · cases distance? r.scopes name <;> rfl
    · rfl

theorem withScopes (scopes : List (Table Binding)) :
    Over base { r with scopes } { r' with scopes } :=
  ⟨rfl, h.diagnostics, h.locals⟩

theorem enter : Over base r.enter r'.enter := by
  unfold Resolution.enter
  rw [h.scopes]
  exact h.withScopes _

theorem leave : Over base r.leave r'.leave := by
  unfold Resolution.leave
  rw [h.scopes]
  exact h.withScopes _

theorem declare (name : Token) (kind : BindingKind) :
    Over base (r.declare name kind) (r'.declare name kind) := by
  unfold Resolution.declare
  rw [h.scopes]
  split
  · exact h
  · refine withScopes ?_ _
    split
    · split
      · exact h
      · exact h.report .redeclared name
    · exact h

theorem define (name : String) : Over base (r.define name) (r'.define name) := by
  unfold Resolution.define
  rw [h.scopes]
  split
  · exact h
  · split
    · exact h.withScopes _
    · exact h

theorem introduce (name : Token) (kind : BindingKind) :
    Over base (r.introduce name kind) (r'.introduce name kind) :=
  (h.declare name kind).define name.lexeme

theorem bindReceiver (name : String) :
    Over base (r.bindReceiver name) (r'.bindReceiver name) := by
  unfold Resolution.bindReceiver
  rw [h.scopes]
  split
  · exact h
  · exact h.withScopes _

omit h in
theorem introduceAll (token : α → Token) (kind : BindingKind) (list : List α) :
    ∀ {r r' : Resolution}, Over base r r' →
      Over base (list.foldl (fun r item => r.introduce (token item) kind) r)
        (list.foldl (fun r item => r.introduce (token item) kind) r') := by
  induction list with
  | nil => exact fun h => h
  | cons item rest ih => exact fun h => ih (h.introduce (token item) kind)

omit h in
theorem enums (list : List EnumDecl) : ∀ {r r' : Resolution}, Over base r r' →
    Over base (list.foldl (fun r decl => enumDecl decl r) r)
      (list.foldl (fun r decl => enumDecl decl r) r') := by
  induction list with
  | nil => exact fun h => h
  | cons decl rest ih => exact fun h => ih (introduceAll id .enumMember decl.members h)

theorem params (list : List Param) :
    Over base (Resolution.params list r) (Resolution.params list r') :=
  introduceAll Param.name .parameter list h

theorem enterClass (name : Token) (superclass : Option Superclass) (list : List EnumDecl) :
    Over base (Resolution.enterClass name superclass list r)
      (Resolution.enterClass name superclass list r') := by
  have hnamed := (enums list h).introduce name .class
  unfold Resolution.enterClass
  cases superclass with
  | none => exact hnamed.enter.bindReceiver "this"
  | some parent =>
      dsimp only
      split
      · exact ((((hnamed.report .selfInheritance parent.name).resolve _ _).enter).bindReceiver
          "super").enter.bindReceiver "this"
      · exact (((hnamed.resolve _ _).enter).bindReceiver "super").enter.bindReceiver "this"

theorem leaveClass (superclass : Option Superclass) :
    Over base (Resolution.leaveClass superclass r) (Resolution.leaveClass superclass r') := by
  cases superclass with
  | none => exact h.leave
  | some parent => exact h.leave.leave

theorem exitSite (site : Site) (keyword : Token) (value : Option Expr) :
    Over base (Resolution.exitSite site keyword value r)
      (Resolution.exitSite site keyword value r') := by
  have hleft : Over base (if site.function = .outside then r.report .topLevelExit keyword else r)
      (if site.function = .outside then r'.report .topLevelExit keyword else r') := by
    split
    · exact h.report .topLevelExit keyword
    · exact h
  unfold Resolution.exitSite
  dsimp only
  split
  · exact hleft.report .initializerResult keyword
  · exact hleft

end Over

/-! ## Expressions and statements -/

variable {base : Resolution}

mutual

theorem expr_over (site : Site) : ∀ (e : Expr) {r r' : Resolution}, Over base r r' →
    Over base (expr site e r) (expr site e r')
  | .literal _, _, _, h => h
  | .unary _ _ operand, _, _, h => expr_over site operand h
  | .binary left _ _ right, _, _, h => expr_over site right (expr_over site left h)
  | .logical left _ _ right, _, _, h => expr_over site right (expr_over site left h)
  | .grouping inner, _, _, h => expr_over site inner h
  | .variable id name, r, r', h => by
      rw [expr, expr, isPending_of_scopes h.scopes]
      split
      · exact (h.report .ownInitializer name).resolve id name.lexeme
      · exact h.resolve id name.lexeme
  | .assign id name value, _, _, h => (expr_over site value h).resolve id name.lexeme
  | .call callee _ arguments, _, _, h => exprs_over site arguments (expr_over site callee h)
  | .get object _, _, _, h => expr_over site object h
  | .set object _ value, _, _, h => expr_over site object (expr_over site value h)
  | .subscript _ object index, _, _, h => expr_over site index (expr_over site object h)
  | .map _ items, _, _, h => entries_over site items h
  | .this id keyword, r, r', h => by
      rw [expr, expr]
      cases site.enclosing with
      | outside => exact h.report .thisOutsideClass keyword
      | base => exact h.resolve id "this"
      | derived => exact h.resolve id "this"
  | .super id keyword _, r, r', h => by
      rw [expr, expr]
      cases site.enclosing with
      | outside => exact (h.report .superOutsideClass keyword).resolve id "super"
      | base => exact (h.report .superWithoutParent keyword).resolve id "super"
      | derived => exact h.resolve id "super"
  | .cast inner _, _, _, h => expr_over site inner h

theorem exprs_over (site : Site) : ∀ (list : List Expr) {r r' : Resolution}, Over base r r' →
    Over base (exprs site list r) (exprs site list r')
  | [], _, _, h => h
  | e :: rest, _, _, h => exprs_over site rest (expr_over site e h)

theorem entries_over (site : Site) : ∀ (items : List (Expr × Expr)) {r r' : Resolution},
    Over base r r' → Over base (entries site items r) (entries site items r')
  | [], _, _, h => h
  | (key, value) :: rest, _, _, h =>
      entries_over site rest (expr_over site value (expr_over site key h))

end

theorem optionalExpr_over (site : Site) (value : Option Expr) {r r' : Resolution}
    (h : Over base r r') : Over base (optionalExpr site value r) (optionalExpr site value r') := by
  cases value with
  | none => exact h
  | some e => exact expr_over site e h

mutual

theorem stmt_over (site : Site) : ∀ (s : Stmt) {r r' : Resolution}, Over base r r' →
    Over base (stmt site s r) (stmt site s r')
  | .block body, _, _, h => (stmts_over site body h.enter).leave
  | .classDecl ⟨name, superclass, _, enums, classMethods⟩, _, _, h =>
      (methods_over _ classMethods (h.enterClass name superclass enums)).leaveClass superclass
  | .enumDecl decl, _, _, h => Over.introduceAll id .enumMember decl.members h
  | .function ⟨_, name, parameters, _, body⟩, _, _, h =>
      (stmts_over _ body ((h.introduce name .function).enter.params parameters)).leave
  | .ifThen condition thenBranch none, _, _, h =>
      stmt_over site thenBranch (expr_over site condition h)
  | .ifThen condition thenBranch (some elseBranch), _, _, h =>
      stmt_over site elseBranch (stmt_over site thenBranch (expr_over site condition h))
  | .while condition body, _, _, h => stmt_over site body (expr_over site condition h)
  | .try _ body handlerList otherwise, _, _, h =>
      (stmts_over site otherwise
        (handlers_over site handlerList (stmts_over site body h.enter).leave).enter).leave
  | .print _ value, _, _, h => expr_over site value h
  | .exit keyword value, _, _, h =>
      optionalExpr_over site value (h.exitSite site keyword value)
  | .raise _ value, _, _, h => optionalExpr_over site value h
  | .var decl, _, _, h =>
      (optionalExpr_over site decl.initial (h.declare decl.name .variable)).define
        decl.name.lexeme
  | .break _, _, _, h => h
  | .expression value, _, _, h => expr_over site value h
  | .uses _ _, _, _, h => h

theorem stmts_over (site : Site) : ∀ (list : List Stmt) {r r' : Resolution}, Over base r r' →
    Over base (stmts site list r) (stmts site list r')
  | [], _, _, h => h
  | s :: rest, _, _, h => stmts_over site rest (stmt_over site s h)

theorem methods_over (site : Site) : ∀ (list : List Function) {r r' : Resolution},
    Over base r r' → Over base (methods site list r) (methods site list r')
  | [], _, _, h => h
  | ⟨_, name, parameters, _, body⟩ :: rest, _, _, h =>
      methods_over site rest (stmts_over (insideMethod site name) body
        (h.enter.params parameters)).leave

theorem handlers_over (site : Site) : ∀ (list : List (Handler Stmt)) {r r' : Resolution},
    Over base r r' → Over base (handlers site list r) (handlers site list r')
  | [], _, _, h => h
  | ⟨name, _, body⟩ :: rest, _, _, h =>
      handlers_over site rest (stmt_over site body (h.enter.introduce name .handler)).leave

end

/-! ## Programs -/

theorem stmts_append (site : Site) (xs ys : List Stmt) (r : Resolution) :
    stmts site (xs ++ ys) r = stmts site ys (stmts site xs r) := by
  induction xs generalizing r with
  | nil => rfl
  | cons s rest ih => exact ih (stmt site s r)

/-- A program behind another one adds its own reports and distances. -/
theorem program_append {first limit : NodeId} {xs : List Stmt}
    (h : Stmt.NumberedProgram Declarable first xs limit) (ys : List Stmt) :
    Over (program xs) (program ys) (program (xs ++ ys)) := by
  have hscopes : (program xs).scopes = [] :=
    List.forall₂_nil_right_iff.mp (walks_program h).named
  rw [show program (xs ++ ys) = stmts .top ys (program xs) from stmts_append .top xs ys start]
  exact stmts_over .top ys (over_start hscopes)

end Resolution

end MiniPascal
