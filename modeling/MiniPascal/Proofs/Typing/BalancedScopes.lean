import MiniPascal.Proofs.Typing.Knowledge

/-!
# Scopes are left as they were found

Whatever is recorded inside of a statement with scopes of its own lands in one of these scopes.  So
behind a block, a class, a function or a guarded block all that is known is what was known in front
of it, even if the check stops inside; and a program ends at the top level.
-/

namespace MiniPascal

namespace Typing

/-! ## Where checks record -/

/-- The property of what is known stays true whatever is recorded in the innermost scope. -/
structure Recordable (P : TypeLookup → Prop) : Prop where
  declare : ∀ known symbol type, P known → P (known.declare symbol type)
  infer : ∀ known symbol type, P known → P (known.infer symbol type)
  inherit : ∀ known name parent, P known → P (known.inherit name parent)
  specialize : ∀ known symbol type, P known → P (known.specialize symbol type)

theorem recordable_inside (outer : TypeLookup) : Recordable outer.Inside where
  declare _ symbol type h := h.declare symbol type
  infer _ symbol type h := h.infer symbol type
  inherit _ name parent h := h.inherit name parent
  specialize _ symbol type h := h.specialize symbol type

/-- No scope is open, and there is no class around. -/
structure TopLevel (known : TypeLookup) : Prop where
  declared : known.declared.scopes = []
  inferred : known.inferred.scopes = []
  parents : known.parents.scopes = []
  generics : known.generics.scopes = []
  currentClass : known.currentClass = none

theorem scopes_set {table : TypeTable} (h : table.scopes = []) (symbol type : String) :
    (table.set symbol type).scopes = [] := by
  unfold TypeTable.set
  rw [h]

theorem recordable_topLevel : Recordable TopLevel where
  declare _ symbol type h := { h with declared := scopes_set h.declared symbol type }
  infer _ symbol type h := { h with inferred := scopes_set h.inferred symbol type }
  inherit _ name parent h := { h with parents := scopes_set h.parents name parent }
  specialize _ symbol type h := { h with generics := scopes_set h.generics symbol type }

theorem topLevel_empty : TopLevel .empty :=
  ⟨rfl, rfl, rfl, rfl, rfl⟩

/-- The check keeps a property of what is known, even if it stops. -/
def Keeps (P : TypeLookup → Prop) (check : Check α) : Prop :=
  ∀ known, P known → P (stateAfter check known)

namespace Keeps

variable {P : TypeLookup → Prop} {check : Check α}

theorem pure (value : α) : Keeps P (pure value) :=
  fun _ h => h

theorem throw (e : TypeError) : Keeps P (throw e : Check α) :=
  fun _ h => h

theorem modify {change : TypeLookup → TypeLookup}
    (hchange : ∀ known, P known → P (change known)) : Keeps P (modify change) :=
  hchange

theorem bind {f : α → Check β} (hcheck : Keeps P check) (hf : ∀ value, Keeps P (f value)) :
    Keeps P (check >>= f) := by
  intro known h
  have hfirst := hcheck known h
  cases hrun : check known with
  | ok value between =>
      rw [stateAfter_of_ok hrun] at hfirst
      have hsame : stateAfter (check >>= f) known = stateAfter (f value) between := by
        unfold stateAfter
        rw [bind_of_ok hrun]
      rw [hsame]
      exact hf value between hfirst
  | error e between =>
      rw [stateAfter_of_error hrun] at hfirst
      rw [stateAfter_of_error (bind_of_error hrun)]
      exact hfirst

theorem look {f : TypeLookup → Check α} (hf : ∀ known, Keeps P (f known)) :
    Keeps P (get >>= f) :=
  fun known h => hf known known h

theorem foldl {f : TypeLookup → β → TypeLookup} (hf : ∀ known x, P known → P (f known x)) :
    ∀ (list : List β) {known : TypeLookup}, P known → P (list.foldl f known)
  | [], _, h => h
  | x :: rest, _, h => foldl hf rest (hf _ x h)

end Keeps

/-! ## Expressions -/

section Checks

variable {P : TypeLookup → Prop}

theorem mismatch_keeps (token : Token) (fault : TypeFault) :
    Keeps P (mismatch token fault : Check α) :=
  .throw _

theorem typeOf_keeps (e : Expr) : Keeps P (typeOf e) := by
  refine .look fun known => ?_
  split
  · exact .pure _
  · exact .throw _

theorem checkAssign_keeps (hP : Recordable P) (cast : Option String) (name : Token) (value : Expr) :
    Keeps P (checkAssign cast name value) := by
  refine .look fun known => ?_
  split
  · exact .pure _
  split
  · exact .pure _
  refine (typeOf_keeps value).bind fun inferred => ?_
  split
  · exact .modify fun known h => hP.infer known _ _ h
  · refine .look fun known => ?_
    split
    · exact .pure _
    · exact mismatch_keeps _ _

theorem checkSet_keeps (cast : Option String) (object : Expr) (name : Token) (inferred : String) :
    Keeps P (checkSet cast object name inferred) := by
  refine (typeOf_keeps object).bind fun receiver => .look fun known => ?_
  dsimp only
  split
  · exact .pure _
  split
  · exact .pure _
  · exact mismatch_keeps _ _

mutual

theorem checkExpr_keeps (hP : Recordable P) :
    ∀ (e : Expr) (cast : Option String), Keeps P (checkExpr cast e)
  | .literal _, _ | .variable _ _, _ | .this _ _, _ | .super _ _ _, _ => by
      rw [checkExpr]
      exact .pure _
  | .cast inner typeName, _ => by
      rw [checkExpr]
      exact checkExpr_keeps hP inner (some typeName)
  | .unary _ _ operand, _ => by
      rw [checkExpr]
      exact checkExpr_keeps hP operand none
  | .grouping inner, _ => by
      rw [checkExpr]
      exact checkExpr_keeps hP inner none
  | .get object _, _ => by
      rw [checkExpr]
      exact checkExpr_keeps hP object none
  | .binary left _ _ right, _ => by
      rw [checkExpr]
      exact (checkExpr_keeps hP left none).bind fun _ => checkExpr_keeps hP right none
  | .logical left _ _ right, _ => by
      rw [checkExpr]
      exact (checkExpr_keeps hP left none).bind fun _ => checkExpr_keeps hP right none
  | .subscript _ object index, _ => by
      rw [checkExpr]
      exact (checkExpr_keeps hP object none).bind fun _ => checkExpr_keeps hP index none
  | .call callee _ arguments, _ => by
      rw [checkExpr]
      exact (checkExpr_keeps hP callee none).bind fun _ => checkExprs_keeps hP arguments
  | .map _ entries, _ => by
      rw [checkExpr]
      exact checkEntries_keeps hP entries
  | .assign _ name value, cast => by
      rw [checkExpr]
      exact (checkExpr_keeps hP value none).bind fun _ => checkAssign_keeps hP cast name value
  | .set object name value, cast => by
      rw [checkExpr]
      exact (typeOf_keeps value).bind fun inferred =>
        (checkExpr_keeps hP value none).bind fun _ =>
          (checkExpr_keeps hP object none).bind fun _ => checkSet_keeps cast object name inferred

theorem checkExprs_keeps (hP : Recordable P) :
    ∀ list : List Expr, Keeps P (checkExprs list)
  | [] => by
      rw [checkExprs]
      exact .pure _
  | e :: rest => by
      rw [checkExprs]
      exact (checkExpr_keeps hP e none).bind fun _ => checkExprs_keeps hP rest

theorem checkEntries_keeps (hP : Recordable P) :
    ∀ list : List (Expr × Expr), Keeps P (checkEntries list)
  | [] => by
      rw [checkEntries]
      exact .pure _
  | (key, value) :: rest => by
      rw [checkEntries]
      exact (checkExpr_keeps hP key none).bind fun _ =>
        (checkExpr_keeps hP value none).bind fun _ => checkEntries_keeps hP rest

end

/-! ## Declarations -/

theorem checkVar_keeps (hP : Recordable P) (decl : VarDecl) : Keeps P (checkVar decl) := by
  unfold checkVar
  split
  · exact .pure _
  refine (checkExpr_keeps hP _ none).bind fun _ => (typeOf_keeps _).bind fun inferred => ?_
  split
  · exact .modify fun known h => hP.infer known _ _ h
  · refine Keeps.bind (.modify fun known h => hP.declare known _ _ h) fun _ => ?_
    refine .look fun known => ?_
    split
    · exact .pure _
    · exact mismatch_keeps _ _

theorem checkExit_keeps (hP : Recordable P) (around : Option Callable) (keyword : Token)
    (value : Expr) : Keeps P (checkExit around keyword value) := by
  unfold checkExit
  split
  · exact .pure _
  split
  · exact mismatch_keeps _ _
  refine (checkExpr_keeps hP value none).bind fun _ => (typeOf_keeps value).bind fun inferred => ?_
  refine .look fun known => ?_
  split
  · exact .pure _
  · exact mismatch_keeps _ _

theorem registerEnum_keeps (hP : Recordable P) (decl : EnumDecl) (known : TypeLookup)
    (h : P known) : P (registerEnum known decl) :=
  Keeps.foldl (fun known _ hknown => hP.declare known _ _ hknown) decl.members h

theorem register_keeps (hP : Recordable P) (known : TypeLookup) (s : Stmt) (h : P known) :
    P (register known s) := by
  cases s with
  | enumDecl decl => exact registerEnum_keeps hP decl known h
  | function decl => exact hP.declare known _ _ h
  | var decl => exact hP.specialize _ _ _ (hP.declare known _ _ h)
  | classDecl decl =>
      have hnamed := hP.declare _ decl.name.lexeme decl.name.lexeme
        (hP.inherit known decl.name.lexeme ((decl.superclass.map (·.name.lexeme)).getD anyType) h)
      have henums := Keeps.foldl (fun known enum hknown => registerEnum_keeps hP enum known hknown)
        decl.enums hnamed
      have hmethods := Keeps.foldl (f := registerMethod decl.name.lexeme)
        (fun known _ hknown => hP.declare known _ _ hknown) decl.methods henums
      exact Keeps.foldl (fun _ _ hknown => hP.specialize _ _ _ (hP.declare _ _ _ hknown))
        decl.fields hmethods
  | _ => exact h

theorem declaring_keeps (hP : Recordable P) (statements : List Stmt) {check : Check Unit}
    (hcheck : Keeps P check) : Keeps P (declaring statements check) :=
  Keeps.bind (.modify fun _ h => Keeps.foldl (register_keeps hP) statements h) fun _ => hcheck

theorem declareParams_keeps (hP : Recordable P) (params : List Param) :
    Keeps P (declareParams params) :=
  .modify fun _ h => Keeps.foldl (fun known _ hknown => hP.declare known _ _ hknown) params h

theorem declareFields_keeps (hP : Recordable P) (fields : List Field) :
    Keeps P (declareFields fields) :=
  .modify fun _ h => Keeps.foldl (fun known _ hknown => hP.declare known _ _ hknown) fields h

end Checks

/-! ## Scopes -/

theorem keeps_of_restores {check : Check α} {P : TypeLookup → Prop} (h : Restores check) :
    Keeps P check := by
  intro known hknown
  rw [h known]
  exact hknown

/-- What is recorded in a scope is forgotten behind it. -/
theorem inScope_restores {check : Check α} (h : ∀ outer : TypeLookup, Keeps outer.Inside check) :
    Restores (inScope check) := by
  intro known
  have hinside := h known known.enter (.enter known)
  unfold stateAfter at hinside ⊢
  unfold inScope
  cases hrun : check known.enter with
  | ok value inner =>
      rw [hrun] at hinside
      exact hinside.leave
  | error e inner =>
      rw [hrun] at hinside
      exact hinside.leave

theorem insideClass_restores {check : Check α} (h : Restores check) (name : String) :
    Restores (insideClass name check) := by
  intro known
  have hsame := h { known with currentClass := some name }
  unfold stateAfter at hsame ⊢
  unfold insideClass
  cases hrun : check { known with currentClass := some name } with
  | ok value inner =>
      rw [hrun] at hsame
      cases hsame
      rfl
  | error e inner =>
      rw [hrun] at hsame
      cases hsame
      rfl

theorem inClassScopes_restores {check : Check Unit}
    (h : ∀ outer : TypeLookup, Keeps outer.Inside check) (superclass : Option Superclass) :
    Restores (inClassScopes superclass check) := by
  cases superclass with
  | none => exact inScope_restores h
  | some parent => exact inScope_restores fun _ => keeps_of_restores (inScope_restores h)

/-! ## Statements -/

end Typing

/-- The statement has scopes of its own. -/
def Stmt.hasScopes : Stmt → Bool
  | .block _ | .classDecl _ | .function _ | .try _ _ _ _ => true
  | _ => false

namespace Typing

mutual

/-- The check of a statement records in the innermost scope, if it records anything outside of the
statement's own scopes at all. -/
theorem checkStmt_keeps (around : Option Callable) :
    ∀ (s : Stmt) {P : TypeLookup → Prop}, (s.hasScopes = false → Recordable P) →
      Keeps P (checkStmt around s)
  | .block body, _, _ => by
      rw [checkStmt]
      refine keeps_of_restores (inScope_restores fun outer => ?_)
      have houter := recordable_inside outer
      exact declaring_keeps houter body (checkEach_keeps around body houter)
  | .classDecl ⟨name, superclass, fields, _, methods⟩, _, _ => by
      rw [checkStmt]
      refine keeps_of_restores (insideClass_restores (inClassScopes_restores (fun outer => ?_) _) _)
      refine (declareFields_keeps (recordable_inside outer) fields).bind fun _ => ?_
      exact checkMethods_keeps methods
  | .function ⟨kind, _, params, returnType, body⟩, _, _ => by
      rw [checkStmt]
      refine keeps_of_restores (inScope_restores fun outer => ?_)
      have houter := recordable_inside outer
      refine (declareParams_keeps houter params).bind fun _ => ?_
      exact declaring_keeps houter body (checkEach_keeps _ body houter)
  | .try _ body handlers otherwise, _, _ => by
      rw [checkStmt]
      refine Keeps.bind (keeps_of_restores (inScope_restores fun outer => ?_)) fun _ =>
        (checkHandlers_keeps around handlers).bind fun _ =>
          keeps_of_restores (inScope_restores fun outer => ?_)
      · have houter := recordable_inside outer
        exact declaring_keeps houter body (checkEach_keeps around body houter)
      · have houter := recordable_inside outer
        exact declaring_keeps houter otherwise (checkEach_keeps around otherwise houter)
  | .ifThen condition thenBranch none, _, hP => by
      rw [checkStmt]
      exact (checkExpr_keeps (hP rfl) condition none).bind fun _ =>
        checkStmt_keeps around thenBranch fun _ => hP rfl
  | .ifThen condition thenBranch (some elseBranch), _, hP => by
      rw [checkStmt]
      refine (checkExpr_keeps (hP rfl) condition none).bind fun _ => ?_
      exact (checkStmt_keeps around thenBranch fun _ => hP rfl).bind fun _ =>
        checkStmt_keeps around elseBranch fun _ => hP rfl
  | .while condition body, _, hP => by
      rw [checkStmt]
      exact (checkExpr_keeps (hP rfl) condition none).bind fun _ =>
        checkStmt_keeps around body fun _ => hP rfl
  | .exit keyword (some value), _, hP => by
      rw [checkStmt]
      exact checkExit_keeps (hP rfl) around keyword value
  | .var decl, _, hP => by
      rw [checkStmt]
      exact checkVar_keeps (hP rfl) decl
  | .expression value, _, hP => by
      rw [checkStmt]
      exact checkExpr_keeps (hP rfl) value none
  | .exit _ none, _, _ | .enumDecl _, _, _ | .print _ _, _, _ | .raise _ _, _, _
  | .break _, _, _ | .uses _ _, _, _ => by
      rw [checkStmt]
      exact .pure _

theorem checkEach_keeps (around : Option Callable) :
    ∀ (list : List Stmt) {P : TypeLookup → Prop}, Recordable P → Keeps P (checkEach around list)
  | [], _, _ => by
      rw [checkEach]
      exact .pure _
  | s :: rest, _, hP => by
      rw [checkEach]
      exact (checkStmt_keeps around s fun _ => hP).bind fun _ => checkEach_keeps around rest hP

theorem checkMethods_keeps :
    ∀ (methods : List Function) {P : TypeLookup → Prop}, Keeps P (checkMethods methods)
  | [], _ => by
      rw [checkMethods]
      exact .pure _
  | ⟨kind, _, params, returnType, body⟩ :: rest, _ => by
      rw [checkMethods]
      refine Keeps.bind (keeps_of_restores (inScope_restores fun outer => ?_)) fun _ =>
        checkMethods_keeps rest
      have houter := recordable_inside outer
      refine (declareParams_keeps houter params).bind fun _ => ?_
      exact declaring_keeps houter body (checkEach_keeps _ body houter)

theorem checkHandlers_keeps (around : Option Callable) :
    ∀ (handlers : List (Handler Stmt)) {P : TypeLookup → Prop},
      Keeps P (checkHandlers around handlers)
  | [], _ => by
      rw [checkHandlers]
      exact .pure _
  | ⟨name, typeName, body⟩ :: rest, _ => by
      rw [checkHandlers]
      refine Keeps.bind (keeps_of_restores (inScope_restores fun outer => ?_)) fun _ =>
        checkHandlers_keeps around rest
      have houter := recordable_inside outer
      exact Keeps.bind (.modify fun known h => houter.declare known _ _ h) fun _ =>
        checkStmt_keeps around body fun _ => houter

end

/-- However the check of a statement with scopes of its own ends, what is known behind it is what
was known in front of it. -/
theorem checkStmt_restores (around : Option Callable) {s : Stmt} (hscopes : s.hasScopes = true) :
    Restores (checkStmt around s) := by
  intro known
  refine checkStmt_keeps around s (P := (· = known)) (fun hnot => ?_) known rfl
  rw [hscopes] at hnot
  cases hnot

/-- A program is checked up to its end or up to a fault, and in both cases no scope is left open. -/
theorem checkProgram_topLevel (statements : List Stmt) : TopLevel (checkProgram statements).1 := by
  have hkeeps : Keeps TopLevel (checkStmts none statements) :=
    declaring_keeps recordable_topLevel statements (checkEach_keeps none statements
      recordable_topLevel)
  have htop := hkeeps .empty topLevel_empty
  unfold stateAfter at htop
  unfold checkProgram
  cases hrun : checkStmts none statements .empty with
  | ok value known =>
      rw [hrun] at htop
      exact htop
  | error e known =>
      rw [hrun] at htop
      exact htop

end Typing
end MiniPascal
