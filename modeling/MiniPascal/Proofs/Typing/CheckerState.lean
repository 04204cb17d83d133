import MiniPascal.Proofs.Typing.BalancedScopes

/-!
# A checker with a state

Statements are checked inside a given function.  A checker can as well keep the function around in
its state, next to what is known: it puts a function in its place when it goes into the body, and
the former one when it comes out.  Both checks come to the same, and behind a statement with scopes
of its own the whole state of the checker is what it was in front of it, even if the check stops
inside.
-/

namespace MiniPascal

/-- The state of a checker: all that is known, and the function around. -/
structure Checker where
  known : TypeLookup
  function : Option Callable

namespace Checker

def start : Checker where
  known := .empty
  function := none

/-- A check that has the state of a checker. -/
abbrev Run := EStateM TypeError Checker

def passing (check : Option Callable → Check α) : Run α := fun checker =>
  match check checker.function checker.known with
  | .ok value known => .ok value { checker with known }
  | .error e known => .error e { checker with known }

/-- Runs a check in a scope of its own, which is left however the check ends. -/
def inScope (check : Run α) : Run α := fun checker =>
  match check { checker with known := checker.known.enter } with
  | .ok value inside => .ok value { inside with known := inside.known.leave }
  | .error e inside => .error e { inside with known := inside.known.leave }

def insideClass (name : String) (check : Run α) : Run α := fun checker =>
  let around := checker.known.currentClass
  match check { checker with known := { checker.known with currentClass := some name } } with
  | .ok value inside =>
      .ok value { inside with known := { inside.known with currentClass := around } }
  | .error e inside =>
      .error e { inside with known := { inside.known with currentClass := around } }

/-- Runs a check inside a function, and puts the one around back however the check ends. -/
def insideFunction (function : Callable) (check : Run α) : Run α := fun checker =>
  match check { checker with function := some function } with
  | .ok value inside => .ok value { inside with function := checker.function }
  | .error e inside => .error e { inside with function := checker.function }

def inClassScopes (superclass : Option Superclass) (check : Run Unit) : Run Unit :=
  match superclass with
  | some _ => inScope (inScope check)
  | none => inScope check

def declaring (statements : List Stmt) (check : Run Unit) : Run Unit := do
  passing fun _ => modify fun known => statements.foldl Typing.register known
  check

mutual

def checkStmt : Stmt → Run Unit
  | .block body => inScope (declaring body (checkEach body))
  | .classDecl ⟨name, superclass, fields, _, methods⟩ =>
      insideClass name.lexeme <| inClassScopes superclass do
        passing fun _ => Typing.declareFields fields
        checkMethods methods
  | .function ⟨kind, _, params, returnType, body⟩ =>
      insideFunction { kind, returnType } <| inScope do
        passing fun _ => Typing.declareParams params
        declaring body (checkEach body)
  | .ifThen condition thenBranch none => do
      passing fun _ => Typing.checkExpr none condition
      checkStmt thenBranch
  | .ifThen condition thenBranch (some elseBranch) => do
      passing fun _ => Typing.checkExpr none condition
      checkStmt thenBranch
      checkStmt elseBranch
  | .while condition body => do
      passing fun _ => Typing.checkExpr none condition
      checkStmt body
  | .try _ body handlers otherwise => do
      inScope (declaring body (checkEach body))
      checkHandlers handlers
      inScope (declaring otherwise (checkEach otherwise))
  | .exit keyword (some value) => passing fun around => Typing.checkExit around keyword value
  | .exit _ none => pure ()
  | .var decl => passing fun _ => Typing.checkVar decl
  | .expression value => passing fun _ => Typing.checkExpr none value
  | .enumDecl _ => pure ()
  | .print _ _ => pure ()
  | .raise _ _ => pure ()
  | .break _ => pure ()
  | .uses _ _ => pure ()

def checkEach : List Stmt → Run Unit
  | [] => pure ()
  | s :: rest => do
      checkStmt s
      checkEach rest

def checkMethods : List Function → Run Unit
  | [] => pure ()
  | ⟨kind, _, params, returnType, body⟩ :: rest => do
      insideFunction { kind, returnType } <| inScope do
        passing fun _ => Typing.declareParams params
        declaring body (checkEach body)
      checkMethods rest

def checkHandlers : List (Handler Stmt) → Run Unit
  | [] => pure ()
  | ⟨name, typeName, body⟩ :: rest => do
      inScope do
        passing fun _ => modify (·.declare name.lexeme (typeName.getD anyType))
        checkStmt body
      checkHandlers rest

end

/-- Records the declarations of a program, then checks its statements. -/
def checkProgram (statements : List Stmt) : Run Unit :=
  declaring statements (checkEach statements)

/-! ## Checks that are passed the function around -/

variable {check : Option Callable → Check α}

/-- The parts of a check that is passed the function around are passed it one by one. -/
theorem passing_bind (next : α → Option Callable → Check β) :
    (passing check >>= fun value => passing (next value)) =
      passing fun around => check around >>= fun value => next value around := by
  funext checker
  cases hrun : check checker.function checker.known with
  | ok value known =>
      have hfirst : passing check checker = .ok value { checker with known } := by
        rw [passing, hrun]
      rw [bind_of_ok hfirst, passing, passing, bind_of_ok hrun]
  | error e known =>
      have hfirst : passing check checker = .error e { checker with known } := by
        rw [passing, hrun]
      rw [bind_of_error hfirst, passing, bind_of_error hrun]

theorem inScope_passing :
    inScope (passing check) = passing fun around => Typing.inScope (check around) := by
  funext checker
  cases hrun : check checker.function checker.known.enter <;>
    simp only [inScope, passing, Typing.inScope, hrun]

theorem insideClass_passing (name : String) :
    insideClass name (passing check) =
      passing fun around => Typing.insideClass name (check around) := by
  funext checker
  cases hrun : check checker.function { checker.known with currentClass := some name } <;>
    simp only [insideClass, passing, Typing.insideClass, hrun]

theorem insideFunction_passing (function : Callable) :
    insideFunction function (passing check) = passing fun _ => check (some function) := by
  funext checker
  cases hrun : check (some function) checker.known <;>
    simp only [insideFunction, passing, hrun]

theorem inClassScopes_passing {check : Option Callable → Check Unit}
    (superclass : Option Superclass) :
    inClassScopes superclass (passing check) =
      passing fun around => Typing.inClassScopes superclass (check around) := by
  cases superclass with
  | none => exact inScope_passing
  | some parent =>
      unfold inClassScopes Typing.inClassScopes
      dsimp only
      rw [inScope_passing, inScope_passing]

/-- One check that is passed the function around behind another one. -/
theorem passing_followed {first second : Option Callable → Check Unit} {run : Run Unit}
    (hrun : run = passing second) :
    (do passing first; run) = passing fun around => (do first around; second around) := by
  rw [hrun]
  exact passing_bind fun _ => second

theorem declaring_passing (statements : List Stmt) {run : Run Unit}
    {check : Option Callable → Check Unit} (hrun : run = passing check) :
    declaring statements run =
      passing fun around => Typing.declaring statements (check around) :=
  passing_followed hrun

/-! ## Both checks -/

mutual

/-- The checker checks a statement inside the function that stands in its state. -/
theorem checkStmt_passing : ∀ s : Stmt,
    checkStmt s = passing fun around => Typing.checkStmt around s
  | .block body => by
      simp only [checkStmt, Typing.checkStmt]
      rw [declaring_passing body (checkEach_passing body), inScope_passing]
  | .classDecl ⟨name, superclass, fields, _, methods⟩ => by
      simp only [checkStmt, Typing.checkStmt]
      rw [passing_followed (checkMethods_passing methods), inClassScopes_passing,
        insideClass_passing]
  | .function ⟨kind, _, params, returnType, body⟩ => by
      simp only [checkStmt, Typing.checkStmt]
      rw [passing_followed (declaring_passing body (checkEach_passing body)), inScope_passing,
        insideFunction_passing]
  | .ifThen condition thenBranch none => by
      simp only [checkStmt, Typing.checkStmt]
      exact passing_followed (checkStmt_passing thenBranch)
  | .ifThen condition thenBranch (some elseBranch) => by
      simp only [checkStmt, Typing.checkStmt]
      refine passing_followed ?_
      rw [checkStmt_passing thenBranch]
      exact passing_followed (checkStmt_passing elseBranch)
  | .while condition body => by
      simp only [checkStmt, Typing.checkStmt]
      exact passing_followed (checkStmt_passing body)
  | .try _ body handlers otherwise => by
      simp only [checkStmt, Typing.checkStmt]
      rw [declaring_passing body (checkEach_passing body), inScope_passing]
      refine passing_followed ?_
      rw [checkHandlers_passing handlers]
      refine passing_followed ?_
      rw [declaring_passing otherwise (checkEach_passing otherwise), inScope_passing]
  | .exit _ (some _) | .var _ | .expression _ => by
      simp only [checkStmt, Typing.checkStmt]
  | .exit _ none | .enumDecl _ | .print _ _ | .raise _ _ | .break _ | .uses _ _ => by
      simp only [checkStmt, Typing.checkStmt]
      rfl

theorem checkEach_passing : ∀ list : List Stmt,
    checkEach list = passing fun around => Typing.checkEach around list
  | [] => by
      simp only [checkEach, Typing.checkEach]
      rfl
  | s :: rest => by
      simp only [checkEach, Typing.checkEach]
      rw [checkStmt_passing s]
      exact passing_followed (checkEach_passing rest)

theorem checkMethods_passing : ∀ methods : List Function,
    checkMethods methods = passing fun _ => Typing.checkMethods methods
  | [] => by
      simp only [checkMethods, Typing.checkMethods]
      rfl
  | ⟨kind, _, params, returnType, body⟩ :: rest => by
      simp only [checkMethods, Typing.checkMethods]
      rw [passing_followed (declaring_passing body (checkEach_passing body)), inScope_passing,
        insideFunction_passing]
      exact passing_followed (checkMethods_passing rest)

theorem checkHandlers_passing : ∀ handlers : List (Handler Stmt),
    checkHandlers handlers = passing fun around => Typing.checkHandlers around handlers
  | [] => by
      simp only [checkHandlers, Typing.checkHandlers]
      rfl
  | ⟨name, typeName, body⟩ :: rest => by
      simp only [checkHandlers, Typing.checkHandlers]
      rw [passing_followed (checkStmt_passing body), inScope_passing]
      exact passing_followed (checkHandlers_passing rest)

end

theorem restores_passing (h : ∀ around, Restores (check around)) : Restores (passing check) := by
  intro checker
  have hsame := h checker.function checker.known
  unfold stateAfter at hsame ⊢
  unfold passing
  cases hrun : check checker.function checker.known with
  | ok value known =>
      rw [hrun] at hsame
      cases hsame
      rfl
  | error e known =>
      rw [hrun] at hsame
      cases hsame
      rfl

/-- A checker that keeps the function around in its state comes to what the check inside a given
function comes to.  Behind a block, a class, a function or a guarded block its state is what it was
in front, whether the statement passes or the check stops inside.  Behind any program, passed or
not, no scope is open, there is no class around, and no function. -/
theorem scoped_statements_restore :
    (∀ s, checkStmt s = passing fun around => Typing.checkStmt around s) ∧
      (∀ body, Restores (checkStmt (.block body))) ∧
      (∀ decl, Restores (checkStmt (.classDecl decl))) ∧
      (∀ decl, Restores (checkStmt (.function decl))) ∧
      (∀ keyword body handlers otherwise,
        Restores (checkStmt (.try keyword body handlers otherwise))) ∧
      ∀ statements,
        stateAfter (checkProgram statements) start = ⟨(Typing.checkProgram statements).1, none⟩ ∧
          Typing.TopLevel (Typing.checkProgram statements).1 := by
  have hscoped (s : Stmt) (hscopes : s.hasScopes = true) : Restores (checkStmt s) := by
    rw [checkStmt_passing]
    exact restores_passing fun around => Typing.checkStmt_restores around hscopes
  refine ⟨checkStmt_passing, fun _ => hscoped _ rfl, fun _ => hscoped _ rfl,
    fun _ => hscoped _ rfl, fun _ _ _ _ => hscoped _ rfl, fun statements => ⟨?_, ?_⟩⟩
  · rw [checkProgram, declaring_passing statements (checkEach_passing statements)]
    change stateAfter (passing fun around => Typing.checkStmts around statements) start = _
    cases hrun : Typing.checkStmts none statements .empty with
    | ok value known => simp only [stateAfter, passing, start, Typing.checkProgram, hrun]
    | error e known => simp only [stateAfter, passing, start, Typing.checkProgram, hrun]
  · exact Typing.checkProgram_topLevel statements

end Checker
end MiniPascal
