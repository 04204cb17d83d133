import MiniPascal.Machine.Exec
import MiniPascal.Parser.Statement
import MiniPascal.Proofs.Sequence

/-!
# Counting loops

A counting loop has no node of its own in the tree.  It is given a meaning here that follows its
clauses, and the tree that is built for it has that meaning.
-/

namespace MiniPascal

/-- The clauses of a counting loop, and its body. -/
structure CountingLoop where
  initial : Option Stmt
  condition : Option Expr
  increment : Option Expr
  body : Stmt

namespace CountingLoop

/-! ## The meaning of the clauses -/

/-- Whether there is to be another round; there always is when no condition is given. -/
def goesOn (call : Eval.Caller) (cx : Context) (loop : CountingLoop) : Eval Bool := fun s =>
  match loop.condition with
  | none => .ok true s
  | some condition =>
      match Eval.expr call cx condition s with
      | .ok value s => .ok value.isTruthy s
      | .error failure s => .error failure s

/-- The context of a round, and the store as the round begins.  An increment shares a scope of its
own with the body, which the distances of the names in both of them count. -/
def beginRound (cx : Context) (loop : CountingLoop) (s : Store) : Context × Store :=
  match loop.increment with
  | none => (cx, s)
  | some _ => (cx.inside ((s.newFrame ∅).1 :: cx.env), (s.newFrame ∅).2)

/-- What stands between two rounds: the increment, for what it does to the store. -/
def advance (call : Eval.Caller) (cx : Context) (loop : CountingLoop) : Eval Unit := fun s =>
  match loop.increment with
  | none => .ok () s
  | some increment =>
      match Eval.expr call cx increment s with
      | .ok _ s => .ok () s
      | .error failure s => .error failure s

/-- The rounds of a loop, at most as many as there is fuel.  The condition is tested, the body is
run, and the increment is evaluated before the next test.  A `break` ends the loop at once, and the
increment is passed over; any other signal ends the loop as well, and goes on outwards. -/
def rounds (call : Eval.Caller) (fuel : Nat) (cx : Context) (loop : CountingLoop) :
    Nat → Exec Unit
  | 0, s => .error (.failed .starved) s
  | left + 1, s =>
      match loop.goesOn call cx s with
      | .error failure s => .error (.failed failure) s
      | .ok false s => .ok () s
      | .ok true s =>
          let (inner, s) := loop.beginRound cx s
          match Exec.stmt call fuel inner loop.body s with
          | .error .break s => .ok () s
          | .error (.exit value) s => .error (.exit value) s
          | .error (.failed failure) s => .error (.failed failure) s
          | .ok () s =>
              match loop.advance call inner s with
              | .error failure s => .error (.failed failure) s
              | .ok () s => rounds call fuel cx loop left s

/-- A counting loop: its initial statement once, in a new scope around the rounds. -/
def run (call : Eval.Caller) (fuel : Nat) (cx : Context) (loop : CountingLoop) : Exec Unit :=
  fun s =>
    match loop.initial with
    | none => loop.rounds call fuel cx fuel s
    | some initial =>
        let inner := cx.inside ((s.newFrame ∅).1 :: cx.env)
        match Exec.stmt call fuel inner initial (s.newFrame ∅).2 with
        | .error signal s => .error signal s
        | .ok () s => loop.rounds call fuel inner fuel s

/-! ## The tree of the clauses -/

def treeCondition (loop : CountingLoop) : Expr :=
  loop.condition.getD (.literal (.boolean true))

def treeBody (loop : CountingLoop) : Stmt :=
  match loop.increment with
  | some increment => .block [loop.body, .expression increment]
  | none => loop.body

def tree (loop : CountingLoop) : Stmt :=
  Stmt.lowerFor loop.initial loop.condition loop.increment loop.body

theorem tree_eq (loop : CountingLoop) :
    loop.tree =
      match loop.initial with
      | some initial => .block [initial, .while loop.treeCondition loop.treeBody]
      | none => .while loop.treeCondition loop.treeBody :=
  rfl

variable {call : Eval.Caller} {fuel : Nat} {cx : Context} {loop : CountingLoop} {s : Store}

/-- What the tree tests decides whether there is to be another round. -/
theorem goesOn_eq :
    loop.goesOn call cx s =
      match Eval.expr call cx loop.treeCondition s with
      | .ok value s' => .ok value.isTruthy s'
      | .error failure s' => .error failure s' := by
  unfold goesOn treeCondition
  cases loop.condition with
  | none => rfl
  | some condition => rfl

/-- An expression as a statement leaves nothing but a store. -/
theorem stmt_expression (value : Expr) :
    Exec.stmt call fuel cx (.expression value) s =
      match Eval.expr call cx value s with
      | .error failure s' => .error (.failed failure) s'
      | .ok _ s' => .ok () s' := by
  rw [Exec.stmt, Exec.ofEval]
  have hdiscard : (discard (Eval.expr call cx value) : Eval Unit) s =
      EStateM.map (fun _ => ()) (Eval.expr call cx value) s := rfl
  rw [hdiscard, EStateM.map]
  cases Eval.expr call cx value s with
  | ok result s' => rfl
  | error failure s' => rfl

/-- A block of two statements is the one and then the other, in a new scope. -/
theorem stmt_block_pair (first second : Stmt) :
    Exec.stmt call fuel cx (.block [first, second]) s =
      match Exec.stmt call fuel (cx.inside ((s.newFrame ∅).1 :: cx.env)) first
          (s.newFrame ∅).2 with
      | .error signal s' => .error signal s'
      | .ok () s' =>
          Exec.stmt call fuel (cx.inside ((s.newFrame ∅).1 :: cx.env)) second s' := by
  rw [Exec.stmt]
  show Exec.stmts call fuel (cx.inside ((s.newFrame ∅).1 :: cx.env)) [first, second]
    (s.newFrame ∅).2 = _
  rw [Exec.stmts, Exec.stmts, Exec.stmts, bind_pure_unit]
  cases hfirst : Exec.stmt call fuel (cx.inside ((s.newFrame ∅).1 :: cx.env)) first
      (s.newFrame ∅).2 with
  | error signal s' => exact bind_of_error hfirst
  | ok _ s' => exact bind_of_ok hfirst

/-- The body of the loop in the tree is the body and then the increment, in the scope of a round. -/
theorem stmt_treeBody :
    Exec.stmt call fuel cx loop.treeBody s =
      match Exec.stmt call fuel (loop.beginRound cx s).1 loop.body (loop.beginRound cx s).2 with
      | .error signal s' => .error signal s'
      | .ok () s' =>
          match loop.advance call (loop.beginRound cx s).1 s' with
          | .error failure s'' => .error (.failed failure) s''
          | .ok () s'' => .ok () s'' := by
  unfold treeBody beginRound advance
  cases loop.increment with
  | none =>
      simp only
      cases Exec.stmt call fuel cx loop.body s with
      | error signal s' => rfl
      | ok _ s' => rfl
  | some increment =>
      simp only [stmt_block_pair, stmt_expression]
      cases Exec.stmt call fuel (cx.inside ((s.newFrame ∅).1 :: cx.env)) loop.body
          (s.newFrame ∅).2 with
      | error signal s' => rfl
      | ok _ s' =>
          simp only
          cases Eval.expr call (cx.inside ((s.newFrame ∅).1 :: cx.env)) increment s' with
          | error failure s'' => rfl
          | ok _ s'' => rfl

/-- The loop in the tree goes through the rounds of the clauses. -/
theorem repeatWhile_tree (left : Nat) :
    Exec.repeatWhile (Eval.expr call cx loop.treeCondition)
        (Exec.stmt call fuel cx loop.treeBody) left s =
      loop.rounds call fuel cx left s := by
  induction left generalizing s with
  | zero => rfl
  | succ left ih =>
      rw [Exec.repeatWhile, rounds, goesOn_eq]
      cases Eval.expr call cx loop.treeCondition s with
      | error failure s' => rfl
      | ok value s' =>
          simp only
          cases value.isTruthy with
          | false => rfl
          | true =>
              simp only [if_true, stmt_treeBody]
              cases Exec.stmt call fuel (loop.beginRound cx s').1 loop.body
                  (loop.beginRound cx s').2 with
              | error signal s'' => cases signal <;> rfl
              | ok _ s'' =>
                  simp only
                  cases loop.advance call (loop.beginRound cx s').1 s'' with
                  | error failure t => rfl
                  | ok _ t => exact ih

theorem stmt_tree : Exec.stmt call fuel cx loop.tree s = loop.run call fuel cx s := by
  rw [tree_eq, run]
  cases loop.initial with
  | none => rw [Exec.stmt, repeatWhile_tree]
  | some initial =>
      simp only [stmt_block_pair]
      cases Exec.stmt call fuel (cx.inside ((s.newFrame ∅).1 :: cx.env)) initial
          (s.newFrame ∅).2 with
      | error signal s' => rfl
      | ok _ s' =>
          simp only
          rw [Exec.stmt, repeatWhile_tree]

end CountingLoop

namespace Parse

/-- The clauses of a counting loop after `for`, and its body. -/
def countingLoop (nested : Nested) (expr : Parse Expr) : Parse CountingLoop := do
  let initial ← forInitial expr
  let condition ← optional (atSymbol .semicolon) expr
  discard <| expectSymbol .semicolon .loopSemicolon
  let increment ← optional (atKeyword .do) expr
  discard <| expectKeyword .do .forDo
  let body ← nested.statement true
  return { initial, condition, increment, body }

theorem forStatement_eq (nested : Nested) (expr : Parse Expr) :
    forStatement nested expr = CountingLoop.tree <$> countingLoop nested expr := by
  simp only [forStatement, countingLoop, map_bind, map_pure, CountingLoop.tree]

end Parse

/-- A counting loop is run by its clauses, whichever of them are given and whatever they are: its
tree ends with the same signal, in the same store, output included, as the clauses do. -/
theorem counting_loop_runs_by_clauses :
    (∀ (nested : Nested) (expr : Parse Expr),
      Parse.forStatement nested expr = CountingLoop.tree <$> Parse.countingLoop nested expr) ∧
    ∀ (loop : CountingLoop) (call : Eval.Caller) (fuel : Nat) (cx : Context) (s : Store),
      Exec.stmt call fuel cx loop.tree s = loop.run call fuel cx s :=
  ⟨Parse.forStatement_eq, fun _ _ _ _ _ => CountingLoop.stmt_tree⟩

end MiniPascal
