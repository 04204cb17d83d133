import MiniPascal.Parser.Statement
import MiniPascal.Proofs.Machine.UnhandledErrors
import MiniPascal.Proofs.Sequence

/-!
# Choices

A choice between labels has no node of its own in the tree: it is a chain of conditionals, and the
tests of that chain hold one copy of the subject for each label.  It is given a meaning here that
follows the clauses of the choice, in which the subject is evaluated anew before each label that is
tried, and the tree that is built for it has that meaning.  Where evaluating the subject again
yields the same value and does nothing else, this is to evaluate it once.
-/

namespace MiniPascal

/-- A label of a choice, with the token at which it ends. -/
structure ChoiceLabel where
  value : Expr
  place : Token

/-- An arm of a choice: its labels, each but the first behind a comma, and its statement. -/
structure ChoiceArm where
  first : ChoiceLabel
  others : List (Token × ChoiceLabel)
  body : Stmt

inductive ChoiceArms where
  | last (arm : ChoiceArm) (otherwise : Option Stmt)
  | cons (arm : ChoiceArm) (rest : ChoiceArms)

structure Choice where
  subject : Expr
  arms : ChoiceArms

def ChoiceArm.labels (arm : ChoiceArm) : List Expr :=
  arm.first.value :: arm.others.map fun other => other.2.value

def ChoiceArms.labels : ChoiceArms → List Expr
  | .last arm _ => arm.labels
  | .cons arm rest => arm.labels ++ rest.labels

/-! ## The meaning of the clauses -/

/-- Whether one of some labels is equal to the subject.  The labels are tried in order, each after
the subject, and those behind the first one that is equal are left out. -/
def equalsOne (call : Eval.Caller) (cx : Context) (subject : Eval Value) :
    List Expr → Eval Bool
  | [], s => .ok false s
  | label :: rest, s =>
      match subject s with
      | .error failure s => .error failure s
      | .ok value s =>
          match Eval.expr call cx label s with
          | .error failure s => .error failure s
          | .ok labelled s =>
              if value.same labelled then .ok true s else equalsOne call cx subject rest s

/-- Runs the arm of the first label that is equal to the subject, else what stands behind `else`. -/
def ChoiceArms.run (call : Eval.Caller) (fuel : Nat) (cx : Context) (subject : Eval Value) :
    ChoiceArms → Exec Unit
  | .last arm otherwise, s =>
      match equalsOne call cx subject arm.labels s with
      | .error failure s => .error (.failed failure) s
      | .ok true s => Exec.stmt call fuel cx arm.body s
      | .ok false s =>
          match otherwise with
          | none => .ok () s
          | some statement => Exec.stmt call fuel cx statement s
  | .cons arm rest, s =>
      match equalsOne call cx subject arm.labels s with
      | .error failure s => .error (.failed failure) s
      | .ok true s => Exec.stmt call fuel cx arm.body s
      | .ok false s => rest.run call fuel cx subject s

namespace Choice

/-- A choice whose subject is evaluated anew before each label that is tried. -/
def run (call : Eval.Caller) (fuel : Nat) (cx : Context) (choice : Choice) : Exec Unit :=
  choice.arms.run call fuel cx (Eval.expr call cx choice.subject)

/-- A choice whose subject is evaluated once, before all labels. -/
def runOnce (call : Eval.Caller) (fuel : Nat) (cx : Context) (choice : Choice) : Exec Unit :=
  fun s =>
    match Eval.expr call cx choice.subject s with
    | .error failure s => .error (.failed failure) s
    | .ok value s => choice.arms.run call fuel cx (pure value) s

end Choice

/-! ## The tree of the clauses -/

/-- The comparison of a subject with a label. -/
def ChoiceLabel.test (subject : Expr) (label : ChoiceLabel) : Expr :=
  .binary subject .equal (.synthetic (.symbol .equal) "=" label.place) label.value

/-- A condition or the comparison with one more label. -/
def joinTest (subject : Expr) (condition : Expr) (other : Token × ChoiceLabel) : Expr :=
  .logical condition .or (.synthetic (.keyword .or) "or" other.1) (other.2.test subject)

/-- The comparison of a subject with all labels of an arm. -/
def ChoiceArm.test (subject : Expr) (arm : ChoiceArm) : Expr :=
  arm.others.foldl (joinTest subject) (arm.first.test subject)

def ChoiceArms.tree (subject : Expr) : ChoiceArms → Stmt
  | .last arm otherwise => .ifThen (arm.test subject) arm.body otherwise
  | .cons arm rest => .ifThen (arm.test subject) arm.body (some (rest.tree subject))

/-- The conditions of some arms with their statements, and the statement behind `else`. -/
def ChoiceArms.branches (subject : Expr) : ChoiceArms → List (Expr × Stmt) × Option Stmt
  | .last arm otherwise => ([(arm.test subject, arm.body)], otherwise)
  | .cons arm rest =>
      ((arm.test subject, arm.body) :: (rest.branches subject).1, (rest.branches subject).2)

theorem ChoiceArms.lowerCase_branches (subject : Expr) (arms : ChoiceArms) :
    Stmt.lowerCase (arms.branches subject).1 (arms.branches subject).2 =
      some (arms.tree subject) := by
  induction arms with
  | last arm otherwise => rfl
  | cons arm rest ih =>
      rw [ChoiceArms.tree, ← ih]
      rfl

def Choice.tree (choice : Choice) : Stmt :=
  choice.arms.tree choice.subject

/-! ## The tree has that meaning -/

section Meaning

variable {call : Eval.Caller} {fuel : Nat} {cx : Context} {subject condition : Expr}
  {labels : List Expr} {s : Store}

theorem equalsOne_append (subject : Eval Value) (front back : List Expr) :
    equalsOne call cx subject (front ++ back) s =
      match equalsOne call cx subject front s with
      | .error failure s' => .error failure s'
      | .ok true s' => .ok true s'
      | .ok false s' => equalsOne call cx subject back s' := by
  induction front generalizing s with
  | nil => rfl
  | cons label rest ih =>
      rw [List.cons_append, equalsOne, equalsOne]
      cases subject s with
      | error failure s' => rfl
      | ok value s' =>
          simp only
          cases Eval.expr call cx label s' with
          | error failure t => rfl
          | ok labelled t =>
              simp only
              cases value.same labelled with
              | true => rfl
              | false => exact ih

/-- A condition tells whether one of some labels is equal to the subject. -/
def Tests (call : Eval.Caller) (cx : Context) (subject condition : Expr) (labels : List Expr) :
    Prop :=
  ∀ s, Eval.expr call cx condition s =
    match equalsOne call cx (Eval.expr call cx subject) labels s with
    | .error failure s' => .error failure s'
    | .ok found s' => .ok (.boolean found) s'

theorem ChoiceLabel.tests (label : ChoiceLabel) :
    Tests call cx subject (label.test subject) [label.value] := by
  intro s
  rw [ChoiceLabel.test, Eval.expr, equalsOne]
  cases hsubject : Eval.expr call cx subject s with
  | error failure s' => exact bind_of_error hsubject
  | ok value s' =>
      rw [bind_of_ok hsubject]
      simp only
      cases hlabel : Eval.expr call cx label.value s' with
      | error failure t => exact bind_of_error hlabel
      | ok labelled t =>
          rw [bind_of_ok hlabel]
          show (.ok (.boolean (value.same labelled)) t : EStateM.Result Failure Store Value) = _
          simp only
          cases value.same labelled with
          | true => rfl
          | false => rfl

/-- A disjunction tries one more label where its left side has found none. -/
theorem Tests.join (htests : Tests call cx subject condition labels)
    (other : Token × ChoiceLabel) :
    Tests call cx subject (joinTest subject condition other) (labels ++ [other.2.value]) := by
  intro s
  rw [joinTest, Eval.expr, equalsOne_append]
  have hcondition := htests s
  cases hfront : equalsOne call cx (Eval.expr call cx subject) labels s with
  | error failure s' =>
      rw [hfront] at hcondition
      exact bind_of_error hcondition
  | ok found s' =>
      rw [hfront] at hcondition
      rw [bind_of_ok hcondition]
      cases found with
      | true => rfl
      | false => exact other.2.tests s'

theorem Tests.joinAll (htests : Tests call cx subject condition labels)
    (others : List (Token × ChoiceLabel)) :
    Tests call cx subject (others.foldl (joinTest subject) condition)
      (labels ++ others.map fun other => other.2.value) := by
  induction others generalizing condition labels with
  | nil => simpa using htests
  | cons other rest ih => simpa using ih (htests.join other)

theorem ChoiceArm.tests (arm : ChoiceArm) :
    Tests call cx subject (arm.test subject) arm.labels :=
  arm.first.tests.joinAll arm.others

/-- A conditional on some labels runs its branch if one of them is equal to the subject. -/
theorem Tests.stmt_ifThen (htests : Tests call cx subject condition labels) (body : Stmt)
    (otherwise : Option Stmt) :
    Exec.stmt call fuel cx (.ifThen condition body otherwise) s =
      match equalsOne call cx (Eval.expr call cx subject) labels s with
      | .error failure s' => .error (.failed failure) s'
      | .ok true s' => Exec.stmt call fuel cx body s'
      | .ok false s' =>
          match otherwise with
          | none => .ok () s'
          | some statement => Exec.stmt call fuel cx statement s' := by
  have hcondition := htests s
  cases hlabels : equalsOne call cx (Eval.expr call cx subject) labels s with
  | error failure s' =>
      rw [hlabels] at hcondition
      have hrun : Exec.ofEval (Eval.expr call cx condition) s = .error (.failed failure) s' := by
        rw [Exec.ofEval, hcondition]
      cases otherwise with
      | none => rw [Exec.stmt, bind_of_error hrun]
      | some statement => rw [Exec.stmt, bind_of_error hrun]
  | ok found s' =>
      rw [hlabels] at hcondition
      have hrun : Exec.ofEval (Eval.expr call cx condition) s = .ok (.boolean found) s' := by
        rw [Exec.ofEval, hcondition]
      cases otherwise with
      | none =>
          rw [Exec.stmt, bind_of_ok hrun]
          cases found with
          | true => rfl
          | false => rfl
      | some statement =>
          rw [Exec.stmt, bind_of_ok hrun]
          cases found with
          | true => rfl
          | false => rfl

theorem ChoiceArms.stmt_tree (arms : ChoiceArms) :
    Exec.stmt call fuel cx (arms.tree subject) s =
      arms.run call fuel cx (Eval.expr call cx subject) s := by
  induction arms generalizing s with
  | last arm otherwise => exact arm.tests.stmt_ifThen arm.body otherwise
  | cons arm rest ih =>
      rw [ChoiceArms.tree, ChoiceArms.run, arm.tests.stmt_ifThen]
      cases equalsOne call cx (Eval.expr call cx subject) arm.labels s with
      | error failure s' => rfl
      | ok found s' =>
          cases found with
          | true => rfl
          | false => exact ih

/-! ## Subjects that keep their value -/

section Steady

variable {steady : Store → Prop} {value : Value}

/-- Labels that keep a subject steady are tried as if it had been evaluated before all of them. -/
theorem equalsOne_of_steady
    (hsubject : ∀ s, steady s → Eval.expr call cx subject s = .ok value s)
    (hlabels : ∀ label ∈ labels, ∀ s labelled s', steady s →
      Eval.expr call cx label s = .ok labelled s' → steady s') (hs : steady s) :
    equalsOne call cx (Eval.expr call cx subject) labels s =
        equalsOne call cx (pure value) labels s ∧
      ∀ found s', equalsOne call cx (pure value) labels s = .ok found s' → steady s' := by
  induction labels generalizing s with
  | nil =>
      refine ⟨rfl, fun found s' hrun => ?_⟩
      cases hrun
      exact hs
  | cons label rest ih =>
      have hrest : ∀ label ∈ rest, ∀ s labelled s', steady s →
          Eval.expr call cx label s = .ok labelled s' → steady s' :=
        fun other hother => hlabels other (List.mem_cons_of_mem _ hother)
      have hvalue : (pure value : Eval Value) s = .ok value s := rfl
      rw [equalsOne, hsubject s hs, equalsOne, hvalue]
      simp only
      cases hlabel : Eval.expr call cx label s with
      | error failure s' => exact ⟨rfl, fun found t hrun => by cases hrun⟩
      | ok labelled s' =>
          have hs' := hlabels label List.mem_cons_self s labelled s' hs hlabel
          simp only
          cases value.same labelled with
          | true =>
              refine ⟨rfl, fun found t hrun => ?_⟩
              cases hrun
              exact hs'
          | false => exact ih hrest hs'

theorem ChoiceArms.run_of_steady {arms : ChoiceArms}
    (hsubject : ∀ s, steady s → Eval.expr call cx subject s = .ok value s)
    (hlabels : ∀ label ∈ arms.labels, ∀ s labelled s', steady s →
      Eval.expr call cx label s = .ok labelled s' → steady s') (hs : steady s) :
    arms.run call fuel cx (Eval.expr call cx subject) s =
      arms.run call fuel cx (pure value) s := by
  induction arms generalizing s with
  | last arm otherwise =>
      rw [ChoiceArms.labels] at hlabels
      rw [ChoiceArms.run, ChoiceArms.run, (equalsOne_of_steady hsubject hlabels hs).1]
  | cons arm rest ih =>
      rw [ChoiceArms.labels, List.forall_mem_append] at hlabels
      obtain ⟨hsame, hkept⟩ := equalsOne_of_steady hsubject hlabels.1 hs
      rw [ChoiceArms.run, ChoiceArms.run, hsame]
      cases hfound : equalsOne call cx (pure value) arm.labels s with
      | error failure s' => rfl
      | ok found s' =>
          cases found with
          | true => rfl
          | false => exact ih hlabels.2 (hkept false s' hfound)

end Steady
end Meaning

/-! ## Reading the clauses -/

namespace Parse

def choiceLabel (expr : Parse Expr) : Parse ChoiceLabel := do
  let value ← expr
  let place ← previous
  return { value, place }

/-- Further labels of the same arm, each with the comma in front of it. -/
def otherLabels (expr : Parse Expr) : Nat → Parse (List (Token × ChoiceLabel))
  | 0 => starve
  | fuel + 1 => do
      if ← acceptSymbol .comma then
        let comma ← previous
        let label ← choiceLabel expr
        let others ← otherLabels expr fuel
        return (comma, label) :: others
      else
        return []

/-- The arms of a choice up to its `end`, with the statement after `else`. -/
def choiceArms (nested : Nested) (inLoop : Bool) (expr : Parse Expr) : Nat → Parse ChoiceArms
  | 0 => starve
  | fuel + 1 => do
      let first ← choiceLabel expr
      let others ← otherLabels expr fuel
      discard <| expectSymbol .colon .caseColon
      let body ← nested.statement inLoop
      discard <| acceptSymbol .semicolon
      if ← acceptKeyword .end then
        return .last { first, others, body } none
      else if ← acceptKeyword .else then
        let otherwise ← nested.statement inLoop
        discard <| acceptSymbol .semicolon
        discard <| expectKeyword .end .caseEnd
        return .last { first, others, body } (some otherwise)
      else if ← atEnd then
        fail .caseEnd
      else
        let rest ← choiceArms nested inLoop expr fuel
        return .cons { first, others, body } rest

def choice (nested : Nested) (inLoop : Bool) (expr : Parse Expr) (fuel : Nat) :
    Parse Choice := do
  let subject ← expr
  discard <| expectKeyword .of .caseOf
  let arms ← choiceArms nested inLoop expr fuel
  return { subject, arms }

variable {nested : Nested} {inLoop : Bool} {expr : Parse Expr} {subject : Expr} {fuel : Nat}

theorem caseLabel_eq : caseLabel expr subject = ChoiceLabel.test subject <$> choiceLabel expr := by
  simp only [caseLabel, choiceLabel, map_bind, map_pure, ChoiceLabel.test]

theorem caseLabels_eq (condition : Expr) :
    caseLabels expr subject fuel condition =
      List.foldl (joinTest subject) condition <$> otherLabels expr fuel := by
  induction fuel generalizing condition with
  | zero => rfl
  | succ fuel ih =>
      rw [caseLabels, otherLabels, map_bind]
      congr 1
      funext more
      cases more with
      | false => simp only [Bool.false_eq_true, if_false, map_pure, List.foldl_nil]
      | true =>
          simp only [if_true, List.foldl_cons, caseLabel_eq, ih, map_eq_pure_bind, bind_assoc,
            pure_bind, joinTest]

theorem caseArms_eq :
    caseArms nested inLoop expr subject fuel =
      ChoiceArms.branches subject <$> choiceArms nested inLoop expr fuel := by
  induction fuel with
  | zero => rfl
  | succ fuel ih =>
      have hfail (stop : SyntaxFault) : ChoiceArms.branches subject <$> fail stop = fail stop := rfl
      simp only [caseArms, choiceArms, caseLabel_eq, caseLabels_eq, ih, bind_map_left, map_bind,
        map_pure, apply_ite (Functor.map (ChoiceArms.branches subject)), hfail,
        ChoiceArms.branches, ChoiceArm.test]

theorem caseStatement_eq :
    caseStatement nested inLoop expr fuel = Choice.tree <$> choice nested inLoop expr fuel := by
  simp only [caseStatement, choice, caseArms_eq, map_eq_pure_bind, bind_assoc, pure_bind,
    ChoiceArms.lowerCase_branches, Choice.tree]

end Parse

/-- A choice is run by its clauses: its tree ends with the same signal, in the same store, output
included, as the clauses do, of which each label that is tried comes after a new evaluation of the
subject.  If the subject yields one value throughout, without any effect, in a set of stores that
evaluating the labels does not lead out of, then in these the tree runs as if the subject was
evaluated once. -/
theorem choice_runs_by_clauses :
    (∀ (nested : Nested) (inLoop : Bool) (expr : Parse Expr) (fuel : Nat),
      Parse.caseStatement nested inLoop expr fuel =
        Choice.tree <$> Parse.choice nested inLoop expr fuel) ∧
    ∀ (choice : Choice) (call : Eval.Caller) (fuel : Nat) (cx : Context),
      (∀ s, Exec.stmt call fuel cx choice.tree s = choice.run call fuel cx s) ∧
      ∀ (steady : Store → Prop) (value : Value),
        (∀ s, steady s → Eval.expr call cx choice.subject s = .ok value s) →
        (∀ label ∈ choice.arms.labels, ∀ s labelled s', steady s →
          Eval.expr call cx label s = .ok labelled s' → steady s') →
        ∀ s, steady s → Exec.stmt call fuel cx choice.tree s = choice.runOnce call fuel cx s := by
  refine ⟨fun nested inLoop expr fuel => Parse.caseStatement_eq, fun choice call fuel cx =>
    ⟨fun s => choice.arms.stmt_tree, fun steady value hsubject hlabels s hs => ?_⟩⟩
  rw [Choice.runOnce, hsubject s hs]
  exact choice.arms.stmt_tree.trans (ChoiceArms.run_of_steady hsubject hlabels hs)

namespace Choice

/-- An arm with one label that prints a text. -/
def printingArm (line : Nat) (label : Int64) (text : String) : ChoiceArm where
  first := ⟨.literal (.integer label), ⟨.integer label, toString label, ⟨line, 3⟩, "main.pas"⟩⟩
  others := []
  body := .print (Exec.wordAt .print "print" line 6) (.literal (.string text))

/-- `case 2 of 1: print 'one'; 2: print 'two'; end` -/
def ofLiteral : Choice where
  subject := .literal (.integer 2)
  arms := .cons (printingArm 2 1 "one") (.last (printingArm 3 2 "two") none)

/-- The name of the variable that `counting` counts in. -/
def counter : Token :=
  ⟨.identifier, "N", ⟨1, 6⟩, "main.pas"⟩

/-- `case N := N + 1 of 5: print 'five'; 2: print 'two'; end` -/
def counting : Choice where
  subject := .assign 0 counter (.binary (.variable 1 counter) .add
    ⟨.symbol .plus, "+", ⟨1, 13⟩, "main.pas"⟩ (.literal (.integer 1)))
  arms := .cons (printingArm 2 5 "five") (.last (printingArm 3 2 "two") none)

def counterAtZero : Store :=
  Store.initial.bindHere Store.globals "N" (.integer 0)

/-- What has been printed when an execution ends. -/
def printed (x : Exec Unit) (s : Store) : String :=
  match x s with
  | .ok _ s' => s'.output
  | .error _ s' => s'.output

theorem printed_congr {x y : Exec Unit} {s : Store} (h : x s = y s) :
    printed x s = printed y s := by
  rw [printed, h, printed]

end Choice

section FixedChoices

open Choice Exec

theorem choice_runs_by_clauses_literal :
    stmt (callFn topLevel 1) 1 topLevel ofLiteral.tree Store.initial =
        ofLiteral.runOnce (callFn topLevel 1) 1 topLevel Store.initial ∧
      printed (ofLiteral.runOnce (callFn topLevel 1) 1 topLevel) Store.initial = "two\n" := by
  refine ⟨?_, by decide +kernel⟩
  refine (choice_runs_by_clauses.2 ofLiteral (callFn topLevel 1) 1 topLevel).2 (fun _ => True)
    (.integer 2) (fun s _ => rfl) (fun _ _ _ _ _ _ _ => trivial) Store.initial trivial

/-- A subject with an effect need not be evaluated once: where it counts, the second label is
compared with the second number. -/
theorem choice_may_evaluate_subject_again :
    ¬∀ (choice : Choice) (call : Eval.Caller) (fuel : Nat) (cx : Context) (s : Store),
        stmt call fuel cx choice.tree s = choice.runOnce call fuel cx s := by
  intro honce
  have hsame := printed_congr (honce counting (callFn topLevel 1) 1 topLevel counterAtZero)
  have hagain : printed (stmt (callFn topLevel 1) 1 topLevel counting.tree) counterAtZero =
      "two\n" := by
    decide +kernel
  have hnone : printed (counting.runOnce (callFn topLevel 1) 1 topLevel) counterAtZero = "" := by
    decide +kernel
  rw [hagain, hnone] at hsame
  exact absurd hsame (by decide)

end FixedChoices

end MiniPascal
