import MiniPascal.Proofs.Machine.LinkedRuns
import MiniPascal.Proofs.Machine.Proceeding
import MiniPascal.Proofs.Machine.Subtypes

/-!
# Machines with a pointer and a journal

A machine that keeps the pointer to the current environment and the journal from one task to the
next.  No task sets the pointer back; it is that of top-level code after each task because every
run leaves it where it was.
-/

namespace MiniPascal

/-- A machine with the current environment and the entries of all its runs. -/
structure JournaledMachine where
  machine : Machine
  env : Env
  entries : List Entry

namespace JournaledMachine

def start (host : Host) : JournaledMachine where
  machine := .start host
  env := Store.globals
  entries := []

/-- The store with the pointer and the entries. -/
def journal (r : JournaledMachine) : Journal where
  store := r.machine.store
  env := r.env
  entries := r.entries

/-- The machine with another store, pointer and entries. -/
def withJournal (r : JournaledMachine) (j : Journal) : JournaledMachine where
  machine := { r.machine with store := j.store }
  env := j.env
  entries := j.entries

def interpret (r : JournaledMachine) (fuel : Nat) (statements : List Stmt) :
    Except Signal Unit × JournaledMachine :=
  match Journal.program r.machine fuel statements r.journal with
  | .ok _ j => (.ok (), r.withJournal j)
  | .error signal j => (.error signal, r.withJournal j)

def runTest (fuel : Nat) (r : JournaledMachine) (name : Token) : JournaledMachine :=
  match r.machine.testFunction? name.lexeme with
  | none => r
  | some test =>
      r.withJournal (Journal.ended (Journal.callFn r.machine.setting fuel test [] r.journal))

def runTests (r : JournaledMachine) (fuel : Nat) (filter : Option String)
    (statements : List Stmt) : JournaledMachine :=
  match r.interpret fuel statements with
  | (.error _, r) => r
  | (.ok _, r) => (Machine.testNames filter [] statements).foldl (runTest fuel) r

def perform (r : JournaledMachine) : Task → JournaledMachine
  | .addLocals locals => { r with machine := r.machine.addLocals locals }
  | .clearOutput => { r with machine := r.machine.clearOutput }
  | .interpret fuel statements => (r.interpret fuel statements).2
  | .runTests fuel filter statements => r.runTests fuel filter statements

def performAll (r : JournaledMachine) (tasks : List Task) : JournaledMachine :=
  tasks.foldl perform r

/-! ## Properties of all states -/

/-- What holds of a machine, whatever it runs, holds after any task. -/
theorem perform_induction {P : JournaledMachine → Prop}
    (haddLocals : ∀ r locals, P r → P { r with machine := r.machine.addLocals locals })
    (hclearOutput : ∀ r : JournaledMachine, P r → P { r with machine := r.machine.clearOutput })
    (hprogram : ∀ r fuel statements, P r → P (r.withJournal
      (Journal.ended (Journal.program r.machine fuel statements r.journal))))
    (htest : ∀ r fuel name test, P r → r.machine.testFunction? name = some test →
      P (r.withJournal
        (Journal.ended (Journal.callFn r.machine.setting fuel test [] r.journal))))
    {r : JournaledMachine} (h : P r) (task : Task) : P (r.perform task) := by
  have hinterpret (fuel : Nat) (statements : List Stmt) : P (r.interpret fuel statements).2 := by
    have hended := hprogram r fuel statements h
    unfold interpret
    cases hrun : Journal.program r.machine fuel statements r.journal with
    | ok _ j =>
        rw [hrun] at hended
        exact hended
    | error signal j =>
        rw [hrun] at hended
        exact hended
  cases task with
  | addLocals locals => exact haddLocals r locals h
  | clearOutput => exact hclearOutput r h
  | interpret fuel statements => exact hinterpret fuel statements
  | runTests fuel filter statements =>
      have hbefore := hinterpret fuel statements
      show P (r.runTests fuel filter statements)
      unfold runTests
      rcases hrun : r.interpret fuel statements with ⟨result, r'⟩
      rw [hrun] at hbefore
      cases result with
      | error signal => exact hbefore
      | ok _ =>
          refine List.foldlRecOn _ _ hbefore fun r'' h'' name _ => ?_
          unfold runTest
          split
          · exact h''
          · next test hfound => exact htest r'' fuel name.lexeme test h'' hfound

theorem performAll_induction {P : JournaledMachine → Prop}
    (hperform : ∀ r task, P r → P (r.perform task)) {r : JournaledMachine} (h : P r)
    (tasks : List Task) : P (r.performAll tasks) :=
  List.foldlRecOn _ _ h fun r' h' task _ => hperform r' task h'

/-! ## The machine without its journal -/

theorem interpret_machine (r : JournaledMachine) (h : r.env = Store.globals) (fuel : Nat)
    (statements : List Stmt) : r.machine.interpret fuel statements =
      ((r.interpret fuel statements).1, (r.interpret fuel statements).2.machine) := by
  have hcx : r.machine.setting.inside r.journal.env = r.machine.context :=
    congrArg r.machine.setting.inside h
  have hfollows : Journal.forget (Journal.program r.machine fuel statements r.journal) =
      Exec.stmts (Exec.callFn r.machine.context fuel) fuel r.machine.context statements
        r.machine.store := by
    have hrun := (Journal.program_follows r.machine fuel statements r.journal).1
    rw [hcx] at hrun
    exact hrun
  unfold Machine.interpret interpret
  rw [← hfollows]
  cases Journal.program r.machine fuel statements r.journal with
  | ok _ j => rfl
  | error signal j => rfl

theorem runTest_machine (r : JournaledMachine) (fuel : Nat) (name : Token) :
    (r.machine.runTest fuel name).2 = (runTest fuel r name).machine := by
  unfold Machine.runTest runTest
  cases r.machine.testFunction? name.lexeme with
  | none => rfl
  | some test =>
      have hfollows : Journal.forget (Journal.callFn r.machine.setting fuel test [] r.journal) =
          Exec.callFn r.machine.context fuel test [] r.machine.store :=
        (Journal.callFn_follows r.machine.setting fuel test [] r.journal).1
      dsimp only
      rw [← hfollows]
      cases Journal.callFn r.machine.setting fuel test [] r.journal with
      | ok _ j => rfl
      | error failure j => rfl

theorem runEach_machine (fuel : Nat) (names : List Token) (r : JournaledMachine) :
    (Machine.runEach fuel r.machine names).2 = (names.foldl (runTest fuel) r).machine := by
  induction names generalizing r with
  | nil => rfl
  | cons name rest ih =>
      rw [List.foldl_cons, ← ih, ← runTest_machine]
      rfl

theorem perform_machine (r : JournaledMachine) (h : r.env = Store.globals) (task : Task) :
    (r.perform task).machine = r.machine.perform task := by
  cases task with
  | addLocals locals => rfl
  | clearOutput => rfl
  | interpret fuel statements =>
      show _ = (r.machine.interpret fuel statements).2
      rw [r.interpret_machine h]
      rfl
  | runTests fuel filter statements =>
      show (r.runTests fuel filter statements).machine =
        (r.machine.runTests fuel filter statements).2
      unfold Machine.runTests runTests
      rw [r.interpret_machine h]
      rcases r.interpret fuel statements with ⟨result, r'⟩
      cases result with
      | error signal => rfl
      | ok _ => exact (runEach_machine fuel _ r').symm

/-! ## The pointer and the entries -/

/-- Between tasks the current environment is that of top-level code, and the entries tell the way
from the first store. -/
structure Told (r : JournaledMachine) : Prop where
  env : r.env = Store.globals
  passes : Passes .initial r.entries r.machine.store
  fine : Entry.AllFine r.entries
  returned : ∀ e ∈ r.entries, e.after.cx = e.before.cx

namespace Told

variable {r : JournaledMachine}

theorem start (host : Host) : (JournaledMachine.start host).Told :=
  ⟨rfl, .start, trivial, List.forall_mem_nil _⟩

theorem run (h : r.Told) {x : Journaling ε α} (hx : Journal.Proceeds Journal.Local x) :
    (r.withJournal (Journal.ended (x r.journal))).Told := by
  rcases hx r.journal with ⟨fresh, hgoes⟩
  have hentries : (Journal.ended (x r.journal)).entries = fresh ++ r.entries := hgoes.entries
  refine ⟨hgoes.env.trans h.env, ?_, ?_, ?_⟩
  · show Passes _ (Journal.ended (x r.journal)).entries _
    rw [hentries]
    exact h.passes.trans hgoes.passes
  · show Entry.AllFine (Journal.ended (x r.journal)).entries
    rw [hentries]
    exact h.fine.append hgoes.fine
  · show ∀ e ∈ (Journal.ended (x r.journal)).entries, e.after.cx = e.before.cx
    rw [hentries]
    exact List.forall_mem_append.mpr ⟨hgoes.returned, h.returned⟩

theorem perform (h : r.Told) (task : Task) : (r.perform task).Told :=
  perform_induction (fun _ _ h => ⟨h.env, h.passes, h.fine, h.returned⟩)
    (fun _ h => ⟨h.env, h.passes.idle (.of_eq rfl rfl), h.fine, h.returned⟩)
    (fun _ _ _ h => h.run (Journal.program_proceeds _ _ _))
    (fun _ _ _ _ h _ => h.run (Journal.callFn_evaluated _ _ _ _).proceeds) h task

theorem performAll (h : r.Told) (tasks : List Task) : (r.performAll tasks).Told :=
  performAll_induction (fun _ task h => h.perform task) h tasks

end Told

theorem performAll_machine (r : JournaledMachine) (h : r.Told) (tasks : List Task) :
    (r.performAll tasks).machine = r.machine.performAll tasks := by
  induction tasks generalizing r with
  | nil => rfl
  | cons task rest ih =>
      have hrest := ih (r.perform task) (h.perform task)
      rw [r.perform_machine h.env] at hrest
      exact hrest

/-! ## Layouts -/

/-- All points of the journal are linked by one layout. -/
def Linked (r : JournaledMachine) : Prop :=
  ∃ l, r.journal.Linked l

namespace Linked

variable {r : JournaledMachine}

theorem start (host : Host) : (JournaledMachine.start host).Linked :=
  ⟨.start, Store.linked_initial, .globals Nat.zero_lt_one, List.forall_mem_nil _⟩

theorem perform (h : r.Linked) (task : Task) : (r.perform task).Linked := by
  refine perform_induction ?_ ?_ ?_ ?_ h task
  · rintro r locals ⟨l, h⟩
    exact ⟨l, h.store, h.env, h.entries⟩
  · rintro r ⟨l, h⟩
    exact ⟨l, h.withStore (h.store.counted rfl rfl rfl rfl rfl) (.refl l)⟩
  · rintro r fuel statements ⟨l, h⟩
    rcases (Journal.program_links r.machine fuel statements h).ended with ⟨l', -, hj⟩
    exact ⟨l', hj⟩
  · rintro r fuel name test ⟨l, h⟩ hfound
    have htest : l.Chain test.closure := by
      unfold Machine.testFunction? at hfound
      split at hfound
      · next f hf => exact h.store.findOverload (h.store.held (.of_find? hf) f rfl) hfound
      · cases hfound
    rcases (Journal.callFn_links r.machine.setting fuel test [] h htest
      (List.forall_mem_nil _)).ended with ⟨l', -, hj⟩
    exact ⟨l', hj⟩

theorem performAll (h : r.Linked) (tasks : List Task) : (r.performAll tasks).Linked :=
  performAll_induction (fun _ task h => h.perform task) h tasks

end Linked

end JournaledMachine

end MiniPascal
