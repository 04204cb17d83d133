import MiniPascal.Proofs.Machine.JournaledMachine

/-!
# Environments and their chains

Whatever a machine runs, scopes are left as they were entered: every execution, evaluation and call
ends in the environment it began in.  At each point of the run the current environment and those of
all functions at hand are chains from a frame to the frame of top-level code, in which every frame
has the one place that it was made in.
-/

namespace MiniPascal

theorem Journal.stmt_returns (st : Setting) (fuel : Nat) (s : Stmt) (j : Journal) :
    (Journal.ended (Journal.stmt (Journal.callFn st fuel) fuel st s j)).env = j.env :=
  (Journal.stmt_follows (Journal.callFn_follows st fuel) fuel s j).2

namespace JournaledMachine

def point (r : JournaledMachine) : Point :=
  r.journal.point r.machine.setting

/-- Whatever a machine has run and whatever statement it executes next, the current environment is
the same before and after, however the statement ends; between tasks it is that of top-level code.
One layout of frames serves the whole run: at each point in it, the current environment and the
environments of all functions at hand are chains of this layout, which end in the frame of top-level
code. -/
theorem environments_are_chains (host : Host) (tasks : List Task) :
    let r := (start host).performAll tasks
    r.machine = (Machine.start host).performAll tasks ∧
      r.env = Store.globals ∧
      (∀ fuel s env, (Journal.ended (Journal.stmt (Journal.callFn r.machine.setting fuel) fuel
        r.machine.setting s { r.journal with env })).env = env) ∧
      (∀ e ∈ r.entries, e.after.cx.env = e.before.cx.env) ∧
      ∃ outer : FrameId → Env, r.point.Linked outer ∧ ∀ e ∈ r.entries, e.Linked outer := by
  have htold := (Told.start host).performAll tasks
  rcases (Linked.start host).performAll tasks with ⟨l, hlinked⟩
  refine ⟨performAll_machine _ (.start host) tasks, htold.env, ?_, ?_, l.outer, hlinked.point, ?_⟩
  · exact fun fuel s env => Journal.stmt_returns _ fuel s _
  · exact fun e he => congrArg Context.env (htold.returned e he)
  · exact fun e he => (hlinked.entries e he).1

/-- In a block, a function that raises an error is declared and called in a `try`. -/
def failingCall : List Task :=
  let token (name : String) : Token := ⟨.identifier, name, .start, ""⟩
  let fail : Function := ⟨.procedure, token "Fail", [], "",
    [.raise (token "raise") (some (.literal (.integer 1)))]⟩
  let call : Stmt := .expression (.call (.variable 0 (token "Fail")) (token ")") [])
  [.interpret 9 [.block [.function fail, .try (token "try") [call] [] []]]]

/-- Whether an entry is that of a `try` that ended normally. -/
def caught (e : Entry) : Bool :=
  match e.activity, e.ending with
  | .statement (.try _ _ _ _), .done => true
  | _, _ => false

/-- The functions that the variables of a frame hold. -/
def functionAt? (e : Entry) (frame : FrameId) (name : String) : Option Fn :=
  match (e.after.store.frame frame).find? name with
  | some (.function f) => some f
  | _ => none

/-- The `try` in the block ends in the environment of the block, and this is also the one of the
function. -/
theorem environments_are_chains_failingCall :
    let r := (start (.still 0)).performAll failingCall
    ∃ e ∈ r.entries, caught e = true ∧ e.before.cx.env = [1, 0] ∧ e.after.cx.env = [1, 0] ∧
      ∃ outer f, functionAt? e 1 "Fail" = some f ∧
        (e.after.layout outer).Chain [1, 0] ∧ (e.after.layout outer).Chain f.closure ∧
        f.closure = [1, 0] ∧ outer 1 = [0] := by
  intro r
  have hfound : (r.entries.find? fun e => caught e && e.before.cx.env == [1, 0] &&
      ((functionAt? e 1 "Fail").map Fn.closure == some [1, 0])).isSome = true := by
    decide +kernel
  rcases Option.isSome_iff_exists.mp hfound with ⟨e, he⟩
  have hcheck := List.find?_some he
  simp only [Bool.and_eq_true, beq_iff_eq, Option.map_eq_some_iff] at hcheck
  rcases hcheck with ⟨⟨hcaught, hbefore⟩, f, hf, hclosure⟩
  have hmem := List.mem_of_find?_eq_some he
  rcases environments_are_chains (.still 0) failingCall with ⟨-, -, -, hreturned, outer, -, hlinked⟩
  have hafter : e.after.cx.env = [1, 0] := (hreturned e hmem).trans hbefore
  have hchain := (hlinked e hmem).after.env
  rw [hafter] at hchain
  refine ⟨e, hmem, hcaught, hbefore, hafter, outer, f, hf, hchain, ?_, hclosure, ?_⟩
  · unfold functionAt? at hf
    split at hf
    · next g hg =>
        cases hf
        exact (hlinked e hmem).after.store.held (.inVariable hg) f rfl
    · cases hf
  · cases hchain with
    | inside _ houter _ _ => exact houter

end JournaledMachine

end MiniPascal
