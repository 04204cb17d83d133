import MiniPascal.Proofs.Parser.BreakPlacement
import MiniPascal.Proofs.Session.Compilation
import MiniPascal.Session

/-!
# No `break` gets out of a program

A run of confined statements never ends by a `break`: loops end by it, calls end by it, and all
else passes it on.  What a compiler accepts is looped, the units it puts in place included, and so
confined: a program and its tests never end by a `break`.
-/

namespace MiniPascal

/-! ## Runs -/

namespace Exec

/-- A computation that never ends by a `break`. -/
def Confines (x : Exec α) : Prop :=
  ∀ s s', x s ≠ .error .break s'

namespace Confines

theorem pure (value : α) : Confines (pure value) := by
  intro s s' hrun
  cases hrun

theorem throw {signal : Signal} (h : signal ≠ .break) :
    Confines (throw signal : Exec α) := by
  intro s s' hrun
  cases hrun
  exact h rfl

theorem bind {x : Exec α} {f : α → Exec β} (hx : Confines x) (hf : ∀ value, Confines (f value)) :
    Confines (x >>= f) := by
  intro s s' hrun
  change EStateM.bind x f s = _ at hrun
  unfold EStateM.bind at hrun
  cases hfirst : x s with
  | ok value t =>
      rw [hfirst] at hrun
      exact hf value t s' hrun
  | error signal t =>
      rw [hfirst] at hrun
      cases hrun
      exact hx s s' hfirst

theorem ofEval (eval : Eval α) : Confines (ofEval eval) := by
  intro s s' hrun
  unfold Exec.ofEval at hrun
  cases hfirst : eval s with
  | ok value t =>
      rw [hfirst] at hrun
      cases hrun
  | error failure t =>
      rw [hfirst] at hrun
      cases hrun

theorem repeatWhile (condition : Eval Value) (body : Exec Unit) :
    ∀ fuel, Confines (repeatWhile condition body fuel) := by
  intro fuel
  induction fuel with
  | zero =>
      intro s s' hrun
      cases hrun
  | succ fuel ih =>
      intro s s' hrun
      unfold Exec.repeatWhile at hrun
      cases htest : condition s with
      | error failure t =>
          rw [htest] at hrun
          cases hrun
      | ok value t =>
          rw [htest] at hrun
          dsimp only at hrun
          split at hrun
          · cases hbody : body t with
            | ok _ u =>
                rw [hbody] at hrun
                exact ih u s' hrun
            | error signal u =>
                rw [hbody] at hrun
                cases signal <;> cases hrun
          · cases hrun

theorem catchError {body : Exec Unit} {handle : RuntimeError → Exec Unit} (hbody : Confines body)
    (hhandle : ∀ error, Confines (handle error)) : Confines (catchError body handle) := by
  intro s s' hrun
  unfold Exec.catchError at hrun
  cases hfirst : body s with
  | ok _ t =>
      rw [hfirst] at hrun
      cases hrun
  | error signal t =>
      rw [hfirst] at hrun
      cases signal with
      | «break» => exact hbody s t hfirst
      | exit value => cases hrun
      | failed failure =>
          cases failure with
          | error error => exact hhandle error t s' hrun
          | starved => cases hrun

end Confines

mutual

theorem stmt_confines (call : Eval.Caller) (fuel : Nat) (cx : Context) :
    ∀ s : Stmt, s.Confined → Confines (stmt call fuel cx s)
  | .block body, h => by
      rw [stmt]
      exact (Confines.ofEval _).bind fun env => stmts_confines call fuel _ body h
  | .classDecl decl, _ => by
      rw [stmt]
      exact Confines.ofEval _
  | .enumDecl decl, _ => by
      rw [stmt]
      exact Confines.ofEval _
  | .function decl, _ => by
      rw [stmt]
      exact Confines.ofEval _
  | .ifThen condition thenBranch none, h => by
      rw [stmt]
      refine (Confines.ofEval _).bind fun value => ?_
      split
      · exact stmt_confines call fuel cx thenBranch h
      · exact Confines.pure ()
  | .ifThen condition thenBranch (some elseBranch), h => by
      rw [stmt]
      refine (Confines.ofEval _).bind fun value => ?_
      split
      · exact stmt_confines call fuel cx thenBranch h.1
      · exact stmt_confines call fuel cx elseBranch h.2
  | .while condition body, _ => by
      rw [stmt]
      exact Confines.repeatWhile _ _ fuel
  | .try keyword body handlers otherwise, h => by
      rw [stmt]
      refine (Confines.ofEval _).bind fun env => ?_
      refine Confines.catchError (stmts_confines call fuel _ body h.1) fun error => ?_
      dsimp only
      split
      · exact handler_confines call fuel cx _ handlers _ h.2.1
      · exact (Confines.ofEval _).bind fun env => stmts_confines call fuel _ otherwise h.2.2
  | .print keyword value, _ => by
      rw [stmt]
      exact Confines.ofEval _
  | .exit keyword value, _ => by
      rw [stmt]
      exact (Confines.ofEval _).bind fun result => Confines.throw (by simp)
  | .raise keyword value, _ => by
      rw [stmt]
      exact Confines.ofEval _
  | .var decl, _ => by
      rw [stmt]
      exact Confines.ofEval _
  | .break keyword, h => absurd h (by simp [Stmt.Confined])
  | .expression value, _ => by
      rw [stmt]
      exact Confines.ofEval _
  | .uses keyword unit, _ => by
      rw [stmt]
      exact Confines.pure ()

theorem stmts_confines (call : Eval.Caller) (fuel : Nat) (cx : Context) :
    ∀ list : List Stmt, Stmt.ConfinedList list → Confines (stmts call fuel cx list)
  | [], _ => by
      rw [stmts]
      exact Confines.pure ()
  | s :: rest, h => by
      rw [stmts]
      exact (stmt_confines call fuel cx s h.1).bind fun _ => stmts_confines call fuel cx rest h.2

theorem handler_confines (call : Eval.Caller) (fuel : Nat) (cx : Context) (raised : Value) :
    ∀ (handlers : List (Handler Stmt)) (index : Nat), Stmt.ConfinedHandlers handlers →
      Confines (handler call fuel cx raised handlers index)
  | [], _, _ => by
      rw [handler]
      exact Confines.pure ()
  | ⟨name, _, body⟩ :: _, 0, h => by
      rw [handler]
      exact (Confines.ofEval _).bind fun env => stmt_confines call fuel _ body h.1
  | _ :: rest, index + 1, h => by
      rw [handler]
      exact handler_confines call fuel cx raised rest index h.2

end

end Exec

/-! ## Compilations -/

namespace Compile

def Gives (x : Compile α) (Q : α → Prop) : Prop :=
  ∀ c value d, x c = .ok value d → Q value

namespace Gives

theorem pure {Q : α → Prop} {value : α} (h : Q value) : Gives (pure value) Q := by
  intro c value' d hrun
  cases hrun
  exact h

theorem throw {Q : α → Prop} {failure : CompileFailure} :
    Gives (throw failure : Compile α) Q := by
  intro c value d hrun
  cases hrun

theorem bind {x : Compile α} {f : α → Compile β} {Q : α → Prop} {R : β → Prop} (hx : Gives x Q)
    (hf : ∀ value, Q value → Gives (f value) R) : Gives (x >>= f) R := by
  intro c result e hrun
  change EStateM.bind x f c = _ at hrun
  unfold EStateM.bind at hrun
  cases hfirst : x c with
  | ok value d =>
      rw [hfirst] at hrun
      exact hf value (hx c value d hfirst) d result e hrun
  | error failure d =>
      rw [hfirst] at hrun
      cases hrun

theorem after {x : Compile α} {f : α → Compile β} {R : β → Prop}
    (hf : ∀ value, Gives (f value) R) : Gives (x >>= f) R :=
  bind (Q := fun _ => True) (fun _ _ _ _ => trivial) fun value _ => hf value

end Gives

theorem parse_looped (source : Source) :
    Gives (parse source) fun statements => ∀ s ∈ statements, s.Looped := by
  intro c statements d hrun
  have hlast := Lexer.last_kind source
  have hlast' : (Lexer.scan source).last.isIdentifier = false := by
    unfold Token.isIdentifier
    rw [hlast]
  rw [parse_run] at hrun
  dsimp only at hrun
  cases hparsed : (parseProgram c.options.recovery c.nextId (Lexer.scan source)).result with
  | error stop =>
      rw [hparsed] at hrun
      cases stop <;> cases hrun
  | ok list =>
      rw [hparsed] at hrun
      dsimp only at hrun
      split at hrun
      · cases hrun
      · next herror =>
          cases hrun
          refine looped_of_parseProgram hlast' hparsed ?_
          simp only [Diagnostic.anyError_append, Bool.or_eq_true, not_or,
            Bool.not_eq_true] at herror
          exact herror.2

/-- What holds of the statements of every source holds of them with all units in place. -/
theorem expandWith_gives {Q : Stmt → Prop} {expand : Token → Compile Expansion}
    (hexpand : ∀ unit, Gives (expand unit) fun expansion => ∀ s ∈ expansion.statements, Q s) :
    ∀ statements, (∀ s ∈ statements, Q s) →
      Gives (expandWith expand statements) fun expansion => ∀ s ∈ expansion.statements, Q s := by
  intro statements
  induction statements with
  | nil =>
      intro _
      exact Gives.pure (List.forall_mem_nil _)
  | cons statement rest ih =>
      intro h
      rcases List.forall_mem_cons.mp h with ⟨hfirst, hrest⟩
      have hkept : Gives (do
          let others ← expandWith expand rest
          return { others with statements := statement :: others.statements })
          fun expansion => ∀ s ∈ expansion.statements, Q s :=
        (ih hrest).bind fun others hothers =>
          Gives.pure (List.forall_mem_cons.mpr ⟨hfirst, hothers⟩)
      cases statement with
      | uses keyword unit =>
          refine (hexpand unit).bind fun here hhere => (ih hrest).bind fun others hothers => ?_
          exact Gives.pure (List.forall_mem_append.mpr ⟨hhere, hothers⟩)
      | _ => exact hkept

theorem expandUnit_gives {Q : Stmt → Prop}
    (hparse : ∀ source, Gives (parse source) fun statements => ∀ s ∈ statements, Q s)
    (files : FileTree) : ∀ fuel including unit,
      Gives (expandUnit files fuel including unit) fun expansion =>
        ∀ s ∈ expansion.statements, Q s := by
  intro fuel
  induction fuel with
  | zero =>
      intro including unit
      exact Gives.throw
  | succ fuel ih =>
      intro including unit
      refine Gives.after fun c => ?_
      split
      · exact Gives.pure (List.forall_mem_nil _)
      · refine Gives.after fun _ => ?_
        split
        · exact Gives.after fun _ => Gives.pure (List.forall_mem_nil _)
        · exact (hparse _).bind (expandWith_gives (ih (unitPath including unit)))

theorem parseAll_gives {Q : Stmt → Prop}
    (hparse : ∀ source, Gives (parse source) fun statements => ∀ s ∈ statements, Q s)
    (files : FileTree) (source : Source) :
    Gives (parseAll files source) fun statements => ∀ s ∈ statements, Q s := by
  refine Gives.after fun _ => (hparse source).bind fun statements hstatements => ?_
  refine (expandWith_gives (expandUnit_gives hparse files _ source.path) statements
    hstatements).bind fun expansion hexpansion => ?_
  split
  · exact Gives.throw
  · exact Gives.pure hexpansion

/-- Every `break` that a compiler accepts has a loop around it. -/
theorem compile_looped (files : FileTree) (source : Source) :
    Gives (compile files source) fun compilation => ∀ s ∈ compilation.program, s.Looped := by
  refine (parseAll_gives parse_looped files source).bind fun program hprogram => ?_
  exact Gives.after fun locals => Gives.after fun _ => Gives.pure hprogram

/-- What a compiler accepts is confined. -/
theorem compile_confined (files : FileTree) (source : Source) :
    Gives (compile files source) fun compilation => Stmt.ConfinedList compilation.program := by
  intro c compilation d hrun
  have hlooped := compile_looped files source c compilation d hrun
  exact Stmt.confinedList_iff.mpr fun s hs => Stmt.Looped.confined s (hlooped s hs)

end Compile

/-! ## Programs and their tests -/

theorem Machine.interpret_confined {program : List Stmt} (h : Stmt.ConfinedList program)
    (m : Machine) (fuel : Nat) : (m.interpret fuel program).1 ≠ .error .break := by
  have hrun := Exec.stmts_confines (Exec.callFn m.context fuel) fuel m.context program h m.store
  unfold interpret
  cases hresult : Exec.stmts (Exec.callFn m.context fuel) fuel m.context program m.store with
  | ok value store => simp
  | error signal store =>
      intro hbreak
      cases hbreak
      exact hrun store hresult

/-- Whatever a compiler accepts, with all units it uses, neither the program nor its tests end by a
`break`, on any machine. -/
theorem Compiler.accepted_never_breaks {c c' : Compiler} {files : FileTree} {source : Source}
    {compilation : Compilation} (h : c.compile files source = (.ok compilation, c'))
    (m : Machine) (fuel : Nat) (filter : Option String) :
    (m.interpret fuel compilation.program).1 ≠ .error .break ∧
      (m.runTests fuel filter compilation.program).1 ≠ .error .break := by
  have hconfined : Stmt.ConfinedList compilation.program :=
    Compile.compile_confined files source c _ _ (compile_eq_ok_iff.mp h)
  have hinterpret := Machine.interpret_confined hconfined m fuel
  refine ⟨hinterpret, ?_⟩
  unfold Machine.runTests
  cases hresult : m.interpret fuel compilation.program with
  | mk result m' =>
      rw [hresult] at hinterpret
      cases result with
      | ok _ => simp
      | error signal =>
          intro hbreak
          cases hbreak
          exact hinterpret rfl

/-- A unit with a loop that is left from within a guarded block. -/
def loopFiles : FileTree :=
  .ofFiles [] [("Loops.pas", .text
    "procedure Find; begin while True do try break; except end end")]

/-- A program that calls it, and leaves a counting loop of its own. -/
def loopSource : Source :=
  ⟨"main.pas", "uses Loops; for var I := 0; I < 9; I := I + 1 do if I = 1 then break; Find();"⟩

theorem Compiler.accepted_never_breaks_loops :
    ∃ compilation c', (start {}).compile loopFiles loopSource = (.ok compilation, c') ∧
      compilation.program.length = 3 ∧
      ((Machine.start (.still 0)).interpret 20 compilation.program).1 ≠ .error .break ∧
      ((Machine.start (.still 0)).runTests 20 none compilation.program).1 ≠ .error .break := by
  have hlength : ((start {}).compile loopFiles loopSource).1.toOption.map
      (fun compilation => compilation.program.length) = some 3 := by
    decide +kernel
  cases hcompile : (start {}).compile loopFiles loopSource with
  | mk result c' =>
      rw [hcompile] at hlength
      cases result with
      | error failure => cases hlength
      | ok compilation =>
          exact ⟨compilation, c', rfl, Option.some.inj hlength,
            accepted_never_breaks hcompile (Machine.start (.still 0)) 20 none⟩

end MiniPascal
