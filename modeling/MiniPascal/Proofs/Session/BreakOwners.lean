import MiniPascal.Proofs.Session.BreakConfinement

/-!
# The loop that a `break` ends

The parser counts the loops around a `break` across the bodies of functions.  So a `break` that a
compiler accepts stands in a loop of its own body, or its body is the body of a function declared in
a loop; and only a function declared in a loop may end by a `break` when it is called.
-/

namespace MiniPascal

/-- Of what a compiler accepts, every `break` stands in a loop of its own body or in a function that
is declared in a loop.  Neither the top-level code nor the body of a function declared outside of
loops ever ends by a `break`, in whatever state and context it is run. -/
theorem Compiler.accepted_break_placement {c c' : Compiler} {files : FileTree} {source : Source}
    {compilation : Compilation} (h : c.compile files source = (.ok compilation, c')) :
    (∀ around ∈ Stmt.listBreaks [] compilation.program,
      Stmt.OwnLoop around ∨ ∃ outer, around = .body :: outer ∧ .loop ∈ outer) ∧
    (∀ call fuel cx s s',
      Exec.stmts call fuel cx compilation.program s ≠ .error .break s') ∧
    ∀ site ∈ Stmt.listFunctions [] compilation.program, .loop ∉ site.1 →
      ∀ call fuel cx s s', Exec.stmts call fuel cx site.2.body s ≠ .error .break s' := by
  have hlooped : ∀ s ∈ compilation.program, s.Looped :=
    Compile.compile_looped files source c _ _ (compile_eq_ok_iff.mp h)
  refine ⟨fun around hmem => Stmt.ownLoop_or_outer (Stmt.looped_list hlooped around hmem), ?_, ?_⟩
  · intro call fuel cx
    exact Exec.stmts_confines call fuel cx _
      (Stmt.confinedList_of_looped _ (Stmt.looped_list hlooped))
  · intro site hsite houtside call fuel cx
    exact Exec.stmts_confines call fuel cx _
      (Stmt.confinedList_of_looped _ (Stmt.looped_of_function hlooped hsite houtside))

/-- A procedure declared outside of loops, with a loop of its own, and one declared in a loop, whose
`break` stands in no loop of its own. -/
def stopSource : Source :=
  ⟨"main.pas", "procedure Find; begin while True do break; end " ++
    "var I := 0; while I < 2 do begin procedure Stop; begin break; end " ++
    "Stop(); Find(); I := I + 1; print I; end"⟩

/-- The second procedure is accepted.  Its `break` ends the call and not the loop, which goes on. -/
theorem Compiler.accepted_break_placement_stop :
    ∃ compilation c', (start {}).compile .empty stopSource = (.ok compilation, c') ∧
      Stmt.listBreaks [] compilation.program = [[.loop, .body], [.body, .loop]] ∧
      (((Machine.start (.still 0)).addLocals compilation.locals).interpret 20
        compilation.program).2.store.output = "1\n2\n" ∧
      (∀ around ∈ Stmt.listBreaks [] compilation.program,
        Stmt.OwnLoop around ∨ ∃ outer, around = .body :: outer ∧ .loop ∈ outer) ∧
      (∀ call fuel cx s s',
        Exec.stmts call fuel cx compilation.program s ≠ .error .break s') ∧
      ∀ site ∈ Stmt.listFunctions [] compilation.program, .loop ∉ site.1 →
        ∀ call fuel cx s s', Exec.stmts call fuel cx site.2.body s ≠ .error .break s' := by
  have hrun : ((start {}).compile .empty stopSource).1.toOption.map (fun compilation =>
      (Stmt.listBreaks [] compilation.program,
        (((Machine.start (.still 0)).addLocals compilation.locals).interpret 20
          compilation.program).2.store.output)) =
      some ([[.loop, .body], [.body, .loop]], "1\n2\n") := by
    decide +kernel
  cases hcompile : (start {}).compile .empty stopSource with
  | mk result c' =>
      rw [hcompile] at hrun
      cases result with
      | error failure => cases hrun
      | ok compilation =>
          rcases Prod.mk.inj (Option.some.inj hrun) with ⟨hbreaks, houtput⟩
          exact ⟨compilation, c', rfl, hbreaks, houtput, accepted_break_placement hcompile⟩

end MiniPascal
