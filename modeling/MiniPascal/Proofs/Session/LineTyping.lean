import MiniPascal.Proofs.Session.Compilation
import MiniPascal.Proofs.Typing.SeparatePrograms

/-!
# Types of sources fed one by one

A compiler checks the types of each source from nothing known: declarations do not carry over from
one source to the next.  Sources that look up nothing of each other are checked as if they were one
program.
-/

namespace MiniPascal

namespace Compile

theorem expandWith_plain (expand : Token → Compile Expansion) : ∀ {program : List Stmt},
    (∀ keyword unit, .uses keyword unit ∉ program) →
      expandWith expand program = pure { statements := program, missing := false }
  | [], _ => rfl
  | statement :: rest, h => by
      have hrest := expandWith_plain expand fun keyword unit hmem =>
        h keyword unit (List.mem_cons_of_mem _ hmem)
      cases statement with
      | uses keyword unit => exact absurd List.mem_cons_self (h keyword unit)
      | _ =>
          rw [expandWith, hrest]
          · rfl
          · intro keyword unit hsame
            cases hsame

/-- Compiling a source without units goes on where parsing ends. -/
theorem compile_plain {files : FileTree} {source : Source} {c d : Compiler} {program : List Stmt}
    (hparse : parse source (c.markIncluded (Path.clean source.path)) = .ok program d)
    (huses : ∀ keyword unit, .uses keyword unit ∉ program) :
    compile files source c = (do
      let locals ← resolve program
      checkTypes program
      return { program, locals } : Compile Compilation) d := by
  have hall : parseAll files source c = .ok program d := by
    unfold parseAll
    dsimp only [bind, EStateM.bind, modify, modifyGet, MonadStateOf.modifyGet, EStateM.modifyGet]
    rw [hparse]
    dsimp only
    rw [expandWith_plain _ huses]
    rfl
  show EStateM.bind (parseAll files source) _ c = _
  rw [EStateM.bind, hall]

theorem parse_options {source : Source} {c d : Compiler} {program : List Stmt}
    (h : parse source c = .ok program d) : d.options = c.options := by
  rw [parse_run] at h
  dsimp only at h
  split at h
  · split at h <;> cases h
    rfl
  · cases h
  · cases h

/-- Behind the parser, a program that resolves is only checked. -/
theorem finish_plain {program : List Stmt} {c : Compiler} (hcheck : c.options.checkTypes = true)
    (hresolves : Diagnostic.anyError (Resolution.program program).diagnostics = false) :
    (do
      let locals ← resolve program
      checkTypes program
      return { program, locals } : Compile Compilation) c =
      let types := (Typing.checkProgram program).2
      let d := (c.report (Resolution.program program).diagnostics).report types
      if Diagnostic.anyError types then .error .typing d
      else .ok { program, locals := (Resolution.program program).locals } d := by
  have hresolve : resolve program c = .ok (Resolution.program program).locals
      (c.report (Resolution.program program).diagnostics) := by
    rw [resolve_run]
    dsimp only
    rw [hresolves]
    rfl
  show EStateM.bind (resolve program) _ c = _
  rw [EStateM.bind, hresolve]
  dsimp only
  show EStateM.bind (checkTypes program) _ _ = _
  rw [EStateM.bind, checkTypes_run]
  dsimp only
  rw [if_pos (show (c.report _).options.checkTypes = true from hcheck)]
  cases Diagnostic.anyError (Typing.checkProgram program).2 <;> rfl

end Compile

namespace Compiler

/-- Whether all sources compile that a compiler is fed with, one after the other. -/
def compilesAll (files : FileTree) : Compiler → List Source → Bool
  | _, [] => true
  | c, source :: rest =>
      (c.compile files source).1.isOk && (c.compile files source).2.compilesAll files rest

/-- The statements of sources that a compiler is fed with, one after the other, if all of them parse
and resolve and none of them says `uses`. -/
def lines? (files : FileTree) : Compiler → List Source → Option (List (List Stmt))
  | _, [] => some []
  | c, source :: rest =>
      match Compile.parse source (c.markIncluded (Path.clean source.path)) with
      | .error _ _ => none
      | .ok program _ =>
          if program.any Stmt.isUses || Diagnostic.anyError (Resolution.program program).diagnostics
          then none
          else ((c.compile files source).2.lines? files rest).map (program :: ·)

theorem lines?_cons {files : FileTree} {c : Compiler} {source : Source} {rest : List Source}
    {programs : List (List Stmt)} (h : c.lines? files (source :: rest) = some programs) :
    ∃ program d others,
      Compile.parse source (c.markIncluded (Path.clean source.path)) = .ok program d ∧
      (∀ keyword unit, .uses keyword unit ∉ program) ∧
      Diagnostic.anyError (Resolution.program program).diagnostics = false ∧
      (c.compile files source).2.lines? files rest = some others ∧
      programs = program :: others := by
  unfold lines? at h
  split at h
  · cases h
  · next program d hparse =>
      split at h
      · cases h
      · next hplain =>
          rw [Bool.or_eq_true, not_or, Bool.not_eq_true, Bool.not_eq_true] at hplain
          rcases Option.map_eq_some_iff.mp h with ⟨others, hothers, rfl⟩
          refine ⟨program, d, others, hparse, fun keyword unit hmem => ?_, hplain.2, hothers, rfl⟩
          exact List.any_eq_false.mp hplain.1 _ hmem rfl

/-- A source that parses and resolves compiles if its own statements pass. -/
theorem compile_line (files : FileTree) {source : Source} {c d : Compiler} {program : List Stmt}
    (hcheck : c.options.checkTypes = true)
    (hparse : Compile.parse source (c.markIncluded (Path.clean source.path)) = .ok program d)
    (huses : ∀ keyword unit, .uses keyword unit ∉ program)
    (hresolves : Diagnostic.anyError (Resolution.program program).diagnostics = false) :
    ((c.compile files source).1.isOk = true ↔ Typing.Passes program) ∧
      (c.compile files source).2.options = c.options := by
  have hoptions : d.options = (c.markIncluded (Path.clean source.path)).options :=
    Compile.parse_options hparse
  have hstrict : d.options.checkTypes = true :=
    (congrArg CompileOptions.checkTypes hoptions).trans hcheck
  unfold Typing.Passes
  rw [Compiler.compile_run, Compile.compile_plain hparse huses,
    Compile.finish_plain hstrict hresolves]
  dsimp only
  cases Diagnostic.anyError (Typing.checkProgram program).2 with
  | false => exact ⟨⟨fun _ => rfl, fun _ => rfl⟩, hoptions⟩
  | true =>
      refine ⟨⟨fun h => ?_, fun h => ?_⟩, hoptions⟩
      · cases h
      · cases h

theorem compilesAll_iff {files : FileTree} {sources : List Source} :
    ∀ {c : Compiler} {programs : List (List Stmt)}, c.options.checkTypes = true →
      c.lines? files sources = some programs →
      (c.compilesAll files sources = true ↔ ∀ program ∈ programs, Typing.Passes program) := by
  induction sources with
  | nil =>
      intro c programs _ h
      cases h
      simp [compilesAll]
  | cons source rest ih =>
      intro c programs hcheck h
      rcases lines?_cons h with ⟨program, d, others, hparse, huses, hresolves, hothers, rfl⟩
      rcases compile_line files hcheck hparse huses hresolves with ⟨hfirst, hoptions⟩
      rw [compilesAll, Bool.and_eq_true, List.forall_mem_cons, hfirst,
        ih ((congrArg CompileOptions.checkTypes hoptions).trans hcheck) hothers]

/-- Sources that parse and resolve and say no `uses` are fed to one compiler that checks types.  All
of them compile if and only if the statements of each of them pass alone.  If none looks up what
another one declares, this is so if and only if all statements together pass as one program. -/
theorem lines_checked_alone (options : CompileOptions) (files : FileTree) (sources : List Source)
    (programs : List (List Stmt)) (hcheck : options.checkTypes = true)
    (h : (start options).lines? files sources = some programs) :
    ((start options).compilesAll files sources = true ↔
        ∀ program ∈ programs, Typing.Passes program) ∧
      (programs.Pairwise Typing.Separate →
        ((start options).compilesAll files sources = true ↔ Typing.Passes programs.flatten)) := by
  have halone : (start options).compilesAll files sources = true ↔
      ∀ program ∈ programs, Typing.Passes program := compilesAll_iff hcheck h
  refine ⟨halone, fun hseparate => ?_⟩
  rw [halone, Typing.passes_flatten hseparate]

/-- Two lines that declare and use classes and variables of their own. -/
def separateLines : List Source :=
  [⟨"REPL", "class A; begin Next; begin exit 1; end end var X : A := A();"⟩,
    ⟨"REPL", "var Y : Integer := 1 + 2; Y := Y * 2;"⟩]

theorem lines_checked_alone_separate :
    ∃ programs, (start {}).lines? .empty separateLines = some programs ∧
      programs.Pairwise Typing.Separate ∧ (∀ program ∈ programs, Typing.Passes program) ∧
      Typing.Passes programs.flatten := by
  have hrun : ((start {}).lines? .empty separateLines).map (fun programs =>
      (decide (programs.Pairwise Typing.Separate), (start {}).compilesAll .empty separateLines)) =
        some (true, true) := by
    decide +kernel
  rcases Option.map_eq_some_iff.mp hrun with ⟨programs, hlines, hsame⟩
  rcases Prod.mk.inj hsame with ⟨hseparate, hall⟩
  have hpairs := of_decide_eq_true hseparate
  rcases lines_checked_alone {} .empty separateLines programs rfl hlines with ⟨halone, htogether⟩
  exact ⟨programs, hlines, hpairs, halone.mp hall, (htogether hpairs).mp hall⟩

/-- A class is declared on one line and names the type of a variable on the next. -/
def dependentLines : List Source :=
  [⟨"REPL", "class A; begin end"⟩, ⟨"REPL", "var X : A := A();"⟩]

/-- What a line declares is not known on the next one. -/
theorem not_lines_checked_together :
    ∃ programs, (start {}).lines? .empty dependentLines = some programs ∧
      (start {}).compilesAll .empty dependentLines = false ∧ Typing.Passes programs.flatten := by
  have hrun : ((start {}).lines? .empty dependentLines).map (fun programs =>
      ((start {}).compilesAll .empty dependentLines, decide (Typing.Passes programs.flatten))) =
        some (false, true) := by
    decide +kernel
  rcases Option.map_eq_some_iff.mp hrun with ⟨programs, hlines, hsame⟩
  rcases Prod.mk.inj hsame with ⟨hnone, hpasses⟩
  exact ⟨programs, hlines, hnone, of_decide_eq_true hpasses⟩

end Compiler

end MiniPascal
