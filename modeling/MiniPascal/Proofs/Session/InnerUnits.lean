import MiniPascal.Proofs.Session.SplicedStatements

/-!
# `uses` inside of statements

A `uses` may stand wherever a declaration may: in blocks, in the bodies of functions and methods, in
the parts of a `try`.  Only those that stand among the statements of a text are replaced by units.
The others come through: a compiled program names inside of its statements all units that are named
inside of the statements of its texts.
-/

namespace MiniPascal

namespace Stmt

mutual

/-- The units that a statement names, at any depth. -/
def units : Stmt → List Token
  | .uses _ unit => [unit]
  | .block body => listUnits body
  | .classDecl ⟨_, _, _, _, methods⟩ => methodUnits methods
  | .function ⟨_, _, _, _, body⟩ => listUnits body
  | .ifThen _ thenBranch none => units thenBranch
  | .ifThen _ thenBranch (some elseBranch) => units thenBranch ++ units elseBranch
  | .while _ body => units body
  | .try _ body handlers otherwise =>
      listUnits body ++ handlerUnits handlers ++ listUnits otherwise
  | .enumDecl _ | .print _ _ | .exit _ _ | .raise _ _ | .var _ | .break _ | .expression _ => []

def listUnits : List Stmt → List Token
  | [] => []
  | s :: rest => units s ++ listUnits rest

def methodUnits : List Function → List Token
  | [] => []
  | ⟨_, _, _, _, body⟩ :: rest => listUnits body ++ methodUnits rest

def handlerUnits : List (Handler Stmt) → List Token
  | [] => []
  | ⟨_, _, body⟩ :: rest => units body ++ handlerUnits rest

end

/-- The units that are named inside of a statement; one that is a `uses` itself has no inside. -/
def innerUnits (s : Stmt) : List Token :=
  if s.isUses then [] else s.units

/-- Without the `uses` among statements, what they name is named inside of them. -/
theorem listUnits_kept (statements : List Stmt) :
    listUnits (kept statements) = statements.flatMap innerUnits := by
  induction statements with
  | nil => rfl
  | cons s rest ih =>
      cases s with
      | uses keyword unit => simpa [innerUnits, isUses] using ih
      | _ =>
          rw [kept_cons (by simp), listUnits, ih]
          rfl

theorem listUnits_eq_flatMap (statements : List Stmt) :
    listUnits statements = statements.flatMap units := by
  induction statements with
  | nil => rfl
  | cons s rest ih => rw [listUnits, ih, List.flatMap_cons]

theorem isUses_of_mem_kept {s : Stmt} {statements : List Stmt} (h : s ∈ kept statements) :
    s.isUses = false := by
  simpa using (List.mem_filter.mp h).2

end Stmt

namespace Compile.MadeOf

variable {texts : List (List Stmt)} {program : List Stmt}

theorem not_isUses (h : MadeOf texts program) : ∀ s ∈ program, s.isUses = false :=
  fun _ hs => Stmt.isUses_of_mem_kept (h.perm.subset hs)

/-- A program names what is named inside of the statements of its texts. -/
theorem units_perm (h : MadeOf texts program) :
    (Stmt.listUnits program).Perm (texts.flatten.flatMap Stmt.innerUnits) := by
  rw [← Stmt.listUnits_kept, Stmt.listUnits_eq_flatMap, Stmt.listUnits_eq_flatMap]
  exact h.perm.flatMap_right Stmt.units

/-- A program names no unit exactly if none is named inside of a statement of its texts. -/
theorem units_eq_nil_iff (h : MadeOf texts program) :
    Stmt.listUnits program = [] ↔
      ∀ statements ∈ texts, ∀ s ∈ statements, s.innerUnits = [] := by
  have hnil : Stmt.listUnits program = [] ↔ texts.flatten.flatMap Stmt.innerUnits = [] := by
    constructor
    · intro hempty
      exact (hempty ▸ h.units_perm).nil_eq.symm
    · intro hempty
      exact (hempty ▸ h.units_perm).eq_nil
  rw [hnil, List.flatMap_eq_nil_iff]
  simp only [List.mem_flatten, forall_exists_index, and_imp]
  exact ⟨fun hall statements hmem s hs => hall s statements hmem hs,
    fun hall s statements hmem hs => hall statements hmem s hs⟩

end Compile.MadeOf

/-- Of what a compiler accepts, each `uses` among the statements of the source, or of a unit, is
replaced by what its unit stands for, and each `uses` inside of a statement is left as it is.  So
the program has a `uses` exactly if some text that it is made of has one inside of a statement. -/
theorem Compiler.uses_left_inside (c : Compiler) (files : FileTree) (source : Source)
    {compilation : Compilation} (h : (c.compile files source).1 = .ok compilation) :
    (∀ s ∈ compilation.program, s.isUses = false) ∧
    ∃ own c₁ paths c₂ units,
      Compile.parse source (c.markIncluded (Path.clean source.path)) = .ok own c₁ ∧
      Compile.Splices files source.path c₁ own paths compilation.program c₂ ∧
      List.Forall₂ (Compile.ParsedUnit files) paths units ∧
      (Stmt.listUnits compilation.program).Perm
        ((own :: units).flatten.flatMap Stmt.innerUnits) ∧
      (Stmt.listUnits compilation.program = [] ↔
        ∀ statements ∈ own :: units, ∀ s ∈ statements, s.innerUnits = []) := by
  rcases c.compile_includes files source with ⟨paths, -, -, hspliced⟩
  rcases hspliced compilation h with ⟨own, c₁, c₂, hown, hsplices⟩
  rcases hsplices.madeOf with ⟨units, hunits, hmade⟩
  exact ⟨hmade.not_isUses, own, c₁, paths, c₂, units, hown, hsplices, hunits, hmade.units_perm,
    hmade.units_eq_nil_iff⟩

/-- The unit is missing, but in a block nobody looks for it. -/
theorem Compiler.uses_left_inside_missing :
    ∃ compilation, ((start {}).compile .empty ⟨"main.pas", "begin uses Missing; end"⟩).1 =
        .ok compilation ∧
      (∀ s ∈ compilation.program, s.isUses = false) ∧
      (Stmt.listUnits compilation.program).map (·.lexeme) = ["Missing"] := by
  have hrun : ((start {}).compile .empty ⟨"main.pas", "begin uses Missing; end"⟩).1.toOption.map
      (fun compilation => (Stmt.listUnits compilation.program).map (·.lexeme)) =
        some ["Missing"] := by
    decide +kernel
  cases hresult : ((start {}).compile .empty ⟨"main.pas", "begin uses Missing; end"⟩).1 with
  | error failure =>
      rw [hresult] at hrun
      cases hrun
  | ok compilation =>
      rw [hresult] at hrun
      have hleft := (start {}).uses_left_inside .empty _ hresult
      exact ⟨compilation, rfl, hleft.1, Option.some.inj hrun⟩

end MiniPascal
