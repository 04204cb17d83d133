import MiniPascal.Compiler

/-!
# A log of the units that are read

Compiling once more, with a note of every path at which a unit is read.  Without the log it is the
same compiling.
-/

namespace MiniPascal

/-- A compiler with the paths of the units it has read or tried to read, in order. -/
structure UnitLog where
  compiler : Compiler
  reads : List String

/-- A stage of compiling that keeps a log. -/
abbrev Logged := EStateM CompileFailure UnitLog

namespace Logged

def keep (x : Compile α) : Logged α := fun log =>
  match x log.compiler with
  | .ok value c => .ok value { log with compiler := c }
  | .error failure c => .error failure { log with compiler := c }

def read (files : FileTree) (path : String) : Logged (Except ReadFault String) := do
  modify fun log => { log with reads := log.reads ++ [path] }
  return files.read path

def expandWith (expand : Token → Logged Compile.Expansion) : List Stmt → Logged Compile.Expansion
  | [] => pure { statements := [], missing := false }
  | .uses _ unit :: rest => do
      let here ← expand unit
      let others ← expandWith expand rest
      return { statements := here.statements ++ others.statements
               missing := here.missing || others.missing }
  | statement :: rest => do
      let others ← expandWith expand rest
      return { others with statements := statement :: others.statements }

/-- Expands a unit that is used by a source at the path `including`. -/
def expandUnit (files : FileTree) : Nat → String → Token → Logged Compile.Expansion
  | 0, _, _ => throw .starved
  | fuel + 1, including, unit => do
      let path := Compile.unitPath including unit
      if (← keep get).included.contains path then
        return { statements := [], missing := false }
      else
        keep (modify (·.markIncluded path))
        match ← read files path with
        | .error _ =>
            keep (modify (·.report [.errorAt unit ("Unable to read unit '" ++ unit.lexeme ++ "'")]))
            return { statements := [], missing := true }
        | .ok text =>
            let statements ← keep (Compile.parse { path, text })
            expandWith (expandUnit files fuel path) statements

def parseAll (files : FileTree) (source : Source) : Logged (List Stmt) := do
  keep (modify (·.markIncluded (Path.clean source.path)))
  let statements ← keep (Compile.parse source)
  let expansion ← expandWith (expandUnit files (files.size + 2) source.path) statements
  if expansion.missing then throw .parsing else return expansion.statements

def compile (files : FileTree) (source : Source) : Logged Compilation := do
  let program ← parseAll files source
  keep do
    let locals ← Compile.resolve program
    Compile.checkTypes program
    return { program, locals }

/-! ## Without the log -/

def forget : EStateM.Result CompileFailure UnitLog α → EStateM.Result CompileFailure Compiler α
  | .ok value log => .ok value log.compiler
  | .error failure log => .error failure log.compiler

/-- Without its log, `x` is `y`. -/
def Erases (x : Logged α) (y : Compile α) : Prop :=
  ∀ log, forget (x log) = y log.compiler

namespace Erases

theorem keep (y : Compile α) : Erases (Logged.keep y) y := by
  intro log
  unfold Logged.keep
  cases y log.compiler with
  | ok value c => rfl
  | error failure c => rfl

theorem pure (value : α) : Erases (Pure.pure value) (Pure.pure value) := by
  intro log
  rfl

theorem throw (failure : CompileFailure) :
    Erases (MonadExcept.throw failure : Logged α) (MonadExcept.throw failure) := by
  intro log
  rfl

theorem bind {x : Logged α} {y : Compile α} {f : α → Logged β} {g : α → Compile β}
    (hx : Erases x y) (hf : ∀ value, Erases (f value) (g value)) :
    Erases (x >>= f) (y >>= g) := by
  intro log
  have hfirst := hx log
  show forget (EStateM.bind x f log) = EStateM.bind y g log.compiler
  unfold EStateM.bind
  cases hrun : x log with
  | ok value log' =>
      rw [hrun] at hfirst
      rw [← hfirst]
      exact hf value log'
  | error failure log' =>
      rw [hrun] at hfirst
      rw [← hfirst]
      rfl

theorem read {f : Except ReadFault String → Logged α} {y : Compile α} (files : FileTree)
    (path : String) (hf : Erases (f (files.read path)) y) :
    Erases (Logged.read files path >>= f) y := by
  intro log
  exact hf { log with reads := log.reads ++ [path] }

end Erases

theorem expandWith_erases {expand : Token → Logged Compile.Expansion}
    {plain : Token → Compile Compile.Expansion} (h : ∀ unit, Erases (expand unit) (plain unit)) :
    ∀ statements, Erases (expandWith expand statements) (Compile.expandWith plain statements) := by
  intro statements
  induction statements with
  | nil => exact Erases.pure _
  | cons statement rest ih =>
      cases statement with
      | uses keyword unit => exact (h unit).bind fun _ => ih.bind fun _ => Erases.pure _
      | _ => exact ih.bind fun _ => Erases.pure _

theorem expandUnit_erases (files : FileTree) : ∀ fuel including unit,
    Erases (expandUnit files fuel including unit)
      (Compile.expandUnit files fuel including unit) := by
  intro fuel
  induction fuel with
  | zero =>
      intro including unit
      exact Erases.throw _
  | succ fuel ih =>
      intro including unit
      refine (Erases.keep get).bind fun c => ?_
      split
      · exact Erases.pure _
      · refine (Erases.keep _).bind fun _ => Erases.read files _ ?_
        cases files.read (Compile.unitPath including unit) with
        | error fault => exact (Erases.keep _).bind fun _ => Erases.pure _
        | ok text => exact (Erases.keep _).bind fun statements => expandWith_erases (ih _) statements

theorem compile_erases (files : FileTree) (source : Source) :
    Erases (compile files source) (Compile.compile files source) := by
  have hparse : Erases (parseAll files source) (Compile.parseAll files source) := by
    refine (Erases.keep _).bind fun _ => (Erases.keep _).bind fun statements => ?_
    refine (expandWith_erases (expandUnit_erases files _ _) statements).bind fun expansion => ?_
    split
    · exact Erases.throw _
    · exact Erases.pure _
  exact hparse.bind fun program => Erases.keep _

end Logged

namespace UnitLog

def start (options : CompileOptions) : UnitLog where
  compiler := .start options
  reads := []

def compile (log : UnitLog) (files : FileTree) (source : Source) :
    Except CompileFailure Compilation × UnitLog :=
  match Logged.compile files source log with
  | .ok compilation log => (.ok compilation, log)
  | .error failure log => (.error failure, log)

def compileAll (log : UnitLog) (calls : List (FileTree × Source)) : UnitLog :=
  calls.foldl (fun log call => (log.compile call.1 call.2).2) log

/-- Without the log a source is compiled as by the compiler alone. -/
theorem compile_forget (log : UnitLog) (files : FileTree) (source : Source) :
    ((log.compile files source).1, (log.compile files source).2.compiler) =
      log.compiler.compile files source := by
  have hrun := Logged.compile_erases files source log
  unfold compile
  rw [Compiler.compile_run, ← hrun]
  cases Logged.compile files source log with
  | ok compilation log' => rfl
  | error failure log' => rfl

end UnitLog

def Compiler.compileAll (c : Compiler) (calls : List (FileTree × Source)) : Compiler :=
  calls.foldl (fun c call => (c.compile call.1 call.2).2) c

theorem UnitLog.compileAll_forget (calls : List (FileTree × Source)) :
    ∀ log : UnitLog, (log.compileAll calls).compiler = log.compiler.compileAll calls := by
  induction calls with
  | nil =>
      intro log
      rfl
  | cons call rest ih =>
      intro log
      have hcall : (log.compile call.1 call.2).2.compiler =
          (log.compiler.compile call.1 call.2).2 :=
        congrArg Prod.snd (log.compile_forget call.1 call.2)
      exact (ih _).trans (congrArg (Compiler.compileAll · rest) hcall)

end MiniPascal
