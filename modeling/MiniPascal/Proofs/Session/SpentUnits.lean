import MiniPascal.Proofs.Session.SplicedStatements

/-!
# Units and calls that fail

A path is taken by the call that includes it first.  A call that yields a program puts the units
that it takes into it.  A call that fails has no program, but what it has taken stays taken: later
calls expand its units to nothing.  So a unit is part of what has been compiled, or it is spent.
-/

namespace MiniPascal

open Stmt (kept)

/-- A source that is fed to a compiler. -/
structure Call where
  before : Compiler
  source : Source

/-- The calls when sources are fed to a compiler one after the other, over the same files. -/
def Compiler.history (c : Compiler) (files : FileTree) : List Source → List Call
  | [] => []
  | source :: rest => ⟨c, source⟩ :: history (c.compile files source).2 files rest

namespace Call

def result (files : FileTree) (call : Call) : Except CompileFailure Compilation :=
  (call.before.compile files call.source).1

def after (files : FileTree) (call : Call) : Compiler :=
  (call.before.compile files call.source).2

def path (call : Call) : String :=
  Path.clean call.source.path

/-- What the source alone is parsed to. -/
def Parses (call : Call) (own : List Stmt) (c : Compiler) : Prop :=
  Compile.parse call.source (call.before.markIncluded call.path) = .ok own c

/-- A path is included by a call, and not before. -/
def Takes (files : FileTree) (call : Call) (path : String) : Prop :=
  path ∉ call.before.included ∧ path ∈ (call.after files).included

/-- A call yields a program in which the unit at a path is put in the place of a `uses`. -/
def Splices (files : FileTree) (call : Call) (path : String) : Prop :=
  ∃ compilation own c paths d, call.result files = .ok compilation ∧ call.Parses own c ∧
    Compile.Splices files call.source.path c own paths compilation.program d ∧ path ∈ paths

/-- A call yields a program with all statements of the text at a path besides `uses`, in their
order: the text of a unit, or that of the source itself. -/
def Supplies (files : FileTree) (call : Call) (path : String) : Prop :=
  ∃ compilation statements, call.result files = .ok compilation ∧
    (kept statements).Sublist compilation.program ∧
    (Compile.ParsedUnit files path statements ∨ path = call.path ∧ ∃ c, call.Parses statements c)

/-- Whether the source alone uses the unit at a path. -/
def names (call : Call) (path : String) : Bool :=
  match Compile.parse call.source (call.before.markIncluded call.path) with
  | .ok own _ => own.any fun
    | .uses _ unit => Compile.unitPath call.source.path unit == path
    | _ => false
  | .error _ _ => false

theorem exists_uses_of_names {call : Call} {path : String} (h : call.names path = true) :
    ∃ own c keyword unit, call.Parses own c ∧ .uses keyword unit ∈ own ∧
      Compile.unitPath call.source.path unit = path := by
  unfold names at h
  split at h
  · next own c hparse =>
      rcases List.any_eq_true.mp h with ⟨statement, hmem, hpath⟩
      split at hpath
      · next keyword unit => exact ⟨own, c, keyword, unit, hparse, hmem, beq_iff_eq.mp hpath⟩
      · cases hpath
  · cases h

/-! ## One call -/

/-- What is included before a call is included behind it. -/
theorem included_mono (files : FileTree) (call : Call) {path : String}
    (h : path ∈ call.before.included) : path ∈ (call.after files).included := by
  rcases call.before.compile_includes files call.source with ⟨paths, -, hafter, -⟩
  exact (hafter path).mpr (.inl h)

/-- A call that yields a program supplies what it takes. -/
theorem Takes.supplies {files : FileTree} {call : Call} {path : String}
    (h : call.Takes files path) {compilation : Compilation}
    (hresult : call.result files = .ok compilation) : call.Supplies files path := by
  rcases call.before.compile_includes files call.source with ⟨paths, -, hafter, hspliced⟩
  rcases hspliced compilation hresult with ⟨own, c, d, hown, hsplices⟩
  rcases hsplices.madeOf with ⟨units, hunits, hmade⟩
  rcases (hafter path).mp h.2 with hbefore | hself | hread
  · exact absurd hbefore h.1
  · exact ⟨compilation, own, hresult, hmade.inOrder own List.mem_cons_self, .inr ⟨hself, c, hown⟩⟩
  · rcases List.mem_iff_getElem.mp hread with ⟨i, hi, rfl⟩
    have hi' : i < units.length := hunits.length_eq ▸ hi
    have hunit : Compile.ParsedUnit files paths[i] units[i] := hunits.get hi hi'
    have hmem : units[i] ∈ own :: units := List.mem_cons_of_mem _ (List.getElem_mem hi')
    exact ⟨compilation, units[i], hresult, hmade.inOrder _ hmem, .inl hunit⟩

theorem Splices.takes {files : FileTree} {call : Call} {path : String}
    (h : call.Splices files path) : call.Takes files path := by
  rcases h with ⟨compilation, own, c, paths', d, hresult, hown, hsplices, hpath⟩
  rcases call.before.compile_includes files call.source with ⟨paths, hnew, hafter, hspliced⟩
  rcases hspliced compilation hresult with ⟨own', c', d', hown', hsplices'⟩
  cases hown.symm.trans hown'
  cases (hsplices.unique hsplices').1
  exact ⟨hnew path hpath, (hafter path).mpr (.inr (.inr hpath))⟩

/-- Behind a call that yields a program the paths of all units that its source uses are included. -/
theorem uses_included {files : FileTree} {call : Call} {compilation : Compilation}
    (hresult : call.result files = .ok compilation) {own : List Stmt} {c : Compiler}
    (hown : call.Parses own c) {keyword unit : Token} (huses : .uses keyword unit ∈ own) :
    Compile.unitPath call.source.path unit ∈ (call.after files).included := by
  rcases call.before.compile_includes files call.source with ⟨paths, -, hafter, hspliced⟩
  rcases hspliced compilation hresult with ⟨own', c', d, hown', hsplices⟩
  cases hown.symm.trans hown'
  have hincluded := (hsplices.mem_included _).mp (hsplices.uses_included huses)
  rw [Compile.parse_included hown, UnitLog.mem_markIncluded, or_assoc] at hincluded
  exact (hafter _).mpr hincluded

end Call

/-! ## Sequences of calls -/

namespace Compiler

/-- What is included before a sequence of calls is taken by none of them. -/
theorem history_not_takes {files : FileTree} {path : String} {sources : List Source} :
    ∀ {c : Compiler}, path ∈ c.included →
      ∀ call ∈ c.history files sources, ¬ call.Takes files path := by
  induction sources with
  | nil =>
      intro c _ call hcall
      cases hcall
  | cons source rest ih =>
      intro c hpath call hcall htakes
      rcases List.mem_cons.mp hcall with rfl | hcall
      · exact htakes.1 hpath
      · have hafter := (⟨c, source⟩ : Call).included_mono files hpath
        exact ih hafter call hcall htakes

/-- A path that gets included is taken by exactly one call. -/
theorem history_takes_once {files : FileTree} {path : String} {sources : List Source} :
    ∀ {c : Compiler} {earlier : List Call} {call : Call},
      c.history files sources = earlier ++ [call] → path ∉ c.included →
      path ∈ (call.after files).included →
      ∃ front taker back, earlier ++ [call] = front ++ taker :: back ∧
        taker.Takes files path ∧ ∀ other ∈ front ++ back, ¬ other.Takes files path := by
  induction sources with
  | nil =>
      intro c earlier call hhistory
      simp [history] at hhistory
  | cons source rest ih =>
      intro c earlier call hhistory hnew hlast
      rw [← hhistory]
      by_cases hfirst : path ∈ (c.compile files source).2.included
      · refine ⟨[], ⟨c, source⟩, _, rfl, ⟨hnew, hfirst⟩, ?_⟩
        exact history_not_takes hfirst
      · cases earlier with
        | nil =>
            rcases List.cons.inj hhistory with ⟨rfl, -⟩
            exact absurd hlast hfirst
        | cons first earlier =>
            have hrest : (c.compile files source).2.history files rest = earlier ++ [call] :=
              (List.cons.inj hhistory).2
            rcases ih hrest hfirst hlast with ⟨front, taker, back, hsplit, htakes, hothers⟩
            refine ⟨⟨c, source⟩ :: front, taker, back, ?_, htakes, ?_⟩
            · rw [history, hrest, hsplit]
              rfl
            · refine List.forall_mem_cons.mpr ⟨fun hother => hfirst hother.2, hothers⟩

/-- Sources are fed to a compiler one after the other.  Once a call yields a program, each unit that
its source uses has been taken by exactly one of the calls so far.  If that one has yielded a
program, then that has the statements of the unit.  If it has failed, the unit is spent: it is put
in place in no program at all. -/
theorem uses_supplied_or_spent (options : CompileOptions) (files : FileTree)
    {sources : List Source} {earlier : List Call} {call : Call} {compilation : Compilation}
    {own : List Stmt} {c : Compiler} {keyword unit : Token}
    (hhistory : (start options).history files sources = earlier ++ [call])
    (hresult : call.result files = .ok compilation) (hown : call.Parses own c)
    (huses : .uses keyword unit ∈ own) :
    let path := Compile.unitPath call.source.path unit
    ∃ front taker back, earlier ++ [call] = front ++ taker :: back ∧
      taker.Takes files path ∧ (∀ other ∈ front ++ back, ¬ other.Takes files path) ∧
      match taker.result files with
      | .ok _ => taker.Supplies files path
      | .error _ => ∀ other ∈ earlier ++ [call], ¬ other.Splices files path := by
  intro path
  have hincluded : path ∈ (call.after files).included := Call.uses_included hresult hown huses
  rcases history_takes_once hhistory (by simp [start]) hincluded with
    ⟨front, taker, back, hsplit, htakes, hothers⟩
  refine ⟨front, taker, back, hsplit, htakes, hothers, ?_⟩
  cases htaker : taker.result files with
  | ok yielded => exact htakes.supplies htaker
  | error failure =>
      intro other hother hsplices
      rw [hsplit, List.mem_append, List.mem_cons] at hother
      rcases hother with hother | rfl | hother
      · exact hothers other (List.mem_append_left _ hother) hsplices.takes
      · rcases hsplices with ⟨yielded, _, _, _, _, hyielded, -⟩
        cases hyielded.symm.trans htaker
      · exact hothers other (List.mem_append_right _ hother) hsplices.takes

def spentFiles : FileTree :=
  .ofFiles [] [("U.pas", .text "print 1;")]

/-- The first call fails for the missing unit.  The second one yields the empty program, and no
program has the unit. -/
theorem uses_supplied_or_spent_missing :
    let calls := (start {}).history spentFiles
      [⟨"REPL", "uses U; uses Missing;"⟩, ⟨"REPL", "uses U;"⟩]
    calls.map (fun call => (call.result spentFiles).toOption.map (·.program.length)) =
        [none, some 0] ∧
      ∀ call ∈ calls, ¬ call.Splices spentFiles "U.pas" := by
  intro calls
  refine ⟨by decide +kernel, ?_⟩
  let first : Call := ⟨start {}, ⟨"REPL", "uses U; uses Missing;"⟩⟩
  let second : Call := ⟨first.after spentFiles, ⟨"REPL", "uses U;"⟩⟩
  have hhistory : (start {}).history spentFiles [first.source, second.source] =
      [first] ++ [second] := rfl
  have htaken : first.Takes spentFiles "U.pas" := by
    constructor <;> decide +kernel
  have hfirst : (first.result spentFiles).toOption.isNone = true := by decide +kernel
  have hsecond : (second.result spentFiles).toOption.isSome = true := by decide +kernel
  have hnames : second.names "U.pas" = true := by decide +kernel
  rcases Call.exists_uses_of_names hnames with ⟨own, c, keyword, unit, hown, huses, hpath⟩
  cases hresult : second.result spentFiles with
  | error failure =>
      rw [hresult] at hsecond
      cases hsecond
  | ok compilation =>
      rcases uses_supplied_or_spent {} spentFiles hhistory hresult hown huses with
        ⟨front, taker, back, hsplit, -, hothers, houtcome⟩
      rw [hpath] at hothers houtcome
      -- The unit is taken by the first call, so that is the one that the theorem speaks about.
      cases front with
      | cons other front =>
          rcases List.cons.inj hsplit with ⟨rfl, -⟩
          exact absurd htaken (hothers _ List.mem_cons_self)
      | nil =>
          rcases List.cons.inj hsplit with ⟨rfl, -⟩
          cases htaker : first.result spentFiles with
          | ok yielded =>
              rw [htaker] at hfirst
              cases hfirst
          | error failure =>
              rw [htaker] at houtcome
              exact houtcome

end Compiler

end MiniPascal
