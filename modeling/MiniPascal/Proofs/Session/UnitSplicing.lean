import MiniPascal.Proofs.Files.CleanPaths
import MiniPascal.Proofs.Session.Compilation
import MiniPascal.Proofs.Session.UnitLog

/-!
# Units are spliced once

Every `uses` of a program stands for the statements of its unit the first time, and for nothing ever
after.  The units that are being expanded at one time are distinct files of one directory, so their
expansion comes to an end however they use each other.
-/

namespace MiniPascal

/-! ## The paths of units -/

namespace Compile

/-- The directory in which the units of a source are found. -/
def unitDirectory (including : String) : List PathPart :=
  Path.cleanParts (Path.directory including)

def unitFile (unit : Token) : String :=
  unit.lexeme ++ "." ++ unitExtension

theorem cleanStack_unitDirectory (including : String) :
    Path.CleanStack (unitDirectory including).reverse :=
  Path.cleanStack_cleanParts (Path.regular_directory including)

theorem isName_unitFile {unit : Token} (h : '/' ∉ unit.lexeme.toList) :
    Path.IsName (unitFile unit) := by
  have htext : (unitFile unit).toList = unit.lexeme.toList ++ ['.', 'p', 'a', 's'] := by
    unfold unitFile
    rw [String.toList_append, String.toList_append, List.append_assoc]
    rfl
  have hother {text : String} (hshort : text.toList.length < 4) : unitFile unit ≠ text := by
    intro heq
    have hlength := congrArg (fun name : String => name.toList.length) heq
    simp only [htext, List.length_append, List.length_cons, List.length_nil] at hlength
    omega
  refine ⟨?_, hother (by decide), hother (by decide), hother (by decide)⟩
  rw [htext, List.mem_append, not_or]
  exact ⟨h, by decide⟩

theorem unitPath_eq (including : String) (unit : Token) :
    unitPath including unit =
      Path.render (unitDirectory including ++ [.normal (unitFile unit)]) := by
  have hclean : Path.cleanParts (Path.directory including ++ [.normal (unitFile unit)]) =
      unitDirectory including ++ [.normal (unitFile unit)] := by
    unfold unitDirectory Path.cleanParts
    rw [List.foldl_append, ← List.reverse_cons]
    rfl
  unfold unitPath Path.cleanText
  unfold unitFile at hclean ⊢
  rw [hclean]
  split
  · next hnil => exact absurd hnil (by simp)
  · rfl

theorem unitDirectory_unitPath (including : String) {unit : Token}
    (h : '/' ∉ unit.lexeme.toList) :
    unitDirectory (unitPath including unit) = unitDirectory including := by
  have hstack := cleanStack_unitDirectory including
  have hparts : Path.parts (unitPath including unit) =
      unitDirectory including ++ [.normal (unitFile unit)] := by
    rw [unitPath_eq]
    refine Path.parts_render ?_
    rw [List.reverse_append]
    exact .name hstack (isName_unitFile h)
  have hclean := Path.cleanParts_of_clean hstack
  rw [List.reverse_reverse] at hclean
  conv_lhs => unfold unitDirectory
  unfold Path.directory
  rw [hparts, List.reverse_append]
  simpa using hclean

theorem mem_entries_of_unit {files : FileTree} {including text : String} {unit : Token}
    (hunit : '/' ∉ unit.lexeme.toList) (h : files.read (unitPath including unit) = .ok text) :
    ∃ front, front ++ [unitFile unit] ∈ files.entries.map Prod.fst := by
  rw [unitPath_eq] at h
  have hname := isName_unitFile hunit
  rcases Path.pieces_render (cleanStack_unitDirectory including) hname with ⟨before, hpieces⟩
  exact FileTree.mem_entries_of_read hpieces hname h

/-! ## Parsing a unit -/

theorem scan_slashless (source : Source) : ∀ token ∈ (Lexer.scan source).tokens,
    token.kind = .identifier → '/' ∉ token.lexeme.toList :=
  fun _ htoken hname => not_mem_of_identifier (by decide +kernel) htoken hname

/-- Parsing includes nothing, never starves, and yields proper names of units. -/
theorem parse_cases (source : Source) (c : Compiler) :
    match parse source c with
    | .ok statements d => d.included = c.included ∧
        ∀ keyword unit, .uses keyword unit ∈ statements → '/' ∉ unit.lexeme.toList
    | .error failure d => d.included = c.included ∧ failure ≠ .starved := by
  have hlast := Lexer.last_kind source
  rw [parse_run]
  dsimp only
  cases hparsed : (parseProgram c.options.recovery c.nextId (Lexer.scan source)).result with
  | error stop =>
      cases stop with
      | fault error => exact ⟨rfl, by simp⟩
      | starved => exact absurd hparsed (parseProgram_ne_starved hlast)
  | ok statements =>
      dsimp only
      split
      · next d hrun =>
          split at hrun
          · cases hrun
          · cases hrun
            refine ⟨rfl, fun keyword unit hmem => ?_⟩
            have hnumbered := parseProgram_numbered (N := fun name => '/' ∉ name.toList) hlast
              (scan_slashless source) hparsed
            exact hnumbered.tidy.mem hmem
      · next failure d hrun =>
          split at hrun
          · cases hrun
            exact ⟨rfl, by simp⟩
          · cases hrun

/-- Behind the parser nothing is included, and nothing starves. -/
theorem finish_cases (program : List Stmt) (c : Compiler) :
    match (do
      let locals ← resolve program
      checkTypes program
      return { program, locals } : Compile Compilation) c with
    | .ok compilation d => d.included = c.included ∧ compilation.program = program
    | .error failure d => d.included = c.included ∧ failure ≠ .starved := by
  dsimp only [bind, EStateM.bind, pure, EStateM.pure]
  rw [resolve_run]
  dsimp only
  by_cases hresolution : Diagnostic.anyError (Resolution.program program).diagnostics = true
  · rw [if_pos hresolution]
    exact ⟨rfl, by simp⟩
  rw [if_neg hresolution]
  dsimp only
  rw [checkTypes_run]
  dsimp only
  split
  · next compilation d hrun =>
      split at hrun
      · next htypes =>
          split at htypes
          · split at htypes <;> cases htypes
            cases hrun
            exact ⟨rfl, rfl⟩
          · cases htypes
            cases hrun
            exact ⟨rfl, rfl⟩
      · cases hrun
  · next failure d hrun =>
      split at hrun
      · cases hrun
      · next htypes =>
          cases hrun
          split at htypes
          · split at htypes <;> cases htypes
            exact ⟨rfl, by simp⟩
          · cases htypes

/-! ## The splice -/

mutual

/-- What a `uses` stands for: nothing if its path is included, and else the statements of the unit
that is read there, with all units in them in place.  The paths are those that are read. -/
inductive SplicesUnit (files : FileTree) :
    String → Compiler → Token → List String → List Stmt → Compiler → Prop where
  | again {including : String} {c : Compiler} {unit : Token}
      (h : unitPath including unit ∈ c.included) :
      SplicesUnit files including c unit [] [] c
  | first {including : String} {c c₁ c₂ : Compiler} {unit : Token} {text : String}
      {statements program : List Stmt} {paths : List String}
      (hnew : unitPath including unit ∉ c.included)
      (hread : files.read (unitPath including unit) = .ok text)
      (hparse : parse ⟨unitPath including unit, text⟩
        (c.markIncluded (unitPath including unit)) = .ok statements c₁)
      (h : Splices files (unitPath including unit) c₁ statements paths program c₂) :
      SplicesUnit files including c unit (unitPath including unit :: paths) program c₂

/-- The depth-first splice of units into statements of a source, in order. -/
inductive Splices (files : FileTree) :
    String → Compiler → List Stmt → List String → List Stmt → Compiler → Prop where
  | nil {including : String} {c : Compiler} : Splices files including c [] [] [] c
  | kept {including : String} {c c₁ : Compiler} {statement : Stmt} {rest program : List Stmt}
      {paths : List String} (hkept : ∀ keyword unit, statement ≠ .uses keyword unit)
      (h : Splices files including c rest paths program c₁) :
      Splices files including c (statement :: rest) paths (statement :: program) c₁
  | uses {including : String} {c c₁ c₂ : Compiler} {keyword unit : Token}
      {rest here program : List Stmt} {paths morePaths : List String}
      (hunit : SplicesUnit files including c unit paths here c₁)
      (h : Splices files including c₁ rest morePaths program c₂) :
      Splices files including c (.uses keyword unit :: rest) (paths ++ morePaths)
        (here ++ program) c₂

end

mutual

/-- There is no more than one way to put a unit in place. -/
theorem SplicesUnit.unique {files : FileTree} {including : String} {c c₁ c₂ : Compiler}
    {unit : Token} {paths paths' : List String} {program program' : List Stmt} :
    SplicesUnit files including c unit paths program c₁ →
      SplicesUnit files including c unit paths' program' c₂ →
      paths = paths' ∧ program = program' ∧ c₁ = c₂
  | .again _, .again _ => ⟨rfl, rfl, rfl⟩
  | .again h, .first hnew _ _ _ => absurd h hnew
  | .first hnew _ _ _, .again h => absurd h hnew
  | .first _ hread hparse h, .first _ hread' hparse' h' => by
      cases hread.symm.trans hread'
      cases hparse.symm.trans hparse'
      rcases h.unique h' with ⟨rfl, rfl, rfl⟩
      exact ⟨rfl, rfl, rfl⟩

/-- There is no more than one splice. -/
theorem Splices.unique {files : FileTree} {including : String} {c c₁ c₂ : Compiler}
    {statements : List Stmt} {paths paths' : List String} {program program' : List Stmt} :
    Splices files including c statements paths program c₁ →
      Splices files including c statements paths' program' c₂ →
      paths = paths' ∧ program = program' ∧ c₁ = c₂
  | .nil, .nil => ⟨rfl, rfl, rfl⟩
  | .kept _ h, .kept _ h' => by
      rcases h.unique h' with ⟨rfl, rfl, rfl⟩
      exact ⟨rfl, rfl, rfl⟩
  | .kept hkept _, .uses _ _ => absurd rfl (hkept _ _)
  | .uses _ _, .kept hkept _ => absurd rfl (hkept _ _)
  | .uses hunit h, .uses hunit' h' => by
      rcases hunit.unique hunit' with ⟨rfl, rfl, rfl⟩
      rcases h.unique h' with ⟨rfl, rfl, rfl⟩
      exact ⟨rfl, rfl, rfl⟩

end

end Compile

/-! ## What is read -/

namespace UnitLog

/-- The log when a source is taken as included. -/
def mark (log : UnitLog) (source : Source) : UnitLog :=
  { log with compiler := log.compiler.markIncluded (Path.clean source.path) }

/-- From one state of a log to another, new paths have been read and included. -/
structure Adds (log : UnitLog) (paths : List String) (log' : UnitLog) : Prop where
  reads : log'.reads = log.reads ++ paths
  included : ∀ path, path ∈ log'.compiler.included ↔ path ∈ log.compiler.included ∨ path ∈ paths
  nodup : paths.Nodup
  new : ∀ path ∈ paths, path ∉ log.compiler.included

namespace Adds

theorem none {log log' : UnitLog} (hreads : log'.reads = log.reads)
    (hincluded : log'.compiler.included = log.compiler.included) : Adds log [] log' where
  reads := by rw [hreads, List.append_nil]
  included := by simp [hincluded]
  nodup := List.nodup_nil
  new := List.forall_mem_nil _

theorem refl (log : UnitLog) : Adds log [] log :=
  .none rfl rfl

theorem trans {log log' log'' : UnitLog} {paths more : List String} (h : Adds log paths log')
    (h' : Adds log' more log'') : Adds log (paths ++ more) log'' where
  reads := by rw [h'.reads, h.reads, List.append_assoc]
  included := by
    intro path
    rw [h'.included, h.included, List.mem_append, or_assoc]
  nodup := by
    refine List.nodup_append.mpr ⟨h.nodup, h'.nodup, fun path hpath other hother heq => ?_⟩
    exact h'.new other hother ((h.included other).mpr (.inr (heq ▸ hpath)))
  new := by
    intro path hpath hincluded
    rcases List.mem_append.mp hpath with hpath | hpath
    · exact h.new path hpath hincluded
    · exact h'.new path hpath ((h.included path).mpr (.inl hincluded))

theorem single {log : UnitLog} {path : String} (h : path ∉ log.compiler.included) :
    Adds log [path] ⟨log.compiler.markIncluded path, log.reads ++ [path]⟩ where
  reads := rfl
  included := by
    intro other
    simp [Compiler.markIncluded, h, or_comm]
  nodup := by simp
  new := List.forall_mem_singleton.mpr h

end Adds

end UnitLog

namespace Logged

open Compile (unitPath unitDirectory unitFile SplicesUnit Splices)

/-- How an expansion ends: it never starves, it reads what is new, and unless a unit is missing its
statements are related to what is read by `Q`. -/
def Ends (Q : List String → List Stmt → Compiler → Prop) (log : UnitLog) :
    EStateM.Result CompileFailure UnitLog Compile.Expansion → Prop
  | .ok expansion log' => ∃ paths, log.Adds paths log' ∧
      (expansion.missing = false → Q paths expansion.statements log'.compiler)
  | .error failure log' => failure ≠ .starved ∧ ∃ paths, log.Adds paths log'

theorem bind_run (x : Logged α) (f : α → Logged β) (log : UnitLog) :
    (x >>= f) log =
      match x log with
      | .ok value log' => f value log'
      | .error failure log' => .error failure log' := by
  show EStateM.bind x f log = _
  unfold EStateM.bind
  cases x log <;> rfl

theorem Ends.after {Q R : List String → List Stmt → Compiler → Prop} {log log' : UnitLog}
    {paths : List String} (hadds : log.Adds paths log')
    (hQR : ∀ more statements c, Q more statements c → R (paths ++ more) statements c)
    {result : EStateM.Result CompileFailure UnitLog Compile.Expansion} (h : Ends Q log' result) :
    Ends R log result := by
  cases result with
  | ok expansion log'' =>
      rcases h with ⟨more, hmore, hQ⟩
      exact ⟨paths ++ more, hadds.trans hmore, fun hall => hQR _ _ _ (hQ hall)⟩
  | error failure log'' =>
      rcases h with ⟨hfailure, more, hmore⟩
      exact ⟨hfailure, paths ++ more, hadds.trans hmore⟩

theorem Ends.bind {Q R : List String → List Stmt → Compiler → Prop} {log : UnitLog}
    {x : Logged Compile.Expansion} {f : Compile.Expansion → Logged Compile.Expansion}
    (hx : Ends Q log (x log))
    (hf : ∀ first log' paths, log.Adds paths log' →
      (first.missing = false → Q paths first.statements log'.compiler) →
      Ends (fun more => R (paths ++ more)) log' (f first log')) :
    Ends R log ((x >>= f) log) := by
  rw [bind_run]
  cases hrun : x log with
  | ok first log' =>
      rw [hrun] at hx
      rcases hx with ⟨paths, hadds, hfirst⟩
      exact (hf first log' paths hadds hfirst).after hadds fun _ _ _ h => h
  | error failure log' =>
      rw [hrun] at hx
      exact hx

theorem Ends.map {Q R : List String → List Stmt → Compiler → Prop} {log : UnitLog}
    {x : Logged Compile.Expansion} {change : Compile.Expansion → Compile.Expansion}
    (hx : Ends Q log (x log))
    (hchange : ∀ expansion paths c, (expansion.missing = false → Q paths expansion.statements c) →
      (change expansion).missing = false → R paths (change expansion).statements c) :
    Ends R log ((x >>= fun expansion => return change expansion) log) := by
  refine hx.bind fun expansion log' paths _ hQ => ?_
  refine ⟨[], .refl log', fun hall => ?_⟩
  have hpaths := hchange expansion paths log'.compiler hQ hall
  rwa [← List.append_nil paths] at hpaths

theorem expandWith_ends {files : FileTree} {including : String}
    {expand : Token → Logged Compile.Expansion} (opened : List String)
    (hexpand : ∀ unit log, '/' ∉ unit.lexeme.toList →
      (∀ path ∈ opened, path ∈ log.compiler.included) →
      Ends (SplicesUnit files including log.compiler unit) log (expand unit log)) :
    ∀ (statements : List Stmt) (log : UnitLog),
      (∀ keyword unit, .uses keyword unit ∈ statements → '/' ∉ unit.lexeme.toList) →
      (∀ path ∈ opened, path ∈ log.compiler.included) →
      Ends (Splices files including log.compiler statements) log
        (expandWith expand statements log) := by
  intro statements
  induction statements with
  | nil =>
      intro log _ _
      exact ⟨[], .refl log, fun _ => .nil⟩
  | cons statement rest ih =>
      intro log hunits hopened
      have hrest : ∀ keyword unit, .uses keyword unit ∈ rest → '/' ∉ unit.lexeme.toList :=
        fun keyword unit hmem => hunits keyword unit (List.mem_cons_of_mem _ hmem)
      have hkept (hother : ∀ keyword unit, statement ≠ .uses keyword unit) :
          Ends (Splices files including log.compiler (statement :: rest)) log
            ((do
              let others ← expandWith expand rest
              return { others with statements := statement :: others.statements } :
              Logged Compile.Expansion) log) :=
        (ih log hrest hopened).map fun _ _ _ hsplices hall => .kept hother (hsplices hall)
      cases statement with
      | uses keyword unit =>
          refine (hexpand unit log (hunits keyword unit List.mem_cons_self) hopened).bind
            fun here log' paths hadds hunit => ?_
          refine (ih log' hrest fun path hpath => ?_).map fun others more c hsplices hall => ?_
          · exact (hadds.included path).mpr (.inl (hopened path hpath))
          · rcases Bool.or_eq_false_iff.mp hall with ⟨hhere, hothers⟩
            exact .uses (hunit hhere) (hsplices hothers)
      | _ => exact hkept (by simp)

/-! ## Units within units -/

/-- The names of the units that are being expanded, all of one directory: they are distinct, and
each is the name of a file. -/
structure Opened (files : FileTree) (names : List String) : Prop where
  nodup : names.Nodup
  readable : ∀ name ∈ names, ∃ front, front ++ [name] ∈ files.entries.map Prod.fst

theorem Opened.cons {files : FileTree} {names : List String} {including text : String}
    {unit : Token} (h : Opened files names) (hunit : '/' ∉ unit.lexeme.toList)
    (hread : files.read (unitPath including unit) = .ok text) (hnew : unitFile unit ∉ names) :
    Opened files (unitFile unit :: names) where
  nodup := List.nodup_cons.mpr ⟨hnew, h.nodup⟩
  readable := List.forall_mem_cons.mpr ⟨Compile.mem_entries_of_unit hunit hread, h.readable⟩

theorem Opened.length_le {files : FileTree} {names : List String} (h : Opened files names) :
    names.length ≤ files.size := by
  have hsubset : names ⊆ (files.entries.map Prod.fst).filterMap List.getLast? := by
    intro name hname
    rcases h.readable name hname with ⟨front, hfront⟩
    exact List.mem_filterMap.mpr ⟨front ++ [name], hfront, by simp⟩
  calc names.length
      ≤ ((files.entries.map Prod.fst).filterMap List.getLast?).length :=
        h.nodup.length_le_of_subset hsubset
    _ ≤ (files.entries.map Prod.fst).length := List.length_filterMap_le _ _
    _ = files.size := List.length_map _

theorem expandUnit_run (files : FileTree) (fuel : Nat) (including : String) (unit : Token)
    (log : UnitLog) :
    expandUnit files (fuel + 1) including unit log =
      let path := unitPath including unit
      let marked := log.compiler.markIncluded path
      let reads := log.reads ++ [path]
      if log.compiler.included.contains path then .ok ⟨[], false⟩ log
      else
        match files.read path with
        | .error _ =>
            .ok ⟨[], true⟩ ⟨marked.report
              [.errorAt unit ("Unable to read unit '" ++ unit.lexeme ++ "'")], reads⟩
        | .ok text =>
            match Compile.parse ⟨path, text⟩ marked with
            | .ok statements c =>
                expandWith (expandUnit files fuel path) statements ⟨c, reads⟩
            | .error failure c => .error failure ⟨c, reads⟩ := by
  rw [expandUnit, bind_run]
  dsimp only [keep, get, getThe, MonadStateOf.get, EStateM.get]
  split
  · rfl
  · rw [bind_run]
    dsimp only [keep, modify, modifyGet, MonadStateOf.modifyGet, EStateM.modifyGet]
    rw [bind_run]
    dsimp only [read, bind, EStateM.bind, pure, EStateM.pure, modify, modifyGet,
      MonadStateOf.modifyGet, EStateM.modifyGet]
    cases files.read (unitPath including unit) with
    | error fault => rfl
    | ok text =>
        dsimp only [EStateM.bind, keep]
        cases Compile.parse ⟨unitPath including unit, text⟩
          (log.compiler.markIncluded (unitPath including unit)) <;> rfl

/-- However units use each other, their expansion ends: the fuel is more than what is left of the
files of their directory. -/
theorem expandUnit_ends (files : FileTree) (directory : List PathPart) :
    ∀ (fuel : Nat) (names : List String) (including : String) (unit : Token) (log : UnitLog),
      unitDirectory including = directory → '/' ∉ unit.lexeme.toList → Opened files names →
      (∀ name ∈ names, Path.render (directory ++ [.normal name]) ∈ log.compiler.included) →
      files.size < fuel + names.length →
      Ends (SplicesUnit files including log.compiler unit) log
        (expandUnit files fuel including unit log) := by
  intro fuel
  induction fuel with
  | zero =>
      intro names including unit log _ _ hopened _ hfuel
      have hlength := hopened.length_le
      omega
  | succ fuel ih =>
      intro names including unit log hdirectory hunit hopened hincluded hfuel
      rw [expandUnit_run]
      dsimp only
      by_cases hagain : unitPath including unit ∈ log.compiler.included
      · rw [if_pos (by simpa using hagain)]
        exact ⟨[], .refl log, fun _ => .again hagain⟩
      · rw [if_neg (by simpa using hagain)]
        have hsingle := UnitLog.Adds.single hagain
        cases hread : files.read (unitPath including unit) with
        | error fault =>
            refine ⟨[unitPath including unit], hsingle.trans (.none rfl rfl), fun hall => ?_⟩
            cases hall
        | ok text =>
            have hparse := Compile.parse_cases ⟨unitPath including unit, text⟩
              (log.compiler.markIncluded (unitPath including unit))
            dsimp only
            cases hrun : Compile.parse ⟨unitPath including unit, text⟩
                (log.compiler.markIncluded (unitPath including unit)) with
            | error failure c =>
                rw [hrun] at hparse
                exact ⟨hparse.2, _, hsingle.trans (.none rfl hparse.1)⟩
            | ok statements c =>
                rw [hrun] at hparse
                have hadds : log.Adds [unitPath including unit]
                    ⟨c, log.reads ++ [unitPath including unit]⟩ :=
                  hsingle.trans (.none rfl hparse.1)
                have hpath : unitPath including unit =
                    Path.render (directory ++ [.normal (unitFile unit)]) := by
                  rw [Compile.unitPath_eq, hdirectory]
                have hopened' : Opened files (unitFile unit :: names) :=
                  hopened.cons hunit hread fun hmem => hagain (hpath ▸ hincluded _ hmem)
                have hinner : Ends (Splices files (unitPath including unit) c statements)
                    ⟨c, log.reads ++ [unitPath including unit]⟩
                    (expandWith (expandUnit files fuel (unitPath including unit)) statements
                      ⟨c, log.reads ++ [unitPath including unit]⟩) := by
                  refine expandWith_ends ((unitFile unit :: names).map fun name =>
                    Path.render (directory ++ [.normal name])) ?_ statements _ hparse.2 ?_
                  · intro other log' hother hlog'
                    refine ih (unitFile unit :: names) _ other log' ?_ hother hopened' ?_ ?_
                    · rw [Compile.unitDirectory_unitPath including hunit, hdirectory]
                    · intro name hname
                      exact hlog' _ (List.mem_map_of_mem hname)
                    · rw [List.length_cons]
                      omega
                  · intro path hmem
                    rcases List.mem_map.mp hmem with ⟨name, hname, rfl⟩
                    refine (hadds.included _).mpr ?_
                    rcases List.mem_cons.mp hname with rfl | hname
                    · exact .inr (hpath ▸ List.mem_cons_self)
                    · exact .inl (hincluded name hname)
                exact hinner.after hadds fun more program d hsplices =>
                  .first hagain hread hrun hsplices

/-! ## Compilations -/

theorem parseAll_ends (files : FileTree) (source : Source) (log : UnitLog) :
    match parseAll files source log with
    | .ok program log' => ∃ own c₁ paths, (log.mark source).Adds paths log' ∧
        Compile.parse source (log.mark source).compiler = .ok own c₁ ∧
        Splices files source.path c₁ own paths program log'.compiler
    | .error failure log' => failure ≠ .starved ∧ ∃ paths, (log.mark source).Adds paths log' := by
  have hrun : parseAll files source log =
      match Compile.parse source (log.mark source).compiler with
      | .ok own c₁ => (do
          let expansion ← expandWith (expandUnit files (files.size + 2) source.path) own
          if expansion.missing then throw .parsing else return expansion.statements :
          Logged (List Stmt)) ⟨c₁, log.reads⟩
      | .error failure c₁ => .error failure ⟨c₁, log.reads⟩ := by
    unfold parseAll
    rw [bind_run]
    dsimp only [keep, modify, modifyGet, MonadStateOf.modifyGet, EStateM.modifyGet]
    rw [bind_run]
    dsimp only [keep, UnitLog.mark]
    cases Compile.parse source (log.compiler.markIncluded (Path.clean source.path)) <;> rfl
  have hparse := Compile.parse_cases source (log.mark source).compiler
  rw [hrun]
  cases hown : Compile.parse source (log.mark source).compiler with
  | error failure c₁ =>
      rw [hown] at hparse
      exact ⟨hparse.2, [], .none rfl hparse.1⟩
  | ok own c₁ =>
      rw [hown] at hparse
      have hadds : (log.mark source).Adds [] ⟨c₁, log.reads⟩ := .none rfl hparse.1
      have hexpands := expandWith_ends [] (fun unit log' hunit _ => expandUnit_ends files _
        (files.size + 2) [] source.path unit log' rfl hunit ⟨List.nodup_nil, by simp⟩ (by simp)
        (by simp)) own ⟨c₁, log.reads⟩ hparse.2 (by simp)
      dsimp only
      rw [bind_run]
      cases hexpansion : expandWith (expandUnit files (files.size + 2) source.path) own
          ⟨c₁, log.reads⟩ with
      | error failure log' =>
          rw [hexpansion] at hexpands
          rcases hexpands with ⟨hfailure, paths, hpaths⟩
          exact ⟨hfailure, paths, hadds.trans hpaths⟩
      | ok expansion log' =>
          rw [hexpansion] at hexpands
          rcases hexpands with ⟨paths, hpaths, hsplices⟩
          dsimp only
          by_cases hmissing : expansion.missing = true
          · rw [if_pos hmissing]
            exact ⟨by simp, paths, hadds.trans hpaths⟩
          · rw [if_neg hmissing]
            exact ⟨own, c₁, paths, hadds.trans hpaths, rfl, hsplices (by simpa using hmissing)⟩

end Logged

namespace UnitLog

/-- One source: compiling it never starves, reads what is new, and gives the splice of its own
statements. -/
theorem compile_ends (log : UnitLog) (files : FileTree) (source : Source) :
    (log.compile files source).1 ≠ .error .starved ∧
    ∃ paths, (log.mark source).Adds paths (log.compile files source).2 ∧
      ∀ compilation, (log.compile files source).1 = .ok compilation →
        ∃ own c₁ c₂, Compile.parse source (log.mark source).compiler = .ok own c₁ ∧
          Compile.Splices files source.path c₁ own paths compilation.program c₂ := by
  have hends := Logged.parseAll_ends files source log
  unfold compile Logged.compile
  rw [Logged.bind_run]
  cases hparse : Logged.parseAll files source log with
  | error failure log' =>
      rw [hparse] at hends
      rcases hends with ⟨hfailure, paths, hpaths⟩
      refine ⟨fun hstarved => hfailure (Except.error.inj hstarved), paths, hpaths, ?_⟩
      intro compilation hcompilation
      cases hcompilation
  | ok program log' =>
      rw [hparse] at hends
      rcases hends with ⟨own, c₁, paths, hpaths, hown, hsplices⟩
      have hfinish := Compile.finish_cases program log'.compiler
      dsimp only [Logged.keep]
      split at hfinish
      · next compilation d hrun =>
          rw [hrun]
          refine ⟨by simp, paths, ?_, ?_⟩
          · exact List.append_nil paths ▸ hpaths.trans (.none rfl hfinish.1)
          · intro result hresult
            cases hresult
            exact ⟨own, c₁, log'.compiler, hown, hfinish.2 ▸ hsplices⟩
      · next failure d hrun =>
          rw [hrun]
          refine ⟨fun hstarved => hfinish.2 (Except.error.inj hstarved), paths, ?_, ?_⟩
          · exact List.append_nil paths ▸ hpaths.trans (.none rfl hfinish.1)
          · intro result hresult
            cases hresult

/-! ## Sequences of sources -/

theorem mem_markIncluded {c : Compiler} {path other : String} :
    other ∈ (c.markIncluded path).included ↔ other ∈ c.included ∨ other = path := by
  unfold Compiler.markIncluded
  by_cases hagain : path ∈ c.included
  · rw [if_pos (by simpa using hagain)]
    refine ⟨.inl, fun h => h.elim id ?_⟩
    rintro rfl
    exact hagain
  · rw [if_neg (by simpa using hagain), List.mem_cons, or_comm]

/-- Nothing has been read twice, and included are the paths that have been read or seen. -/
structure Faithful (log : UnitLog) (seen : String → Prop) : Prop where
  nodup : log.reads.Nodup
  included : ∀ path, path ∈ log.compiler.included ↔ path ∈ log.reads ∨ seen path

theorem Faithful.compile {log : UnitLog} {seen : String → Prop} (h : log.Faithful seen)
    (files : FileTree) (source : Source) :
    (log.compile files source).2.Faithful fun path =>
      seen path ∨ path = Path.clean source.path := by
  rcases (log.compile_ends files source).2 with ⟨paths, hadds, -⟩
  have hmark (path : String) : path ∈ (log.mark source).compiler.included ↔
      (path ∈ log.reads ∨ seen path) ∨ path = Path.clean source.path := by
    rw [← h.included]
    exact mem_markIncluded
  constructor
  · rw [hadds.reads]
    refine List.nodup_append.mpr ⟨h.nodup, hadds.nodup, fun path hpath other hother heq => ?_⟩
    exact hadds.new other hother ((hmark other).mpr (.inl (.inl (heq ▸ hpath))))
  · intro path
    rw [hadds.included, hadds.reads, hmark]
    show _ ↔ path ∈ log.reads ++ paths ∨ _
    rw [List.mem_append]
    tauto

theorem Faithful.compileAll (calls : List (FileTree × Source)) :
    ∀ {log : UnitLog} {seen : String → Prop}, log.Faithful seen →
      (log.compileAll calls).Faithful fun path =>
        seen path ∨ ∃ call ∈ calls, path = Path.clean call.2.path := by
  induction calls with
  | nil =>
      intro log seen h
      simpa [UnitLog.compileAll] using h
  | cons call rest ih =>
      intro log seen h
      have hrest := ih (h.compile call.1 call.2)
      simpa [UnitLog.compileAll, or_assoc] using hrest

theorem faithful_start (options : CompileOptions) :
    (start options).Faithful fun _ => False where
  nodup := List.nodup_nil
  included := by simp [start, Compiler.start]

end UnitLog

/-- Whatever has been compiled before, and however units use each other, a source is compiled
without starving.  Over all sources no unit is read twice.  The program that results is the one
splice of the source's own statements: a unit stands in the place of the first `uses` of its path,
in order and depth first, unless the path is that of the source itself or of a source or unit
before. -/
theorem Compiler.units_spliced_once (options : CompileOptions)
    (calls : List (FileTree × Source)) (files : FileTree) (source : Source) :
    let c := (start options).compileAll calls
    let log := (UnitLog.start options).compileAll calls
    let result := log.compile files source
    (log.compiler = c ∧ (result.1, result.2.compiler) = c.compile files source) ∧
    result.1 ≠ .error .starved ∧
    result.2.reads.Nodup ∧
    (∀ path, path ∈ c.included ↔
      path ∈ log.reads ∨ ∃ call ∈ calls, path = Path.clean call.2.path) ∧
    ∀ compilation, result.1 = .ok compilation →
      ∃ own c₁ paths c₂,
        Compile.parse source (c.markIncluded (Path.clean source.path)) = .ok own c₁ ∧
        Compile.Splices files source.path c₁ own paths compilation.program c₂ ∧
        (∀ paths' program' c', Compile.Splices files source.path c₁ own paths' program' c' →
          paths' = paths ∧ program' = compilation.program) ∧
        result.2.reads = log.reads ++ paths := by
  intro c log result
  have hcompiler : log.compiler = c := UnitLog.compileAll_forget calls (.start options)
  have hfaithful := (UnitLog.faithful_start options).compileAll calls
  rcases log.compile_ends files source with ⟨hfed, paths, hadds, hsplices⟩
  refine ⟨⟨hcompiler, ?_⟩, hfed, (hfaithful.compile files source).nodup, ?_, ?_⟩
  · exact hcompiler ▸ log.compile_forget files source
  · intro path
    rw [← hcompiler, hfaithful.included]
    exact or_congr_right (iff_of_eq (false_or _))
  · intro compilation hcompilation
    rcases hsplices compilation hcompilation with ⟨own, c₁, c₂, hown, hspliced⟩
    rw [← hcompiler]
    refine ⟨own, c₁, paths, c₂, hown, hspliced, fun paths' program' c' hother => ?_, hadds.reads⟩
    rcases hother.unique hspliced with ⟨hpaths, hprogram, -⟩
    exact ⟨hpaths, hprogram⟩

/-- Two units that use each other, themselves and the program, and a third one. -/
def roundFiles : FileTree :=
  .ofFiles [] [("A.pas", .text "uses A; uses B; print 1;"),
    ("B.pas", .text "uses main; uses A; print 2;"), ("C.pas", .text "print 0;")]

/-- Of the three units of a program the first is included already. -/
theorem Compiler.units_spliced_once_round :
    let calls := [(roundFiles, (⟨"first.pas", "uses C;"⟩ : Source))]
    let source : Source := ⟨"main.pas", "uses C; uses A; uses B; print 3;"⟩
    let c := (start {}).compileAll calls
    ∃ compilation own c₁ c₂, (c.compile roundFiles source).1 = .ok compilation ∧
      compilation.program.length = 3 ∧
      Compile.parse source (c.markIncluded (Path.clean source.path)) = .ok own c₁ ∧
      Compile.Splices roundFiles source.path c₁ own ["A.pas", "B.pas"] compilation.program c₂ := by
  intro calls source c
  rcases units_spliced_once {} calls roundFiles source with
    ⟨⟨-, hsame⟩, -, -, -, hspliced⟩
  have hrun : (((UnitLog.start {}).compileAll calls).compile roundFiles source).1.toOption.map
      (fun compilation => compilation.program.length) = some 3 ∧
      ((UnitLog.start {}).compileAll calls).reads = ["C.pas"] ∧
      (((UnitLog.start {}).compileAll calls).compile roundFiles source).2.reads =
        ["C.pas", "A.pas", "B.pas"] := by
    decide +kernel
  rcases hrun with ⟨hlength, hbefore, hafter⟩
  cases hresult : (((UnitLog.start {}).compileAll calls).compile roundFiles source).1 with
  | error failure =>
      rw [hresult] at hlength
      cases hlength
  | ok compilation =>
      rw [hresult] at hlength
      rcases hspliced compilation hresult with ⟨own, c₁, paths, c₂, hown, hsplices, -, hreads⟩
      rw [hbefore, hafter] at hreads
      cases (List.cons.inj hreads).2
      refine ⟨compilation, own, c₁, c₂, ?_, Option.some.inj hlength, hown, hsplices⟩
      rw [← hsame]
      exact hresult

end MiniPascal
