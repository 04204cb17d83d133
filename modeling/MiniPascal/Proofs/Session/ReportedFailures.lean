import MiniPascal.Proofs.Session.UnitSplicing

/-!
# Failures are reported

Compiling fails exactly if it reports an error.  The stages keep no list of their failures: one that
stops has reported an error, and one that goes on says by its result whether it has.  So an account
is kept of whether an error has been reported so far, through units within units.
-/

namespace MiniPascal

theorem Diagnostic.anyError_iff {diagnostics : List Diagnostic} :
    anyError diagnostics = true ↔ ∃ report ∈ diagnostics, report.level = .error := by
  simp [anyError, isError]

namespace Compile

/-! ## An account of errors -/

/-- A stage that only adds reports.  Where `told` says whether an error has been reported before it,
one has been if it fails, and else `Q` relates whether one has been to the result. -/
def Tells (told : Bool) (x : Compile α) (Q : Bool → α → Prop) : Prop :=
  ∀ c, match x c with
    | .ok value d => ∃ new, d.diagnostics = c.diagnostics ++ new ∧
        Q (told || Diagnostic.anyError new) value
    | .error failure d => ∃ new, d.diagnostics = c.diagnostics ++ new ∧
        (failure ≠ .starved → (told || Diagnostic.anyError new) = true)

namespace Tells

variable {told : Bool} {x : Compile α} {Q : Bool → α → Prop}

theorem pure {value : α} (h : Q told value) : Tells told (Pure.pure value) Q := by
  intro c
  exact ⟨[], by simp, by simpa using h⟩

/-- Failing is fine once an error has been reported. -/
theorem throw {failure : CompileFailure} (h : told = true) :
    Tells told (MonadExcept.throw failure : Compile α) Q := by
  intro c
  exact ⟨[], by simp, fun _ => by simp [h]⟩

theorem starve : Tells told (MonadExcept.throw .starved : Compile α) Q := by
  intro c
  exact ⟨[], by simp, fun h => absurd rfl h⟩

theorem bind {f : α → Compile β} {R : Bool → β → Prop} (hx : Tells told x Q)
    (hf : ∀ value told', Q told' value → Tells told' (f value) R) : Tells told (x >>= f) R := by
  intro c
  have hfirst := hx c
  show match EStateM.bind x f c with
    | .ok value d => _
    | .error failure d => _
  unfold EStateM.bind
  cases hrun : x c with
  | error failure d =>
      rw [hrun] at hfirst
      exact hfirst
  | ok value d =>
      rw [hrun] at hfirst
      rcases hfirst with ⟨new, hd, hQ⟩
      have hsecond := hf value _ hQ d
      have hadd {e : Compiler} {more : List Diagnostic}
          (he : e.diagnostics = d.diagnostics ++ more) :
          e.diagnostics = c.diagnostics ++ (new ++ more) := by
        rw [he, hd, List.append_assoc]
      dsimp only
      cases hrun' : f value d with
      | error failure e =>
          rw [hrun'] at hsecond
          rcases hsecond with ⟨more, he, htold⟩
          refine ⟨new ++ more, hadd he, ?_⟩
          rwa [Diagnostic.anyError_append, ← Bool.or_assoc]
      | ok result e =>
          rw [hrun'] at hsecond
          rcases hsecond with ⟨more, he, hR⟩
          refine ⟨new ++ more, hadd he, ?_⟩
          rwa [Diagnostic.anyError_append, ← Bool.or_assoc]

theorem look {f : Compiler → Compile α} (hf : ∀ c, Tells told (f c) Q) :
    Tells told (get >>= f) Q :=
  fun c => hf c c

theorem after {change : Compiler → Compiler} (h : ∀ c, (change c).diagnostics = c.diagnostics)
    (hx : Tells told x Q) : Tells told (do modify change; x) Q := by
  intro c
  have hrun := hx (change c)
  rw [h c] at hrun
  exact hrun

theorem report {diagnostics : List Diagnostic}
    (hx : Tells (told || Diagnostic.anyError diagnostics) x Q) :
    Tells told (do modify (·.report diagnostics); x) Q := by
  have hreport : Tells told (modify (·.report diagnostics) : Compile PUnit)
      fun told' _ => told' = (told || Diagnostic.anyError diagnostics) :=
    fun _ => ⟨diagnostics, rfl, rfl⟩
  refine hreport.bind fun _ told' htold => ?_
  rw [htold]
  exact hx

end Tells

/-! ## The stages -/

theorem parse_tells (told : Bool) (source : Source) :
    Tells told (parse source) fun told' _ => told' = told := by
  intro c
  have hlast := Lexer.last_kind source
  rw [parse_run]
  dsimp only
  cases hparsed : (parseProgram c.options.recovery c.nextId (Lexer.scan source)).result with
  | error stop =>
      cases stop with
      | starved => exact absurd hparsed (parseProgram_ne_starved hlast)
      | fault error =>
          have hreported := parseProgram_fault_reported hlast hparsed
          refine ⟨_, rfl, fun _ => ?_⟩
          rw [Bool.or_eq_true, Diagnostic.anyError_iff]
          exact .inr ⟨error.report, List.mem_append_right _ hreported, rfl⟩
  | ok statements =>
      dsimp only
      by_cases herror : Diagnostic.anyError ((Lexer.scan source).diagnostics ++
          (parseProgram c.options.recovery c.nextId (Lexer.scan source)).diagnostics) = true
      · rw [if_pos herror]
        exact ⟨_, rfl, fun _ => by simp only [herror, Bool.or_true]⟩
      · rw [if_neg herror]
        refine ⟨_, rfl, ?_⟩
        rw [Bool.eq_false_iff.mpr herror, Bool.or_false]

theorem expandWith_tells {expand : Token → Compile Expansion}
    (hexpand : ∀ told unit, Tells told (expand unit) fun told' expansion =>
      told' = (told || expansion.missing)) (statements : List Stmt) :
    ∀ told, Tells told (expandWith expand statements) fun told' expansion =>
      told' = (told || expansion.missing) := by
  induction statements with
  | nil =>
      intro told
      exact Tells.pure (by simp)
  | cons statement rest ih =>
      intro told
      have hkept : Tells told (do
          let others ← expandWith expand rest
          return { others with statements := statement :: others.statements })
          fun told' expansion => told' = (told || expansion.missing) := by
        refine (ih told).bind fun others told' hothers => ?_
        exact Tells.pure hothers
      cases statement with
      | uses keyword unit =>
          refine (hexpand told unit).bind fun here told₁ hhere => ?_
          refine (ih told₁).bind fun others told₂ hothers => Tells.pure ?_
          rw [hothers, hhere, Bool.or_assoc]
      | _ => exact hkept

/-- An error is reported where a unit is missing, and else only with a failure. -/
theorem expandUnit_tells (files : FileTree) (fuel : Nat) : ∀ including told unit,
    Tells told (expandUnit files fuel including unit) fun told' expansion =>
      told' = (told || expansion.missing) := by
  induction fuel with
  | zero =>
      intro including told unit
      exact Tells.starve
  | succ fuel ih =>
      intro including told unit
      refine Tells.look fun c => ?_
      split
      · exact Tells.pure (by simp)
      · apply Tells.after
        · exact fun _ => rfl
        split
        · have herror : Diagnostic.anyError
              [.errorAt unit ("Unable to read unit '" ++ unit.lexeme ++ "'")] = true := rfl
          refine Tells.report (Tells.pure ?_)
          rw [herror]
        · refine (parse_tells told _).bind fun statements told' htold => ?_
          rw [htold]
          exact expandWith_tells (ih _) statements told

theorem parseAll_tells (files : FileTree) (source : Source) :
    Tells false (parseAll files source) fun told _ => told = false := by
  refine Tells.after (fun _ => rfl) ?_
  refine (parse_tells false source).bind fun statements told hstatements => ?_
  rw [hstatements]
  refine (expandWith_tells (expandUnit_tells files _ _) statements false).bind
    fun expansion told' hexpansion => ?_
  rw [Bool.false_or] at hexpansion
  split
  · next hmissing => exact Tells.throw (hexpansion.trans hmissing)
  · next hall => exact Tells.pure (hexpansion.trans (Bool.eq_false_iff.mpr hall))

theorem resolve_tells (program : List Stmt) :
    Tells false (resolve program) fun told _ => told = false := by
  refine Tells.report ?_
  rw [Bool.false_or]
  split
  · next herror => exact Tells.throw herror
  · next hok => exact Tells.pure (Bool.eq_false_iff.mpr hok)

theorem checkTypes_tells (program : List Stmt) :
    Tells false (checkTypes program) fun told _ => told = false := by
  refine Tells.look fun c => ?_
  split
  · refine Tells.report ?_
    rw [Bool.false_or]
    split
    · next herror => exact Tells.throw herror
    · next hok => exact Tells.pure (Bool.eq_false_iff.mpr hok)
  · exact Tells.pure rfl

theorem compile_tells (files : FileTree) (source : Source) :
    Tells false (compile files source) fun told _ => told = false := by
  refine (parseAll_tells files source).bind fun program told hprogram => ?_
  rw [hprogram]
  refine (resolve_tells program).bind fun locals told' hlocals => ?_
  rw [hlocals]
  refine (checkTypes_tells program).bind fun _ told'' htypes => ?_
  exact Tells.pure htypes

end Compile

namespace Compiler

/-- Whatever has been compiled before, compiling does not starve. -/
theorem compile_ne_starved (c : Compiler) (files : FileTree) (source : Source) :
    (c.compile files source).1 ≠ .error .starved := by
  have hlog := ((⟨c, []⟩ : UnitLog).compile_ends files source).1
  rw [congrArg Prod.fst ((⟨c, []⟩ : UnitLog).compile_forget files source)] at hlog
  exact hlog

/-- In every state of a compiler, whatever the source, the files and the options are, compiling
fails exactly if it adds an error to the reports, and yields a program exactly if all that it adds
are warnings. -/
theorem fails_iff_reports_error (c : Compiler) (files : FileTree) (source : Source) :
    let result := (c.compile files source).1
    let after := (c.compile files source).2
    result ≠ .error .starved ∧
    ∃ new, after.diagnostics = c.diagnostics ++ new ∧
      ((∃ failure, result = .error failure) ↔ ∃ report ∈ new, report.level = .error) ∧
      ((∃ compilation, result = .ok compilation) ↔ ∀ report ∈ new, report.level = .warning) := by
  intro result after
  refine ⟨c.compile_ne_starved files source, ?_⟩
  have hfed := c.compile_ne_starved files source
  have htells := Compile.compile_tells files source c
  have hwarning (new : List Diagnostic) :
      (∀ report ∈ new, report.level = .warning) ↔ ¬ ∃ report ∈ new, report.level = .error := by
    have hlevel (level : Level) : level = .warning ↔ level ≠ .error := by
      cases level <;> simp
    simp only [hlevel, not_exists, not_and]
  rw [compile_run] at hfed
  simp only [result, after, compile_run, hwarning, ← Diagnostic.anyError_iff]
  cases hrun : Compile.compile files source c with
  | ok compilation d =>
      rw [hrun] at htells
      rcases htells with ⟨new, hnew, htold⟩
      rw [Bool.false_or] at htold
      exact ⟨new, hnew, by simp [htold]⟩
  | error failure d =>
      rw [hrun] at htells hfed
      rcases htells with ⟨new, hnew, htold⟩
      have herror := htold fun hstarved => hfed (congrArg Except.error hstarved)
      rw [Bool.false_or] at herror
      exact ⟨new, hnew, by simp [herror]⟩

end Compiler

end MiniPascal
