import MiniPascal.Proofs.Parser.Bounds

/-!
# How often a fault is reported

A strict parser stops at the first fault, and each declaration that it stops in reports the fault
once more: the innermost one first, then all declarations around it.  So a fault at top level is
reported once, one in a block twice, and so on.  In front of these reports there are only those of
misplaced `break`s.
-/

namespace MiniPascal

/-! ## Reports of a script -/

namespace Script

/-- The number of declarations that are open where the steps from a cursor stop at a fault. -/
def openDeclarations : {α : Type} → Script α → Cursor → Nat
  | _, .recover _ decl, c => decl.openDeclarations c + 1
  | _, .bind first next, c =>
      match first.parser c with
      | .ok value d => (next value).openDeclarations d
      | .error _ _ => first.openDeclarations c
  | _, .done _, _ | _, .stop _, _ | _, .peek, _ | _, .second, _ | _, .previous, _ | _, .atEnd, _
  | _, .advance, _ | _, .freshId, _ | _, .report _, _ => 0

/-- What the steps from a cursor add to the reports: those of misplaced `break`s, and if they stop
at a fault, its report once for each open declaration. -/
def Reports (script : Script α) (c : Cursor) : Prop :=
  match script.parser c with
  | .ok _ d => ∃ breaks, (∀ report ∈ breaks, Misplaced report) ∧
      d.diagnostics = c.diagnostics ++ breaks
  | .error (.fault error) d => ∃ breaks, (∀ report ∈ breaks, Misplaced report) ∧
      d.diagnostics = c.diagnostics ++ breaks ++
        List.replicate (script.openDeclarations c) error.report
  | .error .starved _ => True

theorem reports_none {c d : Cursor} (h : d.diagnostics = c.diagnostics) :
    ∃ breaks, (∀ report ∈ breaks, Misplaced report) ∧ d.diagnostics = c.diagnostics ++ breaks :=
  ⟨[], List.forall_mem_nil _, by rw [h, List.append_nil]⟩

theorem advance_diagnostics (c : Cursor) : c.advance.diagnostics = c.diagnostics := by
  unfold Cursor.advance
  split <;> rfl

/-- A declaration that stops adds one report of the fault to those of the declarations inside. -/
theorem reports_recover {decl : Script (List Stmt)} {c : Cursor} (h : decl.Reports c) :
    (Script.recover .strict decl).Reports c := by
  unfold Reports at h ⊢
  rw [parser, Parse.recover]
  cases hrun : decl.parser c with
  | ok statements d =>
      rw [hrun] at h
      exact h
  | error why d =>
      rw [hrun] at h
      cases why with
      | starved => exact trivial
      | fault error =>
          rcases h with ⟨breaks, hbreaks, hreports⟩
          refine ⟨breaks, hbreaks, ?_⟩
          change d.diagnostics ++ [error.report] = _
          rw [hreports, openDeclarations, List.replicate_succ', List.append_assoc]

theorem reports_bind {first : Script α} {next : α → Script β} {c : Cursor}
    (hfirst : first.Reports c) (hnext : ∀ value d, (next value).Reports d) :
    (Script.bind first next).Reports c := by
  unfold Reports at hfirst ⊢
  rw [parser, openDeclarations]
  cases hrun : first.parser c with
  | error why d =>
      rw [hrun] at hfirst
      rw [bind_of_error hrun]
      cases why with
      | starved => exact trivial
      | fault error => exact hfirst
  | ok value d =>
      rw [hrun] at hfirst
      rw [bind_of_ok hrun]
      rcases hfirst with ⟨breaks, hbreaks, hreports⟩
      have hrest := hnext value d
      unfold Reports at hrest
      cases hrun' : (next value).parser d with
      | ok result e =>
          rw [hrun'] at hrest
          rcases hrest with ⟨more, hmore, hrest⟩
          exact ⟨breaks ++ more, List.forall_mem_append.mpr ⟨hbreaks, hmore⟩, by
            rw [hrest, hreports, List.append_assoc]⟩
      | error why e =>
          rw [hrun'] at hrest
          cases why with
          | starved => exact trivial
          | fault error =>
              rcases hrest with ⟨more, hmore, hrest⟩
              exact ⟨breaks ++ more, List.forall_mem_append.mpr ⟨hbreaks, hmore⟩, by
                rw [hrest, hreports, List.append_assoc c.diagnostics]⟩

/-- By induction on the script: a step at a time, and for each declaration one report. -/
theorem reports (script : Script α) :
    script.Plain .strict → ∀ c, script.Reports c := by
  induction script with
  | report diagnostic =>
      exact fun h c => ⟨[diagnostic], List.forall_mem_singleton.mpr h, rfl⟩
  | recover mode decl ih =>
      rintro ⟨rfl, hdecl⟩ c
      exact reports_recover (ih hdecl c)
  | bind first next ihfirst ihnext =>
      rintro ⟨hfirst, hnext⟩ c
      exact reports_bind (ihfirst hfirst c) fun value => ihnext value (hnext value)
  | stop why =>
      intro _ c
      cases why with
      | starved => exact trivial
      | fault error => exact ⟨[], List.forall_mem_nil _, by simp [openDeclarations]⟩
  | advance => exact fun _ c => reports_none (advance_diagnostics c)
  | _ => exact fun _ c => reports_none rfl

end Script

/-! ## Reports of a program -/

/-- Where a strict parser stops at a fault, the reports are those of misplaced `break`s, and then
that of the fault, once for each declaration that is open there; at least one is. -/
theorem fault_reported_by_each_open_declaration (firstId : NodeId) (scan : Scan)
    (hlast : scan.last.kind = .endOfFile) {error : SyntaxError}
    (h : (parseProgram .strict firstId scan).result = .error (.fault error)) :
    ∃ script : Script (List Stmt), script.Plain .strict ∧
      script.parser = Parse.program .strict (scan.tokens.length + 1) ∧
      0 < script.openDeclarations (.start scan.tokens scan.last firstId) ∧
      ∃ breaks, (∀ report ∈ breaks, Misplaced report) ∧
        (parseProgram .strict firstId scan).diagnostics = breaks ++
          List.replicate (script.openDeclarations (.start scan.tokens scan.last firstId))
            error.report := by
  rcases Composed.program .strict (scan.tokens.length + 1) with ⟨script, hplain, hscript⟩
  refine ⟨script, hplain, hscript, ?_⟩
  have hreports := script.reports hplain (.start scan.tokens scan.last firstId)
  unfold Script.Reports at hreports
  rw [hscript] at hreports
  cases hrun : Parse.program .strict (scan.tokens.length + 1)
      (.start scan.tokens scan.last firstId) with
  | ok statements d =>
      rw [parseProgram, Parse.run_of_ok hrun] at h
      cases h
  | error why d =>
      have hmem := parseProgram_fault_reported hlast h
      rw [parseProgram, Parse.run_of_error hrun] at h hmem ⊢
      cases h
      rw [hrun] at hreports
      rcases hreports with ⟨breaks, hbreaks, hd⟩
      change d.diagnostics = [] ++ breaks ++ _ at hd
      rw [List.nil_append] at hd
      refine ⟨?_, breaks, hbreaks, hd⟩
      -- the report is none of those in front
      rw [hd] at hmem
      rcases List.mem_append.mp hmem with hbreak | hfault
      · exact absurd (hbreaks _ hbreak) error.not_misplaced
      · exact Nat.pos_of_ne_zero (List.mem_replicate.mp hfault).1

def Parse.bare (kind : TokenKind) : Token :=
  ⟨kind, "", .start, ""⟩

/-- A misplaced `break`, and then a `print` without a value in a block. -/
theorem fault_reported_by_each_open_declaration_block :
    let scan : Scan := {
      tokens := [Parse.bare (.keyword .break), Parse.bare (.symbol .semicolon),
        Parse.bare (.keyword .begin), Parse.bare (.keyword .print),
        Parse.bare (.symbol .semicolon)]
      last := Parse.bare .endOfFile
      diagnostics := [] }
    let error : SyntaxError := ⟨Parse.bare (.symbol .semicolon), .expression⟩
    (parseProgram .strict 0 scan).result = .error (.fault error) ∧
      (∃ misplaced, (parseProgram .strict 0 scan).diagnostics =
        [misplaced, error.report, error.report]) ∧
      ∃ script : Script (List Stmt), script.parser = Parse.program .strict 6 ∧
        ∃ breaks, (∀ report ∈ breaks, Misplaced report) ∧
          (parseProgram .strict 0 scan).diagnostics = breaks ++
            List.replicate (script.openDeclarations (.start scan.tokens scan.last 0))
              error.report := by
  intro scan error
  have hfault : (parseProgram .strict 0 scan).result = .error (.fault error) := rfl
  rcases fault_reported_by_each_open_declaration 0 scan rfl hfault with
    ⟨script, -, hscript, -, hreports⟩
  exact ⟨hfault, ⟨_, rfl⟩, script, hscript, hreports⟩

/-! ## Blocks around a fault -/

namespace Parse

/-- A declaration in front that stops ends a list of declarations. -/
theorem collect_of_error {decl : Parse (List Stmt)} {more : Parse Bool} {fuel : Nat} {c d : Cursor}
    {stop : Stop} (hmore : more c = .ok true c) (hsemicolon : c.peek.symbol? ≠ some .semicolon)
    (h : decl c = .error stop d) :
    collect more (declarationItem decl) (fuel + 1) c = .error stop d := by
  have haccept : acceptSymbol .semicolon c = .ok false c := by
    rw [acceptSymbol_run, if_neg hsemicolon]
  have hitem : declarationItem decl c = .error stop d := by
    unfold declarationItem
    rw [bind_of_ok haccept]
    exact h
  rw [collect, bind_of_ok hmore, if_pos rfl]
  exact bind_of_error hitem

theorem block_of_error {fuel : Nat} {inLoop : Bool} {c d : Cursor} {error : SyntaxError}
    (hbegin : c.peek.keyword? = some .begin) (hclose : c.advance.peek.keyword? ≠ some .end)
    (hend : c.advance.atEnd = false) (hsemicolon : c.advance.peek.symbol? ≠ some .semicolon)
    (h : (grammar .strict fuel).declaration inLoop c.advance = .error (.fault error) d) :
    (grammar .strict (fuel + 1)).declaration inLoop c =
      .error (.fault error) (d.report error.report) := by
  have hmore : (do return !(← atKeyword .end) && !(← atEnd) : Parse Bool) c.advance =
      .ok true c.advance := by
    change EStateM.Result.ok (!decide (c.advance.peek.keyword? = some .end) && !c.advance.atEnd)
      c.advance = _
    rw [decide_eq_false hclose, hend]
    rfl
  have hblock : blockStatement (grammar .strict fuel) inLoop (fuel + 1) c.advance =
      .error (.fault error) d :=
    bind_of_error (bind_of_error (collect_of_error hmore hsemicolon h))
  have hpeek : Parse.peek c = .ok c.peek c := rfl
  have hadvance : (discard Parse.advance : Parse Unit) c = .ok () c.advance := rfl
  have hstatement : statement (grammar .strict fuel) (expression (fuel + 1)) (fuel + 1) inLoop c =
      .error (.fault error) d := by
    unfold statement
    rw [bind_of_ok hpeek, hbegin]
    dsimp only
    rw [bind_of_ok hadvance]
    exact hblock
  change recover .strict (declaration _ _ _ _ _) c = _
  unfold recover declaration
  rw [bind_of_ok hpeek, hbegin]
  dsimp only
  rw [bind_of_error hstatement]
  rfl

def missingValue : SyntaxError :=
  ⟨bare (.symbol .semicolon), .expression⟩

/-- A `print` without a value inside of so many blocks. -/
def inBlocks (depth : Nat) : List Token :=
  List.replicate depth (bare (.keyword .begin)) ++
    [bare (.keyword .print), bare (.symbol .semicolon)]

/-- There is a token in front, and it neither ends a block nor is it a loose semicolon. -/
theorem inBlocks_eq_cons (depth : Nat) : ∃ token rest, inBlocks depth = token :: rest ∧
    token.keyword? ≠ some .end ∧ token.symbol? ≠ some .semicolon := by
  cases depth with
  | zero => exact ⟨_, _, rfl, by decide, by decide⟩
  | succ depth => exact ⟨_, _, rfl, by decide, by decide⟩

theorem declaration_inBlocks {depth fuel : Nat} (hfuel : depth < fuel) {c : Cursor}
    (hc : c.ahead = inBlocks depth) :
    ∃ d, (grammar .strict fuel).declaration false c = .error (.fault missingValue) d ∧
      d.diagnostics = c.diagnostics ++ List.replicate (depth + 1) missingValue.report := by
  induction depth generalizing fuel c with
  | zero =>
      rcases fuel with _ | fuel
      · cases hfuel
      rcases c with ⟨before, ahead, last, nextId, diagnostics⟩
      cases hc
      exact ⟨_, rfl, rfl⟩
  | succ depth ih =>
      rcases fuel with _ | fuel
      · cases hfuel
      have hahead : c.ahead = bare (.keyword .begin) :: inBlocks depth := hc
      have hadvance : c.advance =
          { c with previous := bare (.keyword .begin), ahead := inBlocks depth } := by
        rw [Cursor.advance, hahead]
      have hinner : c.advance.ahead = inBlocks depth := by rw [hadvance]
      rcases ih (Nat.lt_of_succ_lt_succ hfuel) hinner with ⟨d, hrun, hreports⟩
      rcases inBlocks_eq_cons depth with ⟨token, rest, hrest, hclose, hsemicolon⟩
      have hpeek : c.advance.peek = token := Cursor.peek_of_ahead (hinner.trans hrest)
      refine ⟨d.report missingValue.report, block_of_error ?_ ?_ ?_ ?_ hrun, ?_⟩
      · rw [Cursor.peek_of_ahead hahead]
        rfl
      · rwa [hpeek]
      · rw [Cursor.atEnd, hinner, hrest]
        rfl
      · rwa [hpeek]
      · change d.diagnostics ++ [missingValue.report] = _
        rw [hreports, hadvance, List.append_assoc, ← List.replicate_succ']

/-- A fault inside of blocks is reported once for each of them, and once more. -/
theorem fault_in_blocks_reported (depth : Nat) :
    let scan : Scan := { tokens := inBlocks depth, last := bare .endOfFile, diagnostics := [] }
    (parseProgram .strict 0 scan).result = .error (.fault missingValue) ∧
      (parseProgram .strict 0 scan).diagnostics =
        List.replicate (depth + 1) missingValue.report := by
  intro scan
  have hfuel : depth < scan.tokens.length + 1 := by
    change depth < (inBlocks depth).length + 1
    rw [inBlocks, List.length_append, List.length_replicate]
    omega
  let start := Cursor.start scan.tokens scan.last 0
  rcases declaration_inBlocks hfuel (c := start) rfl with ⟨d, hrun, hreports⟩
  rcases inBlocks_eq_cons depth with ⟨token, rest, hrest, -, hsemicolon⟩
  have hpeek : start.peek = token := Cursor.peek_of_ahead hrest
  have hmore : (do return !(← atEnd) : Parse Bool) start = .ok true start := by
    change EStateM.Result.ok (!(inBlocks depth).isEmpty) start = _
    rw [hrest]
    rfl
  have hprogram : program .strict (scan.tokens.length + 1) start =
      .error (.fault missingValue) d :=
    bind_of_error (collect_of_error hmore (by rwa [hpeek]) hrun)
  rw [parseProgram, run_of_error hprogram]
  exact ⟨rfl, hreports⟩

end Parse

end MiniPascal
