import MiniPascal.Proofs.Parser.StatementContract

/-!
# Programs with and without recovery

Parsing a program strictly and with recovery agree up to the first fault, and recovery always gets
to the end of the text.
-/

namespace MiniPascal
namespace Parse

/-! ## Parsers that stop at no fault -/

/-- The parser has a result, or starves. -/
def Faultless (p : Parse α) : Prop :=
  ∀ c error d, p c ≠ .error (.fault error) d

theorem Faultless.bind {p : Parse α} {f : α → Parse β} (hp : Faultless p)
    (hf : ∀ value, Faultless (f value)) : Faultless (p >>= f) := by
  intro c error d hrun
  cases hfirst : p c with
  | ok value e =>
      rw [bind_of_ok hfirst] at hrun
      exact hf value e error d hrun
  | error stop e =>
      rw [bind_of_error hfirst] at hrun
      cases hrun
      exact hp c error d hfirst

theorem Faultless.pure (value : α) : Faultless (pure value : Parse α) := by
  intro c error d hrun
  cases hrun

theorem acceptSymbol_faultless (mark : Symbol) : Faultless (acceptSymbol mark) := by
  intro c error d hrun
  rw [acceptSymbol_run] at hrun
  split at hrun <;> cases hrun

theorem recover_faultless (decl : Parse (List Stmt)) :
    Faultless (recover .synchronize decl) := by
  intro c error d hrun
  unfold recover at hrun
  split at hrun <;> cases hrun

theorem collect_faultless {more : Parse Bool} {item : Parse α} (hmore : Faultless more)
    (hitem : Faultless item) : ∀ fuel, Faultless (collect more item fuel) := by
  intro fuel
  induction fuel with
  | zero =>
      intro c error d hrun
      cases hrun
  | succ fuel ih =>
      refine hmore.bind fun follows => ?_
      cases follows with
      | false => exact Faultless.pure []
      | true =>
          refine hitem.bind fun head => ?_
          exact ih.bind fun tail => Faultless.pure (head :: tail)

theorem grammar_declaration_faultless (fuel : Nat) (inLoop : Bool) :
    Faultless ((grammar .synchronize fuel).declaration inLoop) := by
  cases fuel with
  | zero =>
      intro c error d hrun
      cases hrun
  | succ fuel => exact recover_faultless _

theorem program_faultless (fuel : Nat) : Faultless (program .synchronize fuel) := by
  have hmore : Faultless (do return !(← atEnd) : Parse Bool) := by
    intro c error d hrun
    cases hrun
  have hitem : Faultless (declarationItem ((grammar .synchronize fuel).declaration false)) := by
    refine (acceptSymbol_faultless .semicolon).bind fun accepted => ?_
    cases accepted with
    | true => exact Faultless.pure []
    | false => exact grammar_declaration_faultless fuel false
  exact (collect_faultless hmore hitem fuel).bind fun items => Faultless.pure items.flatten

/-! ## Programs -/

theorem program_agrees {fuel : Nat} {c : Cursor} (hc : c.Ends N) (hfuel : c.ahead.length < fuel) :
    Agrees (program .strict fuel) (program .synchronize fuel) c fun list d =>
      Stmt.Numbered N c.nextId list d.nextId := by
  refine (items_agrees (T := fun c => !c.atEnd) (fun _ => rfl) ?_
    ((grammar_agrees fuel).declaration false) hc hfuel hfuel).bind ?_
  · intro c htest
    exact ne_nil_of_not_atEnd htest
  · intro items d _ hitems
    exact Agrees.pure hitems

/-- Over a whole scan, one more unit of fuel than there are tokens is enough. -/
theorem scan_agrees {scan : Scan} (hlast : scan.last.kind = .endOfFile)
    (hnames : ∀ token ∈ scan.tokens, token.kind = .identifier → N token.lexeme)
    (firstId : NodeId) :
    Agrees (program .strict (scan.tokens.length + 1))
      (program .synchronize (scan.tokens.length + 1)) (.start scan.tokens scan.last firstId)
      fun list d => Stmt.Numbered N firstId list d.nextId :=
  program_agrees ⟨hlast, hnames⟩ (Nat.lt_succ_self _)

end Parse

theorem Parse.run_of_ok {parser : Nat → Parse α} {firstId : NodeId} {scan : Scan} {value : α}
    {c : Cursor} (h : parser (scan.tokens.length + 1) (.start scan.tokens scan.last firstId) =
      .ok value c) : Parse.run parser firstId scan = ⟨.ok value, c.diagnostics, c.nextId⟩ := by
  unfold Parse.run
  rw [h]

theorem Parse.run_of_error {parser : Nat → Parse α} {firstId : NodeId} {scan : Scan} {stop : Stop}
    {c : Cursor} (h : parser (scan.tokens.length + 1) (.start scan.tokens scan.last firstId) =
      .error stop c) : Parse.run parser firstId scan = ⟨.error stop, c.diagnostics, c.nextId⟩ := by
  unfold Parse.run
  rw [h]

/-- What holds of a whole program in both modes: numbers that are given out are not given out again,
the statements are numbered from the first number on, and a fault is reported. -/
theorem parseProgram_contract (mode : Recovery) (firstId : NodeId) {scan : Scan}
    (hlast : scan.last.kind = .endOfFile)
    (hnames : ∀ token ∈ scan.tokens, token.kind = .identifier → N token.lexeme) :
    let parsed := parseProgram mode firstId scan
    firstId ≤ parsed.nextId ∧
      match parsed.result with
      | .ok statements => Stmt.Numbered N firstId statements parsed.nextId
      | .error (.fault error) => error.report ∈ parsed.diagnostics
      | .error .starved => False := by
  have hagrees := Parse.scan_agrees hlast hnames firstId
  unfold parseProgram
  cases hrun : Parse.program mode (scan.tokens.length + 1)
      (.start scan.tokens scan.last firstId) with
  | ok statements d =>
      rw [Parse.run_of_ok hrun]
      cases mode with
      | strict =>
          have hstrict := hagrees.2
          rw [hrun] at hstrict
          exact ⟨hstrict.2.1.nextId, hstrict.2.2⟩
      | synchronize =>
          have hsync := hagrees.1
          unfold Parse.Yields at hsync
          rw [hrun] at hsync
          exact ⟨hsync.1.nextId, hsync.2⟩
  | error stop d =>
      rw [Parse.run_of_error hrun]
      cases mode with
      | strict =>
          have hstrict := hagrees.2
          rw [hrun] at hstrict
          cases stop with
          | starved => exact hstrict.elim
          | fault error =>
              rcases hstrict with ⟨hsame, -⟩ | ⟨hle, before, after, -, hd, -⟩
              · exact absurd hsame (Parse.program_faultless _ _ error d)
              · refine ⟨hle, ?_⟩
                rw [hd]
                exact List.mem_append_right _ List.mem_cons_self
      | synchronize =>
          have hsync := hagrees.1
          unfold Parse.Yields at hsync
          rw [hrun] at hsync
          cases stop with
          | starved => exact hsync.elim
          | fault error => exact absurd hrun (Parse.program_faultless _ _ error d)

theorem parseProgram_numbered {mode : Recovery} {firstId : NodeId} {scan : Scan}
    (hlast : scan.last.kind = .endOfFile)
    (hnames : ∀ token ∈ scan.tokens, token.kind = .identifier → N token.lexeme)
    {statements : List Stmt} (h : (parseProgram mode firstId scan).result = .ok statements) :
    Stmt.Numbered N firstId statements (parseProgram mode firstId scan).nextId := by
  have hcontract := (parseProgram_contract mode firstId hlast hnames).2
  rw [h] at hcontract
  exact hcontract

theorem parseProgram_nextId {mode : Recovery} {firstId : NodeId} {scan : Scan}
    (hlast : scan.last.kind = .endOfFile) :
    firstId ≤ (parseProgram mode firstId scan).nextId :=
  (parseProgram_contract (N := fun _ => True) mode firstId hlast fun _ _ _ => trivial).1

theorem parseProgram_ne_starved {mode : Recovery} {firstId : NodeId} {scan : Scan}
    (hlast : scan.last.kind = .endOfFile) :
    (parseProgram mode firstId scan).result ≠ .error .starved := by
  intro hstarved
  have hcontract := (parseProgram_contract (N := fun _ => True) mode firstId hlast
    fun _ _ _ => trivial).2
  rw [hstarved] at hcontract
  exact hcontract

theorem parseProgram_fault_reported {mode : Recovery} {firstId : NodeId} {scan : Scan}
    (hlast : scan.last.kind = .endOfFile) {error : SyntaxError}
    (h : (parseProgram mode firstId scan).result = .error (.fault error)) :
    error.report ∈ (parseProgram mode firstId scan).diagnostics := by
  have hcontract := (parseProgram_contract (N := fun _ => True) mode firstId hlast
    fun _ _ _ => trivial).2
  rw [h] at hcontract
  exact hcontract

/-- The strict parser and the one with recovery agree up to the first fault. -/
theorem parseProgram_agree_up_to_fault (firstId : NodeId) (scan : Scan)
    (hlast : scan.last.kind = .endOfFile) :
    match (parseProgram .strict firstId scan).result with
    | .ok statements =>
        (parseProgram .synchronize firstId scan).result = .ok statements ∧
        (parseProgram .synchronize firstId scan).diagnostics =
          (parseProgram .strict firstId scan).diagnostics ∧
        (parseProgram .synchronize firstId scan).nextId =
          (parseProgram .strict firstId scan).nextId
    | .error (.fault error) =>
        (∃ statements, (parseProgram .synchronize firstId scan).result = .ok statements) ∧
        ∃ before after,
          (parseProgram .strict firstId scan).diagnostics = before ++ error.report :: after ∧
          error.report ∉ before ∧
          before ++ [error.report] <+: (parseProgram .synchronize firstId scan).diagnostics
    | .error .starved => False := by
  rcases Parse.scan_agrees (N := fun _ => True) hlast (fun _ _ _ => trivial) firstId with
    ⟨hyields, hstrict⟩
  unfold Parse.Yields at hyields
  -- recovery starves no more than any other parser, and stops at no fault
  cases hsync : Parse.program .synchronize (scan.tokens.length + 1)
      (.start scan.tokens scan.last firstId) with
  | error stop e =>
      rw [hsync] at hyields
      cases stop with
      | fault error => exact absurd hsync (Parse.program_faultless _ _ error e)
      | starved => exact hyields.elim
  | ok recovered e =>
      unfold parseProgram
      rw [Parse.run_of_ok hsync]
      cases hrun : Parse.program .strict (scan.tokens.length + 1)
          (.start scan.tokens scan.last firstId) with
      | ok statements d =>
          rw [hrun, hsync] at hstrict
          rw [Parse.run_of_ok hrun]
          cases hstrict.1
          exact ⟨rfl, rfl, rfl⟩
      | error stop d =>
          rw [hrun, hsync] at hstrict
          rw [Parse.run_of_error hrun]
          cases stop with
          | starved => exact hstrict
          | fault error =>
              rcases hstrict with ⟨hsame, -⟩ | ⟨-, before, after, hbefore, hd, hprefix⟩
              · cases hsame
              · rw [Parse.left_of_ok hsync] at hprefix
                refine ⟨⟨recovered, rfl⟩, before, after, hd, ?_, hprefix⟩
                intro hmem
                exact error.not_misplaced (hbefore _ hmem)

/-- A `break` outside of loops, then `print` without a value. -/
theorem parseProgram_agree_up_to_fault_misplaced :
    let token (kind : TokenKind) : Token := ⟨kind, "", .start, ""⟩
    let scan : Scan := {
      tokens := [token (.keyword .break), token (.symbol .semicolon), token (.keyword .print),
        token (.symbol .semicolon)]
      last := token .endOfFile
      diagnostics := [] }
    (∃ error, (parseProgram .strict 0 scan).result = .error (.fault error)) ∧
      ∃ statements, (parseProgram .synchronize 0 scan).result = .ok statements := by
  intro token scan
  have hstrict : ∃ error, (parseProgram .strict 0 scan).result = .error (.fault error) :=
    ⟨⟨token (.symbol .semicolon), .expression⟩, rfl⟩
  refine ⟨hstrict, ?_⟩
  have hagree := parseProgram_agree_up_to_fault 0 scan rfl
  rcases hstrict with ⟨error, herror⟩
  rw [herror] at hagree
  exact hagree.1

end MiniPascal
