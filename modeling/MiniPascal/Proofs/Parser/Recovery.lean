import MiniPascal.Proofs.Parser.Contract

/-!
# Parsing with and without recovery

A strict parser stops at the first fault; a synchronizing one reports it and goes on.  Run from the
same cursor they agree up to that fault.  As long as the strict parser has a result, the other one
has the same.  When the strict one stops, either the fault is still to be reported and the other
one has stopped as well, or its report is where the reports of the two part.
-/

namespace MiniPascal

def SyntaxError.report (error : SyntaxError) : Diagnostic :=
  .errorAt error.token error.message

/-- The report of a `break` outside of loops, after which parsing goes on. -/
def Misplaced (report : Diagnostic) : Prop :=
  report.message = "Must be inside a loop to use 'break'."

theorem SyntaxFault.message_ne (fault : SyntaxFault) :
    fault.message ≠ "Must be inside a loop to use 'break'." := by
  cases fault with
  | functionName kind => cases kind <;> decide
  | functionBegin kind => cases kind <;> decide
  | functionEnd kind => cases kind <;> decide
  | _ => decide

theorem SyntaxError.not_misplaced (error : SyntaxError) : ¬ Misplaced error.report :=
  error.fault.message_ne

namespace Parse

/-- The cursor that a parser leaves behind, whether it has a result or stops. -/
def left (p : Parse α) (c : Cursor) : Cursor :=
  match p c with
  | .ok _ d => d
  | .error _ d => d

/-- Two runs from `c` part with the report of an error: the strict one stops at `d`, and the other
one gets to `e`. -/
def Parted (error : SyntaxError) (c d e : Cursor) : Prop :=
  c.nextId ≤ d.nextId ∧ ∃ before after, (∀ report ∈ before, Misplaced report) ∧
    d.diagnostics = c.diagnostics ++ before ++ error.report :: after ∧
    c.diagnostics ++ before ++ [error.report] <+: e.diagnostics

/-- The strict parser `p` and the synchronizing parser `q` agree from `c` on, and results of either
satisfy `Q`. -/
def Agrees (p q : Parse α) (c : Cursor) (Q : α → Cursor → Prop) : Prop :=
  Yields (fun _ => True) q c Q ∧
  match p c with
  | .ok value d => q c = .ok value d ∧ c.Before Misplaced d ∧ Q value d
  | .error (.fault error) d =>
      q c = .error (.fault error) d ∧ c.Before Misplaced d ∨ Parted error c d (left q c)
  | .error .starved _ => False

theorem left_of_ok {p : Parse α} {c d : Cursor} {value : α} (h : p c = .ok value d) :
    left p c = d := by
  rw [left, h]

theorem left_of_error {p : Parse α} {c d : Cursor} {stop : Stop} (h : p c = .error stop d) :
    left p c = d := by
  rw [left, h]

/-- What a parser leaves behind has all earlier reports. -/
theorem Yields.diagnostics_left {D : Diagnostic → Prop} {p : Parse α} {c : Cursor}
    {Q : α → Cursor → Prop} (h : Yields D p c Q) :
    c.diagnostics <+: (left p c).diagnostics := by
  unfold Yields at h
  unfold left
  cases hrun : p c with
  | ok value d =>
      rw [hrun] at h
      rcases h.1.reports with ⟨new, hnew, -⟩
      exact ⟨new, hnew.symm⟩
  | error stop d =>
      rw [hrun] at h
      cases stop with
      | fault error =>
          rcases h.reports with ⟨new, hnew, -⟩
          exact ⟨new, hnew.symm⟩
      | starved => exact absurd h (by simp)

/-! ## Composition -/

section Composition

variable {c : Cursor}

/-- A parser that recovers from nothing agrees with itself. -/
theorem Yields.agrees {p : Parse α} {Q : α → Cursor → Prop} (h : Yields Misplaced p c Q) :
    Agrees p p c Q := by
  refine ⟨h.mono fun _ _ => trivial, ?_⟩
  unfold Yields at h
  cases hrun : p c with
  | ok value d =>
      rw [hrun] at h
      exact ⟨rfl, h⟩
  | error stop d =>
      rw [hrun] at h
      cases stop with
      | fault error => exact .inl ⟨rfl, h⟩
      | starved => exact h

theorem Agrees.pure {Q : α → Cursor → Prop} {value : α} (h : Q value c) :
    Agrees (Pure.pure value) (Pure.pure value) c Q :=
  (Yields.pure h).agrees

theorem Agrees.imp {p q : Parse α} {Q R : α → Cursor → Prop} (hpq : Agrees p q c Q)
    (h : ∀ value d, c.Before (fun _ => True) d → Q value d → R value d) : Agrees p q c R := by
  refine ⟨hpq.1.imp h, ?_⟩
  have hrest := hpq.2
  cases hrun : p c with
  | ok value d =>
      rw [hrun] at hrest
      exact ⟨hrest.1, hrest.2.1, h value d (hrest.2.1.mono fun _ _ => trivial) hrest.2.2⟩
  | error stop d =>
      rw [hrun] at hrest
      cases stop with
      | fault error => exact hrest
      | starved => exact hrest

/-- Reports that part stay parted whatever the other parser goes on with. -/
theorem Parted.extend {error : SyntaxError} {d e e' : Cursor} (h : Parted error c d e)
    (he : e.diagnostics <+: e'.diagnostics) : Parted error c d e' := by
  rcases h with ⟨hnext, before, after, hbefore, hd, hparted⟩
  exact ⟨hnext, before, after, hbefore, hd, hparted.trans he⟩

theorem Parted.behind {error : SyntaxError} {d e e' : Cursor} (hcd : c.Before Misplaced d)
    (h : Parted error d e e') : Parted error c e e' := by
  rcases hcd.reports with ⟨new, hnew, hmisplaced⟩
  rcases h with ⟨hnext, before, after, hbefore, he, hparted⟩
  refine ⟨Nat.le_trans hcd.nextId hnext, new ++ before, after, ?_, ?_, ?_⟩
  · intro report hreport
    rcases List.mem_append.mp hreport with h | h
    · exact hmisplaced report h
    · exact hbefore report h
  · rw [he, hnew, List.append_assoc c.diagnostics]
  · rw [hnew, List.append_assoc c.diagnostics] at hparted
    exact hparted

theorem Agrees.bind {p q : Parse α} {f g : α → Parse β} {Q : α → Cursor → Prop}
    {R : β → Cursor → Prop} (hpq : Agrees p q c Q)
    (hfg : ∀ value d, c.Before (fun _ => True) d → Q value d →
      Agrees (f value) (g value) d R) : Agrees (p >>= f) (q >>= g) c R := by
  refine ⟨hpq.1.bind fun value d hcd hQ => (hfg value d hcd hQ).1, ?_⟩
  have hrest := hpq.2
  cases hrun : p c with
  | ok value d =>
      rw [hrun] at hrest
      rcases hrest with ⟨hq, hcd, hQ⟩
      have hnext := (hfg value d (hcd.mono fun _ _ => trivial) hQ).2
      rw [bind_of_ok hrun, bind_of_ok hq]
      cases hrun' : f value d with
      | ok result e =>
          rw [hrun'] at hnext
          exact ⟨hnext.1, hcd.trans hnext.2.1, hnext.2.2⟩
      | error stop e =>
          rw [hrun'] at hnext
          cases stop with
          | starved => exact hnext
          | fault error =>
              rcases hnext with ⟨hg, hde⟩ | hparted
              · exact .inl ⟨hg, hcd.trans hde⟩
              · refine .inr ?_
                have hleft : left (q >>= g) c = left (g value) d := by
                  unfold left
                  rw [bind_of_ok hq]
                rw [hleft]
                exact hparted.behind hcd
  | error stop d =>
      rw [hrun] at hrest
      rw [bind_of_error hrun]
      cases stop with
      | starved => exact hrest
      | fault error =>
          rcases hrest with ⟨hq, hcd⟩ | hparted
          · exact .inl ⟨bind_of_error hq, hcd⟩
          · refine .inr (hparted.extend ?_)
            -- the synchronizing parser may go on, which only adds reports
            have hyields := hpq.1
            unfold Yields at hyields
            cases hq : q c with
            | error stop' e =>
                have hsame : left q c = left (q >>= g) c :=
                  (left_of_error hq).trans (left_of_error (bind_of_error hq)).symm
                exact hsame ▸ List.prefix_refl _
            | ok value e =>
                rw [hq] at hyields
                have hmore := (hfg value e hyields.1 hyields.2).1.diagnostics_left
                have hleft : left (q >>= g) c = left (g value) e := by
                  unfold left
                  rw [bind_of_ok hq]
                rw [left_of_ok hq, hleft]
                exact hmore

theorem Agrees.look {p : Parse α} {f g : α → Parse β} {R : β → Cursor → Prop} {value : α}
    (hp : p c = .ok value c) (hfg : Agrees (f value) (g value) c R) :
    Agrees (p >>= f) (p >>= g) c R := by
  have hlook : Yields Misplaced p c fun value' d => value' = value ∧ d = c := by
    unfold Yields
    rw [hp]
    exact ⟨Cursor.Before.refl _ c, rfl, rfl⟩
  refine hlook.agrees.bind ?_
  rintro value' d - ⟨rfl, rfl⟩
  exact hfg

theorem Agrees.ifSymbol {mark : Symbol} {p q p' q' : Parse α} {Q : α → Cursor → Prop}
    (hc : c.Ends N)
    (hthen : ∀ token d, token.kind = .symbol mark → c.Passed token d → Agrees p q d Q)
    (helse : c.peek.symbol? ≠ some mark → Agrees p' q' c Q) :
    Agrees (acceptSymbol mark >>= fun accepted => if accepted = true then p else p')
      (acceptSymbol mark >>= fun accepted => if accepted = true then q else q') c Q := by
  refine (acceptSymbol_yields hc).agrees.bind ?_
  intro accepted d _ h
  cases accepted with
  | true =>
      rcases h with ⟨token, hkind, hpassed⟩
      exact hthen token d hkind hpassed
  | false =>
      rcases h with ⟨hpeek, rfl⟩
      exact helse hpeek

theorem Agrees.ifKeyword {word : Keyword} {p q p' q' : Parse α} {Q : α → Cursor → Prop}
    (hc : c.Ends N)
    (hthen : ∀ token d, token.kind = .keyword word → c.Passed token d → Agrees p q d Q)
    (helse : c.peek.keyword? ≠ some word → Agrees p' q' c Q) :
    Agrees (acceptKeyword word >>= fun accepted => if accepted = true then p else p')
      (acceptKeyword word >>= fun accepted => if accepted = true then q else q') c Q := by
  refine (acceptKeyword_yields hc).agrees.bind ?_
  intro accepted d _ h
  cases accepted with
  | true =>
      rcases h with ⟨token, hkind, hpassed⟩
      exact hthen token d hkind hpassed
  | false =>
      rcases h with ⟨hpeek, rfl⟩
      exact helse hpeek

theorem collect_agrees {more : Parse Bool} {item item' : Parse α} {L : Nat}
    {T : Cursor → Bool} {R : Cursor → α → Cursor → Prop} {S : Cursor → List α → Cursor → Prop}
    (hmore : ∀ c, more c = .ok (T c) c)
    (hitem : ∀ c : Cursor, c.Ends N → c.ahead.length < L → T c = true →
      Agrees item item' c fun value d => d.ahead.length < c.ahead.length ∧ R c value d)
    (hnil : ∀ c, T c = false → S c [] c)
    (hcons : ∀ c value d values e, R c value d → S d values e → S c (value :: values) e) :
    ∀ (fuel : Nat) (c : Cursor), c.Ends N → c.ahead.length < fuel → c.ahead.length < L →
      Agrees (collect more item fuel) (collect more item' fuel) c (S c) := by
  intro fuel
  induction fuel with
  | zero =>
      intro c _ hfuel
      exact absurd hfuel (Nat.not_lt_zero _)
  | succ fuel ih =>
      intro c hc hfuel hlimit
      refine Agrees.look (hmore c) ?_
      cases htest : T c with
      | false =>
          exact Agrees.pure (hnil c htest)
      | true =>
          refine (hitem c hc hlimit htest).bind ?_
          rintro value d hcd ⟨hless, hR⟩
          refine (ih d (hcd.ends hc) (by omega) (by omega)).bind ?_
          intro values e _ hS
          exact Agrees.pure (hcons c value d values e hR hS)

end Composition

/-! ## Recovery -/

end Parse

namespace Cursor

theorem skipToBoundary_suffix (previous : Token) (tokens : List Token) :
    (skipToBoundary previous tokens).2 <:+ tokens := by
  induction tokens generalizing previous with
  | nil => exact List.suffix_refl _
  | cons token rest ih =>
      unfold skipToBoundary
      split
      · exact List.suffix_refl _
      · exact (ih token).trans (List.suffix_cons token rest)

theorem before_report {D : Diagnostic → Prop} (c : Cursor) (report : Diagnostic) (h : D report) :
    c.Before D (c.report report) := by
  refine ⟨rfl, List.suffix_refl _, Nat.le_refl _, [report], rfl, ?_⟩
  intro report' hreport
  rw [List.mem_singleton.mp hreport]
  exact h

theorem advance_ahead (c : Cursor) : c.advance.ahead = c.ahead.tail := by
  unfold advance
  cases hahead : c.ahead with
  | nil => rw [hahead]; rfl
  | cons token rest => rfl

theorem advance_keeps (c : Cursor) : c.advance.last = c.last ∧ c.advance.nextId = c.nextId ∧
    c.advance.diagnostics = c.diagnostics := by
  unfold advance
  cases c.ahead <;> exact ⟨rfl, rfl, rfl⟩

theorem synchronize_suffix (c : Cursor) : c.synchronize.ahead <:+ c.ahead.tail := by
  have hskip := skipToBoundary_suffix c.advance.previous c.advance.ahead
  rw [advance_ahead] at hskip
  simpa [synchronize, advance_ahead] using hskip

theorem synchronize_diagnostics (c : Cursor) : c.synchronize.diagnostics = c.diagnostics :=
  c.advance_keeps.2.2

theorem before_synchronize {D : Diagnostic → Prop} (c : Cursor) : c.Before D c.synchronize := by
  refine ⟨c.advance_keeps.1, ?_, Nat.le_of_eq c.advance_keeps.2.1.symm, [], ?_⟩
  · exact c.synchronize_suffix.trans (List.tail_suffix _)
  · simp [synchronize_diagnostics]

/-- Giving up a statement takes at least a token, behind a token or in front of one. -/
theorem synchronize_length_lt {c d : Cursor} (hc : c.ahead ≠ [])
    (hd : d.ahead.length ≤ c.ahead.length) :
    d.synchronize.ahead.length < c.ahead.length := by
  have hlength := d.synchronize_suffix.length_le
  have hpos := List.length_pos_iff.mpr hc
  rw [List.length_tail] at hlength
  omega

end Cursor

namespace Parse

theorem left_recover_report {q : Parse (List Stmt)} {c : Cursor} :
    (left q c).diagnostics <+: (left (recover .synchronize q) c).diagnostics := by
  unfold left recover
  cases hrun : q c with
  | ok statements d => exact List.prefix_refl _
  | error stop d =>
      cases stop with
      | starved => exact List.prefix_refl _
      | fault error =>
          refine ⟨[error.report], ?_⟩
          simp only [Cursor.synchronize_diagnostics]
          rfl

/-- Parsers that agree on a declaration still do when faults are reported behind it. -/
theorem recover_agrees {p q : Parse (List Stmt)} {c : Cursor} {Q : List Stmt → Cursor → Prop}
    (hpq : Agrees p q c Q)
    (hgiven : ∀ d e : Cursor, c.Before (fun _ => True) d → c.Before (fun _ => True) e →
      e.ahead = d.synchronize.ahead → Q [] e) :
    Agrees (recover .strict p) (recover .synchronize q) c Q := by
  have hq := hpq.1
  have hp := hpq.2
  constructor
  · unfold Yields at hq ⊢
    unfold recover
    cases hrun : q c with
    | ok statements d =>
        rw [hrun] at hq
        exact hq
    | error stop d =>
        rw [hrun] at hq
        cases stop with
        | starved => exact hq
        | fault error =>
            have hreport := hq.trans (d.before_report error.report trivial)
            have hsync := hreport.trans (Cursor.before_synchronize (d.report error.report))
            exact ⟨hsync, hgiven _ _ hreport hsync rfl⟩
  · cases hrun : p c with
    | ok statements d =>
        rw [hrun] at hp
        simp only [recover, hrun, hp.1]
        exact ⟨trivial, hp.2⟩
    | error stop d =>
        rw [hrun] at hp
        cases stop with
        | starved => exact absurd hp (by simp)
        | fault error =>
            simp only [recover, hrun]
            refine .inr ?_
            rcases hp with ⟨hq, hcd⟩ | hparted
            · rcases hcd.reports with ⟨new, hnew, hmisplaced⟩
              refine ⟨hcd.nextId, new, [], hmisplaced, ?_, ?_⟩
              · simp only [Cursor.report, hnew]
                rfl
              · have hsync : recover .synchronize q c =
                    .ok [] (d.report error.report).synchronize := by
                  simp only [recover, hq]
                  rfl
                have hsame : (left (recover .synchronize q) c).diagnostics =
                    c.diagnostics ++ new ++ [error.report] := by
                  simp only [left_of_ok hsync, Cursor.synchronize_diagnostics, Cursor.report, hnew]
                exact hsame ▸ List.prefix_refl _
            · rcases hparted.extend left_recover_report with
                ⟨hnext, before, after, hbefore, hd, hprefix⟩
              refine ⟨hnext, before, after ++ [error.report], hbefore, ?_, hprefix⟩
              simp only [Cursor.report, hd]
              simp [SyntaxError.report]

end Parse

end MiniPascal
