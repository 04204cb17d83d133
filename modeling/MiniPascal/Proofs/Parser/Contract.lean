import MiniPascal.Parser.Program
import MiniPascal.Proofs.Sequence

/-!
# Contracts of parsers

A contract says what running a parser from a cursor comes to.  It never starves; the cursor only
moves on, passing tokens, giving out node numbers and adding reports; and a result satisfies a
condition of its own.  Contracts compose along `>>=`, so that the contract of a parser is put
together from those of its parts.
-/

namespace MiniPascal

namespace Cursor

/-- The text ends in a token that says so, and its names satisfy `N`. -/
structure Ends (N : String → Prop) (c : Cursor) : Prop where
  last : c.last.kind = .endOfFile
  names : ∀ token ∈ c.ahead, token.kind = .identifier → N token.lexeme

/-- One cursor comes before another of the same text, and `D` holds of the reports in between. -/
structure Before (D : Diagnostic → Prop) (c d : Cursor) : Prop where
  last : d.last = c.last
  ahead : d.ahead <:+ c.ahead
  nextId : c.nextId ≤ d.nextId
  reports : ∃ new, d.diagnostics = c.diagnostics ++ new ∧ ∀ report ∈ new, D report

/-- One cursor stands right behind the token that another one has in front. -/
structure Passed (c : Cursor) (token : Token) (d : Cursor) : Prop where
  ahead : c.ahead = token :: d.ahead
  previous : d.previous = token
  last : d.last = c.last
  nextId : d.nextId = c.nextId
  diagnostics : d.diagnostics = c.diagnostics

namespace Before

theorem refl (D : Diagnostic → Prop) (c : Cursor) : c.Before D c where
  last := rfl
  ahead := List.suffix_refl c.ahead
  nextId := Nat.le_refl c.nextId
  reports := ⟨[], by simp⟩

theorem trans {D : Diagnostic → Prop} {c d e : Cursor}
    (hcd : c.Before D d) (hde : d.Before D e) : c.Before D e := by
  rcases hcd.reports with ⟨first, hfirst, hD⟩
  rcases hde.reports with ⟨second, hsecond, hD'⟩
  constructor
  · exact hde.last.trans hcd.last
  · exact hde.ahead.trans hcd.ahead
  · exact Nat.le_trans hcd.nextId hde.nextId
  · refine ⟨first ++ second, by simp [hsecond, hfirst], ?_⟩
    intro report hreport
    rcases List.mem_append.mp hreport with h | h
    · exact hD report h
    · exact hD' report h

theorem ends {D : Diagnostic → Prop} {c d : Cursor}
    (h : c.Before D d) (hc : c.Ends N) : d.Ends N := by
  constructor
  · rw [h.last]
    exact hc.last
  · intro token htoken
    exact hc.names token (h.ahead.subset htoken)

theorem length_le {D : Diagnostic → Prop} {c d : Cursor}
    (h : c.Before D d) : d.ahead.length ≤ c.ahead.length :=
  h.ahead.length_le

theorem mono {D D' : Diagnostic → Prop} {c d : Cursor}
    (h : c.Before D d) (hD : ∀ report, D report → D' report) : c.Before D' d := by
  rcases h.reports with ⟨new, hnew, hall⟩
  exact ⟨h.last, h.ahead, h.nextId, new, hnew, fun report hr => hD report (hall report hr)⟩

end Before

namespace Passed

theorem before {c d : Cursor} {token : Token} (D : Diagnostic → Prop)
    (h : c.Passed token d) : c.Before D d where
  last := h.last
  ahead := ⟨[token], by rw [h.ahead]; rfl⟩
  nextId := Nat.le_of_eq h.nextId.symm
  reports := ⟨[], by simp [h.diagnostics]⟩

theorem ends {c d : Cursor} {token : Token} (h : c.Passed token d) (hc : c.Ends N) : d.Ends N :=
  (h.before fun _ => True).ends hc

theorem named {c d : Cursor} {token : Token} (h : c.Passed token d) (hc : c.Ends N)
    (hkind : token.kind = .identifier) : N token.lexeme := by
  refine hc.names token ?_ hkind
  rw [h.ahead]
  exact List.mem_cons_self

theorem length_eq {c d : Cursor} {token : Token} (h : c.Passed token d) :
    c.ahead.length = d.ahead.length + 1 := by
  rw [h.ahead, List.length_cons]

end Passed

/-- A token in front that does not end the text is there to be passed. -/
theorem passed_advance {c : Cursor} (hc : c.Ends N) (h : c.peek.kind ≠ .endOfFile) :
    c.Passed c.peek c.advance := by
  cases hahead : c.ahead with
  | nil =>
      have hlast : c.peek.kind = .endOfFile := by
        simp only [peek, hahead, List.headD_nil]
        exact hc.last
      exact absurd hlast h
  | cons token rest =>
      constructor <;> simp [peek, advance, hahead]

theorem peek_of_ahead {c : Cursor} {token : Token} {rest : List Token}
    (h : c.ahead = token :: rest) : c.peek = token := by
  simp [peek, h]

end Cursor

namespace Token

theorem kind_of_symbol? {token : Token} {mark : Symbol} (h : token.symbol? = some mark) :
    token.kind = .symbol mark := by
  unfold symbol? at h
  split at h
  · next hkind => rw [hkind, Option.some.inj h]
  · cases h

theorem kind_of_keyword? {token : Token} {word : Keyword} (h : token.keyword? = some word) :
    token.kind = .keyword word := by
  unfold keyword? at h
  split at h
  · next hkind => rw [hkind, Option.some.inj h]
  · cases h

theorem kind_of_isIdentifier {token : Token} (h : token.isIdentifier = true) :
    token.kind = .identifier := by
  unfold isIdentifier at h
  split at h
  · assumption
  · cases h

end Token

namespace Parse

/-- Run from `c`, the parser does not starve, moves the cursor on, and a result satisfies `Q`. -/
def Yields (D : Diagnostic → Prop) (p : Parse α) (c : Cursor) (Q : α → Cursor → Prop) : Prop :=
  match p c with
  | .ok value d => c.Before D d ∧ Q value d
  | .error (.fault _) d => c.Before D d
  | .error .starved _ => False

theorem acceptSymbol_run (mark : Symbol) (c : Cursor) :
    acceptSymbol mark c =
      if c.peek.symbol? = some mark then .ok true c.advance else .ok false c := by
  unfold acceptSymbol
  rw [bind_of_ok (rfl : atSymbol mark c = .ok (decide (c.peek.symbol? = some mark)) c)]
  by_cases h : c.peek.symbol? = some mark
  · rw [if_pos (decide_eq_true h), if_pos h]
    rfl
  · rw [if_neg (by simpa using h), if_neg h]
    rfl

theorem acceptKeyword_run (word : Keyword) (c : Cursor) :
    acceptKeyword word c =
      if c.peek.keyword? = some word then .ok true c.advance else .ok false c := by
  unfold acceptKeyword
  rw [bind_of_ok (rfl : atKeyword word c = .ok (decide (c.peek.keyword? = some word)) c)]
  by_cases h : c.peek.keyword? = some word
  · rw [if_pos (decide_eq_true h), if_pos h]
    rfl
  · rw [if_neg (by simpa using h), if_neg h]
    rfl

/-! ## Composition -/

section Composition

variable {D : Diagnostic → Prop} {c : Cursor}

theorem Yields.bind {p : Parse α} {f : α → Parse β} {Q : α → Cursor → Prop}
    {R : β → Cursor → Prop} (hp : Yields D p c Q)
    (hf : ∀ value d, c.Before D d → Q value d → Yields D (f value) d R) :
    Yields D (p >>= f) c R := by
  unfold Yields at hp ⊢
  cases hrun : p c with
  | ok value d =>
      rw [hrun] at hp
      have hrest := hf value d hp.1 hp.2
      unfold Yields at hrest
      rw [bind_of_ok hrun]
      cases hnext : f value d with
      | ok result e =>
          rw [hnext] at hrest
          exact ⟨hp.1.trans hrest.1, hrest.2⟩
      | error stop e =>
          rw [hnext] at hrest
          cases stop with
          | fault error => exact hp.1.trans hrest
          | starved => exact hrest
  | error stop d =>
      rw [hrun] at hp
      rw [bind_of_error hrun]
      cases stop with
      | fault error => exact hp
      | starved => exact hp

theorem Yields.pure {Q : α → Cursor → Prop} {value : α} (h : Q value c) :
    Yields D (pure value) c Q :=
  ⟨Cursor.Before.refl D c, h⟩

theorem Yields.imp {p : Parse α} {Q R : α → Cursor → Prop} (hp : Yields D p c Q)
    (h : ∀ value d, c.Before D d → Q value d → R value d) : Yields D p c R := by
  unfold Yields at hp ⊢
  cases hrun : p c with
  | ok value d =>
      rw [hrun] at hp
      exact ⟨hp.1, h value d hp.1 hp.2⟩
  | error stop d =>
      rw [hrun] at hp
      cases stop with
      | fault error => exact hp
      | starved => exact hp

theorem Yields.mono {D' : Diagnostic → Prop} {p : Parse α} {Q : α → Cursor → Prop}
    (hp : Yields D p c Q) (hD : ∀ report, D report → D' report) : Yields D' p c Q := by
  unfold Yields at hp ⊢
  cases hrun : p c with
  | ok value d =>
      rw [hrun] at hp
      exact ⟨hp.1.mono hD, hp.2⟩
  | error stop d =>
      rw [hrun] at hp
      cases stop with
      | fault error => exact hp.mono hD
      | starved => exact hp

theorem Yields.discard {p : Parse α} {Q : α → Cursor → Prop} (hp : Yields D p c Q) :
    Yields D (discard p) c fun _ d => ∃ value, Q value d := by
  show Yields D (p >>= fun _ => Pure.pure ()) c _
  exact hp.bind fun value d _ hQ => Yields.pure ⟨value, hQ⟩

theorem Yields.failAt {token : Token} {fault : SyntaxFault} {Q : α → Cursor → Prop} :
    Yields D (failAt token fault) c Q :=
  Cursor.Before.refl D c

theorem Yields.fail {fault : SyntaxFault} {Q : α → Cursor → Prop} :
    Yields D (fail fault) c Q :=
  Cursor.Before.refl D c

end Composition

/-! ## Single steps -/

section Steps

variable {D : Diagnostic → Prop} {c : Cursor}

theorem Yields.look {p : Parse α} {f : α → Parse β} {R : β → Cursor → Prop} {value : α}
    (hp : p c = .ok value c) (hf : Yields D (f value) c R) : Yields D (p >>= f) c R := by
  unfold Yields
  rw [bind_of_ok hp]
  exact hf

theorem advance_yields (hc : c.Ends N) (h : c.peek.kind ≠ .endOfFile) :
    Yields D advance c fun token d => token = c.peek ∧ c.Passed token d := by
  have hpassed := Cursor.passed_advance hc h
  show c.Before D c.advance ∧ c.advance.previous = c.peek ∧ c.Passed c.advance.previous c.advance
  rw [hpassed.previous]
  exact ⟨hpassed.before D, rfl, hpassed⟩

theorem freshId_yields :
    Yields D freshId c fun id d => id = c.nextId ∧ d = { c with nextId := c.nextId + 1 } := by
  refine ⟨?_, rfl, rfl⟩
  exact ⟨rfl, List.suffix_refl c.ahead, Nat.le_succ c.nextId, [], by simp⟩

theorem expectSymbol_yields {mark : Symbol} {fault : SyntaxFault} (hc : c.Ends N) :
    Yields D (expectSymbol mark fault) c
      fun token d => token.kind = .symbol mark ∧ c.Passed token d := by
  refine Yields.look rfl ?_
  by_cases h : c.peek.symbol? = some mark
  · rw [if_pos (decide_eq_true h)]
    have hkind := Token.kind_of_symbol? h
    refine (advance_yields hc (by rw [hkind]; simp)).imp ?_
    rintro token d - ⟨rfl, hpassed⟩
    exact ⟨hkind, hpassed⟩
  · rw [if_neg (by simpa using h)]
    exact Yields.fail

theorem expectKeyword_yields {word : Keyword} {fault : SyntaxFault} (hc : c.Ends N) :
    Yields D (expectKeyword word fault) c
      fun token d => token.kind = .keyword word ∧ c.Passed token d := by
  refine Yields.look rfl ?_
  by_cases h : c.peek.keyword? = some word
  · rw [if_pos (decide_eq_true h)]
    have hkind := Token.kind_of_keyword? h
    refine (advance_yields hc (by rw [hkind]; simp)).imp ?_
    rintro token d - ⟨rfl, hpassed⟩
    exact ⟨hkind, hpassed⟩
  · rw [if_neg (by simpa using h)]
    exact Yields.fail

theorem expectName_yields {fault : SyntaxFault} (hc : c.Ends N) :
    Yields D (expectName fault) c
      fun token d => token.kind = .identifier ∧ c.Passed token d := by
  refine Yields.look rfl ?_
  by_cases h : c.peek.isIdentifier = true
  · rw [if_pos h]
    have hkind := Token.kind_of_isIdentifier h
    refine (advance_yields hc (by rw [hkind]; simp)).imp ?_
    rintro token d - ⟨rfl, hpassed⟩
    exact ⟨hkind, hpassed⟩
  · rw [if_neg h]
    exact Yields.fail

theorem acceptSymbol_yields {mark : Symbol} (hc : c.Ends N) :
    Yields D (acceptSymbol mark) c fun accepted d =>
      if accepted then ∃ token, token.kind = .symbol mark ∧ c.Passed token d
      else c.peek.symbol? ≠ some mark ∧ d = c := by
  refine Yields.look rfl ?_
  by_cases h : c.peek.symbol? = some mark
  · rw [if_pos (decide_eq_true h)]
    have hkind := Token.kind_of_symbol? h
    refine (advance_yields hc (by rw [hkind]; simp)).discard.bind ?_
    rintro - d - ⟨token, rfl, hpassed⟩
    exact Yields.pure ⟨c.peek, hkind, hpassed⟩
  · rw [if_neg (by simpa using h)]
    exact Yields.pure ⟨h, rfl⟩

theorem acceptKeyword_yields {word : Keyword} (hc : c.Ends N) :
    Yields D (acceptKeyword word) c fun accepted d =>
      if accepted then ∃ token, token.kind = .keyword word ∧ c.Passed token d
      else c.peek.keyword? ≠ some word ∧ d = c := by
  refine Yields.look rfl ?_
  by_cases h : c.peek.keyword? = some word
  · rw [if_pos (decide_eq_true h)]
    have hkind := Token.kind_of_keyword? h
    refine (advance_yields hc (by rw [hkind]; simp)).discard.bind ?_
    rintro - d - ⟨token, rfl, hpassed⟩
    exact Yields.pure ⟨c.peek, hkind, hpassed⟩
  · rw [if_neg (by simpa using h)]
    exact Yields.pure ⟨h, rfl⟩

theorem Yields.ifSymbol {mark : Symbol} {p q : Parse α} {Q : α → Cursor → Prop} (hc : c.Ends N)
    (hthen : ∀ token d, token.kind = .symbol mark → c.Passed token d → Yields D p d Q)
    (helse : c.peek.symbol? ≠ some mark → Yields D q c Q) :
    Yields D (acceptSymbol mark >>= fun accepted => if accepted = true then p else q) c Q := by
  refine (acceptSymbol_yields hc).bind ?_
  intro accepted d _ h
  cases accepted with
  | true =>
      rcases h with ⟨token, hkind, hpassed⟩
      exact hthen token d hkind hpassed
  | false =>
      rcases h with ⟨hpeek, rfl⟩
      exact helse hpeek

theorem Yields.ifKeyword {word : Keyword} {p q : Parse α} {Q : α → Cursor → Prop} (hc : c.Ends N)
    (hthen : ∀ token d, token.kind = .keyword word → c.Passed token d → Yields D p d Q)
    (helse : c.peek.keyword? ≠ some word → Yields D q c Q) :
    Yields D (acceptKeyword word >>= fun accepted => if accepted = true then p else q) c Q := by
  refine (acceptKeyword_yields hc).bind ?_
  intro accepted d _ h
  cases accepted with
  | true =>
      rcases h with ⟨token, hkind, hpassed⟩
      exact hthen token d hkind hpassed
  | false =>
      rcases h with ⟨hpeek, rfl⟩
      exact helse hpeek

end Steps

/-! ## Loops -/

section Loops

variable {D : Diagnostic → Prop}

/-- A separated list: every item takes a token, `R` describes an item, `M` what follows it, and
`S` is built up from them. -/
theorem separated_yields {item : Parse α} {more : Parse Bool} {L : Nat}
    {R : Cursor → α → Cursor → Prop} {M : Bool → Cursor → Cursor → Prop}
    {S : Cursor → List α → Cursor → Prop}
    (hitem : ∀ c : Cursor, c.Ends N → c.ahead.length < L →
      Yields D item c fun value d => d.ahead.length < c.ahead.length ∧ R c value d)
    (hmore : ∀ c : Cursor, c.Ends N → Yields D more c fun follows d => M follows c d)
    (hlast : ∀ c value d e, R c value d → M false d e → S c [value] e)
    (hcons : ∀ c value d e values f,
      R c value d → M true d e → S e values f → S c (value :: values) f) :
    ∀ (fuel : Nat) (c : Cursor), c.Ends N → c.ahead.length < fuel → c.ahead.length < L →
      Yields D (separated item more fuel) c fun values d =>
        d.ahead.length < c.ahead.length ∧ S c values d := by
  intro fuel
  induction fuel with
  | zero =>
      intro c _ hfuel
      exact absurd hfuel (Nat.not_lt_zero _)
  | succ fuel ih =>
      intro c hc hfuel hlimit
      refine (hitem c hc hlimit).bind ?_
      rintro value d hcd ⟨hless, hR⟩
      refine (hmore d (hcd.ends hc)).bind ?_
      intro follows e hde hM
      have hshort := hde.length_le
      cases follows with
      | false =>
          exact Yields.pure ⟨by omega, hlast c value d e hR hM⟩
      | true =>
          refine (ih e (hde.ends (hcd.ends hc)) (by omega) (by omega)).bind ?_
          rintro values f - ⟨hless', hS⟩
          exact Yields.pure ⟨by omega, hcons c value d e values f hR hM hS⟩

/-- A possibly empty list has a result where it ends, or an item and the rest have one. -/
theorem collect_eq_ok_iff {more : Parse Bool} {item : Parse α} {T : Cursor → Bool}
    (hmore : ∀ c, more c = .ok (T c) c) {fuel : Nat} {c d : Cursor} {values : List α} :
    collect more item (fuel + 1) c = .ok values d ↔
      T c = false ∧ values = [] ∧ d = c ∨
        T c = true ∧ ∃ head e tail, item c = .ok head e ∧
          collect more item fuel e = .ok tail d ∧ values = head :: tail := by
  have hstep : collect more item (fuel + 1) = more >>= fun follows =>
      if follows = true then do
        let head ← item
        let tail ← collect more item fuel
        return head :: tail
      else return [] := rfl
  rw [hstep, bind_of_ok (hmore c)]
  cases htest : T c with
  | false =>
      constructor
      · intro hrun
        cases hrun
        exact .inl ⟨rfl, rfl, rfl⟩
      · rintro (⟨-, rfl, rfl⟩ | ⟨hfalse, -⟩)
        · rfl
        · cases hfalse
  | true =>
      rw [if_pos rfl, bind_eq_ok_iff]
      constructor
      · rintro ⟨head, e, hitem, hrest⟩
        rcases bind_eq_ok_iff.mp hrest with ⟨tail, f, htail, hpure⟩
        cases hpure
        exact .inr ⟨rfl, head, e, tail, hitem, htail, rfl⟩
      · rintro (⟨hfalse, -⟩ | ⟨-, head, e, tail, hitem, htail, rfl⟩)
        · cases hfalse
        · exact ⟨head, e, hitem, bind_eq_ok_iff.mpr ⟨tail, d, htail, rfl⟩⟩

/-- A possibly empty list: an item stands wherever `T` holds, and takes a token. -/
theorem collect_yields {more : Parse Bool} {item : Parse α} {L : Nat} {T : Cursor → Bool}
    {R : Cursor → α → Cursor → Prop} {S : Cursor → List α → Cursor → Prop}
    (hmore : ∀ c, more c = .ok (T c) c)
    (hitem : ∀ c : Cursor, c.Ends N → c.ahead.length < L → T c = true →
      Yields D item c fun value d => d.ahead.length < c.ahead.length ∧ R c value d)
    (hnil : ∀ c, T c = false → S c [] c)
    (hcons : ∀ c value d values e, R c value d → S d values e → S c (value :: values) e) :
    ∀ (fuel : Nat) (c : Cursor), c.Ends N → c.ahead.length < fuel → c.ahead.length < L →
      Yields D (collect more item fuel) c (S c) := by
  intro fuel
  induction fuel with
  | zero =>
      intro c _ hfuel
      exact absurd hfuel (Nat.not_lt_zero _)
  | succ fuel ih =>
      intro c hc hfuel hlimit
      refine Yields.look (hmore c) ?_
      cases htest : T c with
      | false =>
          exact Yields.pure (hnil c htest)
      | true =>
          refine (hitem c hc hlimit htest).bind ?_
          rintro value d hcd ⟨hless, hR⟩
          refine (ih d (hcd.ends hc) (by omega) (by omega)).bind ?_
          intro values e _ hS
          exact Yields.pure (hcons c value d values e hR hS)

end Loops

end Parse

end MiniPascal
