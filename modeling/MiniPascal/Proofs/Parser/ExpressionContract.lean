import MiniPascal.Proofs.Parser.Contract
import MiniPascal.Proofs.Syntax.Mention
import MiniPascal.Proofs.Syntax.Rendering

/-!
# Contracts of the parsers of expressions

Each level of the grammar reads the tokens of a stratified expression that binds at least as
tightly as the level, and numbers its mentions apart.
-/

namespace MiniPascal

namespace Cursor

/-- The tokens between two cursors are what pieces say. -/
def Spelled (c : Cursor) (pieces : List Piece) (d : Cursor) : Prop :=
  Piece.Leads pieces c.ahead d.ahead

theorem Spelled.nil (c : Cursor) : c.Spelled [] c :=
  Piece.leads_nil_iff.mpr rfl

theorem Spelled.append {c d e : Cursor} {xs ys : List Piece}
    (hx : c.Spelled xs d) (hy : d.Spelled ys e) : c.Spelled (xs ++ ys) e :=
  Piece.leads_append_iff.mpr ⟨d.ahead, hx, hy⟩

theorem Spelled.length_eq {c d : Cursor} {pieces : List Piece} (h : c.Spelled pieces d) :
    c.ahead.length = pieces.length + d.ahead.length :=
  Piece.Leads.length_eq h

theorem Passed.spelled {c d : Cursor} {token : Token} {piece : Piece}
    (h : c.Passed token d) (hpiece : piece.ShownBy token) : c.Spelled [piece] d :=
  ⟨[token], h.ahead, .cons hpiece .nil⟩

theorem Passed.spelled_token {c d : Cursor} {token : Token} (h : c.Passed token d) :
    c.Spelled [.ofToken token] d :=
  h.spelled (Piece.ofToken_shownBy token)

theorem Passed.spelled_mark {c d : Cursor} {token : Token} {symbol : Symbol}
    (h : c.Passed token d) (hkind : token.kind = .symbol symbol) :
    c.Spelled [.mark symbol] d :=
  h.spelled (Piece.mark_shownBy hkind)

/-- Between two cursors stands an expression that binds at least as tightly as `rank`. -/
structure Reads (N : String → Prop) (rank : Nat) (c : Cursor) (e : Expr) (d : Cursor) :
    Prop where
  spelled : c.Spelled e.render d
  stratified : e.Stratified
  rank_le : rank ≤ e.rank
  fresh : Fresh N c.nextId e.mentions d.nextId

/-- Between two cursors stand expressions with commas in between. -/
structure ReadsList (N : String → Prop) (c : Cursor) (list : List Expr) (d : Cursor) :
    Prop where
  spelled : c.Spelled (Expr.renderList list) d
  stratified : Expr.StratifiedList list
  fresh : Fresh N c.nextId (Expr.listMentions list) d.nextId

structure ReadsEntries (N : String → Prop) (c : Cursor) (entries : List (Expr × Expr))
    (d : Cursor) : Prop where
  spelled : c.Spelled (Expr.renderEntries entries) d
  stratified : Expr.StratifiedEntries entries
  fresh : Fresh N c.nextId (Expr.entryMentions entries) d.nextId

end Cursor

namespace Expr

theorem renderRest_of_ne_nil {list : List Expr} (h : list ≠ []) :
    renderRest list = .mark .comma :: renderList list := by
  cases list with
  | nil => exact absurd rfl h
  | cons e rest => rfl

theorem renderFurther_of_ne_nil {entries : List (Expr × Expr)} (h : entries ≠ []) :
    renderFurther entries = .mark .comma :: renderEntries entries := by
  cases entries with
  | nil => exact absurd rfl h
  | cons entry rest => rfl

end Expr

theorem Expr.render_length_pos (e : Expr) : 0 < e.render.length := by
  cases e <;> simp only [Expr.render, List.length_append, List.length_cons] <;> omega

theorem Cursor.Reads.length_lt {rank : Nat} {c d : Cursor} {e : Expr} (h : c.Reads N rank e d) :
    d.ahead.length < c.ahead.length := by
  have hlength := h.spelled.length_eq
  have hpos := e.render_length_pos
  omega

theorem Cursor.Reads.weaken {rank rank' : Nat} {c d : Cursor} {e : Expr}
    (h : c.Reads N rank e d) (hle : rank' ≤ rank) : c.Reads N rank' e d :=
  ⟨h.spelled, h.stratified, Nat.le_trans hle h.rank_le, h.fresh⟩

/-! ## Operators of tokens -/

namespace Token

theorem symbol?_of_kind {token : Token} {mark : Symbol} (h : token.kind = .symbol mark) :
    token.symbol? = some mark := by
  simp [symbol?, h]

theorem keyword?_of_kind {token : Token} {word : Keyword} (h : token.kind = .keyword word) :
    token.keyword? = some word := by
  simp [keyword?, h]

end Token

namespace Parse

theorem equalityOp?_eq_some_iff {token : Token} {op : BinaryOp} :
    equalityOp? token = some op ↔ token.kind = .symbol op.symbol ∧ op.rank = 4 := by
  constructor
  · intro h
    unfold equalityOp? at h
    split at h <;> cases h <;> exact ⟨Token.kind_of_symbol? (by assumption), rfl⟩
  · rintro ⟨hkind, hrank⟩
    unfold equalityOp?
    rw [Token.symbol?_of_kind hkind]
    cases op <;> first | rfl | cases hrank

theorem comparisonOp?_eq_some_iff {token : Token} {op : BinaryOp} :
    comparisonOp? token = some op ↔ token.kind = .symbol op.symbol ∧ op.rank = 5 := by
  constructor
  · intro h
    unfold comparisonOp? at h
    split at h <;> cases h <;> exact ⟨Token.kind_of_symbol? (by assumption), rfl⟩
  · rintro ⟨hkind, hrank⟩
    unfold comparisonOp?
    rw [Token.symbol?_of_kind hkind]
    cases op <;> first | rfl | cases hrank

theorem additiveOp?_eq_some_iff {token : Token} {op : BinaryOp} :
    additiveOp? token = some op ↔ token.kind = .symbol op.symbol ∧ op.rank = 6 := by
  constructor
  · intro h
    unfold additiveOp? at h
    split at h <;> cases h <;> exact ⟨Token.kind_of_symbol? (by assumption), rfl⟩
  · rintro ⟨hkind, hrank⟩
    unfold additiveOp?
    rw [Token.symbol?_of_kind hkind]
    cases op <;> first | rfl | cases hrank

theorem multiplicativeOp?_eq_some_iff {token : Token} {op : BinaryOp} :
    multiplicativeOp? token = some op ↔ token.kind = .symbol op.symbol ∧ op.rank = 7 := by
  constructor
  · intro h
    unfold multiplicativeOp? at h
    split at h <;> cases h <;> exact ⟨Token.kind_of_symbol? (by assumption), rfl⟩
  · rintro ⟨hkind, hrank⟩
    unfold multiplicativeOp?
    rw [Token.symbol?_of_kind hkind]
    cases op <;> first | rfl | cases hrank

theorem conjunctionOp?_eq_some_iff {token : Token} {op : LogicalOp} :
    conjunctionOp? token = some op ↔ token.kind = .keyword op.word ∧ op.rank = 3 := by
  constructor
  · intro h
    unfold conjunctionOp? at h
    split at h
    · cases h
      exact ⟨Token.kind_of_keyword? (by assumption), rfl⟩
    · cases h
  · rintro ⟨hkind, hrank⟩
    cases op
    · simp [conjunctionOp?, Token.keyword?_of_kind hkind, LogicalOp.word]
    · cases hrank

theorem disjunctionOp?_eq_some_iff {token : Token} {op : LogicalOp} :
    disjunctionOp? token = some op ↔ token.kind = .keyword op.word ∧ op.rank = 2 := by
  constructor
  · intro h
    unfold disjunctionOp? at h
    split at h
    · cases h
      exact ⟨Token.kind_of_keyword? (by assumption), rfl⟩
    · cases h
  · rintro ⟨hkind, hrank⟩
    cases op
    · cases hrank
    · simp [disjunctionOp?, Token.keyword?_of_kind hkind, LogicalOp.word]

theorem unaryOp?_eq_some_iff {token : Token} {op : UnaryOp} :
    unaryOp? token = some op ↔ token.kind = op.kind := by
  constructor
  · intro h
    unfold unaryOp? at h
    split at h
    · cases h
      exact Token.kind_of_keyword? (by assumption)
    · split at h
      · cases h
        exact Token.kind_of_symbol? (by assumption)
      · cases h
  · intro hkind
    cases op <;> simp [unaryOp?, Token.keyword?, Token.symbol?, hkind, UnaryOp.kind]

theorem literal?_eq_some_iff {token : Token} {value : Literal} :
    literal? token = some value ↔ token.kind = value.kind := by
  constructor
  · intro h
    unfold literal? at h
    split at h <;> cases h <;> assumption
  · intro hkind
    unfold literal?
    rw [hkind]
    cases value with
    | boolean value => cases value <;> rfl
    | _ => rfl

/-! ## Levels

`inner` reads nested expressions, as long as there are fewer tokens ahead than `limit`.  Every
nested expression stands behind a token of its own, so a level may start with `limit` tokens. -/

section Levels

variable {D : Diagnostic → Prop} {inner : Parse Expr} {limit : Nat}

theorem mapEntry_yields
    (hinner : ∀ c : Cursor, c.Ends N → c.ahead.length < limit → Yields D inner c (c.Reads N 0))
    {c : Cursor} (hc : c.Ends N) (hlimit : c.ahead.length < limit) :
    Yields D (mapEntry inner) c fun entry d =>
      d.ahead.length < c.ahead.length ∧ c.ReadsEntries N [entry] d := by
  refine (hinner c hc hlimit).bind ?_
  intro key e hce hkey
  refine (expectSymbol_yields (hce.ends hc)).discard.bind ?_
  rintro - f hef ⟨token, hkind, hpassed⟩
  have hshort := hkey.length_lt
  have hshort' := hpassed.length_eq
  refine (hinner f (hef.ends (hce.ends hc)) (by omega)).bind ?_
  intro value d _ hvalue
  have hshort'' := hvalue.length_lt
  refine Yields.pure ⟨by omega, ?_, ?_, ?_⟩
  · have hspelled :=
      hkey.spelled.append ((hpassed.spelled_mark hkind).append hvalue.spelled)
    simpa [Expr.renderEntries, Expr.renderFurther] using hspelled
  · exact ⟨hkey.stratified, hvalue.stratified, trivial⟩
  · have hfresh := hvalue.fresh
    rw [hpassed.nextId] at hfresh
    simpa [Expr.entryMentions] using hkey.fresh.append hfresh

theorem mapEntries_yields
    (hinner : ∀ c : Cursor, c.Ends N → c.ahead.length < limit → Yields D inner c (c.Reads N 0))
    {fuel : Nat} {c : Cursor} (hc : c.Ends N) (hfuel : c.ahead.length < fuel)
    (hlimit : c.ahead.length < limit) :
    Yields D (separated (mapEntry inner) (acceptSymbol .comma) fuel) c fun entries d =>
      entries ≠ [] ∧ c.ReadsEntries N entries d := by
  refine (separated_yields
    (R := fun c entry d => c.ReadsEntries N [entry] d)
    (M := fun follows c d =>
      if follows then ∃ token : Token, token.kind = .symbol .comma ∧ c.Passed token d
      else c.peek.symbol? ≠ some .comma ∧ d = c)
    (S := fun c entries d => entries ≠ [] ∧ c.ReadsEntries N entries d)
    (fun c hc hlimit => mapEntry_yields hinner hc hlimit)
    (fun c hc => acceptSymbol_yields hc) ?_ ?_ fuel c hc hfuel hlimit).imp ?_
  · rintro c entry d e hentry ⟨-, rfl⟩
    exact ⟨by simp, hentry⟩
  · rintro c ⟨key, value⟩ d e entries f hentry ⟨token, hkind, hpassed⟩ ⟨hne, hrest⟩
    refine ⟨by simp, ?_, ?_, ?_⟩
    · have hspelled := hentry.spelled.append ((hpassed.spelled_mark hkind).append hrest.spelled)
      simpa [Expr.renderEntries, Expr.renderFurther, Expr.renderFurther_of_ne_nil hne]
        using hspelled
    · exact ⟨hentry.stratified.1, hentry.stratified.2.1, hrest.stratified⟩
    · have hfresh := hrest.fresh
      rw [hpassed.nextId] at hfresh
      simpa [Expr.entryMentions] using hentry.fresh.append hfresh
  · rintro entries d - ⟨-, h⟩
    exact h

theorem argumentsFrom_yields
    (hinner : ∀ c : Cursor, c.Ends N → c.ahead.length < limit → Yields D inner c (c.Reads N 0)) :
    ∀ (fuel count : Nat) (c : Cursor), c.Ends N → c.ahead.length < fuel →
      c.ahead.length < limit →
      Yields D (argumentsFrom inner fuel count) c fun list d =>
        list ≠ [] ∧ count + list.length ≤ 255 ∧ c.ReadsList N list d := by
  intro fuel
  induction fuel with
  | zero =>
      intro count c _ hfuel
      exact absurd hfuel (Nat.not_lt_zero _)
  | succ fuel ih =>
      intro count c hc hfuel hlimit
      unfold argumentsFrom
      by_cases hcount : maxArguments ≤ count
      · rw [if_pos hcount]
        exact Yields.fail
      · rw [if_neg hcount]
        have hroom : count < 255 := Nat.lt_of_not_le hcount
        refine (hinner c hc hlimit).bind ?_
        intro head d hcd hhead
        have hshort := hhead.length_lt
        refine Yields.ifSymbol (hcd.ends hc) ?_ ?_
        · intro token e hkind hpassed
          have hshort' := hpassed.length_eq
          refine (ih (count + 1) e (hpassed.ends (hcd.ends hc)) (by omega) (by omega)).bind ?_
          rintro tail f - ⟨hne, hlength, htail⟩
          refine Yields.pure ⟨by simp, by rw [List.length_cons]; omega, ?_, ?_, ?_⟩
          · have hspelled :=
              hhead.spelled.append ((hpassed.spelled_mark hkind).append htail.spelled)
            simpa [Expr.renderList, Expr.renderRest_of_ne_nil hne] using hspelled
          · exact ⟨hhead.stratified, htail.stratified⟩
          · have hfresh := htail.fresh
            rw [hpassed.nextId] at hfresh
            exact hhead.fresh.append hfresh
        · intro _
          refine Yields.pure ⟨by simp, hroom, ?_, ?_, ?_⟩
          · simpa [Expr.renderList, Expr.renderRest] using hhead.spelled
          · exact ⟨hhead.stratified, trivial⟩
          · simpa [Expr.listMentions] using hhead.fresh

theorem arguments_yields
    (hinner : ∀ c : Cursor, c.Ends N → c.ahead.length < limit → Yields D inner c (c.Reads N 0))
    {fuel : Nat} {c : Cursor} (hc : c.Ends N) (hfuel : c.ahead.length < fuel)
    (hlimit : c.ahead.length < limit) :
    Yields D (arguments inner fuel) c fun list d =>
      list.length ≤ 255 ∧ c.ReadsList N list d := by
  refine Yields.look rfl ?_
  by_cases h : decide (c.peek.symbol? = some .rightParen) = true
  · rw [if_pos h]
    refine Yields.pure ⟨by simp, ?_, trivial, ?_⟩
    · simpa [Expr.renderList] using Cursor.Spelled.nil c
    · exact Fresh.nil (Nat.le_refl _)
  · rw [if_neg h]
    refine (argumentsFrom_yields hinner fuel 0 c hc hfuel hlimit).imp ?_
    rintro list d - ⟨-, hlength, hlist⟩
    exact ⟨by omega, hlist⟩

theorem primary_yields
    (hinner : ∀ c : Cursor, c.Ends N → c.ahead.length < limit → Yields D inner c (c.Reads N 0))
    {fuel : Nat} {c : Cursor} (hc : c.Ends N) (hfuel : c.ahead.length < fuel)
    (hlimit : c.ahead.length ≤ limit) :
    Yields D (primary inner fuel) c (c.Reads N 10) := by
  refine Yields.look rfl ?_
  cases hliteral : literal? c.peek with
  | some value =>
      have hkind := literal?_eq_some_iff.mp hliteral
      have hend : c.peek.kind ≠ .endOfFile := by
        rw [hkind]
        cases value with
        | boolean value => cases value <;> simp [Literal.kind]
        | _ => simp [Literal.kind]
      refine (advance_yields hc hend).discard.bind ?_
      rintro - d - ⟨token, rfl, hpassed⟩
      refine Yields.pure ⟨?_, trivial, Nat.le_refl _, ?_⟩
      · exact hpassed.spelled (Piece.shownBy_of_kind hkind)
      · exact Fresh.nil (Nat.le_of_eq hpassed.nextId.symm)
  | none =>
      simp only
      split
      · next hkind =>
          refine (advance_yields hc (by rw [hkind]; simp)).discard.bind ?_
          rintro - d hcd ⟨keyword, rfl, hpassed⟩
          refine (expectSymbol_yields (hcd.ends hc)).discard.bind ?_
          rintro - e hde ⟨dot, hdot, hpassed'⟩
          refine (expectName_yields (hde.ends (hcd.ends hc))).bind ?_
          rintro method f hef ⟨hmethod, hpassed''⟩
          refine freshId_yields.bind ?_
          rintro id g - ⟨rfl, rfl⟩
          have hnext : f.nextId = c.nextId := by
            rw [hpassed''.nextId, hpassed'.nextId, hpassed.nextId]
          refine Yields.pure ⟨?_, ⟨hkind, hmethod⟩, Nat.le_refl _, ?_⟩
          · exact hpassed.spelled_token.append
              ((hpassed'.spelled_mark hdot).append hpassed''.spelled_token)
          · rw [hnext]
            exact Fresh.single (by simp)
      · next hkind =>
          refine (advance_yields hc (by rw [hkind]; simp)).discard.bind ?_
          rintro - d - ⟨keyword, rfl, hpassed⟩
          refine freshId_yields.bind ?_
          rintro id e - ⟨rfl, rfl⟩
          refine Yields.pure ⟨hpassed.spelled_token, hkind, Nat.le_refl _, ?_⟩
          rw [hpassed.nextId]
          exact Fresh.single (by simp)
      · next hkind =>
          refine (advance_yields hc (by rw [hkind]; simp)).discard.bind ?_
          rintro - d - ⟨name, rfl, hpassed⟩
          refine freshId_yields.bind ?_
          rintro id e - ⟨rfl, rfl⟩
          refine Yields.pure ⟨hpassed.spelled_token, hkind, Nat.le_refl _, ?_⟩
          rw [hpassed.nextId]
          exact Fresh.single (by simp)
      · next hkind =>
          refine (advance_yields hc (by rw [hkind]; simp)).discard.bind ?_
          rintro - d hcd ⟨bracket, rfl, hpassed⟩
          have hshort := hpassed.length_eq
          refine (mapEntries_yields hinner (hcd.ends hc) (by omega) (by omega)).bind ?_
          rintro entries e hde ⟨hne, hentries⟩
          refine (expectSymbol_yields (hde.ends (hcd.ends hc))).discard.bind ?_
          rintro - f - ⟨close, hclose, hpassed'⟩
          refine Yields.pure ⟨?_, ⟨hkind, hne, hentries.stratified⟩, Nat.le_refl _, ?_⟩
          · exact hpassed.spelled_token.append
              (hentries.spelled.append (hpassed'.spelled_mark hclose))
          · have hfresh := hentries.fresh
            rw [hpassed.nextId] at hfresh
            rw [hpassed'.nextId]
            exact hfresh
      · next hkind =>
          refine (advance_yields hc (by rw [hkind]; simp)).discard.bind ?_
          rintro - d hcd ⟨paren, rfl, hpassed⟩
          have hshort := hpassed.length_eq
          refine (hinner d (hcd.ends hc) (by omega)).bind ?_
          intro value e hde hvalue
          refine (expectSymbol_yields (hde.ends (hcd.ends hc))).discard.bind ?_
          rintro - f - ⟨close, hclose, hpassed'⟩
          refine Yields.pure ⟨?_, hvalue.stratified, Nat.le_refl _, ?_⟩
          · exact (hpassed.spelled_mark hkind).append
              (hvalue.spelled.append (hpassed'.spelled_mark hclose))
          · have hfresh := hvalue.fresh
            rw [hpassed.nextId] at hfresh
            rw [hpassed'.nextId]
            exact hfresh
      · exact Yields.failAt

/-- What trails an expression is read behind it, `start` standing in front of both. -/
theorem trailers_yields
    (hinner : ∀ c : Cursor, c.Ends N → c.ahead.length < limit → Yields D inner c (c.Reads N 0))
    (start : Cursor) :
    ∀ (fuel : Nat) (target : Expr) (c : Cursor), start.Reads N 9 target c → c.Ends N →
      c.ahead.length < fuel → c.ahead.length ≤ limit →
      Yields D (trailers inner fuel target) c (start.Reads N 9) := by
  intro fuel
  induction fuel with
  | zero =>
      intro target c _ _ hfuel
      exact absurd hfuel (Nat.not_lt_zero _)
  | succ fuel ih =>
      intro target c htarget hc hfuel hlimit
      unfold trailers
      refine Yields.look rfl ?_
      split
      · next hsymbol =>
          have hkind := Token.kind_of_symbol? hsymbol
          refine (advance_yields hc (by rw [hkind]; simp)).discard.bind ?_
          rintro - d hcd ⟨opening, rfl, hpassed⟩
          have hshort := hpassed.length_eq
          refine (arguments_yields hinner (hcd.ends hc) (by omega) (by omega)).bind ?_
          rintro values e hde ⟨hcount, hvalues⟩
          refine (expectSymbol_yields (hde.ends (hcd.ends hc))).bind ?_
          rintro paren f hef ⟨hparen, hpassed'⟩
          have hshort' := hde.length_le
          have hshort'' := hpassed'.length_eq
          refine ih _ f ?_ (hef.ends (hde.ends (hcd.ends hc))) (by omega) (by omega)
          refine ⟨?_, ?_, Nat.le_refl _, ?_⟩
          · exact htarget.spelled.append ((hpassed.spelled_mark hkind).append
              (hvalues.spelled.append hpassed'.spelled_token))
          · exact ⟨hparen, htarget.rank_le, htarget.stratified, hcount, hvalues.stratified⟩
          · have hfresh := hvalues.fresh
            rw [hpassed.nextId] at hfresh
            rw [hpassed'.nextId]
            exact htarget.fresh.append hfresh
      · next hsymbol =>
          have hkind := Token.kind_of_symbol? hsymbol
          refine (advance_yields hc (by rw [hkind]; simp)).discard.bind ?_
          rintro - d hcd ⟨opening, rfl, hpassed⟩
          have hshort := hpassed.length_eq
          refine (hinner d (hcd.ends hc) (by omega)).bind ?_
          intro index e hde hindex
          refine (expectSymbol_yields (hde.ends (hcd.ends hc))).bind ?_
          rintro bracket f hef ⟨hbracket, hpassed'⟩
          have hshort' := hde.length_le
          have hshort'' := hpassed'.length_eq
          refine ih _ f ?_ (hef.ends (hde.ends (hcd.ends hc))) (by omega) (by omega)
          refine ⟨?_, ?_, Nat.le_refl _, ?_⟩
          · exact htarget.spelled.append ((hpassed.spelled_mark hkind).append
              (hindex.spelled.append hpassed'.spelled_token))
          · exact ⟨hbracket, htarget.rank_le, htarget.stratified, hindex.stratified⟩
          · have hfresh := hindex.fresh
            rw [hpassed.nextId] at hfresh
            rw [hpassed'.nextId]
            exact htarget.fresh.append hfresh
      · next hsymbol =>
          have hkind := Token.kind_of_symbol? hsymbol
          refine (advance_yields hc (by rw [hkind]; simp)).discard.bind ?_
          rintro - d hcd ⟨dot, rfl, hpassed⟩
          refine (expectName_yields (hcd.ends hc)).bind ?_
          rintro name e hde ⟨hname, hpassed'⟩
          have hshort := hpassed.length_eq
          have hshort' := hpassed'.length_eq
          refine ih _ e ?_ (hde.ends (hcd.ends hc)) (by omega) (by omega)
          refine ⟨?_, ⟨hname, htarget.rank_le, htarget.stratified⟩, Nat.le_refl _, ?_⟩
          · exact htarget.spelled.append
              ((hpassed.spelled_mark hkind).append hpassed'.spelled_token)
          · rw [hpassed'.nextId, hpassed.nextId]
            exact htarget.fresh
      · exact Yields.pure htarget

theorem call_yields
    (hinner : ∀ c : Cursor, c.Ends N → c.ahead.length < limit → Yields D inner c (c.Reads N 0))
    {fuel : Nat} {c : Cursor} (hc : c.Ends N) (hfuel : c.ahead.length < fuel)
    (hlimit : c.ahead.length ≤ limit) :
    Yields D (call inner fuel) c (c.Reads N 9) := by
  refine (primary_yields hinner hc hfuel hlimit).bind ?_
  intro target d hcd htarget
  have hshort := htarget.length_lt
  have htarget' : c.Reads N 9 target d := htarget.weaken (by omega)
  exact trailers_yields hinner c fuel target d htarget' (hcd.ends hc) (by omega) (by omega)

theorem unary_yields
    (hinner : ∀ c : Cursor, c.Ends N → c.ahead.length < limit → Yields D inner c (c.Reads N 0)) :
    ∀ (fuel : Nat) (c : Cursor), c.Ends N → c.ahead.length < fuel → c.ahead.length ≤ limit →
      Yields D (unary inner fuel) c (c.Reads N 8) := by
  intro fuel
  induction fuel with
  | zero =>
      intro c _ hfuel
      exact absurd hfuel (Nat.not_lt_zero _)
  | succ fuel ih =>
      intro c hc hfuel hlimit
      unfold unary
      refine Yields.look rfl ?_
      cases hop : unaryOp? c.peek with
      | some op =>
          have hkind := unaryOp?_eq_some_iff.mp hop
          refine (advance_yields hc (by rw [hkind]; cases op <;> simp [UnaryOp.kind])).bind ?_
          rintro token d hcd ⟨rfl, hpassed⟩
          have hshort := hpassed.length_eq
          refine (ih d (hcd.ends hc) (by omega) (by omega)).bind ?_
          intro operand e _ hoperand
          refine Yields.pure ⟨?_, ⟨hkind, hoperand.rank_le, hoperand.stratified⟩,
            Nat.le_refl _, ?_⟩
          · exact hpassed.spelled_token.append hoperand.spelled
          · have hfresh := hoperand.fresh
            rw [hpassed.nextId] at hfresh
            exact hfresh
      | none =>
          refine (call_yields hinner hc hfuel hlimit).imp ?_
          intro e d _ he
          exact he.weaken (by omega)

/-- With operands of their level and of tighter ones, operators build expressions of their level. -/
structure BuildsLevel (operator? : Token → Option β) (build : Expr → β → Token → Expr → Expr)
    (rank : Nat) : Prop where
  ne_end : ∀ {token op}, operator? token = some op → token.kind ≠ .endOfFile
  rank_eq : ∀ {token op} left right, operator? token = some op →
    (build left op token right).rank = rank
  stratified : ∀ {token op left right}, operator? token = some op → left.Stratified →
    right.Stratified → rank ≤ left.rank → rank < right.rank →
    (build left op token right).Stratified
  render : ∀ left op token right,
    (build left op token right).render = left.render ++ .ofToken token :: right.render
  mentions : ∀ left op token right,
    (build left op token right).mentions = left.mentions ++ right.mentions

theorem buildsLevel_binary {operator? : Token → Option BinaryOp} {rank : Nat}
    (hop : ∀ {token op}, operator? token = some op ↔
      token.kind = .symbol op.symbol ∧ op.rank = rank) :
    BuildsLevel operator? buildBinary rank where
  ne_end h := by
    rw [(hop.mp h).1]
    simp
  rank_eq _ _ h := (hop.mp h).2
  stratified h hleft hright hrank hrank' := by
    rcases hop.mp h with ⟨hkind, rfl⟩
    exact ⟨hkind, hrank, hrank', hleft, hright⟩
  render _ _ _ _ := rfl
  mentions _ _ _ _ := rfl

theorem buildsLevel_logical {operator? : Token → Option LogicalOp} {rank : Nat}
    (hop : ∀ {token op}, operator? token = some op ↔
      token.kind = .keyword op.word ∧ op.rank = rank) :
    BuildsLevel operator? buildLogical rank where
  ne_end h := by
    rw [(hop.mp h).1]
    simp
  rank_eq _ _ h := (hop.mp h).2
  stratified h hleft hright hrank hrank' := by
    rcases hop.mp h with ⟨hkind, rfl⟩
    exact ⟨hkind, hrank, hrank', hleft, hright⟩
  render _ _ _ _ := rfl
  mentions _ _ _ _ := rfl

section Levels

variable {operator? : Token → Option β} {build : Expr → β → Token → Expr → Expr}
  {operand : Parse Expr} {rank : Nat} (hbuilds : BuildsLevel operator? build rank)
  (hoperand : ∀ c : Cursor, c.Ends N → c.ahead.length ≤ limit →
    Yields D operand c (c.Reads N (rank + 1)))
include hbuilds hoperand

/-- A chain goes on behind its left operand, `start` standing in front of both. -/
theorem chain_yields (start : Cursor) :
    ∀ (fuel : Nat) (left : Expr) (c : Cursor), start.Reads N rank left c → c.Ends N →
      c.ahead.length < fuel → c.ahead.length ≤ limit →
      Yields D (chain operator? build operand fuel left) c (start.Reads N rank) := by
  intro fuel
  induction fuel with
  | zero =>
      intro left c _ _ hfuel
      exact absurd hfuel (Nat.not_lt_zero _)
  | succ fuel ih =>
      intro left c hleft hc hfuel hlimit
      unfold chain
      refine Yields.look rfl ?_
      cases hpeek : operator? c.peek with
      | none =>
          exact Yields.pure hleft
      | some op =>
          refine (advance_yields hc (hbuilds.ne_end hpeek)).bind ?_
          rintro token d hcd ⟨rfl, hpassed⟩
          have hshort := hpassed.length_eq
          refine (hoperand d (hcd.ends hc) (by omega)).bind ?_
          intro right e hde hright
          have hshort' := hde.length_le
          refine ih _ e ?_ (hde.ends (hcd.ends hc)) (by omega) (by omega)
          refine ⟨?_, ?_, Nat.le_of_eq (hbuilds.rank_eq left right hpeek).symm, ?_⟩
          · rw [hbuilds.render]
            exact hleft.spelled.append (hpassed.spelled_token.append hright.spelled)
          · exact hbuilds.stratified hpeek hleft.stratified hright.stratified hleft.rank_le
              hright.rank_le
          · have hfresh := hright.fresh
            rw [hpassed.nextId] at hfresh
            rw [hbuilds.mentions]
            exact hleft.fresh.append hfresh

theorem level_yields {fuel : Nat} {c : Cursor} (hc : c.Ends N) (hfuel : c.ahead.length < fuel)
    (hlimit : c.ahead.length ≤ limit) :
    Yields D (level operator? build operand fuel) c (c.Reads N rank) := by
  refine (hoperand c hc hlimit).bind ?_
  intro left d hcd hleft
  have hshort := hcd.length_le
  exact chain_yields hbuilds hoperand c fuel left d (hleft.weaken (Nat.le_succ rank))
    (hcd.ends hc) (by omega) (by omega)

end Levels

theorem disjunction_yields
    (hinner : ∀ c : Cursor, c.Ends N → c.ahead.length < limit → Yields D inner c (c.Reads N 0))
    {fuel : Nat} {c : Cursor} (hc : c.Ends N) (hfuel : c.ahead.length < fuel)
    (hlimit : c.ahead.length ≤ limit) :
    Yields D (disjunction inner fuel) c (c.Reads N 2) := by
  -- the tokens that `c` has ahead bound every level at once
  have hunary (d : Cursor) (hd : d.Ends N) (hle : d.ahead.length ≤ c.ahead.length) :
      Yields D (unary inner fuel) d (d.Reads N 8) :=
    unary_yields hinner fuel d hd (by omega) (by omega)
  have hproduct (d : Cursor) (hd : d.Ends N) (hle : d.ahead.length ≤ c.ahead.length) :
      Yields D (product inner fuel) d (d.Reads N 7) :=
    level_yields (buildsLevel_binary multiplicativeOp?_eq_some_iff) hunary hd (by omega) hle
  have hsum (d : Cursor) (hd : d.Ends N) (hle : d.ahead.length ≤ c.ahead.length) :
      Yields D (sum inner fuel) d (d.Reads N 6) :=
    level_yields (buildsLevel_binary additiveOp?_eq_some_iff) hproduct hd (by omega) hle
  have hcomparison (d : Cursor) (hd : d.Ends N) (hle : d.ahead.length ≤ c.ahead.length) :
      Yields D (comparison inner fuel) d (d.Reads N 5) :=
    level_yields (buildsLevel_binary comparisonOp?_eq_some_iff) hsum hd (by omega) hle
  have hequality (d : Cursor) (hd : d.Ends N) (hle : d.ahead.length ≤ c.ahead.length) :
      Yields D (equality inner fuel) d (d.Reads N 4) :=
    level_yields (buildsLevel_binary equalityOp?_eq_some_iff) hcomparison hd (by omega) hle
  have hconjunction (d : Cursor) (hd : d.Ends N) (hle : d.ahead.length ≤ c.ahead.length) :
      Yields D (conjunction inner fuel) d (d.Reads N 3) :=
    level_yields (buildsLevel_logical conjunctionOp?_eq_some_iff) hequality hd (by omega) hle
  exact level_yields (buildsLevel_logical disjunctionOp?_eq_some_iff) hconjunction hc hfuel
    (Nat.le_refl _)

theorem name_of_spelled {id : NodeId} {name : Token} {c d : Cursor} (hc : c.Ends N)
    (hspelled : c.Spelled (Expr.variable id name).render d)
    (hstratified : (Expr.variable id name).Stratified) : N name.lexeme := by
  rcases Piece.leads_cons_iff.mp hspelled with ⟨token, rest, hahead, hshown, -⟩
  have hkind : token.kind = .identifier := hshown.1.trans hstratified
  have hlexeme : token.lexeme = name.lexeme := hshown.2 name.lexeme rfl
  rw [← hlexeme]
  refine hc.names token ?_ hkind
  rw [hahead]
  exact List.mem_cons_self

theorem assignTo_yields {target value : Expr} {mark token : Token} {c d e f : Cursor}
    (hc : c.Ends N) (htarget : c.Reads N 2 target d) (hmark : token.kind = .symbol .colonEqual)
    (hpassed : d.Passed token e) (hvalue : e.Reads N 1 value f) :
    Yields D (assignTo target mark value) f (c.Reads N 1) := by
  have hfresh := hvalue.fresh
  rw [hpassed.nextId] at hfresh
  unfold assignTo
  split
  · refine freshId_yields.bind ?_
    rintro id g - ⟨rfl, rfl⟩
    refine Yields.pure ⟨?_, ⟨htarget.stratified, hvalue.rank_le, hvalue.stratified⟩,
      Nat.le_refl _, ?_⟩
    · exact htarget.spelled.append ((hpassed.spelled_mark hmark).append hvalue.spelled)
    · exact (hfresh.widen htarget.fresh.le (Nat.le_refl _)).append
        (Fresh.single fun _ => name_of_spelled hc htarget.spelled htarget.stratified)
  · rcases htarget.stratified with ⟨hname, hrank, hobject⟩
    refine Yields.pure ⟨?_, ⟨hname, hrank, hobject, hvalue.rank_le, hvalue.stratified⟩,
      Nat.le_refl _, ?_⟩
    · have hspelled :=
        htarget.spelled.append ((hpassed.spelled_mark hmark).append hvalue.spelled)
      simpa [Expr.render] using hspelled
    · exact htarget.fresh.append hfresh
  · exact Yields.failAt

theorem assignment_yields
    (hinner : ∀ c : Cursor, c.Ends N → c.ahead.length < limit → Yields D inner c (c.Reads N 0)) :
    ∀ (fuel : Nat) (c : Cursor), c.Ends N → c.ahead.length < fuel → c.ahead.length ≤ limit →
      Yields D (assignment inner fuel) c (c.Reads N 1) := by
  intro fuel
  induction fuel with
  | zero =>
      intro c _ hfuel
      exact absurd hfuel (Nat.not_lt_zero _)
  | succ fuel ih =>
      intro c hc hfuel hlimit
      unfold assignment
      refine (disjunction_yields hinner hc hfuel hlimit).bind ?_
      intro target d hcd htarget
      have hshort := htarget.length_lt
      refine Yields.ifSymbol (hcd.ends hc) ?_ ?_
      · intro token e hkind hpassed
        refine Yields.look rfl ?_
        have hshort' := hpassed.length_eq
        refine (ih e (hpassed.ends (hcd.ends hc)) (by omega) (by omega)).bind ?_
        intro value f _ hvalue
        exact assignTo_yields hc htarget hkind hpassed hvalue
      · intro _
        exact Yields.pure (htarget.weaken (by omega))

end Levels

theorem withCast_yields {D : Diagnostic → Prop} {value : Expr} {c d : Cursor} (hd : d.Ends N)
    (hvalue : c.Reads N 1 value d) : Yields D (withCast value) d (c.Reads N 0) := by
  refine Yields.ifKeyword hd ?_ ?_
  · intro token e hkind hpassed
    refine (expectName_yields (hpassed.ends hd)).bind ?_
    rintro name f - ⟨hname, hpassed'⟩
    refine Yields.pure ⟨?_, ⟨hvalue.rank_le, hvalue.stratified⟩, Nat.zero_le _, ?_⟩
    · have hword : d.Spelled [⟨.keyword .as, none⟩] e :=
        hpassed.spelled (Piece.shownBy_of_kind hkind)
      have htype : e.Spelled [.typeName name.lexeme] f :=
        hpassed'.spelled ⟨hname, fun _ h => Option.some.inj h⟩
      exact hvalue.spelled.append (hword.append htype)
    · rw [hpassed'.nextId, hpassed.nextId]
      exact hvalue.fresh
  · intro _
    exact Yields.pure (hvalue.weaken (Nat.zero_le _))

/-- With more fuel than there are tokens ahead, an expression is read or refused. -/
theorem expression_yields {D : Diagnostic → Prop} :
    ∀ (fuel : Nat) (c : Cursor), c.Ends N → c.ahead.length < fuel →
      Yields D (expression fuel) c (c.Reads N 0) := by
  intro fuel
  induction fuel with
  | zero =>
      intro c _ hfuel
      exact absurd hfuel (Nat.not_lt_zero _)
  | succ fuel ih =>
      intro c hc hfuel
      unfold expression
      refine (assignment_yields ih (fuel + 1) c hc hfuel (Nat.le_of_lt_succ hfuel)).bind ?_
      intro value d hcd hvalue
      exact withCast_yields (hcd.ends hc) hvalue

end Parse

end MiniPascal
