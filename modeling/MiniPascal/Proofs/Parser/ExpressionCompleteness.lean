import MiniPascal.Proofs.Parser.ExpressionContract

/-!
# Completeness of the parsers of expressions

The tokens of a stratified expression are read back as that expression, whatever follows them, as
long as it carries the expression on no further.
-/

namespace MiniPascal

namespace Parse

/-- Run from `c`, the parser has a result, and it satisfies `Q`. -/
def Finds (p : Parse α) (c : Cursor) (Q : α → Cursor → Prop) : Prop :=
  ∃ value d, p c = .ok value d ∧ Q value d

theorem Finds.bind {p : Parse α} {f : α → Parse β} {c : Cursor} {Q : α → Cursor → Prop}
    {R : β → Cursor → Prop} (hp : Finds p c Q)
    (hf : ∀ value d, Q value d → Finds (f value) d R) : Finds (p >>= f) c R := by
  rcases hp with ⟨value, d, hrun, hQ⟩
  rcases hf value d hQ with ⟨result, e, hrun', hR⟩
  exact ⟨result, e, by rw [bind_of_ok hrun, hrun'], hR⟩

theorem Finds.pure {c : Cursor} {Q : α → Cursor → Prop} {value : α} (h : Q value c) :
    Finds (pure value) c Q :=
  ⟨value, c, rfl, h⟩

theorem Finds.step {p : Parse α} {f : α → Parse β} {c d : Cursor} {R : β → Cursor → Prop}
    {value : α} (hp : p c = .ok value d) (hf : Finds (f value) d R) : Finds (p >>= f) c R := by
  rcases hf with ⟨result, e, hrun, hR⟩
  exact ⟨result, e, by rw [bind_of_ok hp, hrun], hR⟩

end Parse

/-- The cursor stands in front of these tokens of a text that ends in `last`. -/
structure Cursor.Faces (c : Cursor) (tokens : List Token) (last : Token) : Prop where
  ahead : c.ahead = tokens
  last : c.last = last

theorem Cursor.Faces.peek {c : Cursor} {tokens : List Token} {last : Token}
    (h : c.Faces tokens last) : c.peek = tokens.headD last := by
  rw [Cursor.peek, h.ahead, h.last]

namespace Parse

section Tokens

variable {c : Cursor} {token last : Token} {rest : List Token}

theorem advance_finds (hc : c.Faces (token :: rest) last) :
    Finds advance c fun passed d => passed = token ∧ d.Faces rest last := by
  refine ⟨token, { c with previous := token, ahead := rest }, ?_, rfl, rfl, hc.last⟩
  show EStateM.Result.ok c.advance.previous c.advance = _
  simp [Cursor.advance, hc.ahead]

theorem expectSymbol_finds {mark : Symbol} {fault : SyntaxFault}
    (hc : c.Faces (token :: rest) last) (hkind : token.kind = .symbol mark) :
    Finds (expectSymbol mark fault) c fun passed d => passed = token ∧ d.Faces rest last := by
  refine Finds.step rfl ?_
  rw [if_pos]
  · exact advance_finds hc
  · simpa [Cursor.peek_of_ahead hc.ahead] using Token.symbol?_of_kind hkind

theorem expectName_finds {fault : SyntaxFault}
    (hc : c.Faces (token :: rest) last) (hkind : token.kind = .identifier) :
    Finds (expectName fault) c fun passed d => passed = token ∧ d.Faces rest last := by
  refine Finds.step rfl ?_
  rw [if_pos]
  · exact advance_finds hc
  · simp [Cursor.peek_of_ahead hc.ahead, Token.isIdentifier, hkind]

theorem Finds.discard {p : Parse α} {Q : α → Cursor → Prop} (hp : Finds p c Q) :
    Finds (discard p) c fun _ d => ∃ value, Q value d := by
  show Finds (p >>= fun _ => Pure.pure ()) c _
  exact hp.bind fun value d hQ => Finds.pure ⟨value, hQ⟩

theorem Finds.passSymbol {mark : Symbol} {fault : SyntaxFault} {f : Unit → Parse β}
    {R : β → Cursor → Prop} (hc : c.Faces (token :: rest) last)
    (hkind : token.kind = .symbol mark)
    (hf : ∀ d : Cursor, d.Faces rest last → Finds (f ()) d R) :
    Finds (Functor.discard (expectSymbol mark fault) >>= f) c R := by
  refine (expectSymbol_finds hc hkind).discard.bind ?_
  rintro - d ⟨passed, -, hd⟩
  exact hf d hd

theorem Finds.passToken {f : Unit → Parse β} {R : β → Cursor → Prop}
    (hc : c.Faces (token :: rest) last)
    (hf : ∀ d : Cursor, d.Faces rest last → Finds (f ()) d R) :
    Finds (Functor.discard advance >>= f) c R := by
  refine (advance_finds hc).discard.bind ?_
  rintro - d ⟨passed, -, hd⟩
  exact hf d hd

theorem Finds.numbered {f : NodeId → Parse β} {tokens : List Token} {R : β → Cursor → Prop}
    (hc : c.Faces tokens last)
    (hf : ∀ (id : NodeId) (d : Cursor), d.Faces tokens last → Finds (f id) d R) :
    Finds (freshId >>= f) c R :=
  Finds.step rfl (hf c.nextId { c with nextId := c.nextId + 1 } ⟨hc.ahead, hc.last⟩)

theorem Finds.thenSymbol {mark : Symbol} {p q : Parse α} {Q : α → Cursor → Prop}
    (hc : c.Faces (token :: rest) last) (hkind : token.kind = .symbol mark)
    (hp : ∀ d : Cursor, d.Faces rest last → d.previous = token → Finds p d Q) :
    Finds (acceptSymbol mark >>= fun accepted => if accepted = true then p else q) c Q := by
  have haccept : acceptSymbol mark c = .ok true c.advance := by
    rw [acceptSymbol_run, Cursor.peek_of_ahead hc.ahead, if_pos (Token.symbol?_of_kind hkind)]
  have hd : c.advance.Faces rest last ∧ c.advance.previous = token := by
    refine ⟨⟨?_, ?_⟩, ?_⟩ <;> simp [Cursor.advance, hc.ahead, hc.last]
  exact Finds.step haccept (hp c.advance hd.1 hd.2)

theorem Finds.elseSymbol {mark : Symbol} {p q : Parse α} {Q : α → Cursor → Prop}
    (hpeek : c.peek.symbol? ≠ some mark) (hq : Finds q c Q) :
    Finds (acceptSymbol mark >>= fun accepted => if accepted = true then p else q) c Q := by
  have haccept : acceptSymbol mark c = .ok false c := by
    rw [acceptSymbol_run, if_neg hpeek]
  exact Finds.step haccept hq

end Tokens

/-- The parser reads back every expression that binds at least as tightly as `rank`, as long as
there are fewer tokens ahead than `limit`. -/
def ReadsBack (p : Parse Expr) (rank limit : Nat) : Prop :=
  ∀ (e : Expr) (c : Cursor) (tokens rest : List Token) (last : Token),
    e.Stratified → rank ≤ e.rank → Piece.Leads e.render tokens rest →
    (rest.headD last).Stops rank → c.Faces tokens last → tokens.length < limit →
    Finds p c fun read d => read.unplaced = e.unplaced ∧ d.Faces rest last

/-! ## Lists of expressions -/

section Lists

variable {inner : Parse Expr} {limit : Nat} {last : Token}

theorem stops_of_symbol {token : Token} {mark : Symbol} (hkind : token.kind = .symbol mark)
    (hmark : (TokenKind.symbol mark).continuation? = none) : token.Stops 0 := by
  intro r hr
  rw [hkind, hmark] at hr
  cases hr

theorem argumentsFrom_finds (hinner : ReadsBack inner 0 limit)
    {paren : Token} (hparen : paren.kind = .symbol .rightParen) {rest : List Token} :
    ∀ (list : List Expr) (fuel count : Nat) (c : Cursor) (tokens : List Token),
      list ≠ [] → count + list.length ≤ 255 → Expr.StratifiedList list →
      Piece.Leads (Expr.renderList list) tokens (paren :: rest) → c.Faces tokens last →
      tokens.length < fuel → tokens.length < limit →
      Finds (argumentsFrom inner fuel count) c fun values d =>
        Expr.unplacedList values = Expr.unplacedList list ∧ d.Faces (paren :: rest) last := by
  intro list
  induction list with
  | nil =>
      intro _ _ _ _ h
      exact absurd rfl h
  | cons e others ih =>
      intro fuel count c tokens _ hcount hlist htokens hc hfuel hlimit
      cases fuel with
      | zero => exact absurd hfuel (Nat.not_lt_zero _)
      | succ fuel =>
          rw [List.length_cons] at hcount
          unfold argumentsFrom
          rw [if_neg (by unfold maxArguments; omega)]
          rcases Piece.leads_append_iff.mp htokens with ⟨middle, he, hrest⟩
          cases others with
          | nil =>
              have hmiddle := Piece.leads_nil_iff.mp hrest
              subst hmiddle
              have hstop : ((paren :: rest).headD last).Stops 0 := stops_of_symbol hparen rfl
              refine (hinner e c tokens _ last hlist.1 (Nat.zero_le _) he hstop hc hlimit).bind ?_
              rintro value d ⟨hvalue, hd⟩
              refine Finds.elseSymbol ?_ (Finds.pure ⟨?_, hd⟩)
              · rw [Cursor.peek_of_ahead hd.ahead, Token.symbol?_of_kind hparen]
                simp
              · simp [Expr.unplacedList, hvalue]
          | cons e' others =>
              rcases Piece.leads_cons_iff.mp hrest with ⟨comma, middle', rfl, hcomma, hothers⟩
              have hkind : comma.kind = .symbol .comma := hcomma.1
              have hstop : ((comma :: middle').headD last).Stops 0 := stops_of_symbol hkind rfl
              have hshort := he.length_eq
              rw [List.length_cons] at hshort
              refine (hinner e c tokens _ last hlist.1 (Nat.zero_le _) he hstop hc hlimit).bind ?_
              rintro value d ⟨hvalue, hd⟩
              refine Finds.thenSymbol hd hkind ?_
              intro f hf _
              refine (ih fuel (count + 1) f middle' (by simp) (by omega) hlist.2 hothers hf
                (by omega) (by omega)).bind ?_
              rintro values g ⟨hvalues, hg⟩
              refine Finds.pure ⟨?_, hg⟩
              rw [Expr.unplacedList, Expr.unplacedList, hvalue, hvalues]

theorem arguments_finds (hinner : ReadsBack inner 0 limit)
    {paren : Token} (hparen : paren.kind = .symbol .rightParen) {rest tokens : List Token}
    {list : List Expr} {fuel : Nat} {c : Cursor}
    (hcount : list.length ≤ 255) (hlist : Expr.StratifiedList list)
    (htokens : Piece.Leads (Expr.renderList list) tokens (paren :: rest))
    (hc : c.Faces tokens last) (hfuel : tokens.length < fuel) (hlimit : tokens.length < limit) :
    Finds (arguments inner fuel) c fun values d =>
      Expr.unplacedList values = Expr.unplacedList list ∧ d.Faces (paren :: rest) last := by
  refine Finds.step rfl ?_
  cases list with
  | nil =>
      have htokens' := Piece.leads_nil_iff.mp htokens
      subst htokens'
      rw [if_pos]
      · exact Finds.pure ⟨rfl, hc⟩
      · simpa [Cursor.peek_of_ahead hc.ahead] using Token.symbol?_of_kind hparen
  | cons e others =>
      rcases Expr.render_head e hlist.1 with ⟨piece, pieces, hrender, hpiece, -⟩
      have htokens' := htokens
      rw [Expr.renderList, hrender, List.cons_append] at htokens'
      rcases Piece.leads_cons_iff.mp htokens' with ⟨token, middle, rfl, hshown, -⟩
      rw [if_neg]
      · exact argumentsFrom_finds hinner hparen (e :: others) fuel 0 c _ (by simp) (by omega)
          hlist htokens hc hfuel hlimit
      · intro h
        have hsymbol := of_decide_eq_true h
        rw [Cursor.peek_of_ahead hc.ahead] at hsymbol
        rw [← hshown.1] at hpiece
        exact hpiece (Token.kind_of_symbol? hsymbol)

theorem mapEntry_finds (hinner : ReadsBack inner 0 limit) {key value : Expr}
    {tokens middle rest : List Token} {colon : Token} {c : Cursor}
    (hcolon : colon.kind = .symbol .colon) (hkey : key.Stratified) (hvalue : value.Stratified)
    (htokens : Piece.Leads key.render tokens (colon :: middle))
    (hmiddle : Piece.Leads value.render middle rest) (hstop : (rest.headD last).Stops 0)
    (hc : c.Faces tokens last) (hlimit : tokens.length < limit) :
    Finds (mapEntry inner) c fun entry d =>
      entry.1.unplaced = key.unplaced ∧ entry.2.unplaced = value.unplaced ∧
        d.Faces rest last := by
  have hstop' : ((colon :: middle).headD last).Stops 0 := stops_of_symbol hcolon rfl
  have hshort := htokens.length_eq
  rw [List.length_cons] at hshort
  refine (hinner key c tokens _ last hkey (Nat.zero_le _) htokens hstop' hc hlimit).bind ?_
  rintro first d ⟨hfirst, hd⟩
  refine Finds.passSymbol hd hcolon ?_
  intro f hf
  refine (hinner value f middle rest last hvalue (Nat.zero_le _) hmiddle hstop hf
    (by omega)).bind ?_
  rintro second g ⟨hsecond, hg⟩
  exact Finds.pure ⟨hfirst, hsecond, hg⟩

theorem mapEntries_finds (hinner : ReadsBack inner 0 limit)
    {bracket : Token} (hbracket : bracket.kind = .symbol .rightBracket) {rest : List Token} :
    ∀ (entries : List (Expr × Expr)) (fuel : Nat) (c : Cursor) (tokens : List Token),
      entries ≠ [] → Expr.StratifiedEntries entries →
      Piece.Leads (Expr.renderEntries entries) tokens (bracket :: rest) → c.Faces tokens last →
      tokens.length < fuel → tokens.length < limit →
      Finds (separated (mapEntry inner) (acceptSymbol .comma) fuel) c fun read d =>
        Expr.unplacedEntries read = Expr.unplacedEntries entries ∧
          d.Faces (bracket :: rest) last := by
  intro entries
  induction entries with
  | nil =>
      intro _ _ _ h
      exact absurd rfl h
  | cons entry others ih =>
      intro fuel c tokens _ hentries htokens hc hfuel hlimit
      rcases entry with ⟨key, value⟩
      cases fuel with
      | zero => exact absurd hfuel (Nat.not_lt_zero _)
      | succ fuel =>
          unfold separated
          rcases Piece.leads_append_iff.mp htokens with ⟨tokens', hkey, hrest⟩
          rcases Piece.leads_cons_iff.mp hrest with ⟨colon, middle, rfl, hcolon, hrest'⟩
          rcases Piece.leads_append_iff.mp hrest' with ⟨behind, hvalue, hothers⟩
          cases others with
          | nil =>
              have hbehind := Piece.leads_nil_iff.mp hothers
              subst hbehind
              have hstop : ((bracket :: rest).headD last).Stops 0 := stops_of_symbol hbracket rfl
              refine (mapEntry_finds hinner hcolon.1 hentries.1 hentries.2.1 hkey hvalue hstop hc
                hlimit).bind ?_
              rintro ⟨first, second⟩ d ⟨hfirst, hsecond, hd⟩
              refine Finds.elseSymbol ?_ (Finds.pure ⟨?_, hd⟩)
              · rw [Cursor.peek_of_ahead hd.ahead, Token.symbol?_of_kind hbracket]
                simp
              · simp [Expr.unplacedEntries, hfirst, hsecond]
          | cons entry' others =>
              rcases Piece.leads_cons_iff.mp hothers with ⟨comma, behind', rfl, hcomma, hothers'⟩
              have hkind : comma.kind = .symbol .comma := hcomma.1
              have hstop : ((comma :: behind').headD last).Stops 0 := stops_of_symbol hkind rfl
              have hshort := hkey.length_eq
              have hshort' := hvalue.length_eq
              rw [List.length_cons] at hshort hshort'
              refine (mapEntry_finds hinner hcolon.1 hentries.1 hentries.2.1 hkey hvalue hstop hc
                hlimit).bind ?_
              rintro ⟨first, second⟩ d ⟨hfirst, hsecond, hd⟩
              refine Finds.thenSymbol hd hkind ?_
              intro f hf _
              refine (ih fuel f behind' (by simp) hentries.2.2 hothers' hf (by omega)
                (by omega)).bind ?_
              rintro read g ⟨hread, hg⟩
              refine Finds.pure ⟨?_, hg⟩
              rw [Expr.unplacedEntries, Expr.unplacedEntries, hread]
              exact congrArg (· :: _) (Prod.ext hfirst hsecond)

end Lists

/-! ## Levels -/

section Levels

variable {inner : Parse Expr} {limit fuel : Nat} {last : Token}

theorem primary_finds (hinner : ReadsBack inner 0 limit) {e : Expr} {c : Cursor}
    {tokens rest : List Token} (he : e.Stratified) (hrank : e.rank = 10)
    (htokens : Piece.Leads e.render tokens rest) (hc : c.Faces tokens last)
    (hfuel : tokens.length < fuel) (hlimit : tokens.length ≤ limit) :
    Finds (primary inner fuel) c fun read d =>
      read.unplaced = e.unplaced ∧ d.Faces rest last := by
  unfold primary
  refine Finds.step rfl ?_
  cases e with
  | literal value =>
      rcases Piece.leads_cons_iff.mp htokens with ⟨token, middle, rfl, hshown, hmiddle⟩
      have hmiddle' := Piece.leads_nil_iff.mp hmiddle
      subst hmiddle'
      rw [Cursor.peek_of_ahead hc.ahead, literal?_eq_some_iff.mpr hshown.1]
      refine Finds.passToken hc ?_
      intro d hd
      exact Finds.pure ⟨rfl, hd⟩
  | grouping value =>
      rcases Piece.leads_cons_iff.mp htokens with ⟨paren, middle, rfl, hparen, hmiddle⟩
      rcases Piece.leads_append_iff.mp hmiddle with ⟨behind, hvalue, hbehind⟩
      rcases Piece.leads_cons_iff.mp hbehind with ⟨close, rest', rfl, hclose, hrest⟩
      have hrest' := Piece.leads_nil_iff.mp hrest
      subst hrest'
      have hkind : paren.kind = .symbol .leftParen := hparen.1
      have hkind' : close.kind = .symbol .rightParen := hclose.1
      have hstop : ((close :: rest').headD last).Stops 0 := stops_of_symbol hkind' rfl
      rw [List.length_cons] at hlimit
      rw [Cursor.peek_of_ahead hc.ahead]
      simp only [literal?, hkind]
      refine Finds.passToken hc ?_
      intro d hd
      refine (hinner value d middle _ last he (Nat.zero_le _) hvalue hstop hd hlimit).bind ?_
      rintro read f ⟨hread, hf⟩
      refine Finds.passSymbol hf hkind' ?_
      intro g hg
      exact Finds.pure ⟨by rw [Expr.unplaced, Expr.unplaced, hread], hg⟩
  | «variable» id name =>
      rcases Piece.leads_cons_iff.mp htokens with ⟨token, middle, rfl, hshown, hmiddle⟩
      have hmiddle' := Piece.leads_nil_iff.mp hmiddle
      subst hmiddle'
      have hkind : token.kind = .identifier := hshown.1.trans he
      rw [Cursor.peek_of_ahead hc.ahead]
      simp only [literal?, hkind]
      refine Finds.passToken hc ?_
      intro d hd
      refine Finds.numbered hd ?_
      intro id' f hf
      exact Finds.pure ⟨by rw [Expr.unplaced, Expr.unplaced, hshown.unplaced_eq], hf⟩
  | map bracket entries =>
      rcases Piece.leads_cons_iff.mp htokens with ⟨opening, middle, rfl, hopening, hmiddle⟩
      rcases Piece.leads_append_iff.mp hmiddle with ⟨behind, hentries, hbehind⟩
      rcases Piece.leads_cons_iff.mp hbehind with ⟨close, rest', rfl, hclose, hrest⟩
      have hrest' := Piece.leads_nil_iff.mp hrest
      subst hrest'
      have hkind : opening.kind = .symbol .leftBracket := hopening.1.trans he.1
      have hkind' : close.kind = .symbol .rightBracket := hclose.1
      rw [List.length_cons] at hfuel hlimit
      rw [Cursor.peek_of_ahead hc.ahead]
      simp only [literal?, hkind]
      refine Finds.passToken hc ?_
      intro d hd
      refine (mapEntries_finds hinner hkind' entries fuel d middle he.2.1 he.2.2 hentries hd
        (by omega) (by omega)).bind ?_
      rintro read f ⟨hread, hf⟩
      refine Finds.passSymbol hf hkind' ?_
      intro g hg
      exact Finds.pure ⟨by rw [Expr.unplaced, Expr.unplaced, hread, hopening.unplaced_eq], hg⟩
  | this id keyword =>
      rcases Piece.leads_cons_iff.mp htokens with ⟨token, middle, rfl, hshown, hmiddle⟩
      have hmiddle' := Piece.leads_nil_iff.mp hmiddle
      subst hmiddle'
      have hkind : token.kind = .keyword .this := hshown.1.trans he
      rw [Cursor.peek_of_ahead hc.ahead]
      simp only [literal?, hkind]
      refine Finds.passToken hc ?_
      intro d hd
      refine Finds.numbered hd ?_
      intro id' f hf
      exact Finds.pure ⟨by rw [Expr.unplaced, Expr.unplaced, hshown.unplaced_eq], hf⟩
  | super id keyword method =>
      rcases Piece.leads_cons_iff.mp htokens with ⟨token, middle, rfl, hshown, hmiddle⟩
      rcases Piece.leads_cons_iff.mp hmiddle with ⟨dot, behind, rfl, hdot, hbehind⟩
      rcases Piece.leads_cons_iff.mp hbehind with ⟨name, rest', rfl, hname, hrest⟩
      have hrest' := Piece.leads_nil_iff.mp hrest
      subst hrest'
      have hkind : token.kind = .keyword .super := hshown.1.trans he.1
      rw [Cursor.peek_of_ahead hc.ahead]
      simp only [literal?, hkind]
      refine Finds.passToken hc ?_
      intro d hd
      refine Finds.passSymbol hd hdot.1 ?_
      intro f hf
      refine (expectName_finds hf (hname.1.trans he.2)).bind ?_
      rintro passed g ⟨rfl, hg⟩
      refine Finds.numbered hg ?_
      intro id' k hk
      refine Finds.pure ⟨?_, hk⟩
      rw [Expr.unplaced, Expr.unplaced, hshown.unplaced_eq, hname.unplaced_eq]
  | binary left op token right =>
      have := op.rank_bounds
      simp only [Expr.rank] at hrank
      omega
  | logical left op token right =>
      have := op.rank_bounds
      simp only [Expr.rank] at hrank
      omega
  | _ =>
      simp [Expr.rank] at hrank

theorem primary_leads (hinner : ReadsBack inner 0 limit) {Q : Expr → Cursor → Prop} {c : Cursor}
    {tokens rest : List Token} {e : Expr} (hc : c.Faces tokens last)
    (hfuel : tokens.length < fuel) (hlimit : tokens.length ≤ limit)
    (he : e.Stratified) (hrank : e.rank = 10) (htokens : Piece.Leads e.render tokens rest)
    (hnext : ∀ (fuel' : Nat) (read : Expr) (d : Cursor), read.unplaced = e.unplaced →
      d.Faces rest last → rest.length < fuel' → Finds (trailers inner fuel' read) d Q) :
    Finds (call inner fuel) c Q := by
  have hshort := htokens.length_eq
  refine (primary_finds hinner he hrank htokens hc hfuel hlimit).bind ?_
  rintro read d ⟨hread, hd⟩
  exact hnext fuel read d hread hd (by omega)

/-- Reading a primary expression and its trailers gets to the end of any expression that consists
of these, with fuel for the tokens behind it. -/
theorem call_leads (hinner : ReadsBack inner 0 limit) {Q : Expr → Cursor → Prop} {c : Cursor}
    {tokens : List Token} (hc : c.Faces tokens last) (hfuel : tokens.length < fuel)
    (hlimit : tokens.length ≤ limit) :
    ∀ (e : Expr) (rest : List Token), e.Stratified → 9 ≤ e.rank →
      Piece.Leads e.render tokens rest →
      (∀ (fuel' : Nat) (read : Expr) (d : Cursor), read.unplaced = e.unplaced →
        d.Faces rest last → rest.length < fuel' → Finds (trailers inner fuel' read) d Q) →
      Finds (call inner fuel) c Q
  | .call callee paren list, rest, he, _, htokens, hnext => by
      rcases Piece.leads_append_iff.mp htokens with ⟨middle, hcallee, hmiddle⟩
      rcases Piece.leads_cons_iff.mp hmiddle with ⟨opening, inside, rfl, hopening, hinside⟩
      rcases Piece.leads_append_iff.mp hinside with ⟨behind, hlist, hbehind⟩
      rcases Piece.leads_cons_iff.mp hbehind with ⟨close, rest', rfl, hclose, hrest⟩
      have hrest' := Piece.leads_nil_iff.mp hrest
      subst hrest'
      have hkind : opening.kind = .symbol .leftParen := hopening.1
      have hkind' : close.kind = .symbol .rightParen := hclose.1.trans he.1
      have hshort := hcallee.length_eq
      have hshort' := hlist.length_eq
      rw [List.length_cons] at hshort hshort'
      refine call_leads hinner hc hfuel hlimit callee _ he.2.2.1 he.2.1 hcallee ?_
      intro fuel' read d hread hd hfuel'
      rw [List.length_cons] at hfuel'
      cases fuel' with
      | zero => exact absurd hfuel' (Nat.not_lt_zero _)
      | succ fuel' =>
          unfold trailers
          refine Finds.step rfl ?_
          rw [Cursor.peek_of_ahead hd.ahead]
          simp only [Token.symbol?_of_kind hkind]
          refine Finds.passToken hd ?_
          intro f hf
          refine (arguments_finds hinner hkind' he.2.2.2.1 he.2.2.2.2 hlist hf (by omega)
            (by omega)).bind ?_
          rintro values g ⟨hvalues, hg⟩
          refine (expectSymbol_finds hg hkind').bind ?_
          rintro passed k ⟨rfl, hk⟩
          refine hnext fuel' _ k ?_ hk (by omega)
          rw [Expr.unplaced, Expr.unplaced, hread, hvalues, hclose.unplaced_eq]
  | .get object name, rest, he, _, htokens, hnext => by
      rcases Piece.leads_append_iff.mp htokens with ⟨middle, hobject, hmiddle⟩
      rcases Piece.leads_cons_iff.mp hmiddle with ⟨dot, behind, rfl, hdot, hbehind⟩
      rcases Piece.leads_cons_iff.mp hbehind with ⟨token, rest', rfl, htoken, hrest⟩
      have hrest' := Piece.leads_nil_iff.mp hrest
      subst hrest'
      have hkind : dot.kind = .symbol .dot := hdot.1
      refine call_leads hinner hc hfuel hlimit object _ he.2.2 he.2.1 hobject ?_
      intro fuel' read d hread hd hfuel'
      rw [List.length_cons, List.length_cons] at hfuel'
      cases fuel' with
      | zero => exact absurd hfuel' (Nat.not_lt_zero _)
      | succ fuel' =>
          unfold trailers
          refine Finds.step rfl ?_
          rw [Cursor.peek_of_ahead hd.ahead]
          simp only [Token.symbol?_of_kind hkind]
          refine Finds.passToken hd ?_
          intro f hf
          refine (expectName_finds hf (htoken.1.trans he.1)).bind ?_
          rintro passed g ⟨rfl, hg⟩
          refine hnext fuel' _ g ?_ hg (by omega)
          rw [Expr.unplaced, Expr.unplaced, hread, htoken.unplaced_eq]
  | .subscript bracket object index, rest, he, _, htokens, hnext => by
      rcases Piece.leads_append_iff.mp htokens with ⟨middle, hobject, hmiddle⟩
      rcases Piece.leads_cons_iff.mp hmiddle with ⟨opening, inside, rfl, hopening, hinside⟩
      rcases Piece.leads_append_iff.mp hinside with ⟨behind, hindex, hbehind⟩
      rcases Piece.leads_cons_iff.mp hbehind with ⟨close, rest', rfl, hclose, hrest⟩
      have hrest' := Piece.leads_nil_iff.mp hrest
      subst hrest'
      have hkind : opening.kind = .symbol .leftBracket := hopening.1
      have hkind' : close.kind = .symbol .rightBracket := hclose.1.trans he.1
      have hstop : ((close :: rest').headD last).Stops 0 := stops_of_symbol hkind' rfl
      have hshort := hobject.length_eq
      have hshort' := hindex.length_eq
      rw [List.length_cons] at hshort hshort'
      refine call_leads hinner hc hfuel hlimit object _ he.2.2.1 he.2.1 hobject ?_
      intro fuel' read d hread hd hfuel'
      rw [List.length_cons] at hfuel'
      cases fuel' with
      | zero => exact absurd hfuel' (Nat.not_lt_zero _)
      | succ fuel' =>
          unfold trailers
          refine Finds.step rfl ?_
          rw [Cursor.peek_of_ahead hd.ahead]
          simp only [Token.symbol?_of_kind hkind]
          refine Finds.passToken hd ?_
          intro f hf
          refine (hinner index f inside _ last he.2.2.2 (Nat.zero_le _) hindex hstop hf
            (by omega)).bind ?_
          rintro value g ⟨hvalue, hg⟩
          refine (expectSymbol_finds hg hkind').bind ?_
          rintro passed k ⟨rfl, hk⟩
          refine hnext fuel' _ k ?_ hk (by omega)
          rw [Expr.unplaced, Expr.unplaced, hread, hvalue, hclose.unplaced_eq]
  | .literal value, rest, he, _, htokens, hnext =>
      primary_leads hinner hc hfuel hlimit he rfl htokens hnext
  | .grouping value, rest, he, _, htokens, hnext =>
      primary_leads hinner hc hfuel hlimit he rfl htokens hnext
  | .variable id name, rest, he, _, htokens, hnext =>
      primary_leads hinner hc hfuel hlimit he rfl htokens hnext
  | .map bracket entries, rest, he, _, htokens, hnext =>
      primary_leads hinner hc hfuel hlimit he rfl htokens hnext
  | .this id keyword, rest, he, _, htokens, hnext =>
      primary_leads hinner hc hfuel hlimit he rfl htokens hnext
  | .super id keyword method, rest, he, _, htokens, hnext =>
      primary_leads hinner hc hfuel hlimit he rfl htokens hnext
  | .unary _ _ _, _, _, hrank, _, _ => absurd hrank (by simp [Expr.rank])
  | .binary _ op _ _, _, _, hrank, _, _ => by
      have := op.rank_bounds
      simp only [Expr.rank] at hrank
      omega
  | .logical _ op _ _, _, _, hrank, _, _ => by
      have := op.rank_bounds
      simp only [Expr.rank] at hrank
      omega
  | .assign _ _ _, _, _, hrank, _, _ => absurd hrank (by simp [Expr.rank])
  | .set _ _ _, _, _, hrank, _, _ => absurd hrank (by simp [Expr.rank])
  | .cast _ _, _, _, hrank, _, _ => absurd hrank (by simp [Expr.rank])

theorem call_readsBack (hinner : ReadsBack inner 0 limit) (hfuel : fuel ≤ limit + 1) :
    ReadsBack (call inner fuel) 9 fuel := by
  intro e c tokens rest last he hrank htokens hstop hc hlength
  refine call_leads hinner hc hlength (by omega) e rest he hrank htokens ?_
  intro fuel' read d hread hd hfuel'
  cases fuel' with
  | zero => exact absurd hfuel' (Nat.not_lt_zero _)
  | succ fuel' =>
      unfold trailers
      refine Finds.step rfl ?_
      rw [hd.peek]
      split
      · next hsymbol =>
          exact absurd (by rw [Token.kind_of_symbol? hsymbol]; rfl) hstop.continuation?_ne
      · next hsymbol =>
          exact absurd (by rw [Token.kind_of_symbol? hsymbol]; rfl) hstop.continuation?_ne
      · next hsymbol =>
          exact absurd (by rw [Token.kind_of_symbol? hsymbol]; rfl) hstop.continuation?_ne
      · exact Finds.pure ⟨hread, hd⟩

theorem unary_readsBack (hinner : ReadsBack inner 0 limit) :
    ∀ fuel, fuel ≤ limit + 1 → ReadsBack (unary inner fuel) 8 fuel := by
  intro fuel
  induction fuel with
  | zero =>
      intro _ e c tokens rest last _ _ _ _ _ hlength
      exact absurd hlength (Nat.not_lt_zero _)
  | succ fuel ih =>
      intro hfuel e c tokens rest last he hrank htokens hstop hc hlength
      unfold unary
      refine Finds.step rfl ?_
      by_cases hcall : 9 ≤ e.rank
      · rcases Expr.render_head e he with ⟨piece, pieces, hrender, -, hop⟩
        have htokens' := htokens
        rw [hrender] at htokens'
        rcases Piece.leads_cons_iff.mp htokens' with ⟨token, middle, rfl, hshown, -⟩
        have hnone : unaryOp? token = none := by
          cases hsome : unaryOp? token with
          | none => rfl
          | some op =>
              rw [unaryOp?_eq_some_iff, hshown.1] at hsome
              exact absurd hsome (hop hcall op)
        rw [Cursor.peek_of_ahead hc.ahead, hnone]
        exact call_readsBack hinner hfuel e c _ rest last he hcall htokens
          (hstop.mono (Nat.le_succ 8)) hc hlength
      · rcases Expr.eq_unary_of_rank (Nat.le_antisymm (by omega) hrank) with
          ⟨op, token, operand, rfl⟩
        rcases Piece.leads_cons_iff.mp htokens with ⟨token', middle, rfl, hshown, hoperand⟩
        rw [List.length_cons] at hlength
        rw [Cursor.peek_of_ahead hc.ahead,
          unaryOp?_eq_some_iff.mpr (hshown.1.trans he.1)]
        refine (advance_finds hc).bind ?_
        rintro passed d ⟨rfl, hd⟩
        refine (ih (by omega) operand d middle rest last he.2.2 he.2.1 hoperand hstop hd
          (by omega)).bind ?_
        rintro read f ⟨hread, hf⟩
        refine Finds.pure ⟨?_, hf⟩
        rw [Expr.unplaced, Expr.unplaced, hread, hshown.unplaced_eq]

/-- Levels of operators that group to the left, for operators shown by tokens of a kind. -/
theorem level_readsBack {operator? : Token → Option β} {build : Expr → β → Token → Expr → Expr}
    {operand : Parse Expr} {rank : Nat} (opKind : β → TokenKind)
    (hop : ∀ token op, operator? token = some op → (opKind op).continuation? = some rank ∧
      token.kind = opKind op)
    (hsplit : ∀ e : Expr, e.Stratified → e.rank = rank → ∃ left op token right,
      e = build left op token right ∧
      (∀ token' : Token, token'.kind = token.kind → operator? token' = some op) ∧
      rank ≤ left.rank ∧ rank < right.rank ∧ left.Stratified ∧ right.Stratified)
    (hrender : ∀ token op left right,
      (build left op token right).render = left.render ++ .ofToken token :: right.render)
    (hunplaced : ∀ token op left right, (build left op token right).unplaced =
      build left.unplaced op token.unplaced right.unplaced)
    (hoperand : ReadsBack operand (rank + 1) fuel) :
    ReadsBack (level operator? build operand fuel) rank fuel := by
  intro e c tokens rest last he hrank htokens hstop hc hlength
  -- a chain with fuel left for the tokens behind its left operand, by induction on the spine
  have hleads : ∀ (size : Nat) (e : Expr) (rest : List Token), e.render.length ≤ size →
      e.Stratified → rank ≤ e.rank → Piece.Leads e.render tokens rest →
      (rest.headD last).Stops (rank + 1) → ∀ Q : Expr → Cursor → Prop,
      (∀ (fuel' : Nat) (read : Expr) (d : Cursor), read.unplaced = e.unplaced →
        d.Faces rest last → rest.length < fuel' →
        Finds (chain operator? build operand fuel' read) d Q) →
      Finds (level operator? build operand fuel) c Q := by
    intro size
    induction size with
    | zero =>
        intro e rest hsize
        exact absurd hsize (Nat.not_le_of_lt e.render_length_pos)
    | succ size ih =>
        intro e rest hsize he hrank htokens hstop Q hnext
        have hshort := htokens.length_eq
        by_cases hdeeper : rank < e.rank
        · refine (hoperand e c tokens rest last he hdeeper htokens hstop hc hlength).bind ?_
          rintro read d ⟨hread, hd⟩
          exact hnext fuel read d hread hd (by omega)
        · rcases hsplit e he (Nat.le_antisymm (Nat.le_of_not_lt hdeeper) hrank) with
            ⟨left, op, token, right, rfl, htoken, hleft, hright, hsleft, hsright⟩
          rw [hrender] at htokens hsize
          rcases Piece.leads_append_iff.mp htokens with ⟨middle, hl, hmiddle⟩
          rcases Piece.leads_cons_iff.mp hmiddle with ⟨token', behind, rfl, hshown, hr⟩
          have hsome : operator? token' = some op := htoken token' hshown.1
          have hcontinue : token'.kind.continuation? = some rank := by
            rw [(hop token' op hsome).2]
            exact (hop token' op hsome).1
          have hshort' := hl.length_eq
          have hshort'' := hr.length_eq
          rw [List.length_cons] at hshort'
          rw [List.length_append, List.length_cons] at hsize
          refine ih left _ (by omega) hsleft hleft hl (Token.stops_of_continuation? hcontinue) Q ?_
          intro fuel' read d hread hd hfuel'
          rw [List.length_cons] at hfuel'
          cases fuel' with
          | zero => exact absurd hfuel' (Nat.not_lt_zero _)
          | succ fuel' =>
              unfold chain
              refine Finds.step rfl ?_
              rw [Cursor.peek_of_ahead hd.ahead, hsome]
              refine (advance_finds hd).bind ?_
              rintro passed f ⟨rfl, hf⟩
              refine (hoperand right f behind rest last hsright hright hr hstop hf
                (by omega)).bind ?_
              rintro read' g ⟨hread', hg⟩
              refine hnext fuel' _ g ?_ hg (by omega)
              rw [hunplaced, hunplaced, hread, hread', hshown.unplaced_eq]
  refine hleads _ e rest (Nat.le_refl _) he hrank htokens (hstop.mono (Nat.le_succ rank)) _ ?_
  intro fuel' read d hread hd hfuel'
  cases fuel' with
  | zero => exact absurd hfuel' (Nat.not_lt_zero _)
  | succ fuel' =>
      unfold chain
      refine Finds.step rfl ?_
      rw [hd.peek]
      cases hsome : operator? (rest.headD last) with
      | none =>
          exact Finds.pure ⟨hread, hd⟩
      | some op =>
          rcases hop _ op hsome with ⟨hcontinue, hkind⟩
          rw [← hkind] at hcontinue
          exact absurd hcontinue hstop.continuation?_ne

theorem binaryLevel_readsBack {operator? : Token → Option BinaryOp} {operand : Parse Expr}
    {rank : Nat} (hlow : 4 ≤ rank) (hhigh : rank ≤ 7)
    (hop : ∀ {token op}, operator? token = some op ↔
      token.kind = .symbol op.symbol ∧ op.rank = rank)
    (hoperand : ReadsBack operand (rank + 1) fuel) :
    ReadsBack (level operator? buildBinary operand fuel) rank fuel := by
  refine level_readsBack (fun op => .symbol op.symbol) ?_ ?_
    (fun _ _ _ _ => rfl) (fun _ _ _ _ => rfl) hoperand
  · intro token op h
    rcases hop.mp h with ⟨hkind, rfl⟩
    exact ⟨op.continuation?_symbol, hkind⟩
  · intro e he hrank
    subst hrank
    rcases Expr.eq_binary_of_rank hlow hhigh with ⟨left, op, token, right, rfl⟩
    rcases he with ⟨hkind, hleft, hright, hsleft, hsright⟩
    refine ⟨left, op, token, right, rfl, ?_, hleft, hright, hsleft, hsright⟩
    intro token' hkind'
    exact hop.mpr ⟨hkind'.trans hkind, rfl⟩

theorem logicalLevel_readsBack {operator? : Token → Option LogicalOp} {operand : Parse Expr}
    {rank : Nat} (hlow : 2 ≤ rank) (hhigh : rank ≤ 3)
    (hop : ∀ {token op}, operator? token = some op ↔
      token.kind = .keyword op.word ∧ op.rank = rank)
    (hoperand : ReadsBack operand (rank + 1) fuel) :
    ReadsBack (level operator? buildLogical operand fuel) rank fuel := by
  refine level_readsBack (fun op => .keyword op.word) ?_ ?_
    (fun _ _ _ _ => rfl) (fun _ _ _ _ => rfl) hoperand
  · intro token op h
    rcases hop.mp h with ⟨hkind, rfl⟩
    exact ⟨op.continuation?_word, hkind⟩
  · intro e he hrank
    subst hrank
    rcases Expr.eq_logical_of_rank hlow hhigh with ⟨left, op, token, right, rfl⟩
    rcases he with ⟨hkind, hleft, hright, hsleft, hsright⟩
    refine ⟨left, op, token, right, rfl, ?_, hleft, hright, hsleft, hsright⟩
    intro token' hkind'
    exact hop.mpr ⟨hkind'.trans hkind, rfl⟩

theorem disjunction_readsBack (hinner : ReadsBack inner 0 limit) (hfuel : fuel ≤ limit + 1) :
    ReadsBack (disjunction inner fuel) 2 fuel := by
  have hproduct : ReadsBack (product inner fuel) 7 fuel :=
    binaryLevel_readsBack (by decide) (by decide) multiplicativeOp?_eq_some_iff
      (unary_readsBack hinner fuel hfuel)
  have hsum : ReadsBack (sum inner fuel) 6 fuel :=
    binaryLevel_readsBack (by decide) (by decide) additiveOp?_eq_some_iff hproduct
  have hcomparison : ReadsBack (comparison inner fuel) 5 fuel :=
    binaryLevel_readsBack (by decide) (by decide) comparisonOp?_eq_some_iff hsum
  have hequality : ReadsBack (equality inner fuel) 4 fuel :=
    binaryLevel_readsBack (by decide) (by decide) equalityOp?_eq_some_iff hcomparison
  have hconjunction : ReadsBack (conjunction inner fuel) 3 fuel :=
    logicalLevel_readsBack (by decide) (by decide) conjunctionOp?_eq_some_iff hequality
  exact logicalLevel_readsBack (by decide) (by decide) disjunctionOp?_eq_some_iff hconjunction

/-- What a target followed by `:=` and a value comes to. -/
theorem assignment_finds (hinner : ReadsBack inner 0 limit) (hfuel : fuel + 1 ≤ limit + 1)
    (hvalues : ReadsBack (assignment inner fuel) 1 fuel)
    {target value e : Expr} {c : Cursor} {tokens middle rest : List Token} {mark : Token}
    (htarget : target.Stratified) (hrank : 2 ≤ target.rank) (hmark : mark.kind = .symbol .colonEqual)
    (hvalue : value.Stratified) (hrank' : 1 ≤ value.rank)
    (htokens : Piece.Leads target.render tokens (mark :: middle))
    (hmiddle : Piece.Leads value.render middle rest) (hstop : (rest.headD last).Stops 1)
    (hc : c.Faces tokens last) (hlength : tokens.length < fuel + 1)
    (hbuild : ∀ (read read' : Expr) (passed : Token) (d : Cursor),
      read.unplaced = target.unplaced → read'.unplaced = value.unplaced → d.Faces rest last →
      Finds (assignTo read passed read') d fun result d =>
        result.unplaced = e.unplaced ∧ d.Faces rest last) :
    Finds (assignment inner (fuel + 1)) c fun result d =>
      result.unplaced = e.unplaced ∧ d.Faces rest last := by
  have hshort := htokens.length_eq
  have hpos := target.render_length_pos
  rw [List.length_cons] at hshort
  have hstop' : ((mark :: middle).headD last).Stops 2 :=
    Token.stops_of_continuation? (by rw [List.headD_cons, hmark]; rfl)
  unfold assignment
  refine (disjunction_readsBack hinner hfuel target c tokens _ last htarget hrank htokens hstop'
    hc hlength).bind ?_
  rintro read d ⟨hread, hd⟩
  refine Finds.thenSymbol hd hmark ?_
  intro f hf _
  refine Finds.step rfl ?_
  refine (hvalues value f middle rest last hvalue hrank' hmiddle hstop hf (by omega)).bind ?_
  rintro read' g ⟨hread', hg⟩
  exact hbuild read read' _ g hread hread' hg

theorem assignment_readsBack (hinner : ReadsBack inner 0 limit) :
    ∀ fuel, fuel ≤ limit + 1 → ReadsBack (assignment inner fuel) 1 fuel := by
  intro fuel
  induction fuel with
  | zero =>
      intro _ e c tokens rest last _ _ _ _ _ hlength
      exact absurd hlength (Nat.not_lt_zero _)
  | succ fuel ih =>
      intro hfuel e c tokens rest last he hrank htokens hstop hc hlength
      have hvalues := ih (by omega)
      by_cases hoperators : 2 ≤ e.rank
      · unfold assignment
        refine (disjunction_readsBack hinner hfuel e c tokens rest last he hoperators htokens
          (hstop.mono (Nat.le_succ 1)) hc hlength).bind ?_
        rintro read d ⟨hread, hd⟩
        refine Finds.elseSymbol ?_ (Finds.pure ⟨hread, hd⟩)
        rw [hd.peek]
        intro hsymbol
        exact absurd (by rw [Token.kind_of_symbol? hsymbol]; rfl) hstop.continuation?_ne
      · cases e with
        | assign id name value =>
            rcases Piece.leads_cons_iff.mp htokens with ⟨token, middle, rfl, hshown, hmiddle⟩
            rcases Piece.leads_cons_iff.mp hmiddle with ⟨mark, behind, rfl, hmark, hvalue⟩
            have htarget : (Expr.variable 0 name).Stratified := he.1
            refine assignment_finds hinner hfuel hvalues htarget (by simp [Expr.rank]) hmark.1
              he.2.2 he.2.1 ?_ hvalue hstop hc hlength ?_
            · exact Piece.leads_cons_iff.mpr
                ⟨token, _, rfl, hshown, Piece.leads_nil_iff.mpr rfl⟩
            · intro read read' passed d hread hread' hd
              rcases Expr.eq_variable_of_unplaced hread with ⟨id', name', rfl, hname⟩
              refine Finds.numbered hd ?_
              intro id'' f hf
              exact Finds.pure ⟨by rw [Expr.unplaced, Expr.unplaced, hname, hread'], hf⟩
        | set object name value =>
            rcases he with ⟨hname, hrank', hobject, hrank'', hvalue⟩
            have hsplit : (Expr.set object name value).render =
                (Expr.get object name).render ++ .mark .colonEqual :: value.render := by
              simp [Expr.render]
            rw [hsplit] at htokens
            rcases Piece.leads_append_iff.mp htokens with ⟨middle, hobject', hmiddle⟩
            rcases Piece.leads_cons_iff.mp hmiddle with ⟨mark, behind, rfl, hmark, hvalue'⟩
            have htarget : (Expr.get object name).Stratified := ⟨hname, hrank', hobject⟩
            refine assignment_finds hinner hfuel hvalues htarget (by simp [Expr.rank]) hmark.1
              hvalue hrank'' hobject' hvalue' hstop hc hlength ?_
            intro read read' passed d hread hread' hd
            rcases Expr.eq_get_of_unplaced hread with ⟨object', name', rfl, hobject'', hname'⟩
            refine Finds.pure ⟨?_, hd⟩
            rw [Expr.unplaced, Expr.unplaced, hobject'', hname', hread']
        | binary left op token right =>
            have := op.rank_bounds
            simp only [Expr.rank] at hoperators
            omega
        | logical left op token right =>
            have := op.rank_bounds
            simp only [Expr.rank] at hoperators
            omega
        | cast value typeName => simp [Expr.rank] at hrank
        | _ => simp [Expr.rank] at hoperators

end Levels

/-- With more fuel than there are tokens, every stratified expression is read back. -/
theorem expression_readsBack : ∀ fuel, ReadsBack (expression fuel) 0 fuel := by
  intro fuel
  induction fuel with
  | zero =>
      intro e c tokens rest last _ _ _ _ _ hlength
      exact absurd hlength (Nat.not_lt_zero _)
  | succ fuel ih =>
      have hvalues := assignment_readsBack ih (fuel + 1) (Nat.le_refl _)
      intro e c tokens rest last he _ htokens hstop hc hlength
      unfold expression
      by_cases hcast : 1 ≤ e.rank
      · refine (hvalues e c tokens rest last he hcast htokens (hstop.mono (Nat.zero_le 1)) hc
          hlength).bind ?_
        rintro read d ⟨hread, hd⟩
        have hnot : acceptKeyword .as d = .ok false d := by
          rw [acceptKeyword_run, if_neg]
          rw [hd.peek]
          intro hword
          exact absurd (by rw [Token.kind_of_keyword? hword]; rfl) hstop.continuation?_ne
        exact Finds.step hnot (Finds.pure ⟨hread, hd⟩)
      · cases e with
        | cast value typeName =>
            rcases Piece.leads_append_iff.mp htokens with ⟨middle, hvalue, hmiddle⟩
            rcases Piece.leads_cons_iff.mp hmiddle with ⟨word, behind, rfl, hword, hbehind⟩
            rcases Piece.leads_cons_iff.mp hbehind with ⟨name, rest', rfl, hname, hrest⟩
            have hrest' := Piece.leads_nil_iff.mp hrest
            subst hrest'
            have hkind : word.kind = .keyword .as := hword.1
            have hstop' : ((word :: name :: rest').headD last).Stops 1 :=
              Token.stops_of_continuation? (by rw [List.headD_cons, hkind]; rfl)
            refine (hvalues value c tokens _ last he.2 he.1 hvalue hstop' hc hlength).bind ?_
            rintro read d ⟨hread, hd⟩
            have haccept : acceptKeyword .as d = .ok true d.advance := by
              rw [acceptKeyword_run, Cursor.peek_of_ahead hd.ahead,
                if_pos (Token.keyword?_of_kind hkind)]
            have hnext : d.advance.Faces (name :: rest') last := by
              constructor <;> simp [Cursor.advance, hd.ahead, hd.last]
            refine Finds.step haccept ?_
            refine (expectName_finds hnext hname.1).bind ?_
            rintro passed f ⟨rfl, hf⟩
            refine Finds.pure ⟨?_, hf⟩
            rw [Expr.unplaced, Expr.unplaced, hread, hname.2 typeName rfl]
        | binary left op token right =>
            have := op.rank_bounds
            simp only [Expr.rank] at hcast
            omega
        | logical left op token right =>
            have := op.rank_bounds
            simp only [Expr.rank] at hcast
            omega
        | _ => simp [Expr.rank] at hcast

/-! ## Expressions and their concrete syntax -/

/-- What is read as an expression is stratified and written as it is rendered, and every stratified
expression is read back where nothing carries it on. -/
theorem expression_reads_rendering (fuel : Nat) (c : Cursor) (hc : c.last.kind = .endOfFile)
    (hfuel : c.ahead.length < fuel) :
    (∀ e d, expression fuel c = .ok e d →
      e.Stratified ∧ Piece.Leads e.render c.ahead d.ahead) ∧
    (∀ (e : Expr) (rest : List Token), e.Stratified → Piece.Leads e.render c.ahead rest →
      (rest.headD c.last).kind.continuation? = none →
      ∃ read d, expression fuel c = .ok read d ∧ read.unplaced = e.unplaced ∧
        d.ahead = rest ∧ d.peek = rest.headD c.last) := by
  constructor
  · intro e d hrun
    have hends : c.Ends fun _ => True := ⟨hc, fun _ _ _ => trivial⟩
    have hreads := expression_yields (D := fun _ => True) fuel c hends hfuel
    unfold Yields at hreads
    rw [hrun] at hreads
    exact ⟨hreads.2.stratified, hreads.2.spelled⟩
  · intro e rest he htokens hnext
    have hstop : (rest.headD c.last).Stops 0 := by
      intro r hr
      rw [hnext] at hr
      cases hr
    rcases expression_readsBack fuel e c c.ahead rest c.last he (Nat.zero_le _) htokens hstop
      ⟨rfl, rfl⟩ hfuel with ⟨read, d, hrun, hread, hd⟩
    exact ⟨read, d, hrun, hread, hd.ahead, hd.peek⟩

/-- The tokens of `x := y + -z * w;`, which group by the levels. -/
theorem expression_reads_rendering_grouped :
    let word (text : String) : Token := ⟨.identifier, text, .start, ""⟩
    let mark (symbol : Symbol) : Token := ⟨.symbol symbol, "", .start, ""⟩
    let name (text : String) : Expr := .variable 0 (word text)
    let e : Expr := .assign 0 (word "x") (.binary (name "y") .add (mark .plus)
      (.binary (.unary .negate (mark .minus) (name "z")) .multiply (mark .star) (name "w")))
    let c : Cursor := .start [word "x", mark .colonEqual, word "y", mark .plus, mark .minus,
      word "z", mark .star, word "w", mark .semicolon] ⟨.endOfFile, "", .start, ""⟩ 0
    ∃ read d, expression 10 c = .ok read d ∧ read.unplaced = e.unplaced ∧
      d.ahead = [mark .semicolon] ∧ d.peek = mark .semicolon := by
  intro word mark name e c
  refine (expression_reads_rendering 10 c rfl (by decide)).2 e [mark .semicolon] ?_ ?_ rfl
  · simp [e, name, word, mark, Expr.Stratified, Expr.rank, BinaryOp.rank, BinaryOp.symbol,
      UnaryOp.kind]
  · refine ⟨c.ahead.take 8, rfl, ?_⟩
    simp [c, e, name, word, mark, Cursor.start, Expr.render, Piece.ShownBy, Piece.ofToken,
      Piece.mark]

end Parse

end MiniPascal
