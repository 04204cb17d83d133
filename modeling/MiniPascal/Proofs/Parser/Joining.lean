import MiniPascal.Proofs.Parser.ExpressionCompleteness
import MiniPascal.Proofs.Parser.ProgramAgreement
import MiniPascal.Proofs.Parser.StatementExtension

/-!
# Joined texts

Two texts that are programs are one program when the second follows the first, unless the first one
ends in a `type` section and the second one starts with a name: the section takes the name for
another enumeration.  In every other case the statements are those of the first text and then those
of the second one, with numbers that start where those of the first text end.
-/

namespace MiniPascal

namespace Parse

/-! ## What no statement starts with -/

/-- The parser has no result in front of a token. -/
def Refuses (token : Token) (p : Parse α) : Prop :=
  ∀ c, c.peek = token → ∀ value d, p c ≠ .ok value d

namespace Refuses

variable {token : Token}

theorem bind {p : Parse α} {k : α → Parse β} (h : Refuses token p) : Refuses token (p >>= k) := by
  intro c hc value d hrun
  rcases bind_eq_ok_iff.mp hrun with ⟨first, e, hp, -⟩
  exact h c hc first e hp

theorem starve : Refuses token (Parse.starve : Parse α) :=
  fun _ _ _ _ => nofun

end Refuses

section Foreign

variable {token : Token} (hkind : token.kind = .keyword .else ∨ token.kind = .symbol .comma ∨
  token.kind = .symbol .colon)
include hkind

theorem unary_refuses (inner : Parse Expr) (fuel : Nat) : Refuses token (unary inner fuel) := by
  have hprimary : Refuses token (primary inner fuel) := by
    rintro c rfl value d hrun
    unfold primary at hrun
    rw [bind_of_ok (rfl : peek c = .ok c.peek c)] at hrun
    rcases hkind with hkind | hkind | hkind <;> simp only [literal?, hkind] at hrun <;> cases hrun
  cases fuel with
  | zero => exact .starve
  | succ fuel =>
      rintro c rfl value d hrun
      unfold unary at hrun
      rw [bind_of_ok (rfl : peek c = .ok c.peek c)] at hrun
      have hop : unaryOp? c.peek = none := by
        rcases hkind with hkind | hkind | hkind <;>
          simp [unaryOp?, Token.keyword?, Token.symbol?, hkind]
      rw [hop] at hrun
      exact hprimary.bind c rfl value d hrun

theorem expression_refuses (fuel : Nat) : Refuses token (expression fuel) := by
  cases fuel with
  | zero => exact .starve
  | succ fuel =>
      -- every level of operators starts with an operand, and assignments with a disjunction
      have hdisjunction : Refuses token (disjunction (expression fuel) (fuel + 1)) :=
        (unary_refuses hkind _ _).bind.bind.bind.bind.bind.bind
      exact hdisjunction.bind.bind

end Foreign

/-- A name in front of a comma or a colon is an expression that no semicolon follows. -/
theorem expressionStatement_refuses {fuel : Nat} {c : Cursor} {name mark : Token}
    {rest : List Token} (hahead : c.ahead = name :: mark :: rest)
    (hfuel : c.ahead.length < fuel) (hname : name.kind = .identifier)
    (hmark : mark.kind = .symbol .comma ∨ mark.kind = .symbol .colon) (statement : Stmt)
    (d : Cursor) : expressionStatement (expression fuel) c ≠ .ok statement d := by
  have htokens : Piece.Leads (Expr.variable 0 name).render c.ahead (mark :: rest) := by
    refine ⟨[name], hahead, ?_⟩
    rw [Expr.render]
    exact .cons (Piece.ofToken_shownBy name) .nil
  have hstops : mark.Stops 0 := by
    intro r hr
    rcases hmark with hmark | hmark <;> simp [hmark, TokenKind.continuation?] at hr
  have hstratified : (Expr.variable 0 name).Stratified := by
    rw [Expr.Stratified]
    exact hname
  rcases expression_readsBack fuel (.variable 0 name) c c.ahead (mark :: rest) c.last hstratified
    (Nat.zero_le _) htokens hstops ⟨rfl, rfl⟩ hfuel with ⟨read, e, hrun, -, he⟩
  have hpeek : e.peek.symbol? ≠ some .semicolon := by
    rw [Cursor.peek_of_ahead he.ahead]
    rcases hmark with hmark | hmark <;> simp [Token.symbol?, hmark]
  intro hstatement
  rcases bind_eq_ok_iff.mp hstatement with ⟨read', e', hrun', hrest⟩
  rw [hrun] at hrun'
  cases hrun'
  rcases bind_eq_ok_iff.mp hrest with ⟨passed, f, hdiscard, -⟩
  rcases bind_eq_ok_iff.mp hdiscard with ⟨token, g, hexpect, -⟩
  have hfail : expectSymbol .semicolon .valueSemicolon e = fail .valueSemicolon e := by
    show (if decide (e.peek.symbol? = some .semicolon) = true then advance
      else fail .valueSemicolon) e = _
    rw [if_neg (by simpa using hpeek)]
  rw [hfail] at hexpect
  cases hexpect

/-! ## Single items -/

theorem programItem_declaration {fuel : Nat} {c d : Cursor} {list : List Stmt}
    (hsymbol : c.peek.symbol? ≠ some .semicolon)
    (hrun : programItem (fuel + 1) c = .ok list d) :
    declaration (grammar .strict fuel)
      (statement (grammar .strict fuel) (expression (fuel + 1)) (fuel + 1))
      (expression (fuel + 1)) (fuel + 1) false c = .ok list d := by
  have haccept : acceptSymbol .semicolon c = .ok false c := by
    rw [acceptSymbol_run, if_neg hsymbol]
  unfold programItem declarationItem at hrun
  rw [bind_of_ok haccept] at hrun
  exact recover_eq_ok_iff.mp hrun

/-- What starts with no word of its own is an expression. -/
theorem programItem_expression {fuel : Nat} {c d : Cursor} {list : List Stmt}
    (hsymbol : c.peek.symbol? ≠ some .semicolon)
    (hword : c.peek.keyword? = none ∨ c.peek.keyword? = some .else)
    (hrun : programItem (fuel + 1) c = .ok list d) :
    ∃ statement, expressionStatement (expression (fuel + 1)) c = .ok statement d ∧
      list = [statement] := by
  have hdecl := programItem_declaration hsymbol hrun
  have hpeek : peek c = .ok c.peek c := rfl
  unfold declaration at hdecl
  rw [bind_of_ok hpeek] at hdecl
  have hsingle : (statement (grammar .strict fuel) (expression (fuel + 1)) (fuel + 1) false >>=
      fun single => pure [single]) c = .ok list d := by
    rcases hword with hword | hword <;> rw [hword] at hdecl <;> exact hdecl
  rcases bind_eq_ok_iff.mp hsingle with ⟨single, e, hstatement, hpure⟩
  cases hpure
  refine ⟨single, ?_, rfl⟩
  unfold statement at hstatement
  rw [bind_of_ok hpeek] at hstatement
  rcases hword with hword | hword <;> rw [hword] at hstatement <;> exact hstatement

/-- An item that starts with `type` is a section of enumerations. -/
theorem programItem_type {fuel : Nat} {c d : Cursor} {list : List Stmt}
    (hword : c.peek.keyword? = some .type) (hrun : programItem (fuel + 1) c = .ok list d) :
    ∃ decls, enumSection (fuel + 1) c.advance = .ok decls d ∧ list = decls.map .enumDecl := by
  have hkind := Token.kind_of_keyword? hword
  have hdecl := programItem_declaration (by simp [Token.symbol?, hkind]) hrun
  unfold declaration at hdecl
  rw [bind_of_ok (rfl : peek c = .ok c.peek c), hword] at hdecl
  have hadvance : discard advance c = .ok () c.advance := rfl
  dsimp only at hdecl
  rw [bind_of_ok hadvance] at hdecl
  rcases bind_eq_ok_iff.mp hdecl with ⟨decls, e, hsection, hpure⟩
  cases hpure
  exact ⟨decls, hsection, rfl⟩

/-! ## Programs as sequences of items -/

/-- From one cursor to the end of the text, items that start with these tokens have these
results. -/
inductive Items (item : Parse α) : Cursor → List (Token × α) → Cursor → Prop
  | done {c : Cursor} (hahead : c.ahead = []) : Items item c [] c
  | next {c d e : Cursor} {value : α} {rest : List (Token × α)} (hahead : c.ahead ≠ [])
      (hitem : item c = .ok value d) (hrest : Items item d rest e) :
      Items item c ((c.peek, value) :: rest) e

/-- Whether the end of the text is still to come. -/
def more : Parse Bool := do
  return !(← atEnd)

theorem more_run (c : Cursor) : more c = .ok (!c.atEnd) c := rfl

namespace Items

variable {item : Parse α} {c d : Cursor}

theorem of_collect {fuel : Nat} {values : List α}
    (h : Parse.collect more item fuel c = .ok values d) :
    ∃ items, Items item c items d ∧ values = items.map Prod.snd := by
  induction fuel generalizing c values with
  | zero => cases h
  | succ fuel ih =>
      rcases (collect_eq_ok_iff more_run).mp h with
        ⟨hend, rfl, rfl⟩ | ⟨hmore, head, e, tail, hitem, htail, rfl⟩
      · exact ⟨[], .done (by simpa [Cursor.atEnd] using hend), rfl⟩
      · rcases ih htail with ⟨items, hitems, rfl⟩
        exact ⟨_, .next (by simpa [Cursor.atEnd] using hmore) hitem hitems, rfl⟩

/-- Items are collected with fuel for each of them, and so is whatever is made of them. -/
theorem collect {items : List (Token × α)} (h : Items item c items d) {item' : Parse β}
    {f : Token → α → β} (hitem' : ∀ c d value, item c = .ok value d →
      item' c = .ok (f c.peek value) d) :
    ∀ {fuel : Nat}, items.length < fuel →
      Parse.collect more item' fuel c = .ok (items.map fun entry => f entry.1 entry.2) d := by
  induction h with
  | done hahead =>
      intro fuel hfuel
      cases fuel with
      | zero => exact absurd hfuel (Nat.not_lt_zero _)
      | succ fuel =>
          exact (collect_eq_ok_iff more_run).mpr (.inl ⟨by simp [Cursor.atEnd, hahead], rfl, rfl⟩)
  | @next c d e value rest hahead hitem _ ih =>
      intro fuel hfuel
      cases fuel with
      | zero => exact absurd hfuel (Nat.not_lt_zero _)
      | succ fuel =>
          refine (collect_eq_ok_iff more_run).mpr (.inr ⟨by simpa [Cursor.atEnd] using hahead, ?_⟩)
          exact ⟨_, d, _, hitem' c d value hitem, ih (Nat.lt_of_succ_lt_succ hfuel), rfl⟩

theorem ahead_eq_nil {items : List (Token × α)} (h : Items item c items d) : d.ahead = [] := by
  induction h with
  | done hahead => exact hahead
  | next _ _ _ ih => exact ih

end Items

/-! ## Items in front of more text -/

def shiftItem (k : Nat) (entry : Token × List Stmt) : Token × List Stmt :=
  (entry.1, Stmt.shiftList k entry.2)

/-- The last of some items is a `type` section. -/
def EndsOpen (items : List (Token × List Stmt)) : Prop :=
  ∃ entry ∈ items.getLast?, entry.1.keyword? = some .type

theorem Items.along {x : Extension} (hx : x.Apart) {fuel fuel' : Nat} (hfuel : fuel ≤ fuel')
    {c d : Cursor} {items : List (Token × List Stmt)} (h : Items (programItem fuel) c items d) :
    ∀ {c' : Cursor}, c.Beside x .unsure c' →
      (EndsOpen items → (x.more.headD x.last).isIdentifier = false) →
      items.length ≤ c.ahead.length ∧ ∃ d', d.Beside x .unsure d' ∧
        ∀ {others e}, Items (programItem fuel') d' others e →
          Items (programItem fuel') c' (items.map (shiftItem x.shift) ++ others) e := by
  induction h with
  | done hahead =>
      intro c' hc _
      exact ⟨Nat.zero_le _, c', hc, fun hothers => hothers⟩
  | @next c d e value rest hahead hitem hrest ih =>
      intro c' hc htype
      -- only the last item gets to the end of the text
      have hnext : c.Onward .unsure d ∧ ∃ d', programItem fuel' c' =
          .ok (Stmt.shiftList x.shift value) d' ∧ d.Beside x .steady d' := by
        cases hrest with
        | done _ =>
            have hlast := programItem_from hx true hfuel hc
              (fun _ hword => htype ⟨_, rfl, hword⟩) value _ hitem
            exact ⟨hlast.1, hlast.2 (.inl rfl)⟩
        | next hmore _ _ =>
            have hinner := programItem_from hx false hfuel hc nofun value d hitem
            exact ⟨hinner.1, hinner.2 (.inr hmore)⟩
      rcases hnext with ⟨hcd, d', hrun, hd⟩
      have htype' : EndsOpen rest → (x.more.headD x.last).isIdentifier = false := by
        rintro ⟨entry, hentry, hword⟩
        refine htype ⟨entry, ?_, hword⟩
        rw [List.getLast?_cons, Option.mem_def.mp hentry]
        rfl
      rcases ih (hd.change (fun _ => trivial) nofun) htype' with ⟨hlength, e', he, hothers⟩
      refine ⟨?_, e', he, fun {others f} hmore => ?_⟩
      · have hless := hcd.takes trivial
        rw [List.length_cons]
        omega
      · have hahead' : c'.ahead ≠ [] := by
          rw [hc.ahead]
          exact List.append_ne_nil_of_left_ne_nil hahead _
        have hitems := Items.next hahead' hrun (hothers hmore)
        rw [hc.peek hahead] at hitems
        exact hitems

theorem flatten_shiftItem (k : Nat) (items : List (Token × List Stmt)) :
    ((items.map (shiftItem k)).map Prod.snd).flatten =
      ((items.map Prod.snd).flatten).map (Stmt.shift k) := by
  rw [← Stmt.shiftList_eq_map, Stmt.shiftList_flatten, List.map_map, List.map_map]
  rfl

theorem apart_of_nil {x : Extension} (h : x.more = []) : x.Apart := by
  have hlast : x.more.headD x.last = x.last := by rw [h, List.headD_nil]
  refine ⟨?_, ⟨?_, ?_⟩, ?_⟩
  · rw [hlast]
    exact keyword?_ne_of_ends _ x.ends
  · rw [hlast]
    exact symbol?_ne_of_ends _ x.ends
  · rw [hlast]
    exact symbol?_ne_of_ends _ x.ends
  · intro name mark rest hmore
    rw [h] at hmore
    cases hmore

theorem Items.length_le {fuel : Nat} {c d : Cursor} {items : List (Token × List Stmt)}
    (h : Items (programItem fuel) c items d) (hends : c.last.kind = .endOfFile) :
    items.length ≤ c.ahead.length := by
  let x : Extension := ⟨[], c.last, 0, [], hends⟩
  rcases Cursor.Beside.exists_of_ends x .unsure hends nofun with ⟨c', hc⟩
  refine (h.along (apart_of_nil rfl) (Nat.le_refl _) hc fun _ => ?_).1
  simp [x, Token.isIdentifier, hends]

/-- A section that ends a text goes on with the enumerations of what follows. -/
theorem enumDecls_goOn {x : Extension} (hname : (x.more.headD x.last).isIdentifier = true)
    {size size' : Nat} (hsize : size ≤ size') {fuel fuel' : Nat} (hfuel : fuel ≤ fuel')
    {c c' d f : Cursor} {decls decls' : List EnumDecl} (hc : c.Beside x .steady c')
    (hrun : Parse.collect atName (enumDecl size) fuel c = .ok decls d) (hend : d.ahead = [])
    (hrun' : Parse.collect atName (enumDecl size') fuel' c' = .ok decls' f) :
    ∃ extra others, decls' = decls ++ extra :: others := by
  have hlook (c : Cursor) : atName c = .ok c.peek.isIdentifier c := rfl
  induction fuel generalizing fuel' c c' decls decls' with
  | zero => cases hrun
  | succ fuel ih =>
      rcases exists_succ_of_lt hfuel with ⟨fuel', rfl, hless⟩
      have hrun' := (collect_eq_ok_iff hlook).mp hrun'
      rcases (collect_eq_ok_iff hlook).mp hrun with
        ⟨-, rfl, rfl⟩ | ⟨hident, head, e, tail, hitem, htail, rfl⟩
      · rw [(hc.peek_nil hend).2, hname] at hrun'
        rcases hrun' with ⟨hfalse, -⟩ | ⟨-, extra, e, others, -, -, hdecls⟩
        · cases hfalse
        · exact ⟨extra, others, hdecls⟩
      · have hahead : c.ahead ≠ [] := by
          intro hahead
          simp [Token.isIdentifier, (hc.peek_nil hahead).1] at hident
        rw [hc.peek hahead, hident] at hrun'
        rcases hrun' with ⟨hfalse, -⟩ | ⟨-, head', e', tail', hitem', htail', rfl⟩
        · cases hfalse
        · have hdecl : Along x true .steady id (enumDecl size) (enumDecl size') :=
            enumDecl_along hsize
          rcases (hdecl c c' hc head e hitem).2 (.inl rfl) with ⟨e'', hsame, he⟩
          rw [hitem'] at hsame
          cases hsame
          rcases ih hless he htail htail' with ⟨extra, others, rfl⟩
          exact ⟨extra, others, rfl⟩

/-- Items whose last one is a `type` section, in front of a name. -/
theorem Items.goOn {x : Extension} (hx : x.Apart)
    (hname : (x.more.headD x.last).isIdentifier = true) {fuel fuel' : Nat} (hfuel : fuel ≤ fuel')
    {c d : Cursor} {items : List (Token × List Stmt)}
    (h : Items (programItem (fuel + 1)) c items d) :
    ∀ {c' f : Cursor} {items' : List (Token × List Stmt)}, c.Beside x .unsure c' →
      EndsOpen items → Items (programItem (fuel' + 1)) c' items' f →
      ∃ extra others, (items'.map Prod.snd).flatten =
        ((items.map (shiftItem x.shift)).map Prod.snd).flatten ++ .enumDecl extra :: others := by
  induction h with
  | done _ =>
      rintro c' f items' - ⟨entry, hentry, -⟩ -
      cases hentry
  | @next c d e value rest hahead hitem hrest ih =>
      intro c' f items' hc hopen hitems'
      have hahead' : c'.ahead ≠ [] := by
        rw [hc.ahead]
        exact List.append_ne_nil_of_left_ne_nil hahead _
      cases hitems' with
      | done hnil => exact absurd hnil hahead'
      | @next _ d' _ value' rest' _ hitem' hrest' =>
          cases hrest with
          | done hend =>
              -- the last item is the section
              rcases hopen with ⟨entry, hentry, hword⟩
              cases hentry
              have hword' : c'.peek.keyword? = some .type := by
                rw [hc.peek hahead]
                exact hword
              rcases programItem_type hword hitem with ⟨decls, hdecls, rfl⟩
              rcases programItem_type hword' hitem' with ⟨decls', hdecls', rfl⟩
              have hsize := Nat.succ_le_succ hfuel
              rcases enumDecls_goOn hname hsize hsize (hc.advance hahead).1 hdecls hend hdecls'
                with ⟨extra, others, rfl⟩
              refine ⟨extra, others.map .enumDecl ++ (rest'.map Prod.snd).flatten, ?_⟩
              simp [shiftItem, Stmt.shiftList_eq_map, Stmt.shift]
          | @next _ d₂ _ value₂ rest₂ hmore hitem₂ hrest₂ =>
              have hinner := programItem_from hx false (Nat.succ_le_succ hfuel) hc nofun value d
                hitem
              rcases hinner.2 (.inr hmore) with ⟨d'', hsame, hd⟩
              rw [hitem'] at hsame
              cases hsame
              have hopen' : EndsOpen ((d.peek, value₂) :: rest₂) := by
                rcases hopen with ⟨entry, hentry, hword⟩
                exact ⟨entry, by simpa using hentry, hword⟩
              rcases ih (hd.change (fun _ => trivial) nofun) hopen' hrest' with
                ⟨extra, others, hflatten⟩
              refine ⟨extra, others, ?_⟩
              rw [List.map_cons, List.flatten_cons, hflatten]
              simp [shiftItem]

/-! ## What follows a text -/

/-- Tokens that are a program go on with nothing that a statement in front could take. -/
theorem Items.apart {x : Extension} {fuel : Nat} {c d : Cursor}
    {items : List (Token × List Stmt)} (h : Items (programItem (fuel + 1)) c items d)
    (hahead : c.ahead = x.more) (hfuel : c.ahead.length < fuel + 1) : x.Apart := by
  have hitem (hne : x.more ≠ []) : c.peek = x.more.headD x.last ∧
      ∃ list e, programItem (fuel + 1) c = .ok list e := by
    constructor
    · cases hmore : x.more with
      | nil => exact absurd hmore hne
      | cons token rest => exact Cursor.peek_of_ahead (hahead.trans hmore)
    · cases h with
      | done hnil => exact absurd (hahead.symm.trans hnil) hne
      | next _ hrun _ => exact ⟨_, _, hrun⟩
  have hforeign (hkind : (x.more.headD x.last).kind = .keyword .else ∨
      (x.more.headD x.last).kind = .symbol .comma ∨
      (x.more.headD x.last).kind = .symbol .colon) : False := by
    have hne : x.more ≠ [] := by
      intro hnil
      rw [hnil, List.headD_nil, x.ends] at hkind
      simp at hkind
    rcases hitem hne with ⟨hpeek, list, e, hrun⟩
    rw [← hpeek] at hkind
    have hsymbol : c.peek.symbol? ≠ some .semicolon := by
      rcases hkind with hkind | hkind | hkind <;> simp [Token.symbol?, hkind]
    have hword : c.peek.keyword? = none ∨ c.peek.keyword? = some .else := by
      rcases hkind with hkind | hkind | hkind <;> simp [Token.keyword?, hkind]
    rcases programItem_expression hsymbol hword hrun with ⟨statement, hstatement, -⟩
    rcases bind_eq_ok_iff.mp hstatement with ⟨value, f, hexpression, -⟩
    exact expression_refuses hkind (fuel + 1) c rfl value f hexpression
  refine ⟨fun hword => ?_, ⟨fun hmark => ?_, fun hmark => ?_⟩, ?_⟩
  · exact hforeign (.inl (Token.kind_of_keyword? hword))
  · exact hforeign (.inr (.inl (Token.kind_of_symbol? hmark)))
  · exact hforeign (.inr (.inr (Token.kind_of_symbol? hmark)))
  · intro name mark rest hmore hname
    have hkind := Token.kind_of_isIdentifier hname
    rcases hitem (by simp [hmore]) with ⟨hpeek, list, e, hrun⟩
    rw [hmore, List.headD_cons] at hpeek
    rcases programItem_expression (by simp [hpeek, Token.symbol?, hkind])
      (.inl (by simp [hpeek, Token.keyword?, hkind])) hrun with ⟨statement, hstatement, -⟩
    have hrefuses (hmark : mark.kind = .symbol .comma ∨ mark.kind = .symbol .colon) : False :=
      expressionStatement_refuses (hahead.trans hmore) hfuel hkind hmark statement e hstatement
    exact ⟨fun hmark => hrefuses (.inl (Token.kind_of_symbol? hmark)),
      fun hmark => hrefuses (.inr (Token.kind_of_symbol? hmark))⟩

/-- A program that starts with a name starts with an expression. -/
theorem Items.head_expression {fuel : Nat} {c d : Cursor} {items : List (Token × List Stmt)}
    (h : Items (programItem (fuel + 1)) c items d) (hname : c.peek.isIdentifier = true)
    (hahead : c.ahead ≠ []) :
    ∃ value rest, (items.map Prod.snd).flatten = .expression value :: rest := by
  have hkind := Token.kind_of_isIdentifier hname
  cases h with
  | done hnil => exact absurd hnil hahead
  | @next _ d _ list rest _ hrun _ =>
      rcases programItem_expression (by simp [Token.symbol?, hkind])
        (.inl (by simp [Token.keyword?, hkind])) hrun with ⟨statement, hstatement, rfl⟩
      rcases bind_eq_ok_iff.mp hstatement with ⟨value, e, -, hrest⟩
      rcases bind_eq_ok_iff.mp hrest with ⟨passed, f, -, hpure⟩
      cases hpure
      exact ⟨value, (rest.map Prod.snd).flatten, rfl⟩

/-- The tokens that the items of a program start with. -/
def itemStarts (fuel : Nat) : Parse (List Token) :=
  collect more (do
    let token ← peek
    discard (programItem fuel)
    return token) fuel

end Parse

/-! ## Joined scans -/

namespace Scan

/-- The tokens of a first text, and behind them those of a second one. -/
def join (first second : Scan) : Scan where
  tokens := first.tokens ++ second.tokens
  last := second.last
  diagnostics := first.diagnostics ++ second.diagnostics

/-- Whether the last item of a program is a `type` section. -/
def EndsInTypes (scan : Scan) : Prop :=
  ∃ starts, (Parse.run Parse.itemStarts 0 scan).result = .ok starts ∧
    ∃ token ∈ starts.getLast?, token.keyword? = some .type

def startsWithName (scan : Scan) : Bool :=
  (scan.tokens.headD scan.last).isIdentifier

abbrev Items (scan : Scan) (items : List (Token × List Stmt)) (d : Cursor) : Prop :=
  Parse.Items (Parse.programItem (scan.tokens.length + 1)) (.start scan.tokens scan.last 0) items d

theorem items_of_parseProgram {scan : Scan} {list : List Stmt} {diagnostics : List Diagnostic}
    {nextId : NodeId} (h : parseProgram .strict 0 scan = ⟨.ok list, diagnostics, nextId⟩) :
    ∃ items d, scan.Items items d ∧ list = (items.map Prod.snd).flatten ∧
      d.diagnostics = diagnostics ∧ d.nextId = nextId := by
  unfold parseProgram at h
  cases hrun : Parse.program .strict (scan.tokens.length + 1)
      (.start scan.tokens scan.last 0) with
  | error why d =>
      rw [Parse.run_of_error hrun] at h
      cases h
  | ok value d =>
      rw [Parse.run_of_ok hrun] at h
      cases h
      rcases bind_eq_ok_iff.mp hrun with ⟨values, e, hcollect, hpure⟩
      cases hpure
      rcases Parse.Items.of_collect hcollect with ⟨items, hitems, rfl⟩
      exact ⟨items, d, hitems, rfl, rfl, rfl⟩

theorem parseProgram_of_items {scan : Scan} {items : List (Token × List Stmt)} {d : Cursor}
    (h : scan.Items items d) (hlength : items.length ≤ scan.tokens.length) :
    parseProgram .strict 0 scan =
      ⟨.ok (items.map Prod.snd).flatten, d.diagnostics, d.nextId⟩ := by
  have hcollect := h.collect (f := fun _ list => list) (fun _ _ _ hrun => hrun)
    (Nat.lt_succ_of_le hlength)
  have hrun : Parse.program .strict (scan.tokens.length + 1)
      (.start scan.tokens scan.last 0) = .ok (items.map Prod.snd).flatten d :=
    bind_of_ok hcollect
  exact Parse.run_of_ok hrun

theorem endsInTypes_iff {scan : Scan} {items : List (Token × List Stmt)} {d : Cursor}
    (h : scan.Items items d) (hlength : items.length ≤ scan.tokens.length) :
    scan.EndsInTypes ↔ Parse.EndsOpen items := by
  have hstarts : Parse.itemStarts (scan.tokens.length + 1) (.start scan.tokens scan.last 0) =
      .ok (items.map fun entry => entry.1) d := by
    refine h.collect (f := fun token _ => token) (fun c e list hrun => ?_)
      (Nat.lt_succ_of_le hlength)
    have hdiscard : discard (Parse.programItem (scan.tokens.length + 1)) c = .ok () e :=
      bind_of_ok hrun
    rw [bind_of_ok (rfl : Parse.peek c = .ok c.peek c), bind_of_ok hdiscard]
    rfl
  unfold EndsInTypes Parse.EndsOpen
  rw [Parse.run_of_ok hstarts]
  constructor
  · rintro ⟨starts, hsame, token, htoken, hword⟩
    cases hsame
    rw [List.getLast?_map] at htoken
    rcases Option.map_eq_some_iff.mp htoken with ⟨entry, hentry, rfl⟩
    exact ⟨entry, hentry, hword⟩
  · rintro ⟨entry, hentry, hword⟩
    refine ⟨_, rfl, entry.1, ?_, hword⟩
    rw [List.getLast?_map]
    exact Option.mem_map_of_mem _ hentry

end Scan

/-- Two texts that are programs of their own make the program of both, one after the other, with the
numbers of the second one moved up by what the first one uses, exactly unless the first one ends in
a `type` section and the second one starts with a name.  Their reports stay as well: if neither has
any, nor do both together. -/
theorem parseProgram_join_iff {first second : Scan} (hfirst : first.last.kind = .endOfFile)
    (hsecond : second.last.kind = .endOfFile) {list₁ list₂ : List Stmt}
    {diagnostics₁ diagnostics₂ : List Diagnostic} {nextId₁ nextId₂ : NodeId}
    (h₁ : parseProgram .strict 0 first = ⟨.ok list₁, diagnostics₁, nextId₁⟩)
    (h₂ : parseProgram .strict 0 second = ⟨.ok list₂, diagnostics₂, nextId₂⟩) :
    parseProgram .strict 0 (first.join second) =
        ⟨.ok (list₁ ++ list₂.map (Stmt.shift nextId₁)), diagnostics₁ ++ diagnostics₂,
          nextId₁ + nextId₂⟩ ↔
      ¬ (first.EndsInTypes ∧ second.startsWithName = true) := by
  rcases Scan.items_of_parseProgram h₁ with ⟨items₁, d₁, hitems₁, rfl, rfl, rfl⟩
  rcases Scan.items_of_parseProgram h₂ with ⟨items₂, d₂, hitems₂, rfl, rfl, rfl⟩
  have hlength₁ := hitems₁.length_le hfirst
  have hlength₂ := hitems₂.length_le hsecond
  rw [Scan.endsInTypes_iff hitems₁ hlength₁]
  let x₁ : Extension := ⟨second.tokens, second.last, 0, [], hsecond⟩
  have hx₁ : x₁.Apart := hitems₂.apart rfl (Nat.lt_succ_self _)
  have hstart : (Cursor.start first.tokens first.last 0).Beside x₁ .unsure
      (.start (first.join second).tokens (first.join second).last 0) :=
    ⟨hfirst, rfl, rfl, rfl, rfl, False.elim, nofun⟩
  have hfuel₁ : first.tokens.length ≤ (first.join second).tokens.length := by
    simp [Scan.join]
  constructor
  · -- the section takes the name in, where the second program has an expression
    rintro hjoin ⟨hopen, hname⟩
    rcases Scan.items_of_parseProgram hjoin with ⟨items, d, hitems, hlist, -, -⟩
    rcases hitems₁.goOn hx₁ hname hfuel₁ hstart hopen hitems with ⟨extra, others, hflatten⟩
    have hsecond' : second.tokens ≠ [] := by
      intro hnil
      simp [Scan.startsWithName, hnil, Token.isIdentifier, hsecond] at hname
    rcases hitems₂.head_expression hname hsecond' with ⟨value, rest, hvalue⟩
    rw [hflatten, Parse.flatten_shiftItem, hvalue, List.map_cons, ← Stmt.shiftList_eq_map 0,
      Stmt.shiftList_zero] at hlist
    have hhead := List.append_cancel_left hlist
    simp [Stmt.shift] at hhead
  · intro hnot
    have htype (hopen : Parse.EndsOpen items₁) : (x₁.more.headD x₁.last).isIdentifier = false :=
      Bool.eq_false_iff.mpr fun hname => hnot ⟨hopen, hname⟩
    rcases hitems₁.along hx₁ (Nat.succ_le_succ hfuel₁) hstart htype with ⟨-, d₁', hd₁, hjoined⟩
    let x₂ : Extension := ⟨[], second.last, d₁.nextId, d₁.diagnostics, hsecond⟩
    have hmiddle : (Cursor.start second.tokens second.last 0).Beside x₂ .unsure d₁' := by
      refine ⟨hsecond, ?_, hd₁.last, ?_, ?_, False.elim, nofun⟩
      · rw [hd₁.ahead, hitems₁.ahead_eq_nil]
        exact (List.append_nil _).symm
      · rw [hd₁.nextId]
        exact Nat.zero_add _
      · rw [hd₁.diagnostics]
        exact (List.append_nil _).symm
    have hfuel₂ : second.tokens.length + 1 ≤ (first.join second).tokens.length + 1 := by
      simp [Scan.join]
    have hlast : (x₂.more.headD x₂.last).isIdentifier = false := by
      simp [x₂, Token.isIdentifier, hsecond]
    rcases hitems₂.along (Parse.apart_of_nil rfl) hfuel₂ hmiddle (fun _ => hlast) with
      ⟨-, d₂', hd₂, hrest⟩
    have hend : d₂'.ahead = [] := by
      rw [hd₂.ahead, hitems₂.ahead_eq_nil]
      rfl
    have hitems := hjoined (hrest (.done hend))
    have hlength : (items₁.map (Parse.shiftItem x₁.shift) ++
        (items₂.map (Parse.shiftItem x₂.shift) ++ [])).length ≤
        (first.join second).tokens.length := by
      simpa [Scan.join, Cursor.start] using Nat.add_le_add hlength₁ hlength₂
    rw [Scan.parseProgram_of_items hitems hlength, List.append_nil, List.map_append,
      List.flatten_append, Parse.flatten_shiftItem, Parse.flatten_shiftItem, hd₂.diagnostics,
      hd₂.nextId, ← Stmt.shiftList_eq_map x₁.shift, Stmt.shiftList_zero]

/-- `type Color = (Red);` and `F();` are programs, and so are both together in the other order only:
the section takes `F` for another enumeration. -/
theorem parseProgram_join_iff_type_section :
    let token (kind : TokenKind) : Token := ⟨kind, "", .start, ""⟩
    let symbol (symbol : Symbol) : Token := token (.symbol symbol)
    let colors : Scan := {
      tokens := [token (.keyword .type), token .identifier, symbol .equal, symbol .leftParen,
        token .identifier, symbol .rightParen, symbol .semicolon]
      last := token .endOfFile
      diagnostics := [] }
    let call : Scan := {
      tokens := [token .identifier, symbol .leftParen, symbol .rightParen, symbol .semicolon]
      last := token .endOfFile
      diagnostics := [] }
    let enumeration : Stmt := .enumDecl ⟨token .identifier, [token .identifier]⟩
    let expression (id : NodeId) : Stmt :=
      .expression (.call (.variable id (token .identifier)) (symbol .rightParen) [])
    parseProgram .strict 0 colors = ⟨.ok [enumeration], [], 0⟩ ∧
      parseProgram .strict 0 call = ⟨.ok [expression 0], [], 1⟩ ∧
      parseProgram .strict 0 (call.join colors) = ⟨.ok [expression 0, enumeration], [], 1⟩ ∧
      parseProgram .strict 0 (colors.join call) ≠ ⟨.ok [enumeration, expression 0], [], 1⟩ := by
  intro token symbol colors call enumeration expression
  have hcolors : parseProgram .strict 0 colors = ⟨.ok [enumeration], [], 0⟩ := rfl
  have hcall : parseProgram .strict 0 call = ⟨.ok [expression 0], [], 1⟩ := rfl
  have hends : ¬ call.EndsInTypes := by
    rintro ⟨starts, hstarts, start, hstart, hword⟩
    cases hstarts
    cases hstart
    cases hword
  have hopen : colors.EndsInTypes := ⟨_, rfl, _, rfl, rfl⟩
  refine ⟨hcolors, hcall, ?_, fun hjoin => ?_⟩
  · exact (parseProgram_join_iff rfl rfl hcall hcolors).mpr fun h => hends h.1
  · exact (parseProgram_join_iff rfl rfl hcolors hcall).mp hjoin ⟨hopen, rfl⟩

end MiniPascal
