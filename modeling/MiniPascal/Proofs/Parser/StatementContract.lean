import MiniPascal.Proofs.Parser.DeclarationContract
import MiniPascal.Proofs.Parser.Recovery

/-!
# Contracts of the parsers of statements

With and without recovery the parsers of statements and declarations agree up to the first fault,
take tokens, and number what they read.  Each parser below has its contract for any two parsers of
nested statements that agree; `grammar_agrees` ties the knot by induction on the fuel.
-/

namespace MiniPascal
namespace Parse

def ReadsStatement (N : String → Prop) (c : Cursor) (s : Stmt) (d : Cursor) : Prop :=
  d.ahead.length < c.ahead.length ∧ Stmt.NumberedOne N c.nextId s d.nextId

/-- What the parser of a declaration comes to. -/
def ReadsDeclaration (N : String → Prop) (c : Cursor) (list : List Stmt) (d : Cursor) :
    Prop :=
  d.ahead.length < c.ahead.length ∧ Stmt.Numbered N c.nextId list d.nextId

/-- Two parsers of nested statements agree, as long as there are fewer tokens ahead than
`limit`. -/
structure NestedAgrees (N : String → Prop) (limit : Nat) (nested nested' : Nested) : Prop where
  statement : ∀ (inLoop : Bool) (c : Cursor), c.Ends N → c.ahead.length < limit →
    Agrees (nested.statement inLoop) (nested'.statement inLoop) c (ReadsStatement N c)
  declaration : ∀ (inLoop : Bool) (c : Cursor), c.Ends N → c.ahead.length < limit →
    c.ahead ≠ [] →
    Agrees (nested.declaration inLoop) (nested'.declaration inLoop) c (ReadsDeclaration N c)

/-! ## Lists of declarations -/

section Declarations

variable {decl decl' : Parse (List Stmt)} {limit : Nat}

theorem declarationItem_agrees
    (hdecl : ∀ c : Cursor, c.Ends N → c.ahead.length < limit → c.ahead ≠ [] →
      Agrees decl decl' c (ReadsDeclaration N c))
    {c : Cursor} (hc : c.Ends N) (hlimit : c.ahead.length < limit) (hne : c.ahead ≠ []) :
    Agrees (declarationItem decl) (declarationItem decl') c (ReadsDeclaration N c) := by
  refine Agrees.ifSymbol hc ?_ ?_
  · intro token d _ hpassed
    have hshort := hpassed.length_eq
    exact Agrees.pure ⟨by omega, Stmt.Numbered.nil (Nat.le_of_eq hpassed.nextId.symm)⟩
  · intro _
    exact hdecl c hc hlimit hne

/-- Items in front of which a test holds, which fails at the end of the text. -/
theorem items_agrees {more : Parse Bool} {T : Cursor → Bool}
    (hmore : ∀ c, more c = .ok (T c) c) (hend : ∀ c : Cursor, T c = true → c.ahead ≠ [])
    (hdecl : ∀ c : Cursor, c.Ends N → c.ahead.length < limit → c.ahead ≠ [] →
      Agrees decl decl' c (ReadsDeclaration N c))
    {fuel : Nat} {c : Cursor} (hc : c.Ends N) (hfuel : c.ahead.length < fuel)
    (hlimit : c.ahead.length < limit) :
    Agrees (collect more (declarationItem decl) fuel) (collect more (declarationItem decl') fuel)
      c fun items d => Stmt.Numbered N c.nextId items.flatten d.nextId := by
  refine collect_agrees
    (R := fun c list d => Stmt.Numbered N c.nextId list d.nextId)
    (S := fun c items d => Stmt.Numbered N c.nextId items.flatten d.nextId)
    hmore ?_ ?_ ?_ fuel c hc hfuel hlimit
  · intro c hc hshort htest
    exact declarationItem_agrees hdecl hc hshort (hend c htest)
  · intro c _
    exact Stmt.Numbered.nil (Nat.le_refl _)
  · intro c list d items e hlist hitems
    exact hlist.append hitems

theorem ne_nil_of_not_atEnd {c : Cursor} (h : (!c.atEnd) = true) : c.ahead ≠ [] := by
  intro hnil
  simp [Cursor.atEnd, hnil] at h

theorem openTest_run (close : Keyword) (c : Cursor) :
    (do return !(← atKeyword close) && !(← atEnd) : Parse Bool) c =
      .ok (!decide (c.peek.keyword? = some close) && !c.atEnd) c := by
  rw [bind_of_ok (rfl : atKeyword close c = .ok (decide (c.peek.keyword? = some close)) c),
    bind_of_ok (rfl : atEnd c = .ok c.atEnd c)]
  rfl

theorem declarations_agrees
    (hdecl : ∀ c : Cursor, c.Ends N → c.ahead.length < limit → c.ahead ≠ [] →
      Agrees decl decl' c (ReadsDeclaration N c))
    {close : Keyword} {fuel : Nat} {c : Cursor} (hc : c.Ends N) (hfuel : c.ahead.length < fuel)
    (hlimit : c.ahead.length < limit) :
    Agrees (declarations decl close fuel) (declarations decl' close fuel) c fun list d =>
      Stmt.Numbered N c.nextId list d.nextId := by
  refine (items_agrees (openTest_run close) ?_ hdecl hc hfuel hlimit).bind ?_
  · intro c htest
    exact ne_nil_of_not_atEnd (Bool.and_eq_true_iff.mp htest).2
  · intro items d _ hitems
    exact Agrees.pure hitems

end Declarations

/-! ## Statements around expressions -/

section Expressions

variable {D : Diagnostic → Prop} {expr : Parse Expr} {limit : Nat}

theorem expressionStatement_yields
    (hexpr : ∀ c : Cursor, c.Ends N → c.ahead.length < limit → Yields D expr c (c.Reads N 0))
    {c : Cursor} (hc : c.Ends N) (hlimit : c.ahead.length < limit) :
    Yields D (expressionStatement expr) c (ReadsStatement N c) := by
  refine (hexpr c hc hlimit).bind ?_
  intro value d hcd hvalue
  have hshort := hvalue.length_lt
  refine (expectSymbol_yields (hcd.ends hc)).discard.bind ?_
  rintro - e - ⟨token, -, hpassed⟩
  have hshort' := hpassed.length_eq
  refine Yields.pure ⟨by omega, ?_⟩
  rw [hpassed.nextId]
  exact Stmt.numbered_expression hvalue.fresh

theorem optional_yields
    (hexpr : ∀ c : Cursor, c.Ends N → c.ahead.length < limit → Yields D expr c (c.Reads N 0))
    (closed : Parse Bool) {test : Bool} {c : Cursor} (hclosed : closed c = .ok test c)
    (hc : c.Ends N) (hlimit : c.ahead.length < limit) :
    Yields D (optional closed expr) c fun value d =>
      Fresh N c.nextId (Stmt.optionalMentions value) d.nextId := by
  refine Yields.look hclosed ?_
  cases test with
  | true => exact Yields.pure (Fresh.nil (Nat.le_refl _))
  | false =>
      refine (hexpr c hc hlimit).bind ?_
      intro value d _ hvalue
      exact Yields.pure hvalue.fresh

theorem forInitial_yields
    (hexpr : ∀ c : Cursor, c.Ends N → c.ahead.length < limit → Yields D expr c (c.Reads N 0))
    {c : Cursor} (hc : c.Ends N) (hlimit : c.ahead.length < limit) :
    Yields D (forInitial expr) c fun initial d =>
      Stmt.Numbered N c.nextId initial.toList d.nextId := by
  refine Yields.ifSymbol hc ?_ ?_
  · intro token d _ hpassed
    exact Yields.pure (Stmt.Numbered.nil (Nat.le_of_eq hpassed.nextId.symm))
  · intro _
    refine Yields.ifKeyword hc ?_ ?_
    · intro token d _ hpassed
      have hshort := hpassed.length_eq
      refine (loopVariable_yields hexpr (hpassed.ends hc) (by omega)).bind ?_
      intro decl e _ hdecl
      rw [hpassed.nextId] at hdecl
      exact Yields.pure hdecl
    · intro _
      refine (expressionStatement_yields hexpr hc hlimit).bind ?_
      rintro statement d - ⟨-, hstatement⟩
      exact Yields.pure hstatement.list

theorem printStatement_yields
    (hexpr : ∀ c : Cursor, c.Ends N → c.ahead.length < limit → Yields D expr c (c.Reads N 0))
    {c : Cursor} (hc : c.Ends N) (hlimit : c.ahead.length < limit) :
    Yields D (printStatement expr) c fun s d => Stmt.NumberedOne N c.nextId s d.nextId := by
  refine Yields.look rfl ?_
  refine (hexpr c hc hlimit).bind ?_
  intro value d hcd hvalue
  refine (expectSymbol_yields (hcd.ends hc)).discard.bind ?_
  rintro - e - ⟨token, -, hpassed⟩
  refine Yields.pure ?_
  rw [hpassed.nextId]
  exact Stmt.numbered_print hvalue.fresh

theorem resultValue_yields
    (hexpr : ∀ c : Cursor, c.Ends N → c.ahead.length < limit → Yields D expr c (c.Reads N 0))
    {c : Cursor} (hc : c.Ends N) (hlimit : c.ahead.length < limit) :
    Yields D (resultValue expr) c fun value d =>
      Fresh N c.nextId (Stmt.optionalMentions value) d.nextId := by
  refine (optional_yields hexpr (atSymbol .semicolon) rfl hc hlimit).bind ?_
  intro value d hcd hvalue
  refine (expectSymbol_yields (hcd.ends hc)).discard.bind ?_
  rintro - e - ⟨token, -, hpassed⟩
  refine Yields.pure ?_
  rw [hpassed.nextId]
  exact hvalue

theorem exitStatement_yields
    (hexpr : ∀ c : Cursor, c.Ends N → c.ahead.length < limit → Yields D expr c (c.Reads N 0))
    {c : Cursor} (hc : c.Ends N) (hlimit : c.ahead.length < limit) :
    Yields D (exitStatement expr) c fun s d => Stmt.NumberedOne N c.nextId s d.nextId := by
  refine Yields.look rfl ?_
  refine (resultValue_yields hexpr hc hlimit).bind ?_
  intro value d _ hvalue
  exact Yields.pure (Stmt.numbered_exit hvalue)

theorem raiseStatement_yields
    (hexpr : ∀ c : Cursor, c.Ends N → c.ahead.length < limit → Yields D expr c (c.Reads N 0))
    {c : Cursor} (hc : c.Ends N) (hlimit : c.ahead.length < limit) :
    Yields D (raiseStatement expr) c fun s d => Stmt.NumberedOne N c.nextId s d.nextId := by
  refine Yields.look rfl ?_
  refine (resultValue_yields hexpr hc hlimit).bind ?_
  intro value d _ hvalue
  exact Yields.pure (Stmt.numbered_raise hvalue)

/-- The one place at which parsing reports and goes on. -/
theorem breakStatement_yields {inLoop : Bool} {c : Cursor} (hc : c.Ends N) :
    Yields Misplaced (breakStatement inLoop) c fun s d =>
      Stmt.NumberedOne N c.nextId s d.nextId := by
  have hbreak (keyword : Token) (d : Cursor) (hd : d.Ends N) (hnext : d.nextId = c.nextId) :
      Yields Misplaced (do
        discard <| expectSymbol .semicolon .breakSemicolon
        return .break keyword) d fun s e => Stmt.NumberedOne N c.nextId s e.nextId := by
    refine (expectSymbol_yields hd).discard.bind ?_
    rintro - e - ⟨token, -, hpassed⟩
    refine Yields.pure ⟨rfl, trivial, Aligned.of_nil ?_ fun _ => rfl⟩
    exact Nat.le_of_eq (hnext.symm.trans hpassed.nextId.symm)
  refine Yields.look rfl ?_
  cases inLoop with
  | true => exact hbreak c.previous c hc rfl
  | false =>
      have hreport : Yields Misplaced (report
          (.errorAt c.previous "Must be inside a loop to use 'break'.")) c fun _ d =>
            d.Ends N ∧ d.nextId = c.nextId :=
        ⟨c.before_report _ rfl, ⟨hc.last, hc.names⟩, rfl⟩
      refine hreport.bind ?_
      rintro - d - ⟨hd, hnext⟩
      exact hbreak c.previous d hd hnext

end Expressions

/-! ## Statements around statements -/

section Nested

variable {nested nested' : Nested} {expr : Parse Expr} {limit : Nat}

theorem forStatement_agrees (hnested : NestedAgrees N limit nested nested')
    (hexpr : ∀ c : Cursor, c.Ends N → c.ahead.length < limit →
      Yields Misplaced expr c (c.Reads N 0))
    {c : Cursor} (hc : c.Ends N) (hlimit : c.ahead.length < limit) :
    Agrees (forStatement nested expr) (forStatement nested' expr) c fun s d =>
      Stmt.NumberedOne N c.nextId s d.nextId := by
  refine (forInitial_yields hexpr hc hlimit).agrees.bind ?_
  intro initial d hcd hinitial
  have hd := hcd.ends hc
  have hshort := hcd.length_le
  refine (optional_yields hexpr (atSymbol .semicolon) rfl hd (by omega)).agrees.bind ?_
  intro condition e hde hcondition
  have he := hde.ends hd
  have hshort' := hde.length_le
  refine (expectSymbol_yields he).discard.agrees.bind ?_
  rintro - f hef ⟨semicolon, -, hpassed⟩
  have hf := hef.ends he
  have hshort'' := hpassed.length_eq
  refine (optional_yields hexpr (atKeyword .do) rfl hf (by omega)).agrees.bind ?_
  intro increment g hfg hincrement
  have hg := hfg.ends hf
  have hshort₃ := hfg.length_le
  refine (expectKeyword_yields hg).discard.agrees.bind ?_
  rintro - k hgk ⟨word, -, hpassed'⟩
  have hshort₄ := hpassed'.length_eq
  refine (hnested.statement true k (hgk.ends hg) (by omega)).bind ?_
  rintro body l - ⟨-, hbody⟩
  refine Agrees.pure ?_
  rw [hpassed.nextId] at hincrement
  rw [hpassed'.nextId] at hbody
  exact Stmt.numbered_lowerFor hinitial hcondition hincrement hbody

theorem whileStatement_agrees (hnested : NestedAgrees N limit nested nested')
    (hexpr : ∀ c : Cursor, c.Ends N → c.ahead.length < limit →
      Yields Misplaced expr c (c.Reads N 0))
    {c : Cursor} (hc : c.Ends N) (hlimit : c.ahead.length < limit) :
    Agrees (whileStatement nested expr) (whileStatement nested' expr) c fun s d =>
      Stmt.NumberedOne N c.nextId s d.nextId := by
  refine (hexpr c hc hlimit).agrees.bind ?_
  intro condition d hcd hcondition
  have hshort := hcondition.length_lt
  refine (expectKeyword_yields (hcd.ends hc)).discard.agrees.bind ?_
  rintro - e hde ⟨word, -, hpassed⟩
  have hshort' := hpassed.length_eq
  refine (hnested.statement true e (hde.ends (hcd.ends hc)) (by omega)).bind ?_
  rintro body f - ⟨-, hbody⟩
  rw [hpassed.nextId] at hbody
  exact Agrees.pure (Stmt.numbered_while hcondition.fresh hbody)

theorem ifStatement_agrees (hnested : NestedAgrees N limit nested nested')
    (hexpr : ∀ c : Cursor, c.Ends N → c.ahead.length < limit →
      Yields Misplaced expr c (c.Reads N 0))
    {inLoop : Bool} {c : Cursor} (hc : c.Ends N) (hlimit : c.ahead.length < limit) :
    Agrees (ifStatement nested inLoop expr) (ifStatement nested' inLoop expr) c fun s d =>
      Stmt.NumberedOne N c.nextId s d.nextId := by
  refine (hexpr c hc hlimit).agrees.bind ?_
  intro condition d hcd hcondition
  have hd := hcd.ends hc
  have hshort := hcondition.length_lt
  refine (expectKeyword_yields hd).discard.agrees.bind ?_
  rintro - e hde ⟨word, -, hpassed⟩
  have he := hde.ends hd
  have hshort' := hpassed.length_eq
  refine (hnested.statement inLoop e he (by omega)).bind ?_
  rintro thenBranch f hef ⟨hshort'', hthen⟩
  rw [hpassed.nextId] at hthen
  refine Agrees.ifKeyword (hef.ends he) ?_ ?_
  · intro word' g _ hpassed'
    have hshort₃ := hpassed'.length_eq
    refine (hnested.statement inLoop g (hpassed'.ends (hef.ends he)) (by omega)).bind ?_
    rintro elseBranch k - ⟨-, helse⟩
    rw [hpassed'.nextId] at helse
    exact Agrees.pure (Stmt.numbered_ifThenElse hcondition.fresh hthen helse)
  · intro _
    exact Agrees.pure (Stmt.numbered_ifThen hcondition.fresh hthen)

theorem handler_agrees (hnested : NestedAgrees N limit nested nested') {inLoop : Bool}
    {c : Cursor} (hc : c.Ends N) (hlimit : c.ahead.length < limit)
    (hpeek : c.peek.isIdentifier = true) :
    Agrees (handler nested inLoop) (handler nested' inLoop) c fun h d =>
      d.ahead.length < c.ahead.length ∧ N h.name.lexeme ∧
        Stmt.NumberedOne N c.nextId h.body d.nextId := by
  have hkind := Token.kind_of_isIdentifier hpeek
  refine (advance_yields hc (by rw [hkind]; simp)).discard.agrees.bind ?_
  rintro - d hcd ⟨word, -, hpassed⟩
  have hd := hcd.ends hc
  have hshort := hpassed.length_eq
  refine (expectName_yields hd).agrees.bind ?_
  rintro name e hde ⟨hidentifier, hpassed'⟩
  have hname := hpassed'.named hd hidentifier
  have he := hde.ends hd
  have hshort' := hpassed'.length_eq
  have hnext : e.nextId = c.nextId := by rw [hpassed'.nextId, hpassed.nextId]
  -- the type is optional, and takes no numbers
  have hbody (typeName : Option String) (f : Cursor) (hf : f.Ends N)
      (hle : f.ahead.length ≤ e.ahead.length) (hnext' : f.nextId = c.nextId) :
      Agrees
        (do
          discard <| expectKeyword .do .handlerDo
          let body ← nested.statement inLoop
          return { name, typeName, body })
        (do
          discard <| expectKeyword .do .handlerDo
          let body ← nested'.statement inLoop
          return { name, typeName, body }) f fun (h : Handler Stmt) d =>
        d.ahead.length < c.ahead.length ∧ N h.name.lexeme ∧
          Stmt.NumberedOne N c.nextId h.body d.nextId := by
    refine (expectKeyword_yields hf).discard.agrees.bind ?_
    rintro - g hfg ⟨word', -, hpassed''⟩
    have hshort'' := hpassed''.length_eq
    refine (hnested.statement inLoop g (hfg.ends hf) (by omega)).bind ?_
    rintro body k - ⟨hshort₃, hbody⟩
    rw [hpassed''.nextId, hnext'] at hbody
    exact Agrees.pure ⟨by omega, hname, hbody⟩
  refine (acceptSymbol_yields he).agrees.bind ?_
  intro accepted f hef haccepted
  cases accepted with
  | true =>
      rcases haccepted with ⟨colon, -, hpassed''⟩
      have hshort'' := hpassed''.length_eq
      have hf := hef.ends he
      have htype : Yields Misplaced (do
          let token ← expectName .typeName
          return some token.lexeme) f fun _ g => f.ahead.length = g.ahead.length + 1 ∧
            g.nextId = c.nextId := by
        refine (expectName_yields hf).bind ?_
        rintro token g - ⟨-, hpassed₃⟩
        refine Yields.pure ⟨hpassed₃.length_eq, ?_⟩
        rw [hpassed₃.nextId, hpassed''.nextId, hnext]
      refine htype.agrees.bind ?_
      rintro typeName g hfg ⟨hshort₃, hnext'⟩
      exact hbody typeName g (hfg.ends hf) (by omega) hnext'
  | false =>
      rcases haccepted with ⟨-, rfl⟩
      exact Agrees.look (p := pure none) rfl (hbody none f he (Nat.le_refl _) hnext)

theorem tryStatement_agrees (hnested : NestedAgrees N limit nested nested') {inLoop : Bool}
    {fuel : Nat} (hfuel : limit ≤ fuel) {c : Cursor} (hc : c.Ends N)
    (hlimit : c.ahead.length < limit) :
    Agrees (tryStatement nested inLoop fuel) (tryStatement nested' inLoop fuel) c fun s d =>
      Stmt.NumberedOne N c.nextId s d.nextId := by
  refine Agrees.look rfl ?_
  refine (declarations_agrees (hnested.declaration inLoop) hc (by omega) hlimit).bind ?_
  intro body d hcd hbody
  have hd := hcd.ends hc
  have hshort := hcd.length_le
  refine (expectKeyword_yields hd).discard.agrees.bind ?_
  rintro - e hde ⟨word, -, hpassed⟩
  have he := hde.ends hd
  have hshort' := hpassed.length_eq
  refine (collect_agrees (L := limit)
    (T := fun c => c.peek.isIdentifier && Text.sameName c.peek.lexeme "on")
    (R := fun c h d => N h.name.lexeme ∧ Stmt.NumberedOne N c.nextId h.body d.nextId)
    (S := fun c handlers d => Stmt.NumberedHandlers N c.nextId handlers d.nextId)
    (fun _ => rfl) ?_ ?_ ?_ fuel e he (by omega) (by omega)).bind ?_
  · intro c hc hshort htest
    exact handler_agrees hnested hc hshort (Bool.and_eq_true_iff.mp htest).1
  · intro c _
    exact Stmt.NumberedHandlers.nil (Nat.le_refl _)
  · intro c h d rest e hhead hrest
    exact Stmt.NumberedHandlers.cons hhead.1 hhead.2 hrest
  · intro handlers f hef hhandlers
    have hf := hef.ends he
    have hshort'' := hef.length_le
    refine (declarations_agrees (hnested.declaration inLoop) hf (by omega) (by omega)).bind ?_
    intro otherwise g hfg hotherwise
    refine (expectKeyword_yields (hfg.ends hf)).discard.agrees.bind ?_
    rintro - k - ⟨word', -, hpassed'⟩
    rw [hpassed.nextId] at hhandlers
    refine Agrees.pure ?_
    rw [hpassed'.nextId]
    exact Stmt.numbered_try hbody hhandlers hotherwise

theorem blockStatement_agrees (hnested : NestedAgrees N limit nested nested') {inLoop : Bool}
    {fuel : Nat} (hfuel : limit ≤ fuel) {c : Cursor} (hc : c.Ends N)
    (hlimit : c.ahead.length < limit) :
    Agrees (blockStatement nested inLoop fuel) (blockStatement nested' inLoop fuel) c fun s d =>
      Stmt.NumberedOne N c.nextId s d.nextId := by
  refine (declarations_agrees (hnested.declaration inLoop) hc (by omega) hlimit).bind ?_
  intro body d hcd hbody
  refine (expectKeyword_yields (hcd.ends hc)).discard.agrees.bind ?_
  rintro - e - ⟨word, -, hpassed⟩
  refine Agrees.pure ?_
  rw [hpassed.nextId]
  exact Stmt.numbered_block hbody

/-! ## Choices -/

theorem caseLabel_yields {D : Diagnostic → Prop}
    (hexpr : ∀ c : Cursor, c.Ends N → c.ahead.length < limit → Yields D expr c (c.Reads N 0))
    {subject : Expr} {c : Cursor} (hc : c.Ends N) (hlimit : c.ahead.length < limit) :
    Yields D (caseLabel expr subject) c fun condition d =>
      d.ahead.length < c.ahead.length ∧ Stmt.Labelled N subject c.nextId condition d.nextId := by
  refine (hexpr c hc hlimit).bind ?_
  intro label d _ hlabel
  refine Yields.look rfl ?_
  exact Yields.pure ⟨hlabel.length_lt, Stmt.labelled_equal hlabel.fresh⟩

/-- Further labels are read behind a condition, `start` standing in front of both. -/
theorem caseLabels_yields {D : Diagnostic → Prop}
    (hexpr : ∀ c : Cursor, c.Ends N → c.ahead.length < limit → Yields D expr c (c.Reads N 0))
    {subject : Expr} (first : Nat) :
    ∀ (fuel : Nat) (condition : Expr) (c : Cursor), c.Ends N → c.ahead.length < fuel →
      c.ahead.length < limit → Stmt.Labelled N subject first condition c.nextId →
      Yields D (caseLabels expr subject fuel condition) c fun condition' d =>
        Stmt.Labelled N subject first condition' d.nextId := by
  intro fuel
  induction fuel with
  | zero =>
      intro condition c _ hfuel
      exact absurd hfuel (Nat.not_lt_zero _)
  | succ fuel ih =>
      intro condition c hc hfuel hlimit hcondition
      unfold caseLabels
      refine Yields.ifSymbol hc ?_ ?_
      · intro comma d _ hpassed
        have hd := hpassed.ends hc
        have hshort := hpassed.length_eq
        refine Yields.look rfl ?_
        refine (caseLabel_yields hexpr hd (by omega)).bind ?_
        rintro additional e hde ⟨hshort', hadditional⟩
        rw [hpassed.nextId] at hadditional
        exact ih _ e (hde.ends hd) (by omega) (by omega) (hcondition.or hadditional)
      · intro _
        exact Yields.pure hcondition

def ReadsArms (N : String → Prop) (subject : Expr) (c : Cursor)
    (arms : List (Expr × Stmt) × Option Stmt) (d : Cursor) : Prop :=
  ∃ s, Stmt.lowerCase arms.1 arms.2 = some s ∧ Stmt.Chosen N subject c.nextId s d.nextId

theorem acceptSemicolon_yields {D : Diagnostic → Prop} {c : Cursor} (hc : c.Ends N) :
    Yields D (discard (acceptSymbol .semicolon)) c fun _ d => d.nextId = c.nextId := by
  refine (acceptSymbol_yields hc).discard.imp ?_
  rintro - d - ⟨accepted, h⟩
  cases accepted with
  | true =>
      rcases h with ⟨token, -, hpassed⟩
      exact hpassed.nextId
  | false =>
      rcases h with ⟨-, rfl⟩
      rfl

theorem caseArms_agrees (hnested : NestedAgrees N limit nested nested')
    (hexpr : ∀ c : Cursor, c.Ends N → c.ahead.length < limit →
      Yields Misplaced expr c (c.Reads N 0)) {inLoop : Bool} {subject : Expr} :
    ∀ (fuel : Nat) (c : Cursor), c.Ends N → c.ahead.length < fuel → c.ahead.length < limit →
      Agrees (caseArms nested inLoop expr subject fuel)
        (caseArms nested' inLoop expr subject fuel) c (ReadsArms N subject c) := by
  intro fuel
  induction fuel with
  | zero =>
      intro c _ hfuel
      exact absurd hfuel (Nat.not_lt_zero _)
  | succ fuel ih =>
      intro c hc hfuel hlimit
      unfold caseArms
      refine (caseLabel_yields hexpr hc hlimit).agrees.bind ?_
      rintro label d hcd ⟨hshort, hlabel⟩
      have hd := hcd.ends hc
      refine (caseLabels_yields hexpr c.nextId fuel label d hd (by omega) (by omega)
        hlabel).agrees.bind ?_
      intro condition e hde hcondition
      have he := hde.ends hd
      have hshort' := hde.length_le
      refine (expectSymbol_yields he).discard.agrees.bind ?_
      rintro - f hef ⟨colon, -, hpassed⟩
      have hf := hef.ends he
      have hshort'' := hpassed.length_eq
      refine (hnested.statement inLoop f hf (by omega)).bind ?_
      rintro body g hfg ⟨hshort₃, hbody⟩
      have hg := hfg.ends hf
      rw [hpassed.nextId] at hbody
      refine (acceptSemicolon_yields hg).agrees.bind ?_
      intro _ k hgk hnext
      have hk := hgk.ends hg
      have hshort₄ := hgk.length_le
      refine Agrees.ifKeyword hk ?_ ?_
      · intro word l _ hpassed'
        refine Agrees.pure ⟨_, rfl, Stmt.chosen_arm hcondition ?_⟩
        rw [hpassed'.nextId, hnext]
        exact hbody
      · intro _
        refine Agrees.ifKeyword hk ?_ ?_
        · intro word l _ hpassed'
          have hl := hpassed'.ends hk
          have hshort₅ := hpassed'.length_eq
          refine (hnested.statement inLoop l hl (by omega)).bind ?_
          rintro otherwise m hlm ⟨-, hotherwise⟩
          have hm := hlm.ends hl
          rw [hpassed'.nextId, hnext] at hotherwise
          refine (acceptSemicolon_yields hm).agrees.bind ?_
          intro _ n hmn hnext'
          refine (expectKeyword_yields (hmn.ends hm)).discard.agrees.bind ?_
          rintro - o - ⟨word', -, hpassed''⟩
          refine Agrees.pure ⟨_, rfl, Stmt.chosen_otherwise hcondition hbody ?_⟩
          rw [hpassed''.nextId, hnext']
          exact hotherwise
        · intro _
          refine Agrees.look (p := atEnd) rfl ?_
          cases k.atEnd with
          | true => exact (Yields.fail).agrees
          | false =>
              refine (ih k hk (by omega) (by omega)).bind ?_
              rintro ⟨arms, otherwise⟩ l - ⟨s, hs, hchosen⟩
              rw [hnext] at hchosen
              refine Agrees.pure ⟨.ifThen condition body (some s), ?_, ?_⟩
              · show some (Stmt.ifThen condition body (Stmt.lowerCase arms otherwise)) = _
                rw [hs]
              · exact Stmt.chosen_cons hcondition hbody hchosen

theorem caseStatement_agrees (hnested : NestedAgrees N limit nested nested')
    (hexpr : ∀ c : Cursor, c.Ends N → c.ahead.length < limit →
      Yields Misplaced expr c (c.Reads N 0)) {inLoop : Bool} {fuel : Nat} (hfuel : limit ≤ fuel)
    {c : Cursor} (hc : c.Ends N) (hlimit : c.ahead.length < limit) :
    Agrees (caseStatement nested inLoop expr fuel) (caseStatement nested' inLoop expr fuel) c
      fun s d => Stmt.NumberedOne N c.nextId s d.nextId := by
  refine (hexpr c hc hlimit).agrees.bind ?_
  intro subject d hcd hsubject
  have hd := hcd.ends hc
  have hshort := hsubject.length_lt
  refine (expectKeyword_yields hd).discard.agrees.bind ?_
  rintro - e hde ⟨word, -, hpassed⟩
  have hshort' := hpassed.length_eq
  refine (caseArms_agrees hnested hexpr fuel e (hde.ends hd) (by omega) (by omega)).bind ?_
  rintro ⟨arms, otherwise⟩ f - ⟨s, hs, hchosen⟩
  rw [hpassed.nextId] at hchosen
  simp only [hs]
  exact Agrees.pure (hchosen.numbered hsubject.fresh)

/-! ## Statements -/

/-- A statement behind the reserved word that tells it. -/
theorem keywordStatement_agrees {p q : Parse Stmt} {word : Keyword} {c : Cursor} (hc : c.Ends N)
    (hpeek : c.peek.keyword? = some word)
    (hpq : ∀ d : Cursor, d.Ends N → c.ahead.length = d.ahead.length + 1 →
      Agrees p q d fun s e => Stmt.NumberedOne N d.nextId s e.nextId) :
    Agrees (discard advance >>= fun _ => p) (discard advance >>= fun _ => q) c
      (ReadsStatement N c) := by
  have hkind := Token.kind_of_keyword? hpeek
  refine (advance_yields hc (by rw [hkind]; simp)).discard.agrees.bind ?_
  rintro - d hcd ⟨token, -, hpassed⟩
  have hshort := hpassed.length_eq
  refine (hpq d (hcd.ends hc) hshort).imp ?_
  intro s e hde hs
  have hshort' := hde.length_le
  rw [hpassed.nextId] at hs
  exact ⟨by omega, hs⟩

theorem statement_agrees (hnested : NestedAgrees N limit nested nested') {fuel : Nat}
    (hexpr : ∀ c : Cursor, c.Ends N → c.ahead.length < fuel →
      Yields Misplaced expr c (c.Reads N 0)) (hfuel : fuel = limit + 1) {inLoop : Bool}
    {c : Cursor} (hc : c.Ends N) (hlength : c.ahead.length < fuel) :
    Agrees (statement nested expr fuel inLoop) (statement nested' expr fuel inLoop) c
      (ReadsStatement N c) := by
  have hexpr' (d : Cursor) (hd : d.Ends N) (hlimit : d.ahead.length < limit) :
      Yields Misplaced expr d (d.Reads N 0) := hexpr d hd (by omega)
  unfold statement
  refine Agrees.look rfl ?_
  split
  · next hpeek =>
      refine keywordStatement_agrees hc hpeek fun d hd hshort => ?_
      exact forStatement_agrees hnested hexpr' hd (by omega)
  · next hpeek =>
      refine keywordStatement_agrees hc hpeek fun d hd hshort => ?_
      exact (breakStatement_yields hd).agrees
  · next hpeek =>
      refine keywordStatement_agrees hc hpeek fun d hd hshort => ?_
      exact ifStatement_agrees hnested hexpr' hd (by omega)
  · next hpeek =>
      refine keywordStatement_agrees hc hpeek fun d hd hshort => ?_
      exact tryStatement_agrees hnested (by omega) hd (by omega)
  · next hpeek =>
      refine keywordStatement_agrees hc hpeek fun d hd hshort => ?_
      exact caseStatement_agrees hnested hexpr' (by omega) hd (by omega)
  · next hpeek =>
      refine keywordStatement_agrees hc hpeek fun d hd hshort => ?_
      exact (printStatement_yields hexpr' hd (by omega)).agrees
  · next hpeek =>
      refine keywordStatement_agrees hc hpeek fun d hd hshort => ?_
      exact (exitStatement_yields hexpr' hd (by omega)).agrees
  · next hpeek =>
      refine keywordStatement_agrees hc hpeek fun d hd hshort => ?_
      exact (raiseStatement_yields hexpr' hd (by omega)).agrees
  · next hpeek =>
      refine keywordStatement_agrees hc hpeek fun d hd hshort => ?_
      exact whileStatement_agrees hnested hexpr' hd (by omega)
  · next hpeek =>
      refine keywordStatement_agrees hc hpeek fun d hd hshort => ?_
      exact blockStatement_agrees hnested (by omega) hd (by omega)
  · exact (expressionStatement_yields hexpr hc hlength).agrees

/-! ## Functions and classes -/

theorem function_agrees (hnested : NestedAgrees N limit nested nested')
    {inLoop : Bool} {kind : FunctionKind} {fuel : Nat}
    (hfuel : limit ≤ fuel) (hexpr : ∀ c : Cursor, c.Ends N → c.ahead.length < fuel →
      Yields Misplaced expr c (c.Reads N 0))
    {c : Cursor} (hc : c.Ends N) (hlimit : c.ahead.length < limit) :
    Agrees (function nested inLoop expr fuel kind) (function nested' inLoop expr fuel kind) c
      fun decl d => d.ahead.length < c.ahead.length ∧
        Stmt.NumberedFunction N c.nextId decl d.nextId := by
  refine (expectName_yields hc).agrees.bind ?_
  rintro name d hcd ⟨hkind, hpassed⟩
  have hd := hcd.ends hc
  have hshort := hpassed.length_eq
  refine (params_yields hd (by omega)).agrees.bind ?_
  intro parameters e hde hparams
  have he := hde.ends hd
  have hshort' := hde.length_le
  refine (resultType_yields he).agrees.bind ?_
  intro returnType f hef _
  have hf := hef.ends he
  have hshort'' := hef.length_le
  refine (expectSymbol_yields hf).discard.agrees.bind ?_
  rintro - g hfg -
  have hg := hfg.ends hf
  have hshort₃ := hfg.length_le
  refine (sections_yields hexpr hg (by omega) (Nat.le_refl _)).agrees.bind ?_
  intro announced k hgk hannounced
  have hk := hgk.ends hg
  have hshort₄ := hgk.length_le
  refine (expectKeyword_yields hk).discard.agrees.bind ?_
  rintro - l hkl ⟨word, -, hpassed'⟩
  have hl := hkl.ends hk
  have hshort₅ := hpassed'.length_eq
  refine (declarations_agrees (hnested.declaration inLoop) hl (by omega) (by omega)).bind ?_
  intro body m hlm hbody
  have hshort₆ := hlm.length_le
  refine (expectKeyword_yields (hlm.ends hl)).discard.agrees.bind ?_
  rintro - n hmn ⟨word', -, hpassed''⟩
  have hshort₇ := hpassed''.length_eq
  refine Agrees.pure ⟨by omega, ?_⟩
  have hfirst : c.nextId ≤ g.nextId :=
    Nat.le_trans hcd.nextId (Nat.le_trans hde.nextId (Nat.le_trans hef.nextId hfg.nextId))
  rw [hpassed'.nextId] at hbody
  rw [hpassed''.nextId]
  exact ⟨hpassed.named hc hkind, hparams,
    (hannounced.append hbody).widen hfirst (Nat.le_refl _)⟩

theorem methodKind_yields {D : Diagnostic → Prop} {c : Cursor} (hc : c.Ends N) :
    Yields D methodKind c fun _ d => d.nextId = c.nextId := by
  refine Yields.ifKeyword hc ?_ ?_
  · intro token d _ hpassed
    exact Yields.pure hpassed.nextId
  · intro _
    refine Yields.ifKeyword hc ?_ ?_
    · intro token d _ hpassed
      exact Yields.pure hpassed.nextId
    · intro _
      refine Yields.ifKeyword hc ?_ ?_
      · intro token d _ hpassed
        exact Yields.pure hpassed.nextId
      · intro _
        exact Yields.pure rfl

theorem method_agrees (hnested : NestedAgrees N limit nested nested')
    {inLoop : Bool} {fuel : Nat}
    (hfuel : limit ≤ fuel) (hexpr : ∀ c : Cursor, c.Ends N → c.ahead.length < fuel →
      Yields Misplaced expr c (c.Reads N 0))
    {c : Cursor} (hc : c.Ends N) (hlimit : c.ahead.length < limit) :
    Agrees (method nested inLoop expr fuel) (method nested' inLoop expr fuel) c
      fun decl d => d.ahead.length < c.ahead.length ∧
        Stmt.NumberedFunction N c.nextId decl d.nextId := by
  refine (methodKind_yields hc).agrees.bind ?_
  intro kind d hcd hnext
  have hd := hcd.ends hc
  have hshort := hcd.length_le
  refine (function_agrees hnested hfuel hexpr hd (by omega)).bind ?_
  rintro decl e hde ⟨hshort', hdecl⟩
  refine (acceptSemicolon_yields (hde.ends hd)).agrees.bind ?_
  intro _ f hef hnext'
  have hshort'' := hef.length_le
  refine Agrees.pure ⟨by omega, ?_⟩
  rw [hnext', ← hnext]
  exact hdecl

theorem superclass_yields {D : Diagnostic → Prop} {c : Cursor} (hc : c.Ends N) :
    Yields D superclass c fun parent d =>
      (parent = none ∧ d.nextId = c.nextId) ∨
        ∃ name, parent = some ⟨c.nextId, name⟩ ∧ d.nextId = c.nextId + 1 := by
  refine Yields.ifSymbol hc ?_ ?_
  · intro token d _ hpassed
    have hd := hpassed.ends hc
    refine (expectName_yields hd).bind ?_
    rintro name e hde ⟨-, hpassed'⟩
    refine (expectSymbol_yields (hde.ends hd)).discard.bind ?_
    rintro - f - ⟨token', -, hpassed''⟩
    have hnext : f.nextId = c.nextId := by
      rw [hpassed''.nextId, hpassed'.nextId, hpassed.nextId]
    refine freshId_yields.bind ?_
    rintro id g - ⟨rfl, rfl⟩
    refine Yields.pure (.inr ⟨name, ?_, ?_⟩)
    · rw [hnext]
    · rw [← hnext]
  · intro _
    exact Yields.pure (.inl ⟨rfl, rfl⟩)

theorem classDecl_agrees (hnested : NestedAgrees N limit nested nested')
    {inLoop : Bool} {fuel : Nat}
    (hfuel : limit ≤ fuel) (hexpr : ∀ c : Cursor, c.Ends N → c.ahead.length < fuel →
      Yields Misplaced expr c (c.Reads N 0))
    {c : Cursor} (hc : c.Ends N) (hlimit : c.ahead.length < limit) :
    Agrees (classDecl nested inLoop expr fuel) (classDecl nested' inLoop expr fuel) c
      fun decl d => Stmt.Numbered N c.nextId [.classDecl decl] d.nextId := by
  refine (expectName_yields hc).agrees.bind ?_
  rintro name d hcd ⟨hkind, hpassed⟩
  have hname := hpassed.named hc hkind
  have hd := hcd.ends hc
  have hshort := hpassed.length_eq
  refine (superclass_yields hd).agrees.bind ?_
  intro parent e hde hparent
  have he := hde.ends hd
  have hshort' := hde.length_le
  refine (expectSymbol_yields he).discard.agrees.bind ?_
  rintro - f hef -
  have hf := hef.ends he
  have hshort'' := hef.length_le
  refine (sections_yields hexpr hf (by omega) (Nat.le_refl _)).agrees.bind ?_
  intro announced g hfg hannounced
  have henums := enums_named hannounced.tidy
  have hg := hfg.ends hf
  have hshort₃ := hfg.length_le
  refine (expectKeyword_yields hg).discard.agrees.bind ?_
  rintro - k hgk -
  have hk := hgk.ends hg
  have hshort₄ := hgk.length_le
  refine (collect_agrees (L := limit)
    (T := fun c => !decide (c.peek.keyword? = some .end) && !c.atEnd)
    (R := fun c decl d => Stmt.NumberedFunction N c.nextId decl d.nextId)
    (S := fun c methods d => Stmt.NumberedMethods N c.nextId methods d.nextId)
    (openTest_run .end) ?_ ?_ ?_ fuel k hk (by omega) (by omega)).bind ?_
  · intro c hc hlimit _
    exact method_agrees hnested hfuel hexpr hc hlimit
  · intro c _
    exact Stmt.NumberedMethods.nil (Nat.le_refl _)
  · intro c decl d methods e hdecl hmethods
    exact Stmt.NumberedMethods.cons hdecl hmethods
  · intro methods l hkl hmethods
    refine (expectKeyword_yields (hkl.ends hk)).discard.agrees.bind ?_
    rintro - m - ⟨word, -, hpassed'⟩
    refine Agrees.pure ?_
    rw [hpassed'.nextId]
    have hnext : e.nextId ≤ k.nextId :=
      Nat.le_trans hef.nextId (Nat.le_trans hfg.nextId hgk.nextId)
    rw [hpassed.nextId] at hparent
    rcases hparent with ⟨rfl, hid⟩ | ⟨parentName, rfl, hid⟩
    · refine Stmt.numbered_classDecl hname henums (Aligned.of_nil ?_ fun _ => rfl) hmethods
      exact hid ▸ hnext
    · have hlast : c.nextId + 1 ≤ k.nextId := hid ▸ hnext
      refine Stmt.numbered_classDecl hname henums (Aligned.widen ?_ (Nat.le_refl _) hlast)
        hmethods
      exact Stmt.parent_settled rfl

theorem usesDecl_yields {D : Diagnostic → Prop} {c : Cursor} (hc : c.Ends N) :
    Yields D usesDecl c fun s d => Stmt.Numbered N c.nextId [s] d.nextId := by
  refine Yields.look rfl ?_
  refine (expectName_yields hc).bind ?_
  rintro name d hcd ⟨hkind, hpassed⟩
  refine (expectSymbol_yields (hcd.ends hc)).discard.bind ?_
  rintro - e - ⟨token, -, hpassed'⟩
  refine Yields.pure (Stmt.numbered_of_references_nil (hpassed.named hc hkind) ?_ fun _ => rfl)
  exact Nat.le_of_eq (hpassed'.nextId.trans hpassed.nextId).symm

/-- A declaration behind the reserved word that tells it. -/
theorem keywordDeclaration_agrees {p q : Parse (List Stmt)} {word : Keyword} {c : Cursor}
    (hc : c.Ends N) (hpeek : c.peek.keyword? = some word)
    (hpq : ∀ d : Cursor, d.Ends N → c.ahead.length = d.ahead.length + 1 →
      Agrees p q d fun list e => Stmt.Numbered N d.nextId list e.nextId) :
    Agrees (discard advance >>= fun _ => p) (discard advance >>= fun _ => q) c
      (ReadsDeclaration N c) := by
  have hkind := Token.kind_of_keyword? hpeek
  refine (advance_yields hc (by rw [hkind]; simp)).discard.agrees.bind ?_
  rintro - d hcd ⟨token, -, hpassed⟩
  have hshort := hpassed.length_eq
  refine (hpq d (hcd.ends hc) hshort).imp ?_
  intro list e hde hlist
  have hshort' := hde.length_le
  rw [hpassed.nextId] at hlist
  exact ⟨by omega, hlist⟩

theorem declaration_agrees (hnested : NestedAgrees N limit nested nested') {fuel : Nat}
    {here here' : Bool → Parse Stmt}
    (hexpr : ∀ c : Cursor, c.Ends N → c.ahead.length < fuel →
      Yields Misplaced expr c (c.Reads N 0)) (hfuel : fuel = limit + 1) {inLoop : Bool}
    {c : Cursor} (hc : c.Ends N) (hlength : c.ahead.length < fuel)
    (hhere : Agrees (here inLoop) (here' inLoop) c (ReadsStatement N c)) :
    Agrees (declaration nested here expr fuel inLoop) (declaration nested' here' expr fuel inLoop)
      c (ReadsDeclaration N c) := by
  have hexpr' (d : Cursor) (hd : d.Ends N) (hlimit : d.ahead.length < limit) :
      Yields Misplaced expr d (d.Reads N 0) := hexpr d hd (by omega)
  unfold declaration
  refine Agrees.look rfl ?_
  split
  · next hpeek =>
      refine keywordDeclaration_agrees hc hpeek fun d hd hshort => ?_
      refine (usesDecl_yields hd).agrees.bind ?_
      intro s e _ hs
      exact Agrees.pure hs
  · next hpeek =>
      refine keywordDeclaration_agrees hc hpeek fun d hd hshort => ?_
      refine (classDecl_agrees hnested (by omega) hexpr hd (by omega)).bind ?_
      intro decl e _ hdecl
      exact Agrees.pure hdecl
  · next hpeek =>
      refine keywordDeclaration_agrees hc hpeek fun d hd hshort => ?_
      refine (function_agrees hnested (by omega) hexpr hd (by omega)).bind ?_
      rintro decl e - ⟨-, hdecl⟩
      exact Agrees.pure (Stmt.numbered_function hdecl)
  · next hpeek =>
      refine keywordDeclaration_agrees hc hpeek fun d hd hshort => ?_
      refine (function_agrees hnested (by omega) hexpr hd (by omega)).bind ?_
      rintro decl e - ⟨-, hdecl⟩
      exact Agrees.pure (Stmt.numbered_function hdecl)
  · next hpeek =>
      refine keywordDeclaration_agrees hc hpeek fun d hd hshort => ?_
      refine (variableSection_yields hexpr hd (by omega) (Nat.le_refl _)).agrees.bind ?_
      rintro decls e - ⟨-, hdecls⟩
      exact Agrees.pure hdecls
  · next hpeek =>
      refine keywordDeclaration_agrees hc hpeek fun d hd hshort => ?_
      refine (enumSection_yields hd (by omega)).agrees.bind ?_
      intro decls e hde hdecls
      exact Agrees.pure (numbered_enums hde.nextId hdecls)
  · refine hhere.bind ?_
    rintro s d - ⟨hshort, hs⟩
    exact Agrees.pure ⟨hshort, hs.list⟩

end Nested

end Parse

/-- With more fuel than there are tokens ahead, the grammars with and without recovery agree. -/
theorem grammar_agrees : ∀ fuel,
    Parse.NestedAgrees N fuel (grammar .strict fuel) (grammar .synchronize fuel) := by
  intro fuel
  induction fuel with
  | zero =>
      exact ⟨fun _ _ _ h => absurd h (Nat.not_lt_zero _), fun _ _ _ h => absurd h (Nat.not_lt_zero _)⟩
  | succ fuel ih =>
      have hexpr (c : Cursor) (hc : c.Ends N) (hlength : c.ahead.length < fuel + 1) :
          Parse.Yields Misplaced (Parse.expression (fuel + 1)) c (c.Reads N 0) :=
        Parse.expression_yields (fuel + 1) c hc hlength
      refine ⟨?_, ?_⟩
      · intro inLoop c hc hlength
        exact Parse.statement_agrees ih hexpr rfl hc hlength
      · intro inLoop c hc hlength hne
        have hhere : Parse.Agrees ((grammar .strict (fuel + 1)).statement inLoop)
            ((grammar .synchronize (fuel + 1)).statement inLoop) c (Parse.ReadsStatement N c) :=
          Parse.statement_agrees ih hexpr rfl hc hlength
        refine Parse.recover_agrees (Parse.declaration_agrees ih hexpr rfl hc hlength hhere) ?_
        -- a declaration that is given up takes a token and leaves nothing
        intro d e hcd hce he
        refine ⟨?_, Stmt.Numbered.nil hce.nextId⟩
        rw [he]
        exact Cursor.synchronize_length_lt hne hcd.length_le

end MiniPascal
