import MiniPascal.Proofs.Parser.ProgramAgreement
import MiniPascal.Proofs.Parser.StatementCaseFolding
import MiniPascal.Proofs.Syntax.BreakSurroundings

/-!
# Where a `break` may stand

A program that is parsed without errors is looped, for a `break` outside of loops is an error, and
so is what recovery gives up.  What the parser passes down into the body of a function is whether a
loop is around its declaration, so the loop of a `break` may lie outside of a body.
-/

namespace MiniPascal

namespace Parse

/-- A result that is reached without an error satisfies `Q`; errors are never taken back, and the
text ends as it did. -/
def Clean (p : Parse α) (Q : α → Prop) : Prop :=
  ∀ c value d, c.last.isIdentifier = false → p c = .ok value d →
    d.last = c.last ∧ (Diagnostic.anyError d.diagnostics = false →
      Diagnostic.anyError c.diagnostics = false ∧ Q value)

/-! ## Composition -/

/-- Reports in front of others change nothing, so a parser only adds to those that are there. -/
theorem Mirrors.clean {f : α → α} {p : Parse α} (h : Mirrors (fun _ => false) f p p) :
    Clean p fun _ => True := by
  intro c value d hlast hrun
  have hcursor : (Cursor.fold (fun _ => false) c.diagnostics { c with diagnostics := [] }) = c := by
    have hid : Token.fold (fun _ => false) = id := funext Token.fold_none
    simp [Cursor.fold, hid]
  rcases h c.diagnostics { c with diagnostics := [] } hlast with ⟨hsame, hfold⟩
  rw [hcursor, hrun] at hfold
  cases hbare : p { c with diagnostics := [] } with
  | error stop e =>
      rw [hbare] at hfold
      cases hfold
  | ok bare e =>
      rw [hbare] at hfold
      rw [left_of_ok hbare] at hsame
      cases hfold
      refine ⟨(Token.fold_none e.last).trans hsame, fun herror => ?_⟩
      simp only [Cursor.fold, Diagnostic.anyError_append, Bool.or_eq_false_iff] at herror
      exact ⟨herror.1, trivial⟩

namespace Clean

theorem imp {p : Parse α} {Q R : α → Prop} (h : Clean p Q) (hQR : ∀ value, Q value → R value) :
    Clean p R := by
  intro c value d hlast hrun
  rcases h c value d hlast hrun with ⟨hsame, hclean⟩
  exact ⟨hsame, fun herror => ⟨(hclean herror).1, hQR value (hclean herror).2⟩⟩

theorem pure {Q : α → Prop} {value : α} (h : Q value) : Clean (pure value) Q := by
  intro c value' d _ hrun
  cases hrun
  exact ⟨rfl, fun herror => ⟨herror, h⟩⟩

theorem bind {p : Parse α} {k : α → Parse β} {Q : α → Prop} {R : β → Prop} (hp : Clean p Q)
    (hk : ∀ value, Clean (k value) fun result => Q value → R result) : Clean (p >>= k) R := by
  intro c result e hlast hrun
  cases hfirst : p c with
  | error stop d =>
      rw [bind_of_error hfirst] at hrun
      cases hrun
  | ok value d =>
      rw [bind_of_ok hfirst] at hrun
      rcases hp c value d hlast hfirst with ⟨hsame, hclean⟩
      rcases hk value d result e (hsame ▸ hlast) hrun with ⟨hsame', hclean'⟩
      refine ⟨hsame'.trans hsame, fun herror => ?_⟩
      rcases hclean' herror with ⟨hmiddle, hresult⟩
      rcases hclean hmiddle with ⟨hbefore, hvalue⟩
      exact ⟨hbefore, hresult hvalue⟩

theorem fail {fault : SyntaxFault} {Q : α → Prop} : Clean (fail fault) Q := by
  intro c value d _ hrun
  cases hrun

theorem failAt {token : Token} {fault : SyntaxFault} {Q : α → Prop} :
    Clean (failAt token fault) Q := by
  intro c value d _ hrun
  cases hrun

theorem starve {Q : α → Prop} : Clean starve Q := by
  intro c value d _ hrun
  cases hrun

/-- What is left with an error has no results to speak of. -/
theorem report {token : Token} {message : String} {Q : Unit → Prop} :
    Clean (report (.errorAt token message)) Q := by
  intro c value d _ hrun
  cases hrun
  refine ⟨rfl, fun herror => ?_⟩
  simp [Cursor.report, Diagnostic.anyError, Diagnostic.isError, Diagnostic.errorAt] at herror

end Clean

/-- A parser of which nothing is said but that it is clean. -/
theorem Mirrors.thenClean {f : α → α} {p : Parse α} {k : α → Parse β} {R : β → Prop}
    (hp : Mirrors (fun _ => false) f p p) (hk : ∀ value, Clean (k value) R) :
    Clean (p >>= k) R :=
  hp.clean.bind fun value => (hk value).imp fun _ hresult _ => hresult

theorem Mirrors.branchClean {test : Parse Bool} {p q : Parse α} {Q : α → Prop}
    (htest : Mirrors (fun _ => false) id test test) (hthen : Clean p Q) (helse : Clean q Q) :
    Clean (test >>= fun holds => if holds = true then p else q) Q := by
  refine htest.thenClean fun holds => ?_
  cases holds with
  | true => exact hthen
  | false => exact helse

theorem collect_clean {more : Parse Bool} {item : Parse α} {Q : α → Prop}
    (hmore : Mirrors (fun _ => false) id more more) (hitem : Clean item Q) :
    ∀ fuel, Clean (collect more item fuel) fun list => ∀ value ∈ list, Q value := by
  intro fuel
  induction fuel with
  | zero => exact Clean.starve
  | succ fuel ih =>
      refine hmore.branchClean ?_ (.pure (List.forall_mem_nil _))
      refine hitem.bind fun head => ih.bind fun tail => .pure ?_
      intro htail hhead
      exact List.forall_mem_cons.mpr ⟨hhead, htail⟩

/-! ## Statements -/

/-- A statement is looped unless a loop is around. -/
def Within (inLoop : Bool) (s : Stmt) : Prop :=
  inLoop = false → s.Looped

/-- Parsers of nested statements that are clean, and whose results are looped unless a loop is
around. -/
structure NestedClean (nested : Nested) : Prop where
  statement : ∀ inLoop, Clean (nested.statement inLoop) (Within inLoop)
  declaration : ∀ inLoop, Clean (nested.declaration inLoop) fun list =>
    ∀ s ∈ list, Within inLoop s

theorem items_clean {decl : Parse (List Stmt)} {more : Parse Bool} {Q : Stmt → Prop}
    (hmore : Mirrors (fun _ => false) id more more)
    (hdecl : Clean decl fun list => ∀ s ∈ list, Q s) (fuel : Nat) :
    Clean (do
      let items ← collect more (declarationItem decl) fuel
      return items.flatten) fun list => ∀ s ∈ list, Q s := by
  have hitem : Clean (declarationItem decl) fun list => ∀ s ∈ list, Q s :=
    (acceptSymbol_mirrors _).branchClean (.pure (List.forall_mem_nil _)) hdecl
  refine (collect_clean hmore hitem fuel).bind fun items => .pure ?_
  intro hitems s hs
  rcases List.mem_flatten.mp hs with ⟨list, hlist, hmem⟩
  exact hitems list hlist s hmem

theorem declarations_clean {decl : Parse (List Stmt)} {Q : Stmt → Prop}
    (hdecl : Clean decl fun list => ∀ s ∈ list, Q s) (close : Keyword) (fuel : Nat) :
    Clean (declarations decl close fuel) fun list => ∀ s ∈ list, Q s :=
  items_clean (openTest_mirrors close) hdecl fuel

theorem breakStatement_clean (inLoop : Bool) : Clean (breakStatement inLoop) (Within inLoop) := by
  refine previous_mirrors.thenClean fun keyword => ?_
  cases inLoop with
  | true =>
      refine (expectSymbol_mirrors _ _).discard.thenClean fun _ => .pure ?_
      intro hloop
      cases hloop
  | false =>
      have hreport : Clean (report (.errorAt keyword "Must be inside a loop to use 'break'."))
          fun _ => False := Clean.report
      refine hreport.bind fun _ => ?_
      exact (expectSymbol_mirrors _ _).discard.thenClean fun _ => .pure fun hfalse => hfalse.elim

section Nested

variable {nested : Nested} {expr : Parse Expr} (hnested : NestedClean nested)
  (hexpr : Mirrors (fun _ => false) (Expr.fold fun _ => false) expr expr)

include hexpr

theorem expressionStatement_clean : Clean (expressionStatement expr) Stmt.Looped := by
  refine hexpr.thenClean fun value => ?_
  exact (expectSymbol_mirrors _ _).discard.thenClean fun _ =>
    .pure (Stmt.looped_of_breaks_eq_nil rfl)

theorem printStatement_clean : Clean (printStatement expr) Stmt.Looped := by
  refine previous_mirrors.thenClean fun keyword => hexpr.thenClean fun value => ?_
  exact (expectSymbol_mirrors _ _).discard.thenClean fun _ =>
    .pure (Stmt.looped_of_breaks_eq_nil rfl)

theorem exitStatement_clean : Clean (exitStatement expr) Stmt.Looped :=
  previous_mirrors.thenClean fun _ => (resultValue_mirrors hexpr).thenClean fun _ =>
    .pure (Stmt.looped_of_breaks_eq_nil rfl)

theorem raiseStatement_clean : Clean (raiseStatement expr) Stmt.Looped :=
  previous_mirrors.thenClean fun _ => (resultValue_mirrors hexpr).thenClean fun _ =>
    .pure (Stmt.looped_of_breaks_eq_nil rfl)

theorem forInitial_clean : Clean (forInitial expr) fun initial => ∀ s ∈ initial, s.Looped := by
  refine (acceptSymbol_mirrors _).branchClean (.pure (by simp)) ?_
  refine (acceptKeyword_mirrors _).branchClean ?_ ?_
  · refine (loopVariable_mirrors hexpr).thenClean fun decl => .pure fun s hs => ?_
    cases hs
    exact Stmt.looped_of_breaks_eq_nil rfl
  · refine (expressionStatement_clean hexpr).bind fun statement => .pure ?_
    intro h s hs
    cases hs
    exact h

include hnested

theorem forStatement_clean (inLoop : Bool) : Clean (forStatement nested expr) (Within inLoop) := by
  refine (forInitial_clean hexpr).bind fun initial => ?_
  refine (optional_mirrors hexpr (atSymbol_mirrors _)).thenClean fun condition => ?_
  refine (expectSymbol_mirrors _ _).discard.thenClean fun _ => ?_
  refine (optional_mirrors hexpr (atKeyword_mirrors _)).thenClean fun increment => ?_
  refine (expectKeyword_mirrors _ _).discard.thenClean fun _ => ?_
  refine (hnested.statement true).bind fun body => .pure ?_
  intro _ hinitial _
  exact Stmt.looped_lowerFor hinitial

theorem whileStatement_clean (inLoop : Bool) :
    Clean (whileStatement nested expr) (Within inLoop) := by
  refine hexpr.thenClean fun condition => ?_
  refine (expectKeyword_mirrors _ _).discard.thenClean fun _ => ?_
  exact (hnested.statement true).bind fun body => .pure fun _ _ => Stmt.looped_while

theorem ifStatement_clean (inLoop : Bool) :
    Clean (ifStatement nested inLoop expr) (Within inLoop) := by
  refine hexpr.thenClean fun condition => ?_
  refine (expectKeyword_mirrors _ _).discard.thenClean fun _ => ?_
  refine (hnested.statement inLoop).bind fun thenBranch => ?_
  refine (acceptKeyword_mirrors _).branchClean ?_ (.pure fun hthen => hthen)
  refine (hnested.statement inLoop).bind fun elseBranch => .pure ?_
  intro helse hthen hloop
  exact Stmt.looped_ifThen (hthen hloop) fun s hs => by
    cases hs
    exact helse hloop

omit hexpr in
theorem handler_clean (inLoop : Bool) :
    Clean (handler nested inLoop) fun handler => Within inLoop handler.body := by
  refine advance_mirrors.discard.thenClean fun _ => ?_
  refine (expectName_mirrors _).thenClean fun name => ?_
  have hbody (typeName : Option String) : Clean
      (do
        discard <| expectKeyword .do .handlerDo
        let body ← nested.statement inLoop
        return ({ name, typeName, body } : Handler Stmt))
      fun handler => Within inLoop handler.body := by
    refine (expectKeyword_mirrors _ _).discard.thenClean fun _ => ?_
    exact (hnested.statement inLoop).bind fun body => .pure fun h => h
  refine (acceptSymbol_mirrors _).branchClean ?_ (hbody none)
  have htype : Mirrors (fun _ => false) id
      (do
        let token ← expectName .typeName
        return some token.lexeme)
      (do
        let token ← expectName .typeName
        return some token.lexeme) := (expectName_mirrors _).bind fun _ => .pure rfl
  exact htype.thenClean hbody

omit hexpr in
theorem tryStatement_clean (inLoop : Bool) (fuel : Nat) :
    Clean (tryStatement nested inLoop fuel) (Within inLoop) := by
  have hdecl := hnested.declaration inLoop
  refine previous_mirrors.thenClean fun keyword => ?_
  refine (declarations_clean hdecl .except fuel).bind fun body => ?_
  refine (expectKeyword_mirrors _ _).discard.thenClean fun _ => ?_
  refine (collect_clean atHandler_mirrors (handler_clean hnested inLoop) fuel).bind
    fun handlers => ?_
  refine (declarations_clean hdecl .end fuel).bind fun otherwise => ?_
  refine (expectKeyword_mirrors _ _).discard.thenClean fun _ => .pure ?_
  intro hotherwise hhandlers hbody hloop
  exact Stmt.looped_try (fun s hs => hbody s hs hloop) (fun handler hh => hhandlers handler hh hloop)
    fun s hs => hotherwise s hs hloop

omit hexpr in
theorem blockStatement_clean (inLoop : Bool) (fuel : Nat) :
    Clean (blockStatement nested inLoop fuel) (Within inLoop) := by
  refine (declarations_clean (hnested.declaration inLoop) .end fuel).bind fun body => ?_
  refine (expectKeyword_mirrors _ _).discard.thenClean fun _ => .pure ?_
  intro hbody hloop
  exact Stmt.looped_block fun s hs => hbody s hs hloop

omit hnested in
theorem caseLabel_clean (subject : Expr) : Clean (caseLabel expr subject) fun _ => True :=
  hexpr.thenClean fun _ => previous_mirrors.thenClean fun _ => .pure trivial

omit hnested in
theorem caseLabels_clean (subject : Expr) :
    ∀ fuel condition, Clean (caseLabels expr subject fuel condition) fun _ => True := by
  intro fuel
  induction fuel with
  | zero =>
      intro condition
      exact Clean.starve
  | succ fuel ih =>
      intro condition
      refine (acceptSymbol_mirrors _).branchClean ?_ (.pure trivial)
      refine previous_mirrors.thenClean fun place => ?_
      exact (caseLabel_clean hexpr subject).bind fun _ => (ih _).imp fun _ _ _ => trivial

/-- What is said of the arms of a choice and of the statement behind them. -/
def ArmsWithin (inLoop : Bool) (arms : List (Expr × Stmt) × Option Stmt) : Prop :=
  (∀ arm ∈ arms.1, Within inLoop arm.2) ∧ ∀ s ∈ arms.2, Within inLoop s

theorem caseArms_clean (inLoop : Bool) (subject : Expr) : ∀ fuel,
    Clean (caseArms nested inLoop expr subject fuel) (ArmsWithin inLoop) := by
  intro fuel
  induction fuel with
  | zero => exact Clean.starve
  | succ fuel ih =>
      refine (caseLabel_clean hexpr subject).bind fun label => ?_
      refine (caseLabels_clean hexpr subject fuel label).bind fun condition => ?_
      refine (expectSymbol_mirrors _ _).discard.thenClean fun _ => ?_
      refine (hnested.statement inLoop).bind fun body => ?_
      refine (acceptSymbol_mirrors _).discard.thenClean fun _ => ?_
      refine (acceptKeyword_mirrors _).branchClean (.pure ?_) ?_
      · intro hbody _ _
        exact ⟨List.forall_mem_singleton.mpr hbody, by simp⟩
      refine (acceptKeyword_mirrors _).branchClean ?_ ?_
      · refine (hnested.statement inLoop).bind fun otherwise => ?_
        refine (acceptSymbol_mirrors _).discard.thenClean fun _ => ?_
        refine (expectKeyword_mirrors _ _).discard.thenClean fun _ => .pure ?_
        intro hotherwise hbody _ _
        exact ⟨List.forall_mem_singleton.mpr hbody, by simpa using hotherwise⟩
      · refine atEnd_mirrors.branchClean Clean.fail ?_
        refine ih.bind fun arms => .pure ?_
        intro harms hbody _ _
        exact ⟨List.forall_mem_cons.mpr ⟨hbody, harms.1⟩, harms.2⟩

theorem caseStatement_clean (inLoop : Bool) (fuel : Nat) :
    Clean (caseStatement nested inLoop expr fuel) (Within inLoop) := by
  refine hexpr.thenClean fun subject => ?_
  refine (expectKeyword_mirrors _ _).discard.thenClean fun _ => ?_
  refine (caseArms_clean hnested hexpr inLoop subject fuel).bind ?_
  rintro ⟨arms, otherwise⟩
  dsimp only
  cases hlower : Stmt.lowerCase arms otherwise with
  | none => exact previous_mirrors.thenClean fun _ => Clean.failAt
  | some statement =>
      refine .pure ?_
      intro harms hloop
      exact Stmt.looped_lowerCase (fun arm harm => harms.1 arm harm hloop)
        (fun s hs => harms.2 s hs hloop) statement hlower

theorem statement_clean (fuel : Nat) (inLoop : Bool) :
    Clean (statement nested expr fuel inLoop) (Within inLoop) := by
  have hword {p : Parse Stmt} {Q : Stmt → Prop} (hp : Clean p Q) :
      Clean (discard advance >>= fun _ => p) Q := advance_mirrors.discard.thenClean fun _ => hp
  refine peek_mirrors.thenClean fun token => ?_
  split
  · exact hword (forStatement_clean hnested hexpr inLoop)
  · exact hword (breakStatement_clean inLoop)
  · exact hword (ifStatement_clean hnested hexpr inLoop)
  · exact hword (tryStatement_clean hnested inLoop fuel)
  · exact hword (caseStatement_clean hnested hexpr inLoop fuel)
  · exact (hword (printStatement_clean hexpr)).imp fun _ h _ => h
  · exact (hword (exitStatement_clean hexpr)).imp fun _ h _ => h
  · exact (hword (raiseStatement_clean hexpr)).imp fun _ h _ => h
  · exact hword (whileStatement_clean hnested hexpr inLoop)
  · exact hword (blockStatement_clean hnested inLoop fuel)
  · exact (expressionStatement_clean hexpr).imp fun _ h _ => h

/-! ## Declarations -/

omit hnested hexpr in
theorem usesDecl_clean : Clean usesDecl Stmt.Looped := by
  refine previous_mirrors.thenClean fun keyword => (expectName_mirrors _).thenClean fun name => ?_
  exact (expectSymbol_mirrors _ _).discard.thenClean fun _ =>
    .pure (Stmt.looped_of_breaks_eq_nil rfl)

omit hnested hexpr in
/-- The names announced in front of a body contain no `break`. -/
theorem looped_announced (announced : List Section) :
    ∀ s ∈ announced.flatMap Section.statements, s.Looped := by
  intro s hs
  rcases List.mem_flatMap.mp hs with ⟨section', -, hs⟩
  cases section' with
  | enums decls =>
      rcases List.mem_map.mp hs with ⟨decl, -, rfl⟩
      exact Stmt.looped_of_breaks_eq_nil rfl
  | «variables» decls =>
      rcases List.mem_map.mp hs with ⟨decl, -, rfl⟩
      exact Stmt.looped_of_breaks_eq_nil rfl

/-- The flag of a declaration is passed on to the body of a function. -/
theorem function_clean (inLoop : Bool) (fuel : Nat) (kind : FunctionKind) :
    Clean (function nested inLoop expr fuel kind) fun decl => ∀ s ∈ decl.body, Within inLoop s := by
  refine (expectName_mirrors _).thenClean fun name => ?_
  refine (params_mirrors fuel).thenClean fun parameters => ?_
  refine (resultType_mirrors kind).thenClean fun returnType => ?_
  refine (expectSymbol_mirrors _ _).discard.thenClean fun _ => ?_
  refine (sections_mirrors hexpr fuel).thenClean fun announced => ?_
  refine (expectKeyword_mirrors _ _).discard.thenClean fun _ => ?_
  refine (declarations_clean (hnested.declaration inLoop) .end fuel).bind fun body => ?_
  refine (expectKeyword_mirrors _ _).discard.thenClean fun _ => .pure fun hbody s hs => ?_
  rcases List.mem_append.mp hs with hs | hs
  · exact fun _ => looped_announced announced s hs
  · exact hbody s hs

theorem method_clean (inLoop : Bool) (fuel : Nat) :
    Clean (method nested inLoop expr fuel) fun decl => ∀ s ∈ decl.body, Within inLoop s := by
  refine methodKind_mirrors.thenClean fun kind => ?_
  refine (function_clean hnested hexpr inLoop fuel kind).bind fun decl => ?_
  exact (acceptSymbol_mirrors _).discard.thenClean fun _ => .pure fun h => h

theorem classDecl_clean (inLoop : Bool) (fuel : Nat) :
    Clean (classDecl nested inLoop expr fuel) fun decl =>
      ∀ method ∈ decl.methods, ∀ s ∈ method.body, Within inLoop s := by
  refine (expectName_mirrors _).thenClean fun name => superclass_mirrors.thenClean fun parent => ?_
  refine (expectSymbol_mirrors _ _).discard.thenClean fun _ => ?_
  refine (sections_mirrors hexpr fuel).thenClean fun announced => ?_
  refine (expectKeyword_mirrors _ _).discard.thenClean fun _ => ?_
  refine (collect_clean (openTest_mirrors _) (method_clean hnested hexpr inLoop fuel) fuel).bind
    fun methods => ?_
  exact (expectKeyword_mirrors _ _).discard.thenClean fun _ => .pure fun h => h

theorem declaration_clean {here : Bool → Parse Stmt} (fuel : Nat) (inLoop : Bool)
    (hhere : Clean (here inLoop) (Within inLoop)) :
    Clean (declaration nested here expr fuel inLoop) fun list => ∀ s ∈ list, Within inLoop s := by
  have hword {p : Parse (List Stmt)} (hp : Clean p fun list => ∀ s ∈ list, Within inLoop s) :
      Clean (discard advance >>= fun _ => p) fun list => ∀ s ∈ list, Within inLoop s :=
    advance_mirrors.discard.thenClean fun _ => hp
  have hfunction (kind : FunctionKind) : Clean (do
      let decl ← function nested inLoop expr fuel kind
      return [Stmt.function decl]) fun list => ∀ s ∈ list, Within inLoop s := by
    refine (function_clean hnested hexpr inLoop fuel kind).bind fun decl => .pure fun hbody => ?_
    exact List.forall_mem_singleton.mpr fun hloop =>
      Stmt.looped_function fun s hs => hbody s hs hloop
  refine peek_mirrors.thenClean fun token => ?_
  split
  · refine hword (usesDecl_clean.bind fun unit => .pure fun h => ?_)
    exact List.forall_mem_singleton.mpr fun _ => h
  · refine hword ((classDecl_clean hnested hexpr inLoop fuel).bind fun decl => .pure fun h => ?_)
    exact List.forall_mem_singleton.mpr fun hloop =>
      Stmt.looped_classDecl fun method hmethod s hs => h method hmethod s hs hloop
  · exact hword (hfunction .function)
  · exact hword (hfunction .procedure)
  · refine hword ((variableSection_mirrors hexpr fuel).thenClean fun decls => .pure fun s hs _ => ?_)
    rcases List.mem_map.mp hs with ⟨decl, -, rfl⟩
    exact Stmt.looped_of_breaks_eq_nil rfl
  · refine hword ((enumSection_mirrors fuel).thenClean fun decls => .pure fun s hs _ => ?_)
    rcases List.mem_map.mp hs with ⟨decl, -, rfl⟩
    exact Stmt.looped_of_breaks_eq_nil rfl
  · exact hhere.bind fun single => .pure fun h => List.forall_mem_singleton.mpr h

end Nested

/-- A declaration that is given up leaves an error behind. -/
theorem recover_clean {decl : Parse (List Stmt)} {Q : List Stmt → Prop} {f : List Stmt → List Stmt}
    (mode : Recovery) (hmirrors : Mirrors (fun _ => false) f decl decl) (hdecl : Clean decl Q) :
    Clean (recover mode decl) Q := by
  intro c list d hlast hrun
  unfold recover at hrun
  cases h : decl c with
  | ok list' e =>
      rw [h] at hrun
      cases hrun
      exact hdecl c list d hlast h
  | error stop e =>
      rw [h] at hrun
      cases stop with
      | starved => cases hrun
      | fault error =>
          cases mode with
          | strict => cases hrun
          | synchronize =>
              cases hrun
              have hsame := (hmirrors [] c hlast).1
              rw [left_of_error h] at hsame
              refine ⟨(Cursor.advance_keeps _).1.trans hsame, fun herror => ?_⟩
              rw [Cursor.synchronize_diagnostics] at herror
              simp [Cursor.report, Diagnostic.anyError, Diagnostic.isError,
                Diagnostic.errorAt] at herror

end Parse

theorem grammar_clean (mode : Recovery) : ∀ fuel, Parse.NestedClean (grammar mode fuel) := by
  intro fuel
  induction fuel with
  | zero => exact ⟨fun _ => Parse.Clean.starve, fun _ => Parse.Clean.starve⟩
  | succ fuel ih =>
      have hmirrors : Parse.NestedMirrors (fun _ => false) (grammar mode fuel) :=
        grammar_mirrors mode fuel
      have hexpr : Parse.Mirrors (fun _ => false) (Expr.fold _) _ _ :=
        Parse.expression_mirrors (fuel + 1)
      have hhere (inLoop : Bool) := Parse.statement_clean ih hexpr (fuel + 1) inLoop
      refine ⟨hhere, fun inLoop => Parse.recover_clean mode
        (Parse.declaration_mirrors hmirrors hexpr (fuel + 1) inLoop ?_)
        (Parse.declaration_clean ih hexpr (fuel + 1) inLoop (hhere inLoop))⟩
      exact Parse.statement_mirrors hmirrors hexpr (fuel + 1) inLoop

/-- Every `break` of a program that is parsed without errors has a loop around it. -/
theorem looped_of_parseProgram {mode : Recovery} {firstId : NodeId} {scan : Scan}
    {statements : List Stmt} (hlast : scan.last.isIdentifier = false)
    (hparsed : (parseProgram mode firstId scan).result = .ok statements)
    (herror : Diagnostic.anyError (parseProgram mode firstId scan).diagnostics = false) :
    ∀ s ∈ statements, s.Looped := by
  have hmore : Parse.Mirrors (fun _ => false) id (do return !(← Parse.atEnd))
      (do return !(← Parse.atEnd)) := Parse.atEnd_mirrors.bind fun _ => .pure rfl
  have hprogram : Parse.Clean (Parse.program mode (scan.tokens.length + 1)) fun list =>
      ∀ s ∈ list, Parse.Within false s :=
    Parse.items_clean hmore ((grammar_clean mode (scan.tokens.length + 1)).declaration false) _
  unfold parseProgram at hparsed herror
  cases hrun : Parse.program mode (scan.tokens.length + 1)
      (.start scan.tokens scan.last firstId) with
  | error stop c =>
      rw [Parse.run_of_error hrun] at hparsed
      cases hparsed
  | ok list c =>
      rw [Parse.run_of_ok hrun] at hparsed herror
      cases hparsed
      have hlist := ((hprogram _ _ _ hlast hrun).2 herror).2
      exact fun s hs => hlist s hs rfl

end MiniPascal
