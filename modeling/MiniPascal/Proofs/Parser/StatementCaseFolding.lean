import MiniPascal.Proofs.Parser.CaseFolding

/-!
# Parsing folded statements

Declarations, statements and programs are parsed from folded tokens as from the tokens themselves,
with and without recovery.  What is read is folded, and the reports are the same.
-/

namespace MiniPascal
namespace Parse

variable {words : Keyword → Bool} {expr : Parse Expr}

/-! ## Declarations of names -/

theorem enumDecl_mirrors (fuel : Nat) : Mirrors words id (enumDecl fuel) (enumDecl fuel) := by
  refine (expectName_mirrors _).bind fun name => ?_
  refine (expectSymbol_mirrors _ _).after ((expectSymbol_mirrors _ _).after ?_)
  refine (separated_mirrors (expectName_mirrors _) (acceptSymbol_mirrors _) fuel).bind
    fun members => ?_
  exact (expectSymbol_mirrors _ _).after ((expectSymbol_mirrors _ _).after (.pure (by simp)))

theorem enumSection_mirrors (fuel : Nat) :
    Mirrors words id (enumSection fuel) (enumSection fuel) :=
  (collect_mirrors atName_mirrors (enumDecl_mirrors fuel) fuel).congr fun decls => by simp

theorem typeAnnotation_mirrors : Mirrors words id typeAnnotation typeAnnotation := by
  refine (acceptSymbol_mirrors _).branch ?_ (.pure rfl)
  refine (expectName_mirrors _).bind fun typeName => ?_
  refine (acceptKeyword_mirrors _).branch ?_ (.pure rfl)
  exact (expectName_mirrors _).bind fun generic => .pure rfl

theorem variableLineFollows_mirrors :
    Mirrors words id variableLineFollows variableLineFollows := by
  rintro before ⟨previous, ahead, last, nextId, diagnostics⟩ -
  rcases ahead with _ | ⟨name, _ | ⟨mark, rest⟩⟩
  · exact ⟨rfl, rfl⟩
  · exact ⟨rfl, rfl⟩
  · refine ⟨rfl, ?_⟩
    show EStateM.Result.ok ((name.fold words).isIdentifier &&
      ((mark.fold words).symbol? = some .comma || (mark.fold words).symbol? = some .colon)) _ = _
    rw [Token.isIdentifier_fold, Token.symbol?_fold]
    rfl

section Variables

variable (hexpr : Mirrors words (Expr.fold words) expr expr)
include hexpr

theorem initialValue_mirrors :
    Mirrors words (Option.map (Expr.fold words)) (initialValue expr) (initialValue expr) :=
  (acceptSymbol_mirrors _).branch (hexpr.bind fun _ => .pure rfl) (.pure rfl)

/-- Types are texts, and only the first value is folded. -/
def foldTail (words : Keyword → Bool) (tail : String × String × Option Expr) :
    String × String × Option Expr :=
  (tail.1, tail.2.1, tail.2.2.map (Expr.fold words))

theorem variableTail_mirrors :
    Mirrors words (foldTail words) (variableTail expr) (variableTail expr) := by
  refine typeAnnotation_mirrors.bind fun annotation => ?_
  refine (initialValue_mirrors hexpr).bind fun initial => ?_
  exact (expectSymbol_mirrors _ _).after (.pure rfl)

theorem variableLine_mirrors (fuel : Nat) : Mirrors words (List.map (VarDecl.fold words))
    (variableLine expr fuel) (variableLine expr fuel) := by
  refine (separated_mirrors (expectName_mirrors _) (acceptSymbol_mirrors _) fuel).bind
    fun names => ?_
  refine (variableTail_mirrors hexpr).bind fun tail => .pure ?_
  simp [VarDecl.fold]

theorem variableSection_mirrors (fuel : Nat) : Mirrors words (List.map (VarDecl.fold words))
    (variableSection expr fuel) (variableSection expr fuel) := by
  refine (separated_mirrors (variableLine_mirrors hexpr fuel) variableLineFollows_mirrors
    fuel).bind fun lines => .pure ?_
  rw [List.map_flatten]

theorem loopVariable_mirrors :
    Mirrors words (VarDecl.fold words) (loopVariable expr) (loopVariable expr) := by
  refine (expectName_mirrors _).bind fun name => ?_
  exact (variableTail_mirrors hexpr).bind fun tail => .pure rfl

omit hexpr in
theorem atSection_mirrors : Mirrors words id atSection atSection :=
  (atKeyword_mirrors _).bind fun _ => (atKeyword_mirrors _).bind fun _ => .pure rfl

end Variables

namespace Section

def fold (words : Keyword → Bool) : Section → Section
  | .enums decls => .enums decls
  | .variables decls => .variables (decls.map (VarDecl.fold words))

theorem statements_fold (announced : Section) :
    (announced.fold words).statements = Stmt.foldList words announced.statements := by
  rw [Stmt.foldList_eq_map]
  cases announced with
  | enums decls => simp [fold, statements, Stmt.fold]
  | «variables» decls => simp [fold, statements, Stmt.fold]

@[simp] theorem enumDecls_fold (announced : Section) :
    (announced.fold words).enumDecls = announced.enumDecls := by
  cases announced <;> rfl

@[simp] theorem fields_fold (announced : Section) :
    (announced.fold words).fields = announced.fields := by
  cases announced <;> simp [fold, fields, VarDecl.fold]

end Section

theorem announcement_mirrors (hexpr : Mirrors words (Expr.fold words) expr expr) (fuel : Nat) :
    Mirrors words (Section.fold words) (announcement expr fuel) (announcement expr fuel) := by
  refine (acceptKeyword_mirrors _).branch ?_ (advance_mirrors.after ?_)
  · exact (enumSection_mirrors fuel).bind fun decls => .pure rfl
  · exact (variableSection_mirrors hexpr fuel).bind fun decls => .pure rfl

theorem sections_mirrors (hexpr : Mirrors words (Expr.fold words) expr expr) (fuel : Nat) :
    Mirrors words (List.map (Section.fold words)) (sections expr fuel) (sections expr fuel) :=
  collect_mirrors atSection_mirrors (announcement_mirrors hexpr fuel) fuel

theorem param_mirrors : Mirrors words id param param := by
  refine (expectName_mirrors _).bind fun name => ?_
  refine (acceptSymbol_mirrors _).branch ?_ (.pure rfl)
  exact (expectName_mirrors _).bind fun typeName => .pure rfl

theorem params_mirrors (fuel : Nat) : Mirrors words id (params fuel) (params fuel) := by
  have hclose (list : List Param) : Mirrors words id
      (do
        discard <| expectSymbol .rightParen .paramClose
        return list)
      (do
        discard <| expectSymbol .rightParen .paramClose
        return list) := (expectSymbol_mirrors _ _).after (.pure rfl)
  refine (acceptSymbol_mirrors _).branch ?_ (.pure rfl)
  refine (atSymbol_mirrors _).branch (hclose []) ?_
  refine (separated_mirrors param_mirrors (acceptSymbol_mirrors _) fuel).bind fun list => ?_
  rw [List.map_id]
  exact hclose list

theorem resultType_mirrors (kind : FunctionKind) :
    Mirrors words id (resultType kind) (resultType kind) := by
  refine (acceptSymbol_mirrors _).branch ?_ (.pure rfl)
  split
  · exact fail_mirrors _
  · exact (expectName_mirrors _).bind fun name => .pure rfl

/-! ## Statements around expressions -/

/-- Two parsers of nested statements, one for the folded tokens. -/
structure NestedMirrors (words : Keyword → Bool) (nested : Nested) : Prop where
  statement : ∀ inLoop,
    Mirrors words (Stmt.fold words) (nested.statement inLoop) (nested.statement inLoop)
  declaration : ∀ inLoop,
    Mirrors words (Stmt.foldList words) (nested.declaration inLoop) (nested.declaration inLoop)

theorem declarationItem_mirrors {decl : Parse (List Stmt)}
    (hdecl : Mirrors words (Stmt.foldList words) decl decl) :
    Mirrors words (Stmt.foldList words) (declarationItem decl) (declarationItem decl) :=
  (acceptSymbol_mirrors _).branch (.pure rfl) hdecl

theorem openTest_mirrors (close : Keyword) : Mirrors words id
    (do return !(← atKeyword close) && !(← atEnd)) (do return !(← atKeyword close) && !(← atEnd)) :=
  (atKeyword_mirrors _).bind fun _ => atEnd_mirrors.bind fun _ => .pure rfl

theorem declarations_mirrors {decl : Parse (List Stmt)}
    (hdecl : Mirrors words (Stmt.foldList words) decl decl) (close : Keyword) (fuel : Nat) :
    Mirrors words (Stmt.foldList words) (declarations decl close fuel)
      (declarations decl close fuel) := by
  refine (collect_mirrors (openTest_mirrors close) (declarationItem_mirrors hdecl) fuel).bind
    fun items => .pure ?_
  rw [Stmt.foldList_flatten]

section Expressions

variable (hexpr : Mirrors words (Expr.fold words) expr expr)
include hexpr

theorem expressionStatement_mirrors :
    Mirrors words (Stmt.fold words) (expressionStatement expr) (expressionStatement expr) := by
  refine hexpr.bind fun value => (expectSymbol_mirrors _ _).after (.pure ?_)
  rw [Stmt.fold]

theorem forInitial_mirrors :
    Mirrors words (Option.map (Stmt.fold words)) (forInitial expr) (forInitial expr) := by
  refine (acceptSymbol_mirrors _).branch (.pure rfl) ?_
  refine (acceptKeyword_mirrors _).branch ?_ ?_
  · refine (loopVariable_mirrors hexpr).bind fun decl => .pure ?_
    rw [Option.map_some, Stmt.fold]
  · exact (expressionStatement_mirrors hexpr).bind fun statement => .pure rfl

theorem optional_mirrors {closed : Parse Bool} (hclosed : Mirrors words id closed closed) :
    Mirrors words (Option.map (Expr.fold words)) (optional closed expr) (optional closed expr) :=
  hclosed.branch (.pure rfl) (hexpr.bind fun _ => .pure rfl)

theorem printStatement_mirrors :
    Mirrors words (Stmt.fold words) (printStatement expr) (printStatement expr) := by
  refine previous_mirrors.bind fun keyword => hexpr.bind fun value => ?_
  exact (expectSymbol_mirrors _ _).after (.pure (by rw [Stmt.fold]))

theorem resultValue_mirrors :
    Mirrors words (Option.map (Expr.fold words)) (resultValue expr) (resultValue expr) :=
  (optional_mirrors hexpr (atSymbol_mirrors _)).bind fun _ =>
    (expectSymbol_mirrors _ _).after (.pure rfl)

theorem exitStatement_mirrors :
    Mirrors words (Stmt.fold words) (exitStatement expr) (exitStatement expr) := by
  refine previous_mirrors.bind fun keyword => ?_
  exact (resultValue_mirrors hexpr).bind fun value => .pure (by rw [Stmt.fold])

theorem raiseStatement_mirrors :
    Mirrors words (Stmt.fold words) (raiseStatement expr) (raiseStatement expr) := by
  refine previous_mirrors.bind fun keyword => ?_
  exact (resultValue_mirrors hexpr).bind fun value => .pure (by rw [Stmt.fold])

end Expressions

theorem breakStatement_mirrors (inLoop : Bool) :
    Mirrors words (Stmt.fold words) (breakStatement inLoop) (breakStatement inLoop) := by
  have hbreak (keyword : Token) : Mirrors words (Stmt.fold words)
      (do
        discard <| expectSymbol .semicolon .breakSemicolon
        return .break keyword)
      (do
        discard <| expectSymbol .semicolon .breakSemicolon
        return .break (keyword.fold words)) :=
    (expectSymbol_mirrors _ _).after (.pure (by rw [Stmt.fold]))
  refine previous_mirrors.bind fun keyword => ?_
  cases inLoop with
  | true => exact hbreak keyword
  | false =>
      rw [Diagnostic.errorAt_fold]
      exact (report_mirrors _).bind fun _ => hbreak keyword

/-! ## Statements around statements -/

section Nested

variable {nested : Nested} (hnested : NestedMirrors words nested)
  (hexpr : Mirrors words (Expr.fold words) expr expr)

section Loops

include hnested hexpr

theorem forStatement_mirrors :
    Mirrors words (Stmt.fold words) (forStatement nested expr) (forStatement nested expr) := by
  refine (forInitial_mirrors hexpr).bind fun initial => ?_
  refine (optional_mirrors hexpr (atSymbol_mirrors _)).bind fun condition => ?_
  refine (expectSymbol_mirrors _ _).after ?_
  refine (optional_mirrors hexpr (atKeyword_mirrors _)).bind fun increment => ?_
  refine (expectKeyword_mirrors _ _).after ((hnested.statement true).bind fun body => .pure ?_)
  rw [Stmt.fold_lowerFor]

theorem whileStatement_mirrors :
    Mirrors words (Stmt.fold words) (whileStatement nested expr) (whileStatement nested expr) := by
  refine hexpr.bind fun condition => (expectKeyword_mirrors _ _).after ?_
  exact (hnested.statement true).bind fun body => .pure (by rw [Stmt.fold])

theorem ifStatement_mirrors (inLoop : Bool) :
    Mirrors words (Stmt.fold words) (ifStatement nested inLoop expr)
      (ifStatement nested inLoop expr) := by
  refine hexpr.bind fun condition => (expectKeyword_mirrors _ _).after ?_
  refine (hnested.statement inLoop).bind fun thenBranch => ?_
  refine (acceptKeyword_mirrors _).branch ?_ (.pure (by rw [Stmt.fold]))
  exact (hnested.statement inLoop).bind fun elseBranch => .pure (by rw [Stmt.fold])

end Loops

theorem atHandler_mirrors : Mirrors words id atHandler atHandler := by
  refine peek_mirrors.bind fun token => .pure ?_
  rw [Token.isIdentifier_fold]
  cases hname : token.isIdentifier with
  | true => rw [Token.fold_of_isIdentifier words hname]; rfl
  | false => rfl

include hnested

theorem handler_mirrors (inLoop : Bool) :
    Mirrors words (Handler.fold words) (handler nested inLoop) (handler nested inLoop) := by
  refine advance_mirrors.after ((expectName_mirrors _).bind fun name => ?_)
  have hbody (typeName : Option String) : Mirrors words (Handler.fold words)
      (do
        discard <| expectKeyword .do .handlerDo
        let body ← nested.statement inLoop
        return { name, typeName, body })
      (do
        discard <| expectKeyword .do .handlerDo
        let body ← nested.statement inLoop
        return { name, typeName, body }) :=
    (expectKeyword_mirrors _ _).after ((hnested.statement inLoop).bind fun body => .pure rfl)
  refine (acceptSymbol_mirrors _).branch ?_ (hbody none)
  have htype : Mirrors words id
      (do
        let token ← expectName .typeName
        return some token.lexeme)
      (do
        let token ← expectName .typeName
        return some token.lexeme) := (expectName_mirrors _).bind fun _ => .pure rfl
  exact htype.bind hbody

theorem tryStatement_mirrors (inLoop : Bool) (fuel : Nat) :
    Mirrors words (Stmt.fold words) (tryStatement nested inLoop fuel)
      (tryStatement nested inLoop fuel) := by
  have hdecl := hnested.declaration inLoop
  refine previous_mirrors.bind fun keyword => ?_
  refine (declarations_mirrors hdecl .except fuel).bind fun body => ?_
  refine (expectKeyword_mirrors _ _).after ?_
  refine (collect_mirrors atHandler_mirrors (handler_mirrors hnested inLoop) fuel).bind
    fun handlers => ?_
  refine (declarations_mirrors hdecl .end fuel).bind fun otherwise => ?_
  refine (expectKeyword_mirrors _ _).after (.pure ?_)
  rw [Stmt.fold, Stmt.foldHandlers_eq_map]

theorem blockStatement_mirrors (inLoop : Bool) (fuel : Nat) :
    Mirrors words (Stmt.fold words) (blockStatement nested inLoop fuel)
      (blockStatement nested inLoop fuel) := by
  refine (declarations_mirrors (hnested.declaration inLoop) .end fuel).bind fun body => ?_
  exact (expectKeyword_mirrors _ _).after (.pure (by rw [Stmt.fold]))

/-! ## Choices -/

omit hnested in
include hexpr in
theorem caseLabel_mirrors (subject : Expr) :
    Mirrors words (Expr.fold words) (caseLabel expr subject)
      (caseLabel expr (subject.fold words)) := by
  refine hexpr.bind fun label => previous_mirrors.bind fun place => .pure ?_
  rw [Expr.fold, Token.fold_synthetic words place (by decide)]

omit hnested in
include hexpr in
theorem caseLabels_mirrors (subject : Expr) : ∀ fuel condition, Mirrors words (Expr.fold words)
    (caseLabels expr subject fuel condition)
    (caseLabels expr (subject.fold words) fuel (condition.fold words)) := by
  intro fuel
  induction fuel with
  | zero =>
      intro condition
      exact starve_mirrors
  | succ fuel ih =>
      intro condition
      refine (acceptSymbol_mirrors _).branch ?_ (.pure rfl)
      refine previous_mirrors.bind fun place => ?_
      refine (caseLabel_mirrors hexpr subject).bind fun additional => ?_
      have hrest := ih (.logical condition .or (.synthetic (.keyword .or) "or" place) additional)
      rw [Expr.fold, Token.fold_synthetic words place (by decide)] at hrest
      exact hrest

def foldArms (words : Keyword → Bool) (arms : List (Expr × Stmt) × Option Stmt) :
    List (Expr × Stmt) × Option Stmt :=
  (arms.1.map fun arm => (arm.1.fold words, arm.2.fold words), arms.2.map (Stmt.fold words))

include hexpr

theorem caseArms_mirrors (inLoop : Bool) (subject : Expr) : ∀ fuel,
    Mirrors words (foldArms words) (caseArms nested inLoop expr subject fuel)
      (caseArms nested inLoop expr (subject.fold words) fuel) := by
  intro fuel
  induction fuel with
  | zero => exact starve_mirrors
  | succ fuel ih =>
      refine (caseLabel_mirrors hexpr subject).bind fun label => ?_
      refine (caseLabels_mirrors hexpr subject fuel label).bind fun condition => ?_
      refine (expectSymbol_mirrors _ _).after ((hnested.statement inLoop).bind fun body => ?_)
      refine (acceptSymbol_mirrors _).after ?_
      refine (acceptKeyword_mirrors _).branch (.pure rfl) ?_
      refine (acceptKeyword_mirrors _).branch ?_ ?_
      · refine (hnested.statement inLoop).bind fun otherwise => ?_
        exact (acceptSymbol_mirrors _).after ((expectKeyword_mirrors _ _).after (.pure rfl))
      · refine atEnd_mirrors.branch (fail_mirrors _) ?_
        exact ih.bind fun arms => .pure rfl

theorem caseStatement_mirrors (inLoop : Bool) (fuel : Nat) :
    Mirrors words (Stmt.fold words) (caseStatement nested inLoop expr fuel)
      (caseStatement nested inLoop expr fuel) := by
  refine hexpr.bind fun subject => (expectKeyword_mirrors _ _).after ?_
  refine (caseArms_mirrors hnested hexpr inLoop subject fuel).bind fun arms => ?_
  have hlowered := Stmt.fold_lowerCase words arms.1 arms.2
  simp only [foldArms]
  rw [← hlowered]
  cases Stmt.lowerCase arms.1 arms.2 with
  | some statement => exact .pure rfl
  | none => exact previous_mirrors.bind fun token => failAt_mirrors token _

/-! ## Statements -/

theorem statement_mirrors (fuel : Nat) (inLoop : Bool) :
    Mirrors words (Stmt.fold words) (statement nested expr fuel inLoop)
      (statement nested expr fuel inLoop) := by
  refine peek_mirrors.bind fun token => ?_
  rw [Token.keyword?_fold]
  split
  · exact advance_mirrors.after (forStatement_mirrors hnested hexpr)
  · exact advance_mirrors.after (breakStatement_mirrors inLoop)
  · exact advance_mirrors.after (ifStatement_mirrors hnested hexpr inLoop)
  · exact advance_mirrors.after (tryStatement_mirrors hnested inLoop fuel)
  · exact advance_mirrors.after (caseStatement_mirrors hnested hexpr inLoop fuel)
  · exact advance_mirrors.after (printStatement_mirrors hexpr)
  · exact advance_mirrors.after (exitStatement_mirrors hexpr)
  · exact advance_mirrors.after (raiseStatement_mirrors hexpr)
  · exact advance_mirrors.after (whileStatement_mirrors hnested hexpr)
  · exact advance_mirrors.after (blockStatement_mirrors hnested inLoop fuel)
  · exact expressionStatement_mirrors hexpr

/-! ## Functions and classes -/

theorem function_mirrors (inLoop : Bool) (fuel : Nat) (kind : FunctionKind) :
    Mirrors words (Function.fold words) (function nested inLoop expr fuel kind)
      (function nested inLoop expr fuel kind) := by
  refine (expectName_mirrors _).bind fun name => (params_mirrors fuel).bind fun parameters => ?_
  refine (resultType_mirrors kind).bind fun returnType => (expectSymbol_mirrors _ _).after ?_
  refine (sections_mirrors hexpr fuel).bind fun announced => (expectKeyword_mirrors _ _).after ?_
  refine (declarations_mirrors (hnested.declaration inLoop) .end fuel).bind fun body => ?_
  refine (expectKeyword_mirrors _ _).after (.pure ?_)
  have hannounced : (announced.map (Section.fold words)).flatMap Section.statements =
      Stmt.foldList words (announced.flatMap Section.statements) := by
    rw [List.flatMap_def, List.flatMap_def, Stmt.foldList_flatten, List.map_map, List.map_map]
    exact congrArg _ (List.map_congr_left fun item _ => item.statements_fold)
  simp only [Function.fold, hannounced, Stmt.foldList_append, id]

omit hnested hexpr in
theorem methodKind_mirrors : Mirrors words id methodKind methodKind := by
  refine (acceptKeyword_mirrors _).branch (.pure rfl) ?_
  refine (acceptKeyword_mirrors _).branch (.pure rfl) ?_
  exact (acceptKeyword_mirrors _).branch (.pure rfl) (.pure rfl)

theorem method_mirrors (inLoop : Bool) (fuel : Nat) :
    Mirrors words (Function.fold words) (method nested inLoop expr fuel)
      (method nested inLoop expr fuel) := by
  refine methodKind_mirrors.bind fun kind => ?_
  refine (function_mirrors hnested hexpr inLoop fuel kind).bind fun decl => ?_
  exact (acceptSymbol_mirrors _).after (.pure rfl)

omit hnested hexpr in
theorem superclass_mirrors : Mirrors words id superclass superclass := by
  refine (acceptSymbol_mirrors _).branch ?_ (.pure rfl)
  refine (expectName_mirrors _).bind fun name => (expectSymbol_mirrors _ _).after ?_
  exact freshId_mirrors.bind fun id => .pure rfl

theorem classDecl_mirrors (inLoop : Bool) (fuel : Nat) :
    Mirrors words (ClassDecl.fold words) (classDecl nested inLoop expr fuel)
      (classDecl nested inLoop expr fuel) := by
  refine (expectName_mirrors _).bind fun name => superclass_mirrors.bind fun parent => ?_
  refine (expectSymbol_mirrors _ _).after ?_
  refine (sections_mirrors hexpr fuel).bind fun announced => (expectKeyword_mirrors _ _).after ?_
  refine (collect_mirrors (openTest_mirrors .end) (method_mirrors hnested hexpr inLoop fuel)
    fuel).bind fun methods => (expectKeyword_mirrors _ _).after (.pure ?_)
  simp [ClassDecl.fold, List.flatMap_map]

omit hnested hexpr in
theorem usesDecl_mirrors : Mirrors words (Stmt.fold words) usesDecl usesDecl := by
  refine previous_mirrors.bind fun keyword => (expectName_mirrors _).bind fun name => ?_
  exact (expectSymbol_mirrors _ _).after (.pure (by rw [Stmt.fold]; rfl))

theorem declaration_mirrors {here : Bool → Parse Stmt} (fuel : Nat) (inLoop : Bool)
    (hhere : Mirrors words (Stmt.fold words) (here inLoop) (here inLoop)) :
    Mirrors words (Stmt.foldList words) (declaration nested here expr fuel inLoop)
      (declaration nested here expr fuel inLoop) := by
  have hfunction (kind : FunctionKind) : Mirrors words (Stmt.foldList words)
      (do
        let decl ← function nested inLoop expr fuel kind
        return [.function decl])
      (do
        let decl ← function nested inLoop expr fuel kind
        return [.function decl]) := by
    refine (function_mirrors hnested hexpr inLoop fuel kind).bind fun decl => .pure ?_
    rw [Stmt.foldList, Stmt.foldList, Stmt.fold_function]
  refine peek_mirrors.bind fun token => ?_
  rw [Token.keyword?_fold]
  split
  · exact advance_mirrors.after (usesDecl_mirrors.bind fun _ => .pure rfl)
  · refine advance_mirrors.after ?_
    refine (classDecl_mirrors hnested hexpr inLoop fuel).bind fun decl => .pure ?_
    rw [Stmt.foldList, Stmt.foldList, Stmt.fold_classDecl]
  · exact advance_mirrors.after (hfunction .function)
  · exact advance_mirrors.after (hfunction .procedure)
  · refine advance_mirrors.after ((variableSection_mirrors hexpr fuel).bind fun decls => .pure ?_)
    simp [Stmt.foldList_eq_map, Stmt.fold]
  · refine advance_mirrors.after ((enumSection_mirrors fuel).bind fun decls => .pure ?_)
    simp [Stmt.foldList_eq_map, Stmt.fold]
  · exact hhere.bind fun _ => .pure rfl

end Nested

theorem recover_mirrors {decl : Parse (List Stmt)} (mode : Recovery)
    (hdecl : Mirrors words (Stmt.foldList words) decl decl) :
    Mirrors words (Stmt.foldList words) (recover mode decl) (recover mode decl) := by
  intro before c hlast
  rcases hdecl before c hlast with ⟨hsame, hrun⟩
  unfold left recover at *
  rw [hrun]
  cases h : decl c with
  | ok list d =>
      rw [h] at hsame
      exact ⟨hsame, rfl⟩
  | error stop d =>
      rw [h] at hsame
      cases stop with
      | starved => exact ⟨hsame, rfl⟩
      | fault error =>
          cases mode with
          | strict =>
              refine ⟨hsame, ?_⟩
              simp only [foldResult, Stop.fold, Diagnostic.errorAt_fold, Cursor.report_fold]
              rfl
          | synchronize =>
              refine ⟨(Cursor.advance_keeps _).1.trans hsame, ?_⟩
              simp only [foldResult, Stop.fold, Diagnostic.errorAt_fold, Cursor.report_fold,
                Cursor.synchronize_fold]
              rfl

end Parse

theorem grammar_mirrors {words : Keyword → Bool} (mode : Recovery) : ∀ fuel,
    Parse.NestedMirrors words (grammar mode fuel) := by
  intro fuel
  induction fuel with
  | zero => exact ⟨fun _ => Parse.starve_mirrors, fun _ => Parse.starve_mirrors⟩
  | succ fuel ih =>
      have hexpr : Parse.Mirrors words (Expr.fold words) _ _ :=
        Parse.expression_mirrors (fuel + 1)
      have hhere (inLoop : Bool) := Parse.statement_mirrors ih hexpr (fuel + 1) inLoop
      refine ⟨hhere, fun inLoop => Parse.recover_mirrors mode ?_⟩
      exact Parse.declaration_mirrors ih hexpr (fuel + 1) inLoop (hhere inLoop)

theorem Parse.program_mirrors {words : Keyword → Bool} (mode : Recovery) (fuel : Nat) :
    Mirrors words (Stmt.foldList words) (program mode fuel) (program mode fuel) := by
  have hmore : Mirrors words id (do return !(← atEnd)) (do return !(← atEnd)) :=
    atEnd_mirrors.bind fun _ => .pure rfl
  have hnested : NestedMirrors words (grammar mode fuel) := grammar_mirrors mode fuel
  have hitem := declarationItem_mirrors (hnested.declaration false)
  refine (collect_mirrors hmore hitem fuel).bind fun items => .pure ?_
  rw [Stmt.foldList_flatten]

def Parsed.fold (words : Keyword → Bool) (parsed : Parsed (List Stmt)) : Parsed (List Stmt) where
  result :=
    match parsed.result with
    | .ok list => .ok (Stmt.foldList words list)
    | .error stop => .error (stop.fold words)
  diagnostics := parsed.diagnostics
  nextId := parsed.nextId

/-- Folding a text before it is parsed folds the program, and leaves the reports as they are. -/
theorem parseProgram_fold (words : Keyword → Bool) (mode : Recovery) (firstId : NodeId)
    {scan : Scan} (hlast : scan.last.isIdentifier = false) :
    parseProgram mode firstId (scan.fold words) =
      (parseProgram mode firstId scan).fold words := by
  have hstart : Cursor.start (scan.fold words).tokens (scan.fold words).last firstId =
      (Cursor.start scan.tokens scan.last firstId).fold words [] := by
    cases htokens : scan.tokens <;> simp [Scan.fold, Cursor.start, Cursor.fold, htokens]
  have hlength : (scan.fold words).tokens.length = scan.tokens.length := by
    simp [Scan.fold]
  have hmirrors : Parse.Mirrors words (Stmt.foldList words) _ _ :=
    Parse.program_mirrors mode (scan.tokens.length + 1)
  have hrun := (hmirrors [] (.start scan.tokens scan.last firstId) hlast).2
  unfold parseProgram Parse.run
  rw [hlength, hstart, hrun]
  cases Parse.program mode (scan.tokens.length + 1) (.start scan.tokens scan.last firstId) with
  | ok list c => rfl
  | error stop c => rfl

end MiniPascal
