import MiniPascal.Proofs.Parser.Readings

/-!
# The parser drops no code

Whatever is read as an expression stands in the program that a strict parser comes to, with one
exception: a field has no first value, so what is read for one in front of the body of a class is
read in vain.
-/

namespace MiniPascal

/-! ## Programs that are announced -/

namespace Parse

/-- A class after `class`, with a parser of its own for the first values of fields. -/
def classWithFields (nested : Nested) (inLoop : Bool) (fieldExpr expr : Parse Expr) (fuel : Nat) :
    Parse (ClassDecl Stmt) := do
  let name ← expectName .className
  let parent ← superclass
  discard <| expectSymbol .semicolon .classSemicolon
  let announced ← sections fieldExpr fuel
  discard <| expectKeyword .begin .classBegin
  let open? : Parse Bool := do return !(← atKeyword .end) && !(← atEnd)
  let methods ← collect open? (method nested inLoop expr fuel) fuel
  discard <| expectKeyword .end .classEnd
  return { name, superclass := parent, methods,
           fields := announced.flatMap Section.fields
           enums := announced.flatMap Section.enumDecls }

/-- A declaration or a statement, with a parser of its own for the first values of fields. -/
def declarationWithFields (nested : Nested) (here : Bool → Parse Stmt) (fieldExpr expr : Parse Expr)
    (fuel : Nat) (inLoop : Bool) : Parse (List Stmt) := do
  match (← peek).keyword? with
  | some .uses =>
      discard advance
      return [← usesDecl]
  | some .class =>
      discard advance
      let decl ← classWithFields nested inLoop fieldExpr expr fuel
      return [.classDecl decl]
  | some .function =>
      discard advance
      let decl ← function nested inLoop expr fuel .function
      return [.function decl]
  | some .procedure =>
      discard advance
      let decl ← function nested inLoop expr fuel .procedure
      return [.function decl]
  | some .var =>
      discard advance
      let decls ← variableSection expr fuel
      return decls.map .var
  | some .type =>
      discard advance
      let decls ← enumSection fuel
      return decls.map .enumDecl
  | _ =>
      let single ← here inLoop
      return [single]

/-- With one parser for all expressions, declarations are those of the grammar. -/
theorem declarationWithFields_self (nested : Nested) (here : Bool → Parse Stmt) (expr : Parse Expr)
    (fuel : Nat) (inLoop : Bool) : declarationWithFields nested here expr expr fuel inLoop =
      declaration nested here expr fuel inLoop :=
  rfl

/-- The strict parsers of statements and declarations with announced expressions. -/
def announcedGrammar (note : Reading → Diagnostic) : Nat → Nested
  | 0 => { statement := fun _ => starve, declaration := fun _ => starve }
  | fuel + 1 =>
      let nested := announcedGrammar note fuel
      let expr := announcedExpression false note (fuel + 1)
      let fieldExpr := announcedExpression true note (fuel + 1)
      let here := statement nested expr (fuel + 1)
      { statement := here
        declaration := fun inLoop =>
          recover .strict (declarationWithFields nested here fieldExpr expr (fuel + 1) inLoop) }

/-- All declarations of a text, with announced expressions. -/
def announcedProgram (note : Reading → Diagnostic) (fuel : Nat) : Parse (List Stmt) := do
  let more : Parse Bool := do return !(← atEnd)
  let items ← collect more
    (declarationItem ((announcedGrammar note fuel).declaration false)) fuel
  return items.flatten

theorem separated_ne_nil {item : Parse α} {more : Parse Bool} {fuel : Nat} {c d : Cursor}
    {list : List α} (h : separated item more fuel c = .ok list d) : list ≠ [] := by
  cases fuel with
  | zero => cases h
  | succ fuel =>
      rcases bind_eq_ok_iff.mp h with ⟨head, e, -, hrest⟩
      rcases bind_eq_ok_iff.mp hrest with ⟨another, f, -, hlist⟩
      cases another with
      | false =>
          cases hlist
          exact List.cons_ne_nil _ _
      | true =>
          rcases bind_eq_ok_iff.mp hlist with ⟨tail, g, -, hcons⟩
          cases hcons
          exact List.cons_ne_nil _ _

end Parse

/-! ## Rules -/

theorem Announces.dropped {base : List Expr} {p : Parse α} {q : (Reading → Diagnostic) → Parse α}
    {held : α → List Expr} (h : Announces (· = true) base p q held) :
    Announces (fun _ => True) base p q fun _ => base := by
  intro c value d hrun
  rcases h c value d hrun with ⟨log, hlog⟩
  refine ⟨log, hlog.reports, hlog.run, List.Subset.refl _, fun _ _ => trivial, ?_⟩
  intro reading hmem hkept
  rw [hlog.places reading hmem] at hkept
  cases hkept

namespace KeepsParts

variable {places : Bool → Prop}

theorem anywhere {p : Parse α} {q : (Reading → Diagnostic) → Parse α} {parts : α → List Expr}
    (h : KeepsParts places p q parts) : KeepsParts (fun _ => True) p q parts := by
  intro base c value d hrun
  rcases h base c value d hrun with ⟨log, hlog⟩
  exact ⟨log, hlog.reports, hlog.run, hlog.base, fun _ _ => trivial, hlog.kept⟩

/-- A parser in which nothing is announced, where nothing is to be held. -/
theorem plain {p : Parse α} {parts : α → List Expr} (h : Composed .strict p) :
    KeepsParts places p (fun _ => p) parts :=
  fun _ => (Announces.plain h).imp fun _ => List.subset_append_left _ _

/-! ## Declarations of names -/

section Declarations

variable {expr : Parse Expr} {expr' : (Reading → Diagnostic) → Parse Expr}
variable (hexpr : KeepsParts places expr expr' Expr.subterms)
include hexpr

theorem initialValue : KeepsParts places (Parse.initialValue expr)
    (fun note => Parse.initialValue (expr' note)) Expr.optionSubterms := by
  intro base
  refine .step (.acceptSymbol _) fun _ => .ite ?_ (.pure (List.subset_append_left _ _))
  exact (hexpr base).bind fun value => .done rfl

theorem variableTail : KeepsParts places (Parse.variableTail expr)
    (fun note => Parse.variableTail (expr' note)) fun tail => Expr.optionSubterms tail.2.2 := by
  intro base
  refine .step Composed.typeAnnotation fun annotation => ?_
  refine (initialValue hexpr base).bind fun initial => ?_
  exact .step (.discard (.expectSymbol _ _)) fun _ => .done rfl

theorem variableLine (fuel : Nat) : KeepsParts places (Parse.variableLine expr fuel)
    (fun note => Parse.variableLine (expr' note) fuel)
    fun decls => Stmt.listExprs (decls.map .var) := by
  intro base
  have hnames : Composed .strict
      (Parse.separated (Parse.expectName .variableName) (Parse.acceptSymbol .comma) fuel) :=
    .separated (.expectName _) (.acceptSymbol _) fuel
  refine (Announces.plain hnames).bindOf fun names hsome => ?_
  rcases hsome with ⟨c, d, hsome⟩
  rcases List.exists_mem_of_ne_nil names (Parse.separated_ne_nil hsome) with ⟨name, hname⟩
  refine (variableTail hexpr base).bind fun tail => .pure (append_subset_of_subset ?_)
  let decl (name : Token) : VarDecl := ⟨name, tail.1, tail.2.1, tail.2.2⟩
  exact Stmt.initial_subset_listExprs (List.mem_map_of_mem (f := decl) hname)

theorem variableSection (fuel : Nat) : KeepsParts places (Parse.variableSection expr fuel)
    (fun note => Parse.variableSection (expr' note) fuel)
    fun decls => Stmt.listExprs (decls.map .var) := by
  intro base
  refine (separated (variableLine hexpr fuel) .variableLineFollows fuel base).bind fun lines => ?_
  refine .done ?_
  dsimp only
  rw [List.map_flatten, Stmt.listExprs_flatten, List.flatMap_map]

theorem loopVariable : KeepsParts places (Parse.loopVariable expr)
    (fun note => Parse.loopVariable (expr' note)) fun decl => Expr.optionSubterms decl.initial := by
  intro base
  refine .step (.expectName _) fun name => (variableTail hexpr base).bind fun tail => ?_
  exact .done rfl

theorem announcement (fuel : Nat) : KeepsParts places (Parse.announcement expr fuel)
    (fun note => Parse.announcement (expr' note) fuel)
    fun announced => Stmt.listExprs announced.statements := by
  intro base
  refine .step (.acceptKeyword _) fun _ => .ite ?_ ?_
  · exact .step (.enumSection fuel) fun decls => .pure (List.subset_append_left _ _)
  · refine .step (.discard .advance) fun _ => (variableSection hexpr fuel base).bind fun decls => ?_
    exact .done rfl

theorem sections (fuel : Nat) : KeepsParts places (Parse.sections expr fuel)
    (fun note => Parse.sections (expr' note) fuel)
    fun announced => Stmt.listExprs (announced.flatMap Parse.Section.statements) := by
  intro base
  have hfront : Composed .strict Parse.atSection :=
    (Composed.atKeyword .type).bind fun _ => (Composed.atKeyword .var).bind fun _ => .done _
  refine (collect hfront (announcement hexpr fuel) fuel base).imp fun announced => ?_
  dsimp only
  rw [List.flatMap_def (f := Parse.Section.statements), Stmt.listExprs_flatten, List.flatMap_map]
  exact List.Subset.refl _

end Declarations

/-! ## Statements -/

/-- The parsers of what is nested keep what they announce. -/
structure Nested (places : Bool → Prop) (nested : MiniPascal.Nested)
    (nested' : (Reading → Diagnostic) → MiniPascal.Nested) : Prop where
  statement : ∀ inLoop, KeepsParts places (nested.statement inLoop)
    (fun note => (nested' note).statement inLoop) Stmt.exprs
  declaration : ∀ inLoop, KeepsParts places (nested.declaration inLoop)
    (fun note => (nested' note).declaration inLoop) Stmt.listExprs

theorem declarationItem {decl : Parse (List Stmt)}
    {decl' : (Reading → Diagnostic) → Parse (List Stmt)}
    (hdecl : KeepsParts places decl decl' Stmt.listExprs) :
    KeepsParts places (Parse.declarationItem decl)
      (fun note => Parse.declarationItem (decl' note)) Stmt.listExprs :=
  fun base => .step (.acceptSymbol _) fun _ =>
    .ite (.pure (List.subset_append_left _ _)) (hdecl base)

theorem flattened {item : Parse (List Stmt)} {item' : (Reading → Diagnostic) → Parse (List Stmt)}
    {more : Parse Bool} (hmore : Composed .strict more)
    (hitem : KeepsParts places item item' Stmt.listExprs) (fuel : Nat) :
    KeepsParts places (List.flatten <$> Parse.collect more item fuel)
      (fun note => List.flatten <$> Parse.collect more (item' note) fuel) Stmt.listExprs := by
  intro base
  refine (collect hmore hitem fuel base).bind fun items => .done ?_
  rw [Stmt.listExprs_flatten]

theorem declarations {decl : Parse (List Stmt)} {decl' : (Reading → Diagnostic) → Parse (List Stmt)}
    (hdecl : KeepsParts places decl decl' Stmt.listExprs) (close : Keyword) (fuel : Nat) :
    KeepsParts places (Parse.declarations decl close fuel)
      (fun note => Parse.declarations (decl' note) close fuel) Stmt.listExprs :=
  flattened ((Composed.atKeyword close).bind fun _ => Composed.atEnd.bind fun _ => .done _)
    (declarationItem hdecl) fuel

theorem optional {closed : Parse Bool} {expr : Parse Expr}
    {expr' : (Reading → Diagnostic) → Parse Expr} (hclosed : Composed .strict closed)
    (hexpr : KeepsParts places expr expr' Expr.subterms) :
    KeepsParts places (Parse.optional closed expr)
      (fun note => Parse.optional closed (expr' note)) Expr.optionSubterms :=
  fun base => .step hclosed fun _ => .ite (.pure (List.subset_append_left _ _))
    ((hexpr base).bind fun _ => .done rfl)

section Statements

variable {nested : MiniPascal.Nested} {nested' : (Reading → Diagnostic) → MiniPascal.Nested}
variable {expr : Parse Expr} {expr' : (Reading → Diagnostic) → Parse Expr}

section Values

variable (hexpr : KeepsParts places expr expr' Expr.subterms)
include hexpr

theorem expressionStatement : KeepsParts places (Parse.expressionStatement expr)
    (fun note => Parse.expressionStatement (expr' note)) Stmt.exprs := by
  intro base
  refine (hexpr base).bind fun value => .step (.discard (.expectSymbol _ _)) fun _ => .done ?_
  rw [Stmt.exprs]

theorem forInitial : KeepsParts places (Parse.forInitial expr)
    (fun note => Parse.forInitial (expr' note)) Stmt.optionExprs := by
  intro base
  refine .step (.acceptSymbol _) fun _ => .ite (.pure (List.subset_append_left _ _)) ?_
  refine .step (.acceptKeyword _) fun _ => .ite ?_ ?_
  · refine (loopVariable hexpr base).bind fun decl => .done ?_
    rw [Stmt.optionExprs, Stmt.exprs]
  · exact (expressionStatement hexpr base).bind fun s => .done rfl

theorem printStatement : KeepsParts places (Parse.printStatement expr)
    (fun note => Parse.printStatement (expr' note)) Stmt.exprs := by
  intro base
  refine .step .previous fun keyword => (hexpr base).bind fun value => ?_
  refine .step (.discard (.expectSymbol _ _)) fun _ => .done ?_
  rw [Stmt.exprs]

theorem resultValue : KeepsParts places (Parse.resultValue expr)
    (fun note => Parse.resultValue (expr' note)) Expr.optionSubterms :=
  fun base => (optional (.atSymbol _) hexpr base).bind fun _ =>
    .step (.discard (.expectSymbol _ _)) fun _ => .done rfl

theorem exitStatement : KeepsParts places (Parse.exitStatement expr)
    (fun note => Parse.exitStatement (expr' note)) Stmt.exprs := by
  intro base
  refine .step .previous fun keyword => (resultValue hexpr base).bind fun value => .done ?_
  rw [Stmt.exprs]

theorem raiseStatement : KeepsParts places (Parse.raiseStatement expr)
    (fun note => Parse.raiseStatement (expr' note)) Stmt.exprs := by
  intro base
  refine .step .previous fun keyword => (resultValue hexpr base).bind fun value => .done ?_
  rw [Stmt.exprs]

/-- A label is compared with the subject, of which nothing is lost. -/
theorem caseLabel (base : List Expr) (subject : Expr) : Announces places (base ++ subject.subterms)
    (Parse.caseLabel expr subject) (fun note => Parse.caseLabel (expr' note) subject)
    fun condition => base ++ condition.subterms := by
  refine (hexpr _).bind fun label => .step .previous fun place => .pure ?_
  rw [List.append_assoc, Expr.subterms]
  exact append_subset_of_subset (List.subset_cons_self _ _)

theorem caseLabels (subject : Expr) : ∀ fuel base condition,
    Announces places (base ++ condition.subterms) (Parse.caseLabels expr subject fuel condition)
      (fun note => Parse.caseLabels (expr' note) subject fuel condition)
      fun joined => base ++ joined.subterms
  | 0, _, _ => .throw
  | fuel + 1, base, condition => by
      refine .step (.acceptSymbol _) fun _ => .ite ?_ (.done rfl)
      refine .step .previous fun place => ?_
      refine ((caseLabel hexpr (base ++ condition.subterms) subject).weaken
        (List.subset_append_left _ _)).bind fun additional => ?_
      refine (caseLabels subject fuel base _).weaken ?_
      rw [List.append_assoc, Expr.subterms]
      exact append_subset_of_subset (List.subset_cons_self _ _)

end Values

section Bodies

variable (hnested : Nested places nested nested')
include hnested

theorem handler (inLoop : Bool) : KeepsParts places (Parse.handler nested inLoop)
    (fun note => Parse.handler (nested' note) inLoop) fun handler => handler.body.exprs := by
  have hrest (base : List Expr) (name : Token) (typeName : Option String) : Announces places base
      (do discard <| Parse.expectKeyword .do .handlerDo
          let body ← nested.statement inLoop
          return { name, typeName, body })
      (fun note => do
          discard <| Parse.expectKeyword .do .handlerDo
          let body ← (nested' note).statement inLoop
          return { name, typeName, body })
      fun (handler : Handler Stmt) => base ++ handler.body.exprs :=
    .step (.discard (.expectKeyword _ _)) fun _ =>
      (hnested.statement inLoop base).bind fun body => .done rfl
  intro base
  refine .step (.discard .advance) fun _ => .step (.expectName _) fun name => ?_
  refine .step (.acceptSymbol _) fun _ => .ite ?_ ?_
  · exact .step ((Composed.expectName .typeName).bind fun token => .done (some token.lexeme))
      (hrest base name)
  · exact .step (.done none) (hrest base name)

theorem tryStatement (inLoop : Bool) (fuel : Nat) :
    KeepsParts places (Parse.tryStatement nested inLoop fuel)
      (fun note => Parse.tryStatement (nested' note) inLoop fuel) Stmt.exprs := by
  intro base
  have hdeclaration := hnested.declaration inLoop
  have hfront : Composed .strict Parse.atHandler := Composed.peek.bind fun _ => .done _
  refine .step .previous fun keyword => (declarations hdeclaration _ fuel base).bind fun body => ?_
  refine .step (.discard (.expectKeyword _ _)) fun _ => ?_
  refine (collect hfront (handler hnested inLoop) fuel _).bind fun handlers => ?_
  refine (declarations hdeclaration _ fuel _).bind fun otherwise => ?_
  refine .step (.discard (.expectKeyword _ _)) fun _ => .done ?_
  rw [Stmt.exprs, Stmt.handlerExprs_eq]
  simp only [List.append_assoc]

theorem blockStatement (inLoop : Bool) (fuel : Nat) :
    KeepsParts places (Parse.blockStatement nested inLoop fuel)
      (fun note => Parse.blockStatement (nested' note) inLoop fuel) Stmt.exprs := by
  intro base
  refine (declarations (hnested.declaration inLoop) _ fuel base).bind fun body => ?_
  refine .step (.discard (.expectKeyword _ _)) fun _ => .done ?_
  rw [Stmt.exprs]

end Bodies

section All

variable (hnested : Nested places nested nested')
variable (hexpr : KeepsParts places expr expr' Expr.subterms)
include hnested hexpr

theorem forStatement : KeepsParts places (Parse.forStatement nested expr)
    (fun note => Parse.forStatement (nested' note) (expr' note)) Stmt.exprs := by
  intro base
  refine (forInitial hexpr base).bind fun initial => ?_
  refine (optional (.atSymbol _) hexpr _).bind fun condition => ?_
  refine .step (.discard (.expectSymbol _ _)) fun _ => ?_
  refine (optional (.atKeyword _) hexpr _).bind fun increment => ?_
  refine .step (.discard (.expectKeyword _ _)) fun _ => ?_
  refine (hnested.statement true _).bind fun body => .pure ?_
  simp only [List.append_assoc]
  refine append_subset_of_subset ?_
  have hparts := Stmt.subset_exprs_lowerFor initial condition increment body
  simpa only [List.append_assoc] using hparts

theorem whileStatement : KeepsParts places (Parse.whileStatement nested expr)
    (fun note => Parse.whileStatement (nested' note) (expr' note)) Stmt.exprs := by
  intro base
  refine (hexpr base).bind fun condition => .step (.discard (.expectKeyword _ _)) fun _ => ?_
  refine (hnested.statement true _).bind fun body => .done ?_
  rw [Stmt.exprs, List.append_assoc]

theorem ifStatement (inLoop : Bool) : KeepsParts places (Parse.ifStatement nested inLoop expr)
    (fun note => Parse.ifStatement (nested' note) inLoop (expr' note)) Stmt.exprs := by
  intro base
  refine (hexpr base).bind fun condition => .step (.discard (.expectKeyword _ _)) fun _ => ?_
  refine (hnested.statement inLoop _).bind fun thenBranch => ?_
  refine .step (.acceptKeyword _) fun _ => .ite ?_ (.done ?_)
  · refine (hnested.statement inLoop _).bind fun elseBranch => .done ?_
    rw [Stmt.exprs]
    simp only [List.append_assoc]
  · rw [Stmt.exprs, List.append_assoc]

/-- Each arm compares with the subject, so it is not lost as there always is an arm. -/
theorem caseArms (inLoop : Bool) (subject : Expr) : ∀ fuel base,
    Announces places (base ++ subject.subterms) (Parse.caseArms nested inLoop expr subject fuel)
      (fun note => Parse.caseArms (nested' note) inLoop (expr' note) subject fuel)
      fun choice => base ++ ((choice.1.flatMap fun arm => arm.1.subterms ++ arm.2.exprs) ++
        Stmt.optionExprs choice.2)
  | 0, _ => .throw
  | fuel + 1, base => by
      refine (caseLabel hexpr base subject).bind fun label => ?_
      refine (caseLabels hexpr subject fuel base label).bind fun condition => ?_
      refine .step (.discard (.expectSymbol _ _)) fun _ => ?_
      refine (hnested.statement inLoop _).bind fun body => ?_
      refine .step (.discard (.acceptSymbol _)) fun _ => ?_
      refine .step (.acceptKeyword _) fun _ => .ite (.pure (by simp [Stmt.optionExprs])) ?_
      refine .step (.acceptKeyword _) fun _ => .ite ?_ ?_
      · refine (hnested.statement inLoop _).bind fun otherwise => ?_
        refine .step (.discard (.acceptSymbol _)) fun _ => ?_
        exact .step (.discard (.expectKeyword _ _)) fun _ => .pure (by simp [Stmt.optionExprs])
      · refine .step .atEnd fun _ => .ite .fail ?_
        refine ((caseArms inLoop subject fuel _).weaken (List.subset_append_left _ _)).bind
          fun choice => ?_
        exact .pure (by simp)

theorem caseStatement (inLoop : Bool) (fuel : Nat) :
    KeepsParts places (Parse.caseStatement nested inLoop expr fuel)
      (fun note => Parse.caseStatement (nested' note) inLoop (expr' note) fuel) Stmt.exprs := by
  intro base
  refine (hexpr base).bind fun subject => .step (.discard (.expectKeyword _ _)) fun _ => ?_
  refine (caseArms hnested hexpr inLoop subject fuel base).bind fun choice => ?_
  have hparts := Stmt.exprs_lowerCase choice.1 choice.2
  dsimp only
  cases hchoice : Stmt.lowerCase choice.1 choice.2 with
  | none => exact .step .previous fun _ => .throw
  | some s =>
      rw [hchoice] at hparts
      exact .done (congrArg (base ++ ·) hparts.symm)

theorem statement (fuel : Nat) (inLoop : Bool) :
    KeepsParts places (Parse.statement nested expr fuel inLoop)
      (fun note => Parse.statement (nested' note) (expr' note) fuel inLoop) Stmt.exprs := by
  intro base
  refine .step .peek fun token => ?_
  cases token.keyword? with
  | none => exact expressionStatement hexpr base
  | some word =>
      cases word with
      | «for» => exact .step (.discard .advance) fun _ => forStatement hnested hexpr base
      | «break» =>
          exact .step (.discard .advance) fun _ =>
            plain (Composed.breakStatement inLoop) base
      | «if» => exact .step (.discard .advance) fun _ => ifStatement hnested hexpr inLoop base
      | «try» => exact .step (.discard .advance) fun _ => tryStatement hnested inLoop fuel base
      | case =>
          exact .step (.discard .advance) fun _ => caseStatement hnested hexpr inLoop fuel base
      | print => exact .step (.discard .advance) fun _ => printStatement hexpr base
      | exit => exact .step (.discard .advance) fun _ => exitStatement hexpr base
      | raise => exact .step (.discard .advance) fun _ => raiseStatement hexpr base
      | «while» => exact .step (.discard .advance) fun _ => whileStatement hnested hexpr base
      | «begin» => exact .step (.discard .advance) fun _ => blockStatement hnested inLoop fuel base
      | _ => exact expressionStatement hexpr base

theorem function (inLoop : Bool) (fuel : Nat) (kind : FunctionKind) :
    KeepsParts places (Parse.function nested inLoop expr fuel kind)
      (fun note => Parse.function (nested' note) inLoop (expr' note) fuel kind)
      fun decl => (Stmt.function decl).exprs := by
  intro base
  refine .step (.expectName _) fun name => .step (.params fuel) fun parameters => ?_
  refine .step (.resultType kind) fun returnType => .step (.discard (.expectSymbol _ _)) fun _ => ?_
  refine (sections hexpr fuel base).bind fun announced => ?_
  refine .step (.discard (.expectKeyword _ _)) fun _ => ?_
  refine (declarations (hnested.declaration inLoop) _ fuel _).bind fun body => ?_
  refine .step (.discard (.expectKeyword _ _)) fun _ => .done ?_
  dsimp only
  rw [Stmt.exprs_function, Stmt.listExprs_append, List.append_assoc]

theorem method (inLoop : Bool) (fuel : Nat) :
    KeepsParts places (Parse.method nested inLoop expr fuel)
      (fun note => Parse.method (nested' note) inLoop (expr' note) fuel)
      fun decl => (Stmt.function decl).exprs := by
  have hkind : Composed .strict Parse.methodKind :=
    (Composed.acceptKeyword _).bind fun _ => .ite (.done _) <|
      (Composed.acceptKeyword _).bind fun _ => .ite (.done _) <|
        (Composed.acceptKeyword _).bind fun _ => .ite (.done _) (.done _)
  intro base
  refine .step hkind fun kind => (function hnested hexpr inLoop fuel kind base).bind fun decl => ?_
  exact .step (.discard (.acceptSymbol _)) fun _ => .done rfl

/-- A class keeps what its methods keep, whatever becomes of its sections. -/
theorem classDecl {fieldExpr : Parse Expr} {fieldExpr' : (Reading → Diagnostic) → Parse Expr}
    (inLoop : Bool) (fuel : Nat)
    (hfields : ∀ base, Announces places base (Parse.sections fieldExpr fuel)
      (fun note => Parse.sections (fieldExpr' note) fuel) fun _ => base) :
    KeepsParts places (Parse.classWithFields nested inLoop fieldExpr expr fuel)
      (fun note => Parse.classWithFields (nested' note) inLoop (fieldExpr' note) (expr' note) fuel)
      fun decl => (Stmt.classDecl decl).exprs := by
  have hparent : Composed .strict Parse.superclass := by
    refine (Composed.acceptSymbol _).bind fun _ => .ite ?_ (.done none)
    refine (Composed.expectName _).bind fun _ => ?_
    exact (Composed.expectSymbol _ _).discard.bind fun _ => Composed.freshId.bind fun _ => .done _
  have hopen : Composed .strict do return !(← Parse.atKeyword .end) && !(← Parse.atEnd) :=
    (Composed.atKeyword _).bind fun _ => Composed.atEnd.bind fun _ => .done _
  intro base
  refine .step (.expectName _) fun name => .step hparent fun parent => ?_
  refine .step (.discard (.expectSymbol _ _)) fun _ => (hfields base).bind fun announced => ?_
  refine .step (.discard (.expectKeyword _ _)) fun _ => ?_
  refine (collect hopen (method hnested hexpr inLoop fuel) fuel base).bind fun methods => ?_
  refine .step (.discard (.expectKeyword _ _)) fun _ => .done ?_
  dsimp only
  rw [Stmt.exprs_classDecl]

theorem declaration {fieldExpr : Parse Expr} {fieldExpr' : (Reading → Diagnostic) → Parse Expr}
    {here : Bool → Parse Stmt} {here' : (Reading → Diagnostic) → Bool → Parse Stmt} (fuel : Nat)
    (inLoop : Bool)
    (hhere : KeepsParts places (here inLoop) (fun note => here' note inLoop) Stmt.exprs)
    (hfields : ∀ base, Announces places base (Parse.sections fieldExpr fuel)
      (fun note => Parse.sections (fieldExpr' note) fuel) fun _ => base) :
    KeepsParts places (Parse.declarationWithFields nested here fieldExpr expr fuel inLoop)
      (fun note => Parse.declarationWithFields (nested' note) (here' note) (fieldExpr' note)
        (expr' note) fuel inLoop) Stmt.listExprs := by
  have huses : Composed .strict Parse.usesDecl :=
    Composed.previous.bind fun _ => (Composed.expectName _).bind fun _ =>
      (Composed.expectSymbol _ _).discard.bind fun _ => .done _
  have hsingle (base : List Expr) (s : Stmt) : base ++ s.exprs = base ++ Stmt.listExprs [s] := by
    rw [Stmt.listExprs, Stmt.listExprs, List.append_nil]
  have hfunction (kind : FunctionKind) (base : List Expr) : Announces places base
      (Parse.function nested inLoop expr fuel kind >>= fun decl => pure [.function decl])
      (fun note => Parse.function (nested' note) inLoop (expr' note) fuel kind >>=
        fun decl => pure [.function decl]) fun list => base ++ Stmt.listExprs list :=
    (function hnested hexpr inLoop fuel kind base).bind fun decl =>
      .done (hsingle base (.function decl))
  have hother (base : List Expr) : Announces places base
      (here inLoop >>= fun single => pure [single])
      (fun note => here' note inLoop >>= fun single => pure [single])
      fun list => base ++ Stmt.listExprs list :=
    (hhere base).bind fun single => .done (hsingle base single)
  intro base
  refine .step .peek fun token => ?_
  cases token.keyword? with
  | none => exact hother base
  | some word =>
      cases word with
      | uses =>
          exact .step (.discard .advance) fun _ => .step huses fun _ =>
            .pure (List.subset_append_left _ _)
      | «class» =>
          refine .step (.discard .advance) fun _ => ?_
          exact (classDecl hnested hexpr inLoop fuel hfields base).bind fun decl =>
            .done (hsingle base (.classDecl decl))
      | function => exact .step (.discard .advance) fun _ => hfunction .function base
      | procedure => exact .step (.discard .advance) fun _ => hfunction .procedure base
      | var =>
          refine .step (.discard .advance) fun _ => ?_
          exact (variableSection hexpr fuel base).bind fun decls => .done rfl
      | type =>
          exact .step (.discard .advance) fun _ => .step (.enumSection fuel) fun _ =>
            .pure (List.subset_append_left _ _)
      | _ => exact hother base

end All

end Statements

/-- At each depth, statements and declarations keep what is read in them. -/
theorem grammar : ∀ fuel, Nested (fun _ => True) (grammar .strict fuel)
    fun note => Parse.announcedGrammar note fuel
  | 0 => ⟨fun _ _ => .throw, fun _ _ => .throw⟩
  | fuel + 1 => by
      have hnested := grammar fuel
      have hexpr := (expression false (fuel + 1)).anywhere
      have hfields (base : List Expr) :=
        (sections (expression true (fuel + 1)) (fuel + 1) base).dropped
      have hhere (inLoop : Bool) := statement hnested hexpr (fuel + 1) inLoop
      refine ⟨hhere, fun inLoop base => .recover ?_⟩
      rw [← Parse.declarationWithFields_self]
      exact declaration hnested hexpr (fuel + 1) inLoop (hhere inLoop) hfields base

theorem program (fuel : Nat) : KeepsParts (fun _ => True) (Parse.program .strict fuel)
    (fun note => Parse.announcedProgram note fuel) Stmt.listExprs := by
  have hmore : Composed .strict do return !(← Parse.atEnd) := Composed.atEnd.bind fun _ => .done _
  exact flattened hmore (declarationItem ((grammar fuel).declaration false)) fuel

end KeepsParts

/-- Where a strict parser comes to a program without a report, all that it has read as an expression
on the way, nested expressions too, is a part of that program, except for what it has read for the
first values of fields. -/
theorem Parse.expressions_kept {firstId : NodeId} {scan : Scan} {statements : List Stmt}
    (hresult : (parseProgram .strict firstId scan).result = .ok statements)
    (hsilent : (parseProgram .strict firstId scan).diagnostics = []) :
    ∃ read : List Reading,
      (∀ note, run (announcedProgram note) firstId scan =
        { parseProgram .strict firstId scan with diagnostics := read.map note }) ∧
      ∀ reading ∈ read, reading.forField = false → reading.value ∈ Stmt.listExprs statements := by
  cases hrun : program .strict (scan.tokens.length + 1) (.start scan.tokens scan.last firstId) with
  | error stop d =>
      have hparsed : parseProgram .strict firstId scan = _ := run_of_error hrun
      rw [hparsed] at hresult
      cases hresult
  | ok value d =>
      have hparsed : parseProgram .strict firstId scan = _ := run_of_ok hrun
      rw [hparsed] at hresult hsilent ⊢
      cases hresult
      rcases KeepsParts.program _ [] _ _ _ hrun with ⟨log, hlog⟩
      have hreports : log.reports = [] := hlog.reports.symm.trans hsilent
      refine ⟨log.readings, fun note => ?_, hlog.kept⟩
      have hannounced := run_of_ok (hlog.run note [])
      rw [ParserLog.written_of_reports_nil hreports] at hannounced
      exact hannounced

/-- A variable and a field, both with a first value. -/
def Parse.firstValues : Source where
  path := ""
  text := "var N := F(M); class A; var X := G(); begin end"

/-- The variable keeps `F(M)` and with it `M`; what is read third is `G()`, for the field. -/
theorem Parse.expressions_kept_firstValues :
    let scan := Lexer.scan firstValues
    ∃ (statements : List Stmt) (read : List Reading),
      (parseProgram .strict 0 scan).result = .ok statements ∧
      (parseProgram .strict 0 scan).diagnostics = [] ∧
      (∀ note, (run (announcedProgram note) 0 scan).diagnostics = read.map note) ∧
      read.length = 3 ∧
      ∀ reading ∈ read, reading.forField = false → reading.value ∈ Stmt.listExprs statements := by
  have hsilent : (parseProgram .strict 0 (Lexer.scan firstValues)).diagnostics = [] := by rfl
  rcases Parse.expressions_kept rfl hsilent with ⟨read, hread, hkept⟩
  have hannounced (note : Reading → Diagnostic) :
      (run (announcedProgram note) 0 (Lexer.scan firstValues)).diagnostics = read.map note :=
    congrArg Parsed.diagnostics (hread note)
  have hlength := congrArg List.length
    (hannounced fun _ => { message := "", level := .error, span := .point .start, file := "" })
  rw [List.length_map] at hlength
  exact ⟨_, read, rfl, hsilent, hannounced, hlength.symm, hkept⟩

/-- The first value of a field is read, but it is no part of the program. -/
theorem Parse.field_initial_not_kept :
    let scan := Lexer.scan {
      path := ""
      text := "class A;\nvar\n  X : Integer := F();\nbegin\nend\n" }
    ∃ (statements : List Stmt) (reading : Reading),
      (parseProgram .strict 0 scan).result = .ok statements ∧
      (parseProgram .strict 0 scan).diagnostics = [] ∧
      (∀ note, (run (announcedProgram note) 0 scan).diagnostics = [note reading]) ∧
      reading.value ∉ Stmt.listExprs statements :=
  ⟨_, _, rfl, rfl, fun _ => rfl, List.not_mem_nil⟩

end MiniPascal
