import MiniPascal.Proofs.Parser.Script

/-!
# Parsing stays within the tokens

Every parser of the grammar is the parser of a script.  So parsing a program, in either mode, looks
for no token outside of its sequence and never leaves it; it ends, and what it recovers from is no
obstacle to its getting to the end of the text.
-/

namespace MiniPascal

/-- The parser is put together from single steps, and the declarations in it are parsed in a given
mode.  What it reports besides their faults is the misplaced `break`. -/
def Composed (mode : Recovery) (p : Parse α) : Prop :=
  ∃ script : Script α, script.Plain mode ∧ script.parser = p

namespace Composed

variable {mode : Recovery}

/-! ## Single steps -/

theorem done (value : α) : Composed mode (pure value) :=
  ⟨.done value, trivial, rfl⟩

theorem stop (why : Stop) : Composed mode (throw why : Parse α) :=
  ⟨.stop why, trivial, rfl⟩

theorem peek : Composed mode Parse.peek :=
  ⟨.peek, trivial, rfl⟩

theorem previous : Composed mode Parse.previous :=
  ⟨.previous, trivial, rfl⟩

theorem atEnd : Composed mode Parse.atEnd :=
  ⟨.atEnd, trivial, rfl⟩

theorem advance : Composed mode Parse.advance :=
  ⟨.advance, trivial, rfl⟩

theorem freshId : Composed mode Parse.freshId :=
  ⟨.freshId, trivial, rfl⟩

theorem report {diagnostic : Diagnostic} (h : Misplaced diagnostic) :
    Composed mode (Parse.report diagnostic) :=
  ⟨.report diagnostic, h, rfl⟩

theorem bind {p : Parse α} {f : α → Parse β} (hp : Composed mode p)
    (hf : ∀ value, Composed mode (f value)) : Composed mode (p >>= f) := by
  rcases hp with ⟨first, hfirst, rfl⟩
  rcases Classical.skolem.mp hf with ⟨next, hnext⟩
  refine ⟨.bind first next, ⟨hfirst, fun value => (hnext value).1⟩, ?_⟩
  exact congrArg (first.parser >>= ·) (funext fun value => (hnext value).2)

theorem recover {p : Parse (List Stmt)} (hp : Composed mode p) :
    Composed mode (Parse.recover mode p) := by
  rcases hp with ⟨decl, hdecl, rfl⟩
  exact ⟨.recover mode decl, ⟨rfl, hdecl⟩, rfl⟩

protected theorem discard {p : Parse α} (hp : Composed mode p) : Composed mode (discard p) :=
  hp.bind fun _ => done ()

theorem ite {p q : Parse α} {b : Bool} (hp : Composed mode p) (hq : Composed mode q) :
    Composed mode (if b = true then p else q) := by
  cases b with
  | true => exact hp
  | false => exact hq

theorem fail (fault : SyntaxFault) : Composed mode (Parse.fail fault : Parse α) :=
  peek.bind fun token => stop (.fault { token, fault })

theorem atSymbol (mark : Symbol) : Composed mode (Parse.atSymbol mark) :=
  peek.bind fun _ => done _

theorem atKeyword (word : Keyword) : Composed mode (Parse.atKeyword word) :=
  peek.bind fun _ => done _

theorem atName : Composed mode Parse.atName :=
  peek.bind fun _ => done _

theorem acceptSymbol (mark : Symbol) : Composed mode (Parse.acceptSymbol mark) :=
  (atSymbol mark).bind fun _ => .ite (advance.discard.bind fun _ => done true) (done false)

theorem acceptKeyword (word : Keyword) : Composed mode (Parse.acceptKeyword word) :=
  (atKeyword word).bind fun _ => .ite (advance.discard.bind fun _ => done true) (done false)

theorem expectSymbol (mark : Symbol) (fault : SyntaxFault) :
    Composed mode (Parse.expectSymbol mark fault) :=
  (atSymbol mark).bind fun _ => .ite advance (fail fault)

theorem expectKeyword (word : Keyword) (fault : SyntaxFault) :
    Composed mode (Parse.expectKeyword word fault) :=
  (atKeyword word).bind fun _ => .ite advance (fail fault)

theorem expectName (fault : SyntaxFault) : Composed mode (Parse.expectName fault) :=
  atName.bind fun _ => .ite advance (fail fault)

/-! ## Loops -/

theorem separated {item : Parse α} {more : Parse Bool} (hitem : Composed mode item)
    (hmore : Composed mode more) : ∀ fuel, Composed mode (Parse.separated item more fuel)
  | 0 => stop .starved
  | fuel + 1 => by
      refine hitem.bind fun head => hmore.bind fun _ => .ite ?_ (done [head])
      exact (separated hitem hmore fuel).bind fun tail => done (head :: tail)

theorem collect {more : Parse Bool} {item : Parse α} (hmore : Composed mode more)
    (hitem : Composed mode item) : ∀ fuel, Composed mode (Parse.collect more item fuel)
  | 0 => stop .starved
  | fuel + 1 => by
      refine hmore.bind fun _ => .ite (hitem.bind fun head => ?_) (done [])
      exact (collect hmore hitem fuel).bind fun tail => done (head :: tail)

theorem chain {operator? : Token → Option β} {build : Expr → β → Token → Expr → Expr}
    {operand : Parse Expr} (hoperand : Composed mode operand) :
    ∀ fuel left, Composed mode (Parse.chain operator? build operand fuel left)
  | 0, _ => stop .starved
  | fuel + 1, left => by
      refine peek.bind fun token => ?_
      cases operator? token with
      | none => exact done left
      | some op => exact advance.bind fun _ => hoperand.bind fun _ => chain hoperand fuel _

theorem level {operator? : Token → Option β} {build : Expr → β → Token → Expr → Expr}
    {operand : Parse Expr} (hoperand : Composed mode operand) (fuel : Nat) :
    Composed mode (Parse.level operator? build operand fuel) :=
  hoperand.bind (chain hoperand fuel)

/-! ## Expressions -/

section Expressions

variable {inner : Parse Expr} (hinner : Composed mode inner)
include hinner

theorem mapEntry : Composed mode (Parse.mapEntry inner) :=
  hinner.bind fun _ => (expectSymbol .colon .mapColon).discard.bind fun _ =>
    hinner.bind fun _ => done _

theorem argumentsFrom : ∀ fuel count, Composed mode (Parse.argumentsFrom inner fuel count)
  | 0, _ => stop .starved
  | fuel + 1, count => by
      unfold Parse.argumentsFrom
      split
      · exact fail .tooManyArguments
      · refine hinner.bind fun head => (acceptSymbol .comma).bind fun _ => .ite ?_ (done [head])
        exact (argumentsFrom fuel (count + 1)).bind fun tail => done (head :: tail)

theorem arguments (fuel : Nat) : Composed mode (Parse.arguments inner fuel) :=
  (atSymbol .rightParen).bind fun _ => .ite (done []) (argumentsFrom hinner fuel 0)

theorem primary (fuel : Nat) : Composed mode (Parse.primary inner fuel) := by
  refine peek.bind fun token => ?_
  cases Parse.literal? token with
  | some value => exact advance.discard.bind fun _ => done (Expr.literal value)
  | none =>
      dsimp only
      split
      · refine advance.discard.bind fun _ => (expectSymbol .dot .superDot).discard.bind fun _ => ?_
        exact (expectName .superMethod).bind fun _ => freshId.bind fun _ => done _
      · exact advance.discard.bind fun _ => freshId.bind fun _ => done _
      · exact advance.discard.bind fun _ => freshId.bind fun _ => done _
      · refine advance.discard.bind fun _ => ?_
        refine (separated (mapEntry hinner) (acceptSymbol .comma) fuel).bind fun entries => ?_
        exact (expectSymbol .rightBracket .mapClose).discard.bind fun _ => done _
      · refine advance.discard.bind fun _ => hinner.bind fun value => ?_
        exact (expectSymbol .rightParen .groupClose).discard.bind fun _ => done _
      · exact stop _

theorem trailers : ∀ fuel target, Composed mode (Parse.trailers inner fuel target)
  | 0, _ => stop .starved
  | fuel + 1, target => by
      refine peek.bind fun token => ?_
      split
      · refine advance.discard.bind fun _ => (arguments hinner fuel).bind fun values => ?_
        exact (expectSymbol .rightParen .callClose).bind fun _ => trailers fuel _
      · refine advance.discard.bind fun _ => hinner.bind fun index => ?_
        exact (expectSymbol .rightBracket .subscriptClose).bind fun _ => trailers fuel _
      · exact advance.discard.bind fun _ => (expectName .propertyName).bind fun _ =>
          trailers fuel _
      · exact done target

theorem unary : ∀ fuel, Composed mode (Parse.unary inner fuel)
  | 0 => stop .starved
  | fuel + 1 => by
      refine peek.bind fun token => ?_
      cases Parse.unaryOp? token with
      | some op => exact advance.bind fun _ => (unary fuel).bind fun _ => done _
      | none => exact (primary hinner (fuel + 1)).bind (trailers hinner (fuel + 1))

theorem disjunction (fuel : Nat) : Composed mode (Parse.disjunction inner fuel) :=
  level (level (level (level (level (level (unary hinner fuel) fuel) fuel) fuel) fuel) fuel) fuel

theorem assignment : ∀ fuel, Composed mode (Parse.assignment inner fuel)
  | 0 => stop .starved
  | fuel + 1 => by
      refine (disjunction hinner (fuel + 1)).bind fun target => ?_
      refine (acceptSymbol .colonEqual).bind fun _ => .ite ?_ (done target)
      refine previous.bind fun mark => (assignment fuel).bind fun value => ?_
      unfold Parse.assignTo
      split
      · exact freshId.bind fun _ => done _
      · exact done _
      · exact stop _

end Expressions

theorem expression : ∀ fuel, Composed mode (Parse.expression fuel)
  | 0 => stop .starved
  | fuel + 1 => by
      refine (assignment (expression fuel) (fuel + 1)).bind fun value => ?_
      refine (acceptKeyword .as).bind fun _ => .ite ?_ (done value)
      exact (expectName .castName).bind fun _ => done _

/-! ## Declarations of names -/

theorem enumSection (fuel : Nat) : Composed mode (Parse.enumSection fuel) := by
  refine collect atName ?_ fuel
  refine (expectName .enumName).bind fun name => ?_
  refine (expectSymbol .equal .enumEqual).discard.bind fun _ => ?_
  refine (expectSymbol .leftParen .enumOpen).discard.bind fun _ => ?_
  refine (separated (expectName .enumMember) (acceptSymbol .comma) fuel).bind fun members => ?_
  refine (expectSymbol .rightParen .enumClose).discard.bind fun _ => ?_
  exact (expectSymbol .semicolon .headerSemicolon).discard.bind fun _ => done _

theorem typeAnnotation : Composed mode Parse.typeAnnotation := by
  refine (acceptSymbol .colon).bind fun _ => .ite ?_ (done _)
  refine (expectName .typeName).bind fun typeName => ?_
  refine (acceptKeyword .of).bind fun _ => .ite ?_ (done _)
  exact (expectName .genericName).bind fun _ => done _

theorem variableLineFollows : Composed mode Parse.variableLineFollows := by
  have hlook : Composed mode do
      let token ← Parse.peek
      let mark ← Parse.second
      return token.isIdentifier && (mark = some .comma || mark = some .colon) :=
    peek.bind fun _ => bind ⟨.second, trivial, rfl⟩ fun _ => done _
  rcases hlook with ⟨script, hplain, hscript⟩
  refine ⟨script, hplain, hscript.trans (funext fun c => ?_)⟩
  rcases c with ⟨before, ahead, last, nextId, diagnostics⟩
  -- two tokens are in front, or there is no second one to be a comma or a colon
  rcases ahead with _ | ⟨name, _ | ⟨mark, rest⟩⟩
  · exact congrArg (EStateM.Result.ok · _) (Bool.and_false _)
  · exact congrArg (EStateM.Result.ok · _) (Bool.and_false _)
  · rfl

section Declarations

variable {expr : Parse Expr} (hexpr : Composed mode expr)
include hexpr

theorem variableTail : Composed mode (Parse.variableTail expr) := by
  refine typeAnnotation.bind fun annotation => ?_
  refine bind (p := Parse.initialValue expr) ?_ fun initial => ?_
  · exact (acceptSymbol .colonEqual).bind fun _ => .ite (hexpr.bind fun _ => done _) (done none)
  · exact (expectSymbol .semicolon .variableSemicolon).discard.bind fun _ => done _

theorem variableSection (fuel : Nat) : Composed mode (Parse.variableSection expr fuel) := by
  refine (separated ?_ variableLineFollows fuel).bind fun lines => done _
  refine (separated (expectName .variableName) (acceptSymbol .comma) fuel).bind fun names => ?_
  exact (variableTail hexpr).bind fun _ => done _

theorem sections (fuel : Nat) : Composed mode (Parse.sections expr fuel) := by
  refine collect ?_ ?_ fuel
  · exact (atKeyword .type).bind fun _ => (atKeyword .var).bind fun _ => done _
  · refine (acceptKeyword .type).bind fun _ => .ite ?_ ?_
    · exact (enumSection fuel).bind fun _ => done _
    · exact advance.discard.bind fun _ => (variableSection hexpr fuel).bind fun _ => done _

end Declarations

theorem params (fuel : Nat) : Composed mode (Parse.params fuel) := by
  have hparam : Composed mode Parse.param := by
    refine (expectName .paramName).bind fun name => ?_
    refine (acceptSymbol .colon).bind fun _ => .ite ?_ (done _)
    exact (expectName .paramType).bind fun _ => done _
  have hclose (list : List Param) : Composed mode do
      discard <| Parse.expectSymbol .rightParen .paramClose
      return list :=
    (expectSymbol .rightParen .paramClose).discard.bind fun _ => done list
  refine (acceptSymbol .leftParen).bind fun _ => .ite ?_ (done [])
  refine (atSymbol .rightParen).bind fun _ => .ite ?_ ?_
  · exact bind (done []) hclose
  · exact (separated hparam (acceptSymbol .comma) fuel).bind hclose

theorem resultType (kind : FunctionKind) : Composed mode (Parse.resultType kind) := by
  refine (acceptSymbol .colon).bind fun _ => .ite ?_ (done _)
  split
  · exact fail .procedureResult
  · exact (expectName .resultType).bind fun _ => done _

/-! ## Statements -/

theorem declarations {decl : Parse (List Stmt)} (hdecl : Composed mode decl) (close : Keyword)
    (fuel : Nat) : Composed mode (Parse.declarations decl close fuel) := by
  refine bind (collect ?_ ?_ fuel) fun items => done _
  · exact (atKeyword close).bind fun _ => atEnd.bind fun _ => done _
  · exact (acceptSymbol .semicolon).bind fun _ => .ite (done []) hdecl

/-- The parsers of what is nested are put together from single steps. -/
structure Nested (mode : Recovery) (nested : MiniPascal.Nested) : Prop where
  statement : ∀ inLoop, Composed mode (nested.statement inLoop)
  declaration : ∀ inLoop, Composed mode (nested.declaration inLoop)

theorem optional {closed : Parse Bool} {expr : Parse Expr} (hclosed : Composed mode closed)
    (hexpr : Composed mode expr) : Composed mode (Parse.optional closed expr) :=
  hclosed.bind fun _ => .ite (done none) (hexpr.bind fun _ => done _)

section Statements

variable {nested : MiniPascal.Nested} (hnested : Nested mode nested)
variable {expr : Parse Expr} (hexpr : Composed mode expr)

include hexpr in
theorem expressionStatement : Composed mode (Parse.expressionStatement expr) :=
  hexpr.bind fun _ => (expectSymbol .semicolon .valueSemicolon).discard.bind fun _ => done _

include hnested hexpr in
theorem forStatement : Composed mode (Parse.forStatement nested expr) := by
  refine bind (p := Parse.forInitial expr) ?_ fun initial => ?_
  · refine (acceptSymbol .semicolon).bind fun _ => .ite (done none) ?_
    refine (acceptKeyword .var).bind fun _ => .ite ?_ ?_
    · refine bind (p := Parse.loopVariable expr) ?_ fun decl => done _
      exact (expectName .variableName).bind fun _ => (variableTail hexpr).bind fun _ => done _
    · exact (expressionStatement hexpr).bind fun _ => done _
  · refine (optional (atSymbol .semicolon) hexpr).bind fun condition => ?_
    refine (expectSymbol .semicolon .loopSemicolon).discard.bind fun _ => ?_
    refine (optional (atKeyword .do) hexpr).bind fun increment => ?_
    refine (expectKeyword .do .forDo).discard.bind fun _ => ?_
    exact (hnested.statement true).bind fun body => done _

theorem breakStatement (inLoop : Bool) : Composed mode (Parse.breakStatement inLoop) := by
  have hsemicolon (keyword : Token) : Composed mode do
      discard <| Parse.expectSymbol .semicolon .breakSemicolon
      return Stmt.break keyword :=
    (expectSymbol .semicolon .breakSemicolon).discard.bind fun _ => done _
  refine previous.bind fun keyword => ?_
  cases inLoop with
  | true => exact hsemicolon keyword
  | false =>
      have hreport : Composed mode (Parse.report
          (.errorAt keyword "Must be inside a loop to use 'break'.")) := report rfl
      exact hreport.bind fun _ => hsemicolon keyword

include hnested hexpr in
theorem ifStatement (inLoop : Bool) : Composed mode (Parse.ifStatement nested inLoop expr) := by
  refine hexpr.bind fun condition => (expectKeyword .then .ifThen).discard.bind fun _ => ?_
  refine (hnested.statement inLoop).bind fun thenBranch => ?_
  refine (acceptKeyword .else).bind fun _ => .ite ?_ (done _)
  exact (hnested.statement inLoop).bind fun elseBranch => done _

include hnested in
theorem handler (inLoop : Bool) : Composed mode (Parse.handler nested inLoop) := by
  have hrest (name : Token) (typeName : Option String) : Composed mode do
      discard <| Parse.expectKeyword .do .handlerDo
      let body ← nested.statement inLoop
      return ({ name, typeName, body } : Handler Stmt) :=
    (expectKeyword .do .handlerDo).discard.bind fun _ =>
      (hnested.statement inLoop).bind fun _ => done _
  refine advance.discard.bind fun _ => (expectName .handlerName).bind fun name => ?_
  refine (acceptSymbol .colon).bind fun _ => .ite ?_ ?_
  · exact bind ((expectName .typeName).bind fun token => done (some token.lexeme)) (hrest name)
  · exact bind (done none) (hrest name)

include hnested in
theorem tryStatement (inLoop : Bool) (fuel : Nat) :
    Composed mode (Parse.tryStatement nested inLoop fuel) := by
  have hdeclaration := hnested.declaration inLoop
  refine previous.bind fun keyword => (declarations hdeclaration .except fuel).bind fun body => ?_
  refine (expectKeyword .except .tryExcept).discard.bind fun _ => ?_
  refine (collect ?_ (handler hnested inLoop) fuel).bind fun handlers => ?_
  · exact peek.bind fun _ => done _
  · refine (declarations hdeclaration .end fuel).bind fun otherwise => ?_
    exact (expectKeyword .end .tryEnd).discard.bind fun _ => done _

include hexpr in
theorem caseLabel (subject : Expr) : Composed mode (Parse.caseLabel expr subject) :=
  hexpr.bind fun _ => previous.bind fun _ => done _

include hexpr in
theorem caseLabels (subject : Expr) :
    ∀ fuel condition, Composed mode (Parse.caseLabels expr subject fuel condition)
  | 0, _ => stop .starved
  | fuel + 1, condition => by
      refine (acceptSymbol .comma).bind fun _ => .ite ?_ (done condition)
      exact previous.bind fun _ => (caseLabel hexpr subject).bind fun _ =>
        caseLabels subject fuel _

include hnested hexpr in
theorem caseArms (inLoop : Bool) (subject : Expr) :
    ∀ fuel, Composed mode (Parse.caseArms nested inLoop expr subject fuel)
  | 0 => stop .starved
  | fuel + 1 => by
      refine (caseLabel hexpr subject).bind fun label => ?_
      refine (caseLabels hexpr subject fuel label).bind fun condition => ?_
      refine (expectSymbol .colon .caseColon).discard.bind fun _ => ?_
      refine (hnested.statement inLoop).bind fun body => ?_
      refine (acceptSymbol .semicolon).discard.bind fun _ => ?_
      refine (acceptKeyword .end).bind fun _ => .ite (done _) ?_
      refine (acceptKeyword .else).bind fun _ => .ite ?_ ?_
      · refine (hnested.statement inLoop).bind fun otherwise => ?_
        refine (acceptSymbol .semicolon).discard.bind fun _ => ?_
        exact (expectKeyword .end .caseEnd).discard.bind fun _ => done _
      · refine atEnd.bind fun _ => .ite (fail .caseEnd) ?_
        exact (caseArms inLoop subject fuel).bind fun _ => done _

include hnested hexpr in
theorem caseStatement (inLoop : Bool) (fuel : Nat) :
    Composed mode (Parse.caseStatement nested inLoop expr fuel) := by
  refine hexpr.bind fun subject => (expectKeyword .of .caseOf).discard.bind fun _ => ?_
  refine (caseArms hnested hexpr inLoop subject fuel).bind fun arms => ?_
  dsimp only
  split
  · exact done _
  · exact previous.bind fun _ => stop _

include hexpr in
theorem resultValue : Composed mode (Parse.resultValue expr) :=
  (optional (atSymbol .semicolon) hexpr).bind fun _ =>
    (expectSymbol .semicolon .resultSemicolon).discard.bind fun _ => done _

include hnested in
theorem blockStatement (inLoop : Bool) (fuel : Nat) :
    Composed mode (Parse.blockStatement nested inLoop fuel) :=
  (declarations (hnested.declaration inLoop) .end fuel).bind fun _ =>
    (expectKeyword .end .blockEnd).discard.bind fun _ => done _

include hnested hexpr in
theorem statement (fuel : Nat) (inLoop : Bool) :
    Composed mode (Parse.statement nested expr fuel inLoop) := by
  refine peek.bind fun token => ?_
  split
  · exact advance.discard.bind fun _ => forStatement hnested hexpr
  · exact advance.discard.bind fun _ => breakStatement inLoop
  · exact advance.discard.bind fun _ => ifStatement hnested hexpr inLoop
  · exact advance.discard.bind fun _ => tryStatement hnested inLoop fuel
  · exact advance.discard.bind fun _ => caseStatement hnested hexpr inLoop fuel
  · refine advance.discard.bind fun _ => previous.bind fun _ => hexpr.bind fun _ => ?_
    exact (expectSymbol .semicolon .valueSemicolon).discard.bind fun _ => done _
  · exact advance.discard.bind fun _ => previous.bind fun _ =>
      (resultValue hexpr).bind fun _ => done _
  · exact advance.discard.bind fun _ => previous.bind fun _ =>
      (resultValue hexpr).bind fun _ => done _
  · refine advance.discard.bind fun _ => hexpr.bind fun _ => ?_
    refine (expectKeyword .do .whileDo).discard.bind fun _ => ?_
    exact (hnested.statement true).bind fun _ => done _
  · exact advance.discard.bind fun _ => blockStatement hnested inLoop fuel
  · exact expressionStatement hexpr

include hnested hexpr in
theorem function (inLoop : Bool) (fuel : Nat) (kind : FunctionKind) :
    Composed mode (Parse.function nested inLoop expr fuel kind) := by
  refine (expectName _).bind fun name => (params fuel).bind fun parameters => ?_
  refine (resultType kind).bind fun returnType => ?_
  refine (expectSymbol .semicolon .headerSemicolon).discard.bind fun _ => ?_
  refine (sections hexpr fuel).bind fun announced => ?_
  refine (expectKeyword .begin _).discard.bind fun _ => ?_
  refine (declarations (hnested.declaration inLoop) .end fuel).bind fun body => ?_
  exact (expectKeyword .end _).discard.bind fun _ => done _

include hnested hexpr in
theorem method (inLoop : Bool) (fuel : Nat) :
    Composed mode (Parse.method nested inLoop expr fuel) := by
  refine bind (p := Parse.methodKind) ?_ fun kind => ?_
  · exact (acceptKeyword .function).bind fun _ => .ite (done _) <|
      (acceptKeyword .procedure).bind fun _ => .ite (done _) <|
        (acceptKeyword .constructor).bind fun _ => .ite (done _) (done _)
  · exact (function hnested hexpr inLoop fuel kind).bind fun _ =>
      (acceptSymbol .semicolon).discard.bind fun _ => done _

include hnested hexpr in
theorem classDecl (inLoop : Bool) (fuel : Nat) :
    Composed mode (Parse.classDecl nested inLoop expr fuel) := by
  refine (expectName .className).bind fun name => ?_
  refine bind (p := Parse.superclass) ?_ fun parent => ?_
  · refine (acceptSymbol .leftParen).bind fun _ => .ite ?_ (done none)
    refine (expectName .superclassName).bind fun name => ?_
    exact (expectSymbol .rightParen .superclassParen).discard.bind fun _ =>
      freshId.bind fun _ => done _
  · refine (expectSymbol .semicolon .classSemicolon).discard.bind fun _ => ?_
    refine (sections hexpr fuel).bind fun announced => ?_
    refine (expectKeyword .begin .classBegin).discard.bind fun _ => ?_
    refine (collect ?_ (method hnested hexpr inLoop fuel) fuel).bind fun methods => ?_
    · exact (atKeyword .end).bind fun _ => atEnd.bind fun _ => done _
    · exact (expectKeyword .end .classEnd).discard.bind fun _ => done _

include hnested hexpr in
theorem declaration {here : Bool → Parse Stmt} (hhere : ∀ inLoop, Composed mode (here inLoop))
    (fuel : Nat) (inLoop : Bool) :
    Composed mode (Parse.declaration nested here expr fuel inLoop) := by
  refine peek.bind fun token => ?_
  split
  · refine advance.discard.bind fun _ => bind (p := Parse.usesDecl) ?_ fun _ => done _
    refine previous.bind fun _ => (expectName .unitName).bind fun _ => ?_
    exact (expectSymbol .semicolon .unitSemicolon).discard.bind fun _ => done _
  · exact advance.discard.bind fun _ =>
      (classDecl hnested hexpr inLoop fuel).bind fun _ => done _
  · exact advance.discard.bind fun _ =>
      (function hnested hexpr inLoop fuel .function).bind fun _ => done _
  · exact advance.discard.bind fun _ =>
      (function hnested hexpr inLoop fuel .procedure).bind fun _ => done _
  · exact advance.discard.bind fun _ => (variableSection hexpr fuel).bind fun _ => done _
  · exact advance.discard.bind fun _ => (enumSection fuel).bind fun _ => done _
  · exact (hhere inLoop).bind fun _ => done _

end Statements

/-! ## Programs -/

theorem grammar (mode : Recovery) : ∀ fuel, Nested mode (MiniPascal.grammar mode fuel)
  | 0 => ⟨fun _ => stop .starved, fun _ => stop .starved⟩
  | fuel + 1 => by
      have hnested := grammar mode fuel
      have hexpr : Composed mode (Parse.expression (fuel + 1)) := expression (fuel + 1)
      have hhere := statement hnested hexpr (fuel + 1)
      exact ⟨hhere, fun inLoop =>
        (declaration hnested hexpr hhere (fuel + 1) inLoop).recover⟩

theorem program (mode : Recovery) (fuel : Nat) : Composed mode (Parse.program mode fuel) := by
  refine bind (collect ?_ ?_ fuel) fun items => done _
  · exact atEnd.bind fun _ => done _
  · exact (acceptSymbol .semicolon).bind fun _ =>
      .ite (done []) ((grammar mode fuel).declaration false)

end Composed

/-- The parser is that of a script. -/
def Scripted (p : Parse α) : Prop :=
  ∃ script : Script α, script.parser = p

theorem Scripted.program (mode : Recovery) (fuel : Nat) : Scripted (Parse.program mode fuel) := by
  rcases Composed.program mode fuel with ⟨script, -, hscript⟩
  exact ⟨script, hscript⟩

theorem Parse.collect_more {more : Parse Bool} {item : Parse α} (test : Cursor → Bool)
    (hmore : ∀ c, more c = .ok (test c) c) {fuel : Nat} {c d : Cursor} {values : List α}
    (h : Parse.collect more item fuel c = .ok values d) : test d = false := by
  induction fuel generalizing c values with
  | zero => cases h
  | succ fuel ih =>
      rcases (collect_eq_ok_iff hmore).mp h with ⟨hend, -, rfl⟩ | ⟨-, head, e, tail, -, htail, -⟩
      · exact hend
      · exact ih htail

/-- A program that is parsed is parsed up to the end of the text. -/
theorem Parse.program_atEnd {mode : Recovery} {fuel : Nat} {c d : Cursor}
    {statements : List Stmt} (h : Parse.program mode fuel c = .ok statements d) :
    d.ahead = [] := by
  rcases bind_eq_ok_iff.mp h with ⟨items, e, hitems, hpure⟩
  cases hpure
  have hend := collect_more (fun c => !c.atEnd) (fun _ => rfl) hitems
  exact List.isEmpty_iff.mp (by simpa [Cursor.atEnd] using hend)

/-- Parsing takes single steps.  Over a sequence of tokens whose last one, and no other, ends the
text, these steps look for no token outside of the sequence and never leave it; and they come to an
end, with the same result and the same reports.  A program is parsed up to the end of the text, and
with recovery there always is one. -/
theorem parseProgram_in_bounds (mode : Recovery) (firstId : NodeId) (scan : Scan)
    (hlast : scan.last.kind = .endOfFile)
    (hothers : ∀ token ∈ scan.tokens, token.kind ≠ .endOfFile) :
    ∃ script : Script (List Stmt),
      script.parser = Parse.program mode (scan.tokens.length + 1) ∧
      ∃ result spot, script.walk scan.all (.start firstId) = some (result, spot) ∧
        parseProgram mode firstId scan = ⟨result, spot.diagnostics, spot.nextId⟩ ∧
        result ≠ .error .starved ∧
        spot.index ≤ scan.tokens.length ∧
        (∀ statements, result = .ok statements → scan.all[spot.index]? = some scan.last) ∧
        (mode = .synchronize → ∃ statements, result = .ok statements) := by
  rcases Scripted.program mode (scan.tokens.length + 1) with ⟨script, hscript⟩
  have hstarved : (parseProgram mode firstId scan).result ≠ .error .starved :=
    parseProgram_ne_starved hlast
  have hwalks := script.walks hlast hothers (.start scan.tokens scan.last firstId)
  refine ⟨script, hscript, ?_⟩
  unfold Script.Walks at hwalks
  rw [hscript] at hwalks
  cases hrun : Parse.program mode (scan.tokens.length + 1)
      (.start scan.tokens scan.last firstId) with
  | ok statements d =>
      rw [hrun] at hwalks
      rcases hwalks with ⟨spot, hwalk, hspot⟩
      have hparsed : parseProgram mode firstId scan =
          ⟨.ok statements, spot.diagnostics, spot.nextId⟩ := by
        rw [parseProgram, Parse.run_of_ok hrun, hspot.diagnostics, hspot.nextId]
      refine ⟨_, spot, hwalk, hparsed, by simp, hspot.index_le, ?_, fun _ => ⟨_, rfl⟩⟩
      intro _ _
      have hpeek := hspot.peek
      rwa [Cursor.peek, Parse.program_atEnd hrun, List.headD_nil, hspot.last] at hpeek
  | error why d =>
      rw [hrun] at hwalks
      rcases hwalks with ⟨spot, hwalk, hspot⟩
      have hparsed : parseProgram mode firstId scan =
          ⟨.error why, spot.diagnostics, spot.nextId⟩ := by
        rw [parseProgram, Parse.run_of_error hrun, hspot.diagnostics, hspot.nextId]
      rw [hparsed] at hstarved
      refine ⟨_, spot, hwalk, hparsed, hstarved, hspot.index_le, by simp, ?_⟩
      rintro rfl
      cases why with
      | starved => exact absurd rfl hstarved
      | fault error => exact absurd hrun (Parse.program_faultless _ _ error d)

/-- A `print` without a value, given up, and a stray `)` as the last token. -/
theorem parseProgram_in_bounds_faulty :
    let token (kind : TokenKind) : Token := ⟨kind, "", .start, ""⟩
    let scan : Scan := {
      tokens := [token (.keyword .print), token (.symbol .semicolon), token (.symbol .rightParen)]
      last := token .endOfFile
      diagnostics := [] }
    scan.last.kind = .endOfFile ∧ (∀ token ∈ scan.tokens, token.kind ≠ .endOfFile) ∧
      ∃ script : Script (List Stmt), script.parser = Parse.program .synchronize 4 ∧
        ∃ statements spot, script.walk scan.all (.start 0) = some (.ok statements, spot) ∧
          scan.all[spot.index]? = some scan.last := by
  intro token scan
  have hothers : ∀ token ∈ scan.tokens, token.kind ≠ .endOfFile := by decide
  refine ⟨rfl, hothers, ?_⟩
  rcases parseProgram_in_bounds .synchronize 0 scan rfl hothers with
    ⟨script, hscript, result, spot, hwalk, -, -, -, hend, hok⟩
  rcases hok rfl with ⟨statements, rfl⟩
  exact ⟨script, hscript, statements, spot, hwalk, hend statements rfl⟩

end MiniPascal
