import MiniPascal.Proofs.Parser.Extension

/-!
# Statements in front of more text

A statement that ends a text may look past its end: an `if` looks for its `else`, and a `var`
section for another line of its own.  Where what follows the text begins with neither, statements
read the same in front of it.  A `type` section at the end of a text takes in whatever begins with a
name.
-/

namespace MiniPascal

/-- What follows a text goes on neither with an `else` nor with a line of a `var` section. -/
structure Extension.Apart (x : Extension) : Prop where
  not_else : (x.more.headD x.last).keyword? ≠ some .else
  not_mark : (x.more.headD x.last).symbol? ≠ some .comma ∧
    (x.more.headD x.last).symbol? ≠ some .colon
  not_line : ∀ name mark rest, x.more = name :: mark :: rest → name.isIdentifier = true →
    mark.symbol? ≠ some .comma ∧ mark.symbol? ≠ some .colon

namespace Parse

variable {x : Extension} {expr expr' : Parse Expr}

/-! ## Declarations of names -/

theorem enumDecl_along {tail : Bool} {footing : Footing} {fuel fuel' : Nat}
    (hfuel : fuel ≤ fuel') :
    Along x tail footing id (enumDecl fuel) (enumDecl fuel') := by
  refine (expectName_along _).bind fun name => ?_
  refine (expectSymbol_along _ _).after ((expectSymbol_along _ _).after ?_)
  refine (separated_along (expectName_along _) (expectName_along _) (acceptSymbol_along _) fuel
    fuel' hfuel).before fun members => ?_
  exact (expectSymbol_along _ _).after ((expectSymbol_along _ _).after (.pure (by simp)))

/-- At the end of a text, a section goes on with the next name. -/
theorem enumSection_along {tail : Bool}
    (hname : tail = true → (x.more.headD x.last).isIdentifier = false) {fuel fuel' : Nat}
    (hfuel : fuel ≤ fuel') :
    Along x tail .steady id (enumSection fuel) (enumSection fuel') := by
  have hmore : Along x tail .steady id atName atName := by
    intro c c' hc value d hrun
    by_cases hahead : c.ahead = []
    · cases hrun
      rcases hc.peek_nil hahead with ⟨hkind, hpeek⟩
      refine ⟨.refl c, fun hend => ⟨c', ?_, hc⟩⟩
      have hlast : c.peek.isIdentifier = false := by simp [Token.isIdentifier, hkind]
      show EStateM.Result.ok c'.peek.isIdentifier c' = .ok c.peek.isIdentifier c'
      rw [hpeek, hlast, hname (hend.resolve_right fun h => h hahead)]
    · rcases atName_along c c' hc value d hrun with ⟨hcd, hrest⟩
      cases hrun
      exact ⟨hcd, fun _ => hrest (.inr hahead)⟩
  exact (collect_along hmore (enumDecl_along hfuel) fuel fuel' hfuel).congr fun decls => by simp

theorem typeAnnotation_along : Along x false .steady id typeAnnotation typeAnnotation := by
  refine (acceptSymbol_along _).branch ?_ (.pure rfl)
  refine (expectName_along _).bind fun typeName => ?_
  refine (acceptKeyword_along _).branch ?_ (.pure rfl)
  exact (expectName_along _).bind fun generic => .pure rfl

theorem variableLineFollows_along {tail : Bool} (hx : x.Apart) :
    Along x tail .steady id variableLineFollows variableLineFollows := by
  rintro ⟨previous, ahead, last, nextId, diagnostics⟩ c' hc value d hrun
  refine ⟨?_, fun _ => ⟨c', ?_, ?_⟩⟩
  · rcases ahead with _ | ⟨name, _ | ⟨mark, rest⟩⟩ <;> cases hrun <;> exact .refl _
  · have hahead := hc.ahead
    unfold variableLineFollows
    rw [bind_of_ok (rfl : (get : Parse Cursor) c' = .ok c' c')]
    dsimp only at hahead ⊢
    rw [hahead]
    -- a second token of the text itself decides; what follows the text is no line
    rcases ahead with _ | ⟨name, _ | ⟨mark, rest⟩⟩
    · cases hrun
      rcases hmore : x.more with _ | ⟨name, _ | ⟨mark, rest⟩⟩
      · rfl
      · rfl
      · have hline := hx.not_line name mark rest hmore
        cases hname : name.isIdentifier with
        | false => simp [hname]; rfl
        | true => simp [hname, hline hname]; rfl
    · cases hrun
      rcases hmore : x.more with _ | ⟨mark, rest⟩
      · rfl
      · have hmark := hx.not_mark
        rw [hmore, List.headD_cons] at hmark
        simp [hmark]
        rfl
    · cases hrun
      rfl
  · rcases ahead with _ | ⟨name, _ | ⟨mark, rest⟩⟩ <;> cases hrun <;> exact hc

/-- Types are texts, and only the first value has numbers. -/
def shiftTail (k : Nat) (tail : String × String × Option Expr) : String × String × Option Expr :=
  (tail.1, tail.2.1, tail.2.2.map (Expr.shift k))

section Variables

variable {tail : Bool} {footing : Footing}
  (hexpr : Along x false .unsure (Expr.shift x.shift) expr expr')
include hexpr

theorem variableTail_along :
    Along x tail .taking (shiftTail x.shift) (variableTail expr) (variableTail expr') := by
  refine typeAnnotation_along.before_taking fun annotation => ?_
  have hinitial : Along x false .steady (Option.map (Expr.shift x.shift)) (initialValue expr)
      (initialValue expr') :=
    (acceptSymbol_along _).branch ((hexpr.cover trivial).bind fun _ => .pure rfl) (.pure rfl)
  refine hinitial.before_taking fun initial => ?_
  exact (expectSymbol_along _ _).after (.pure rfl)

theorem variableSection_along (hx : x.Apart) {fuel fuel' : Nat} (hfuel : fuel ≤ fuel') :
    Along x tail footing (List.map (VarDecl.shift x.shift)) (variableSection expr fuel)
      (variableSection expr' fuel') := by
  have hline {footing : Footing} : Along x tail footing (List.map (VarDecl.shift x.shift))
      (variableLine expr fuel) (variableLine expr' fuel') := by
    refine (separated_along (expectName_along _) (expectName_along _) (acceptSymbol_along _) fuel
      fuel' hfuel).before fun names => ?_
    refine (variableTail_along hexpr).bind fun tail => .pure ?_
    simp [VarDecl.shift]
  refine (separated_along hline hline (variableLineFollows_along hx) fuel fuel' hfuel).bind
    fun lines => .pure ?_
  rw [List.map_flatten]

theorem loopVariable_along :
    Along x tail footing (VarDecl.shift x.shift) (loopVariable expr) (loopVariable expr') := by
  refine (expectName_along _).bind fun name => ?_
  have htail : Along x tail .steady (shiftTail x.shift) (variableTail expr) (variableTail expr') :=
    (variableTail_along hexpr).cover trivial
  exact htail.bind fun tail => .pure rfl

end Variables

namespace Section

/-- A section with its first values moved up. -/
def shift (k : Nat) : Section → Section
  | .enums decls => .enums decls
  | .variables decls => .variables (decls.map (VarDecl.shift k))

theorem statements_shift (k : Nat) (announced : Section) :
    (announced.shift k).statements = announced.statements.map (Stmt.shift k) := by
  cases announced with
  | enums decls => simp [shift, statements, Stmt.shift]
  | «variables» decls => simp [shift, statements, Stmt.shift]

@[simp] theorem enumDecls_shift (k : Nat) (announced : Section) :
    (announced.shift k).enumDecls = announced.enumDecls := by
  cases announced <;> rfl

@[simp] theorem fields_shift (k : Nat) (announced : Section) :
    (announced.shift k).fields = announced.fields := by
  cases announced <;> simp [shift, fields, VarDecl.shift]

end Section

theorem sections_along (hx : x.Apart)
    (hexpr : Along x false .unsure (Expr.shift x.shift) expr expr') {fuel fuel' : Nat}
    (hfuel : fuel ≤ fuel') :
    Along x false .steady (List.map (Section.shift x.shift)) (sections expr fuel)
      (sections expr' fuel') := by
  refine collect_along ?_ ?_ fuel fuel' hfuel
  · exact (atKeyword_along _).bind fun _ => (atKeyword_along _).bind fun _ => .pure rfl
  · refine (acceptKeyword_along _).branch ?_ (Along.advance.after ?_)
    · have henums : Along x false .steady id (enumSection fuel) (enumSection fuel') :=
        enumSection_along Bool.noConfusion hfuel
      exact henums.bind fun decls => .pure rfl
    · exact (variableSection_along hexpr hx hfuel).bind fun decls => .pure rfl

theorem params_along {fuel fuel' : Nat} (hfuel : fuel ≤ fuel') :
    Along x false .steady id (params fuel) (params fuel') := by
  have hparam : Along x false .steady id param param := by
    refine (expectName_along _).bind fun name => ?_
    refine (acceptSymbol_along _).branch ?_ (.pure rfl)
    exact (expectName_along _).bind fun typeName => .pure rfl
  have hclose (list : List Param) : Along x false .steady id
      (do
        discard <| expectSymbol .rightParen .paramClose
        return list)
      (do
        discard <| expectSymbol .rightParen .paramClose
        return list) := (expectSymbol_along _ _).after (.pure rfl)
  refine (acceptSymbol_along _).branch ?_ (.pure rfl)
  refine (atSymbol_along _).branch (hclose []) ?_
  refine (separated_along hparam hparam (acceptSymbol_along _) fuel fuel' hfuel).bind
    fun list => ?_
  rw [List.map_id]
  exact hclose list

theorem resultType_along (kind : FunctionKind) :
    Along x false .steady id (resultType kind) (resultType kind) := by
  refine (acceptSymbol_along _).branch ?_ (.pure rfl)
  split
  · exact .fail _
  · exact (expectName_along _).bind fun name => .pure rfl

/-! ## Statements around expressions -/

/-- Nested statements read the same in front of more text. -/
structure NestedAlong (x : Extension) (nested nested' : Nested) : Prop where
  statement : ∀ inLoop, Along x true .unsure (Stmt.shift x.shift) (nested.statement inLoop)
    (nested'.statement inLoop)
  declaration : ∀ inLoop, Along x false .unsure (Stmt.shiftList x.shift)
    (nested.declaration inLoop) (nested'.declaration inLoop)

theorem Stmt.shiftList_flatten (k : Nat) (items : List (List Stmt)) :
    Stmt.shiftList k items.flatten = (items.map (Stmt.shiftList k)).flatten := by
  simp only [Stmt.shiftList_eq_map, List.map_flatten]
  exact congrArg _ (List.map_congr_left fun item _ => (Stmt.shiftList_eq_map k item).symm)

theorem declarationItem_from {tail : Bool} {decl decl' : Parse (List Stmt)} {c c' : Cursor}
    (hc : c.Beside x .unsure c')
    (hdecl : AlongFrom x tail .unsure (Stmt.shiftList x.shift) decl decl' c c') :
    AlongFrom x tail .unsure (Stmt.shiftList x.shift) (declarationItem decl)
      (declarationItem decl') c c' :=
  Along.ifAccept_from (acceptSymbol_run .semicolon) symbol?_ne_of_ends
    (fun _ h => absurd trivial h) hc (.pure rfl) hdecl

theorem openTest_along (close : Keyword) : Along x false .steady id
    (do return !(← atKeyword close) && !(← atEnd)) (do return !(← atKeyword close) && !(← atEnd)) :=
  (atKeyword_along _).bind fun _ => Along.atEnd.bind fun _ => .pure rfl

theorem declarations_along {decl decl' : Parse (List Stmt)}
    (hdecl : Along x false .unsure (Stmt.shiftList x.shift) decl decl') (close : Keyword)
    {fuel fuel' : Nat} (hfuel : fuel ≤ fuel') :
    Along x false .steady (Stmt.shiftList x.shift) (declarations decl close fuel)
      (declarations decl' close fuel') := by
  have hitem : Along x false .unsure (Stmt.shiftList x.shift) (declarationItem decl)
      (declarationItem decl') := fun c c' hc => declarationItem_from hc (hdecl c c' hc)
  refine (collect_along (openTest_along close) (hitem.cover trivial) fuel fuel' hfuel).bind
    fun items => .pure ?_
  rw [Stmt.shiftList_flatten]

section Expressions

variable (hexpr : Along x false .unsure (Expr.shift x.shift) expr expr')
include hexpr

theorem expressionStatement_along :
    Along x true .unsure (Stmt.shift x.shift) (expressionStatement expr)
      (expressionStatement expr') := by
  refine hexpr.before fun value => (expectSymbol_along _ _).after (.pure ?_)
  rw [Stmt.shift]

theorem forInitial_along :
    Along x false .steady (Option.map (Stmt.shift x.shift)) (forInitial expr)
      (forInitial expr') := by
  refine (acceptSymbol_along _).branch (.pure rfl) ?_
  refine (acceptKeyword_along _).branch ?_ ?_
  · refine (loopVariable_along hexpr).bind fun decl => .pure ?_
    rw [Option.map_some, Stmt.shift]
  · exact ((expressionStatement_along hexpr).inner.cover trivial).bind fun statement => .pure rfl

theorem optional_along {closed : Parse Bool} (hclosed : Along x false .steady id closed closed) :
    Along x false .steady (Option.map (Expr.shift x.shift)) (optional closed expr)
      (optional closed expr') :=
  hclosed.branch (.pure rfl) ((hexpr.cover trivial).bind fun _ => .pure rfl)

theorem printStatement_along :
    Along x true .steady (Stmt.shift x.shift) (printStatement expr) (printStatement expr') := by
  refine Along.previous.bind fun keyword => (hexpr.cover trivial).before fun value => ?_
  exact (expectSymbol_along _ _).after (.pure (by rw [Stmt.shift]; rfl))

theorem resultValue_along :
    Along x true .steady (Option.map (Expr.shift x.shift)) (resultValue expr)
      (resultValue expr') :=
  (optional_along hexpr (atSymbol_along _)).before fun _ =>
    (expectSymbol_along _ _).after (.pure rfl)

theorem exitStatement_along :
    Along x true .steady (Stmt.shift x.shift) (exitStatement expr) (exitStatement expr') := by
  refine Along.previous.bind fun keyword => ?_
  exact (resultValue_along hexpr).bind fun value => .pure (by rw [Stmt.shift]; rfl)

theorem raiseStatement_along :
    Along x true .steady (Stmt.shift x.shift) (raiseStatement expr) (raiseStatement expr') := by
  refine Along.previous.bind fun keyword => ?_
  exact (resultValue_along hexpr).bind fun value => .pure (by rw [Stmt.shift]; rfl)

end Expressions

theorem breakStatement_along (inLoop : Bool) :
    Along x true .steady (Stmt.shift x.shift) (breakStatement inLoop) (breakStatement inLoop) := by
  have hbreak (keyword : Token) : Along x true .steady (Stmt.shift x.shift)
      (do
        discard <| expectSymbol .semicolon .breakSemicolon
        return .break keyword)
      (do
        discard <| expectSymbol .semicolon .breakSemicolon
        return .break keyword) :=
    (expectSymbol_along _ _).after (.pure (by rw [Stmt.shift]))
  refine Along.previous.bind fun keyword => ?_
  cases inLoop with
  | true => exact hbreak keyword
  | false => exact (Along.report _).bind fun _ => hbreak keyword

/-! ## Statements around statements -/

section Nested

variable {nested nested' : Nested} (hx : x.Apart) (hnested : NestedAlong x nested nested')
  (hexpr : Along x false .unsure (Expr.shift x.shift) expr expr')

section Loops

include hnested hexpr

theorem forStatement_along :
    Along x true .steady (Stmt.shift x.shift) (forStatement nested expr)
      (forStatement nested' expr') := by
  refine (forInitial_along hexpr).before fun initial => ?_
  refine (optional_along hexpr (atSymbol_along _)).before_taking fun condition => ?_
  refine (expectSymbol_along _ _).after ?_
  refine (optional_along hexpr (atKeyword_along _)).before fun increment => ?_
  refine (expectKeyword_along _ _).after ?_
  refine ((hnested.statement true).cover trivial).bind fun body => .pure ?_
  rw [Stmt.shift_lowerFor]

theorem whileStatement_along :
    Along x true .steady (Stmt.shift x.shift) (whileStatement nested expr)
      (whileStatement nested' expr') := by
  refine (hexpr.cover trivial).before fun condition => (expectKeyword_along _ _).after ?_
  exact ((hnested.statement true).cover trivial).bind fun body => .pure (by rw [Stmt.shift])

include hx in
theorem ifStatement_along (inLoop : Bool) :
    Along x true .steady (Stmt.shift x.shift) (ifStatement nested inLoop expr)
      (ifStatement nested' inLoop expr') := by
  refine (hexpr.cover trivial).before fun condition => (expectKeyword_along _ _).after ?_
  refine ((hnested.statement inLoop).cover trivial).bind fun thenBranch => ?_
  refine .ifKeyword (fun _ _ => hx.not_else) ?_ (.pure (by rw [Stmt.shift]))
  exact ((hnested.statement inLoop).cover trivial).bind fun elseBranch =>
    .pure (by rw [Stmt.shift])

end Loops

theorem atHandler_along : Along x false .steady id atHandler atHandler :=
  Along.peek.bind fun _ => .pure rfl

include hnested

theorem handler_along (inLoop : Bool) :
    Along x false .steady (Handler.shift x.shift) (handler nested inLoop)
      (handler nested' inLoop) := by
  refine Along.advance.after ((expectName_along _).bind fun name => ?_)
  have hbody (typeName : Option String) : Along x false .steady (Handler.shift x.shift)
      (do
        discard <| expectKeyword .do .handlerDo
        let body ← nested.statement inLoop
        return { name, typeName, body })
      (do
        discard <| expectKeyword .do .handlerDo
        let body ← nested'.statement inLoop
        return { name, typeName, body }) := by
    refine (expectKeyword_along _ _).after ?_
    exact ((hnested.statement inLoop).inner.cover trivial).bind fun body => .pure rfl
  refine (acceptSymbol_along _).branch ?_ (hbody none)
  have htype : Along x false .steady id
      (do
        let token ← expectName .typeName
        return some token.lexeme)
      (do
        let token ← expectName .typeName
        return some token.lexeme) := (expectName_along _).bind fun _ => .pure rfl
  exact htype.bind hbody

theorem tryStatement_along (inLoop : Bool) {fuel fuel' : Nat} (hfuel : fuel ≤ fuel') :
    Along x true .steady (Stmt.shift x.shift) (tryStatement nested inLoop fuel)
      (tryStatement nested' inLoop fuel') := by
  have hdecl := hnested.declaration inLoop
  refine Along.previous.bind fun keyword => ?_
  refine (declarations_along hdecl .except hfuel).before fun body => ?_
  refine (expectKeyword_along _ _).after ?_
  refine (collect_along atHandler_along (handler_along hnested inLoop) fuel fuel' hfuel).before
    fun handlers => ?_
  refine (declarations_along hdecl .end hfuel).before_taking fun otherwise => ?_
  refine (expectKeyword_along _ _).after (.pure ?_)
  rw [Stmt.shift, Stmt.shiftHandlers_eq_map]
  rfl

theorem blockStatement_along (inLoop : Bool) {fuel fuel' : Nat} (hfuel : fuel ≤ fuel') :
    Along x true .steady (Stmt.shift x.shift) (blockStatement nested inLoop fuel)
      (blockStatement nested' inLoop fuel') := by
  refine (declarations_along (hnested.declaration inLoop) .end hfuel).before fun body => ?_
  exact (expectKeyword_along _ _).after (.pure (by rw [Stmt.shift]))

/-! ## Choices -/

omit hnested in
include hexpr in
theorem caseLabel_along (subject : Expr) :
    Along x false .unsure (Expr.shift x.shift) (caseLabel expr subject)
      (caseLabel expr' (subject.shift x.shift)) := by
  refine hexpr.bind fun label => Along.previous.bind fun place => .pure ?_
  rw [Expr.shift]
  rfl

omit hnested in
include hexpr in
theorem caseLabels_along (subject : Expr) (fuel fuel' : Nat) (hfuel : fuel ≤ fuel')
    (condition : Expr) :
    Along x false .steady (Expr.shift x.shift) (caseLabels expr subject fuel condition)
      (caseLabels expr' (subject.shift x.shift) fuel' (condition.shift x.shift)) := by
  induction fuel generalizing fuel' condition with
  | zero => exact .starve
  | succ fuel ih =>
      rcases exists_succ_of_lt hfuel with ⟨fuel', rfl, hless⟩
      refine (acceptSymbol_along _).branch ?_ (.pure rfl)
      refine Along.previous.bind fun place => ?_
      refine ((caseLabel_along hexpr subject).cover trivial).bind fun additional => ?_
      have hnext := ih fuel' hless
        (.logical condition .or (.synthetic (.keyword .or) "or" place) additional)
      rw [Expr.shift] at hnext
      exact hnext

def shiftArms (k : Nat) (arms : List (Expr × Stmt) × Option Stmt) :
    List (Expr × Stmt) × Option Stmt :=
  (arms.1.map fun arm => (arm.1.shift k, arm.2.shift k), arms.2.map (Stmt.shift k))

include hexpr in
theorem caseArms_along (inLoop : Bool) (subject : Expr) (fuel fuel' : Nat)
    (hfuel : fuel ≤ fuel') :
    Along x true .unsure (shiftArms x.shift) (caseArms nested inLoop expr subject fuel)
      (caseArms nested' inLoop expr' (subject.shift x.shift) fuel') := by
  induction fuel generalizing fuel' with
  | zero => exact .starve
  | succ fuel ih =>
      rcases exists_succ_of_lt hfuel with ⟨fuel', rfl, hless⟩
      have hstatement : Along x false .unsure (Stmt.shift x.shift) (nested.statement inLoop)
          (nested'.statement inLoop) := (hnested.statement inLoop).inner
      have hmark := (acceptSymbol_along (x := x) .semicolon).discard
      refine (caseLabel_along hexpr subject).before fun label => ?_
      refine (caseLabels_along hexpr subject fuel fuel' hless label).before_taking
        fun condition => ?_
      refine (expectSymbol_along _ _).after ?_
      refine (hstatement.cover trivial).before fun body => hmark.before_taking fun _ => ?_
      refine .ifKeyword (fun _ h => absurd trivial h) (.pure rfl) ?_
      refine .ifKeyword (fun _ h => absurd trivial h) ?_ ?_
      · refine (hstatement.cover trivial).before fun otherwise => hmark.before_taking fun _ => ?_
        exact (expectKeyword_along _ _).after (.pure rfl)
      · refine Along.atEnd.before_taking fun ended => ?_
        cases ended with
        | true => exact .fail _
        | false => exact ((ih fuel' hless).cover trivial).bind fun arms => .pure rfl

include hexpr in
theorem caseStatement_along (inLoop : Bool) {fuel fuel' : Nat} (hfuel : fuel ≤ fuel') :
    Along x true .steady (Stmt.shift x.shift) (caseStatement nested inLoop expr fuel)
      (caseStatement nested' inLoop expr' fuel') := by
  refine (hexpr.cover trivial).before fun subject => (expectKeyword_along _ _).after ?_
  refine ((caseArms_along hnested hexpr inLoop subject fuel fuel' hfuel).cover trivial).bind
    fun arms => ?_
  rcases arms with ⟨arms, otherwise⟩
  have hlower := Stmt.shift_lowerCase x.shift arms otherwise
  dsimp only [shiftArms]
  rw [← hlower]
  cases Stmt.lowerCase arms otherwise with
  | some statement => exact .pure rfl
  | none => exact Along.previous.bind fun token => .failAt _ _

include hx hexpr in
theorem statement_along {fuel fuel' : Nat} (hfuel : fuel ≤ fuel') (inLoop : Bool) :
    Along x true .unsure (Stmt.shift x.shift) (statement nested expr fuel inLoop)
      (statement nested' expr' fuel' inLoop) := by
  have hexpression := expressionStatement_along hexpr
  refine .front (fun token => ?_) fun token hkind => ?_
  · split
    · exact Along.advance_facing.after (forStatement_along hnested hexpr)
    · exact Along.advance_facing.after (breakStatement_along inLoop)
    · exact Along.advance_facing.after (ifStatement_along hx hnested hexpr inLoop)
    · exact Along.advance_facing.after (tryStatement_along hnested inLoop hfuel)
    · exact Along.advance_facing.after (caseStatement_along hnested hexpr inLoop hfuel)
    · exact Along.advance_facing.after (printStatement_along hexpr)
    · exact Along.advance_facing.after (exitStatement_along hexpr)
    · exact Along.advance_facing.after (raiseStatement_along hexpr)
    · exact Along.advance_facing.after (whileStatement_along hnested hexpr)
    · exact Along.advance_facing.after (blockStatement_along hnested inLoop hfuel)
    · exact hexpression.cover trivial
  · have hword : token.keyword? = none := by simp [Token.keyword?, hkind]
    rw [hword]
    exact hexpression

/-! ## Functions and classes -/

include hx hexpr in
theorem function_along (inLoop : Bool) {fuel fuel' : Nat} (hfuel : fuel ≤ fuel')
    (kind : FunctionKind) :
    Along x true .steady (Function.shift x.shift) (function nested inLoop expr fuel kind)
      (function nested' inLoop expr' fuel' kind) := by
  refine (expectName_along _).bind fun name => (params_along hfuel).before fun parameters => ?_
  refine (resultType_along kind).before_taking fun returnType => (expectSymbol_along _ _).after ?_
  refine (sections_along hx hexpr hfuel).before fun announced => (expectKeyword_along _ _).after ?_
  refine (declarations_along (hnested.declaration inLoop) .end hfuel).before fun body => ?_
  refine (expectKeyword_along _ _).after (.pure ?_)
  have hannounced : (announced.map (Section.shift x.shift)).flatMap Section.statements =
      (announced.flatMap Section.statements).map (Stmt.shift x.shift) := by
    simp only [List.flatMap_map, List.map_flatMap, Section.statements_shift]
  simp only [Function.shift, hannounced, Stmt.shiftList_eq_map, List.map_append, id]

include hx hexpr in
theorem method_along (inLoop : Bool) {fuel fuel' : Nat} (hfuel : fuel ≤ fuel') :
    Along x false .steady (Function.shift x.shift) (method nested inLoop expr fuel)
      (method nested' inLoop expr' fuel') := by
  have hkind : Along x false .steady id methodKind methodKind := by
    refine (acceptKeyword_along _).branch (.pure rfl) ?_
    refine (acceptKeyword_along _).branch (.pure rfl) ?_
    exact (acceptKeyword_along _).branch (.pure rfl) (.pure rfl)
  refine hkind.bind fun kind => ?_
  refine (function_along hx hnested hexpr inLoop hfuel kind).inner.bind fun decl => ?_
  exact (acceptSymbol_along _).after (.pure rfl)

include hx hexpr in
theorem classDecl_along (inLoop : Bool) {fuel fuel' : Nat} (hfuel : fuel ≤ fuel') :
    Along x true .steady (ClassDecl.shift x.shift) (classDecl nested inLoop expr fuel)
      (classDecl nested' inLoop expr' fuel') := by
  have hparent : Along x false .steady (Option.map (Superclass.shift x.shift)) superclass
      superclass := by
    refine (acceptSymbol_along _).branch ?_ (.pure rfl)
    refine (expectName_along _).bind fun name => (expectSymbol_along _ _).after ?_
    exact Along.freshId.bind fun id => .pure rfl
  refine (expectName_along _).bind fun name => hparent.before fun parent => ?_
  refine (expectSymbol_along _ _).after ?_
  refine (sections_along hx hexpr hfuel).before fun announced => (expectKeyword_along _ _).after ?_
  refine (collect_along (openTest_along .end) (method_along hx hnested hexpr inLoop hfuel) fuel
    fuel' hfuel).before fun methods => (expectKeyword_along _ _).after (.pure ?_)
  simp [ClassDecl.shift, List.flatMap_map]

omit hnested in
theorem usesDecl_along : Along x true .steady (Stmt.shift x.shift) usesDecl usesDecl := by
  refine Along.previous.bind fun keyword => (expectName_along _).bind fun name => ?_
  exact (expectSymbol_along _ _).after (.pure (by rw [Stmt.shift]; rfl))

include hx hexpr in
/-- A declaration, where a `type` section at the end of the text is not followed by a name. -/
theorem declaration_from {tail : Bool} {here here' : Bool → Parse Stmt} {inLoop : Bool}
    (hhere : Along x true .unsure (Stmt.shift x.shift) (here inLoop) (here' inLoop))
    {fuel fuel' : Nat} (hfuel : fuel ≤ fuel') {c c' : Cursor} (hc : c.Beside x .unsure c')
    (htype : tail = true → c.peek.keyword? = some .type →
      (x.more.headD x.last).isIdentifier = false) :
    AlongFrom x tail .unsure (Stmt.shiftList x.shift)
      (declaration nested here expr fuel inLoop)
      (declaration nested' here' expr' fuel' inLoop) c c' := by
  have hfunction (kind : FunctionKind) : Along x tail .steady (Stmt.shiftList x.shift)
      (do
        let decl ← function nested inLoop expr fuel kind
        return [.function decl])
      (do
        let decl ← function nested' inLoop expr' fuel' kind
        return [.function decl]) := by
    refine (function_along hx hnested hexpr inLoop hfuel kind).inner.bind fun decl => .pure ?_
    rw [Stmt.shiftList, Stmt.shiftList, Stmt.shift_function]
  have hsingle : Along x tail .unsure (Stmt.shiftList x.shift)
      (do
        let single ← here inLoop
        return [single])
      (do
        let single ← here' inLoop
        return [single]) := hhere.inner.bind fun _ => .pure rfl
  refine Along.front_from hc ?_ fun hkind => ?_
  · split
    · exact Along.advance_facing.after (usesDecl_along.inner.bind fun _ => .pure rfl)
    · refine Along.advance_facing.after ?_
      refine (classDecl_along hx hnested hexpr inLoop hfuel).inner.bind fun decl => .pure ?_
      rw [Stmt.shiftList, Stmt.shiftList, Stmt.shift_classDecl]
    · exact Along.advance_facing.after (hfunction .function)
    · exact Along.advance_facing.after (hfunction .procedure)
    · refine Along.advance_facing.after ?_
      refine (variableSection_along hexpr hx hfuel).bind fun decls => .pure ?_
      simp [Stmt.shiftList_eq_map, Stmt.shift]
    · next hword =>
        refine Along.advance_facing.after ?_
        refine (enumSection_along (fun htail => htype htail hword) hfuel).bind fun decls =>
          .pure ?_
        simp [Stmt.shiftList_eq_map, Stmt.shift]
    · exact hsingle.cover trivial
  · have hword : c.peek.keyword? = none := by simp [Token.keyword?, hkind]
    rw [hword]
    exact hsingle

end Nested

theorem recover_eq_ok_iff {p : Parse (List Stmt)} {c d : Cursor} {list : List Stmt} :
    recover .strict p c = .ok list d ↔ p c = .ok list d := by
  unfold recover
  rcases p c with ⟨list', d'⟩ | ⟨_ | _, d'⟩ <;> simp

theorem recover_from {tail : Bool} {footing : Footing} {f : List Stmt → List Stmt}
    {p q : Parse (List Stmt)} {c c' : Cursor} (h : AlongFrom x tail footing f p q c c') :
    AlongFrom x tail footing f (recover .strict p) (recover .strict q) c c' := by
  intro list d hrun
  rcases h list d (recover_eq_ok_iff.mp hrun) with ⟨hcd, hrest⟩
  exact ⟨hcd, fun hend => (hrest hend).imp fun d' hd => ⟨recover_eq_ok_iff.mpr hd.1, hd.2⟩⟩

end Parse

theorem grammar_along {x : Extension} (hx : x.Apart) (fuel fuel' : Nat) (hfuel : fuel ≤ fuel') :
    Parse.NestedAlong x (grammar .strict fuel) (grammar .strict fuel') := by
  induction fuel generalizing fuel' with
  | zero => exact ⟨fun _ => .starve, fun _ => .starve⟩
  | succ fuel ih =>
      rcases Parse.exists_succ_of_lt hfuel with ⟨fuel', rfl, hless⟩
      have hnested := ih fuel' hless
      have hexpr := Parse.expression_along (x := x) (fuel + 1) (fuel' + 1) hfuel
      have hhere (inLoop : Bool) := Parse.statement_along hx hnested hexpr hfuel inLoop
      exact ⟨hhere, fun inLoop c c' hc => Parse.recover_from <|
        Parse.declaration_from hx hnested hexpr (hhere inLoop) hfuel hc nofun⟩

def Parse.programItem (fuel : Nat) : Parse (List Stmt) :=
  declarationItem ((grammar .strict fuel).declaration false)

/-- Items of a program, where a `type` section at the end of the text is not followed by a name. -/
theorem Parse.programItem_from {x : Extension} (hx : x.Apart) (tail : Bool) {fuel fuel' : Nat}
    (hfuel : fuel ≤ fuel') {c c' : Cursor} (hc : c.Beside x .unsure c')
    (htype : tail = true → c.peek.keyword? = some .type →
      (x.more.headD x.last).isIdentifier = false) :
    AlongFrom x tail .unsure (Stmt.shiftList x.shift) (programItem fuel) (programItem fuel')
      c c' := by
  refine declarationItem_from hc ?_
  cases fuel with
  | zero => exact Along.starve c c' hc
  | succ fuel =>
      rcases exists_succ_of_lt hfuel with ⟨fuel', rfl, hless⟩
      have hnested := grammar_along hx fuel fuel' hless
      have hexpr := expression_along (x := x) (fuel + 1) (fuel' + 1) hfuel
      exact recover_from <| declaration_from hx hnested hexpr
        (statement_along hx hnested hexpr hfuel false) hfuel hc htype

end MiniPascal
