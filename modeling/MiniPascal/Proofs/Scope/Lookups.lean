import MiniPascal.Proofs.Scope.ProgramDistances

/-!
# The look-ups of the resolver

The resolver looks up the distance of a name for each mention that it comes to, in the scopes that
it has at that moment.  Here are its look-ups in order, and the references they are made for: each
finds the distance of its reference, unless the reference is the name of a local variable in the
first value of that variable, which is looked up behind the declaration.
-/

namespace MiniPascal

/-- A look-up of the distance of a name for a node. -/
structure NameLookup where
  id : NodeId
  name : String
  distance? : Option Nat
deriving DecidableEq, Repr

def NameLookup.record (locals : Locals) (l : NameLookup) : Locals :=
  match l.distance? with
  | some distance => locals.insert l.id distance
  | none => locals

namespace NameLookup

theorem getElem?_record (locals : Locals) (l : NameLookup) (id : NodeId) :
    (record locals l)[id]? = if l.id = id then l.distance?.or locals[id]? else locals[id]? := by
  unfold record
  cases l.distance? with
  | none => simp
  | some d => simp only [Resolution.getElem?_locals_insert, Option.some_or]

/-- Look-ups for a number that all find one distance keep that distance. -/
theorem getElem?_foldl_record_of_eq {id : NodeId} {distance? : Option Nat}
    {log : List NameLookup} (h : ∀ l ∈ log, l.id = id → l.distance? = distance?) {locals : Locals}
    (hlocals : locals[id]? = distance?) : (log.foldl record locals)[id]? = distance? := by
  induction log generalizing locals with
  | nil => exact hlocals
  | cons l rest ih =>
      refine ih (fun other hother => h other (List.mem_cons_of_mem _ hother)) ?_
      rw [getElem?_record]
      split
      · next hid => rw [h l List.mem_cons_self hid, hlocals, Option.or_self]
      · exact hlocals

/-- The distance that all look-ups for a number find is recorded. -/
theorem getElem?_foldl_record {id : NodeId} {distance? : Option Nat} {log : List NameLookup}
    (h : ∀ l ∈ log, l.id = id → l.distance? = distance?) (hmem : ∃ l ∈ log, l.id = id)
    {locals : Locals} (hlocals : locals[id]? = none) :
    (log.foldl record locals)[id]? = distance? := by
  induction log generalizing locals with
  | nil =>
      rcases hmem with ⟨l, hl, -⟩
      cases hl
  | cons l rest ih =>
      have hrest : ∀ l ∈ rest, l.id = id → l.distance? = distance? :=
        fun other hother => h other (List.mem_cons_of_mem _ hother)
      rw [List.foldl_cons]
      by_cases hid : l.id = id
      · refine getElem?_foldl_record_of_eq hrest ?_
        rw [getElem?_record, if_pos hid, hlocals, Option.or_none, h l List.mem_cons_self hid]
      · refine ih hrest ?_ ?_
        · rcases hmem with ⟨other, hother, hsame⟩
          rcases List.mem_cons.mp hother with rfl | hother
          · exact absurd hsame hid
          · exact ⟨other, hother, hsame⟩
        · rw [getElem?_record, if_neg hid, hlocals]

/-- A distance that is recorded in the end was there before, or a look-up has found it. -/
theorem exists_of_getElem?_foldl_record {id : NodeId} {d : Nat} {log : List NameLookup}
    {locals : Locals} (h : (log.foldl record locals)[id]? = some d) :
    locals[id]? = some d ∨ ∃ l ∈ log, l.id = id ∧ l.distance? = some d := by
  induction log generalizing locals with
  | nil => exact .inl h
  | cons l rest ih =>
      rcases ih h with hfirst | ⟨other, hother, hrest⟩
      · rw [getElem?_record] at hfirst
        split at hfirst
        · next hid =>
            rcases Option.or_eq_some_iff.mp hfirst with hfound | ⟨-, hbefore⟩
            · exact .inr ⟨l, List.mem_cons_self, hid, hfound⟩
            · exact .inl hbefore
        · exact .inl hfirst
      · exact .inr ⟨other, List.mem_cons_of_mem _ hother, hrest⟩

end NameLookup

namespace Resolution

/-- The look-up of a name. -/
def lookUp (r : Resolution) (id : NodeId) (name : String) : NameLookup where
  id
  name
  distance? := distance? r.scopes name

/-! ## The look-ups of a program -/

mutual

def exprLookups (site : Site) : Expr → Resolution → List NameLookup
  | .literal _, _ => []
  | .unary _ _ operand, r => exprLookups site operand r
  | .binary left _ _ right, r =>
      exprLookups site left r ++ exprLookups site right (expr site left r)
  | .logical left _ _ right, r =>
      exprLookups site left r ++ exprLookups site right (expr site left r)
  | .grouping inner, r => exprLookups site inner r
  | .variable id name, r => [r.lookUp id name.lexeme]
  | .assign id name value, r =>
      exprLookups site value r ++ [(expr site value r).lookUp id name.lexeme]
  | .call callee _ arguments, r =>
      exprLookups site callee r ++ exprsLookups site arguments (expr site callee r)
  | .get object _, r => exprLookups site object r
  | .set object _ value, r =>
      exprLookups site value r ++ exprLookups site object (expr site value r)
  | .subscript _ object index, r =>
      exprLookups site object r ++ exprLookups site index (expr site object r)
  | .map _ items, r => entriesLookups site items r
  | .this id _, r =>
      match site.enclosing with
      | .outside => []
      | _ => [r.lookUp id "this"]
  | .super id _ _, r => [r.lookUp id "super"]
  | .cast inner _, r => exprLookups site inner r

def exprsLookups (site : Site) : List Expr → Resolution → List NameLookup
  | [], _ => []
  | e :: rest, r => exprLookups site e r ++ exprsLookups site rest (expr site e r)

def entriesLookups (site : Site) : List (Expr × Expr) → Resolution → List NameLookup
  | [], _ => []
  | (key, value) :: rest, r =>
      exprLookups site key r ++ exprLookups site value (expr site key r) ++
        entriesLookups site rest (expr site value (expr site key r))

end

def optionalLookups (site : Site) (value : Option Expr) (r : Resolution) : List NameLookup :=
  match value with
  | some e => exprLookups site e r
  | none => []

/-- The look-up of the superclass of a class. -/
def parentLookups (name : Token) (superclass : Option Superclass) (enums : List EnumDecl)
    (r : Resolution) : List NameLookup :=
  match superclass with
  | some parent =>
      [((enums.foldl (fun r decl => enumDecl decl r) r).introduce name .class).lookUp parent.id
        parent.name.lexeme]
  | none => []

mutual

def stmtLookups (site : Site) : Stmt → Resolution → List NameLookup
  | .block body, r => stmtsLookups site body r.enter
  | .classDecl ⟨name, superclass, _, enums, classMethods⟩, r =>
      parentLookups name superclass enums r ++
        methodsLookups (insideClass site superclass) classMethods
          (enterClass name superclass enums r)
  | .function ⟨_, name, parameters, _, body⟩, r =>
      stmtsLookups { site with function := .function } body
        (params parameters (r.introduce name .function).enter)
  | .ifThen condition thenBranch none, r =>
      exprLookups site condition r ++ stmtLookups site thenBranch (expr site condition r)
  | .ifThen condition thenBranch (some elseBranch), r =>
      exprLookups site condition r ++ stmtLookups site thenBranch (expr site condition r) ++
        stmtLookups site elseBranch (stmt site thenBranch (expr site condition r))
  | .while condition body, r =>
      exprLookups site condition r ++ stmtLookups site body (expr site condition r)
  | .try _ body handlerList otherwise, r =>
      stmtsLookups site body r.enter ++
        handlersLookups site handlerList (stmts site body r.enter).leave ++
        stmtsLookups site otherwise
          (handlers site handlerList (stmts site body r.enter).leave).enter
  | .print _ value, r => exprLookups site value r
  | .exit keyword value, r => optionalLookups site value (exitSite site keyword value r)
  | .raise _ value, r => optionalLookups site value r
  | .var decl, r => optionalLookups site decl.initial (r.declare decl.name .variable)
  | .expression value, r => exprLookups site value r
  | .enumDecl _, _ | .break _, _ | .uses _ _, _ => []

def stmtsLookups (site : Site) : List Stmt → Resolution → List NameLookup
  | [], _ => []
  | s :: rest, r => stmtLookups site s r ++ stmtsLookups site rest (stmt site s r)

def methodsLookups (site : Site) : List Function → Resolution → List NameLookup
  | [], _ => []
  | ⟨_, name, parameters, _, body⟩ :: rest, r =>
      stmtsLookups (insideMethod site name) body (params parameters r.enter) ++
        methodsLookups site rest
          (stmts (insideMethod site name) body (params parameters r.enter)).leave

def handlersLookups (site : Site) : List (Handler Stmt) → Resolution → List NameLookup
  | [], _ => []
  | ⟨name, _, body⟩ :: rest, r =>
      stmtLookups site body (r.enter.introduce name .handler) ++
        handlersLookups site rest (stmt site body (r.enter.introduce name .handler)).leave

end

def programLookups (statements : List Stmt) : List NameLookup :=
  stmtsLookups .top statements start

/-! ## Expressions -/

/-- The resolver goes from `r` to `r'` with some look-ups, each of a mention. -/
structure Looks (log : List NameLookup) (ms : List Mention) (r r' : Resolution) : Prop where
  scopes : r'.scopes = r.scopes
  locals : r'.locals = log.foldl NameLookup.record r.locals
  mentioned : ∀ l ∈ log, ∃ m ∈ ms, l = r.lookUp m.id m.name ∧
    (m.use = .receiver → ¬Declarable m.name)

namespace Looks

variable {site : Site} {log more : List NameLookup} {ms ns : List Mention} {r r' r'' : Resolution}

theorem refl (r : Resolution) : Looks [] [] r r :=
  ⟨rfl, rfl, fun l hl => by cases hl⟩

theorem lookUp_of_scopes (h : r'.scopes = r.scopes) (id : NodeId) (name : String) :
    r'.lookUp id name = r.lookUp id name := by
  rw [lookUp, lookUp, h]

theorem trans (h : Looks log ms r r') (h' : Looks more ns r' r'') :
    Looks (log ++ more) (ms ++ ns) r r'' := by
  refine ⟨h'.scopes.trans h.scopes, ?_, ?_⟩
  · rw [h'.locals, h.locals, List.foldl_append]
  · intro l hl
    rcases List.mem_append.mp hl with hl | hl
    · rcases h.mentioned l hl with ⟨m, hm, hlook, huse⟩
      exact ⟨m, List.mem_append_left _ hm, hlook, huse⟩
    · rcases h'.mentioned l hl with ⟨m, hm, hlook, huse⟩
      exact ⟨m, List.mem_append_right _ hm, hlook.trans (lookUp_of_scopes h.scopes _ _), huse⟩

theorem congr (h : Looks log ms r r') (hsame : ∀ m ∈ ms, m ∈ ns) : Looks log ns r r' := by
  refine ⟨h.scopes, h.locals, fun l hl => ?_⟩
  rcases h.mentioned l hl with ⟨m, hm, hrest⟩
  exact ⟨m, hsame m hm, hrest⟩

theorem single {checked : Resolution} {id : NodeId} {name : String} (use : Use)
    (hscopes : checked.scopes = r.scopes) (hlocals : checked.locals = r.locals)
    (huse : use = .receiver → ¬Declarable name) :
    Looks [r.lookUp id name] [⟨id, name, use⟩] r (checked.resolve id name) := by
  refine ⟨scopes_resolve.trans hscopes, ?_, ?_⟩
  · rw [List.foldl_cons, List.foldl_nil, NameLookup.record, lookUp, ← hlocals, ← hscopes]
    unfold resolve
    cases distance? checked.scopes name <;> rfl
  · intro l hl
    exact ⟨_, List.mem_singleton_self _, List.mem_singleton.mp hl, huse⟩

end Looks

mutual

theorem expr_looks (site : Site) :
    ∀ (e : Expr) (r : Resolution), Looks (exprLookups site e r) e.mentions r (expr site e r)
  | .literal _, r => .refl r
  | .unary _ _ operand, r => expr_looks site operand r
  | .binary left _ _ right, r => (expr_looks site left r).trans (expr_looks site right _)
  | .logical left _ _ right, r => (expr_looks site left r).trans (expr_looks site right _)
  | .grouping inner, r => expr_looks site inner r
  | .variable id name, r => by
      refine .single .read ?_ ?_ fun huse => by cases huse
      · split <;> rfl
      · split <;> rfl
  | .assign id name value, r =>
      (expr_looks site value r).trans (.single .write rfl rfl fun huse => by cases huse)
  | .call callee _ arguments, r =>
      (expr_looks site callee r).trans (exprs_looks site arguments _)
  | .get object _, r => expr_looks site object r
  | .set object _ value, r => by
      refine ((expr_looks site value r).trans (expr_looks site object _)).congr fun m hm => ?_
      rw [Expr.mentions, List.mem_append, Or.comm, ← List.mem_append]
      exact hm
  | .subscript _ object index, r =>
      (expr_looks site object r).trans (expr_looks site index _)
  | .map _ items, r => entries_looks site items r
  | .this id keyword, r => by
      have hlooks : Looks [r.lookUp id "this"] [⟨id, "this", .receiver⟩] r (r.resolve id "this") :=
        .single .receiver rfl rfl fun _ => not_declarable_this
      unfold expr exprLookups
      cases site.enclosing with
      | outside => exact ⟨rfl, rfl, fun l hl => by cases hl⟩
      | base => exact hlooks
      | derived => exact hlooks
  | .super id keyword _, r => by
      refine .single .receiver ?_ ?_ fun _ => not_declarable_super
      · split <;> rfl
      · split <;> rfl
  | .cast inner _, r => expr_looks site inner r

theorem exprs_looks (site : Site) :
    ∀ (list : List Expr) (r : Resolution),
      Looks (exprsLookups site list r) (Expr.listMentions list) r (exprs site list r)
  | [], r => .refl r
  | e :: rest, r => (expr_looks site e r).trans (exprs_looks site rest _)

theorem entries_looks (site : Site) :
    ∀ (list : List (Expr × Expr)) (r : Resolution),
      Looks (entriesLookups site list r) (Expr.entryMentions list) r (entries site list r)
  | [], r => .refl r
  | (key, value) :: rest, r =>
      ((expr_looks site key r).trans (expr_looks site value _)).trans (entries_looks site rest _)

end

/-! ## References -/

end Resolution

/-- A look-up is made for one of some references, and finds its distance unless the reference may
be to a variable in its own first value. -/
structure NameLookup.MadeFor (l : NameLookup) (vars : List LocatedVariable) (ref : Reference) :
    Prop where
  id : l.id = ref.mention.id
  name : l.name = ref.mention.name
  receiver : ref.mention.use = .receiver → ¬Declarable ref.mention.name
  distance? : ref.pending = false →
    l.distance? = ref.distance? ∨ ∃ var ∈ vars, var.AssignsOwn ref.mention

theorem NameLookup.MadeFor.mono {l : NameLookup} {vars others : List LocatedVariable}
    {ref : Reference} (h : l.MadeFor vars ref) (hmore : ∀ var ∈ vars, var ∈ others) :
    l.MadeFor others ref := by
  refine ⟨h.id, h.name, h.receiver, fun hpending => (h.distance? hpending).imp_right ?_⟩
  rintro ⟨var, hvar, hown⟩
  exact ⟨var, hmore var hvar, hown⟩

namespace Resolution

/-- The resolver goes from `r` to `r'` with some look-ups, each made for a reference. -/
structure Logs (log : List NameLookup) (refs : List Reference) (vars : List LocatedVariable)
    (r r' : Resolution) : Prop where
  locals : r'.locals = log.foldl NameLookup.record r.locals
  made : ∀ l ∈ log, ∃ ref ∈ refs, l.MadeFor vars ref

namespace Logs

variable {log more : List NameLookup} {refs others : List Reference}
  {vars otherVars : List LocatedVariable} {r r' r'' : Resolution}

theorem quiet (hlocals : r'.locals = r.locals) : Logs [] [] [] r r' :=
  ⟨hlocals, fun l hl => by cases hl⟩

theorem trans (h : Logs log refs vars r r') (h' : Logs more others otherVars r' r'') :
    Logs (log ++ more) (refs ++ others) (vars ++ otherVars) r r'' := by
  refine ⟨?_, ?_⟩
  · rw [h'.locals, h.locals, List.foldl_append]
  · intro l hl
    rcases List.mem_append.mp hl with hl | hl
    · rcases h.made l hl with ⟨ref, href, hmade⟩
      exact ⟨ref, List.mem_append_left _ href, hmade.mono fun _ => List.mem_append_left _⟩
    · rcases h'.made l hl with ⟨ref, href, hmade⟩
      exact ⟨ref, List.mem_append_right _ href, hmade.mono fun _ => List.mem_append_right _⟩

/-- What changes no distances before or behind the look-ups does not count. -/
theorem around {s s' : Resolution} (h : Logs log refs vars r r') (hbefore : r.locals = s.locals)
    (hafter : s'.locals = r'.locals) : Logs log refs vars s s' :=
  ⟨by rw [hafter, h.locals, hbefore], h.made⟩

end Logs

section Steps

@[simp] theorem locals_declare (r : Resolution) (name : Token) (kind : BindingKind) :
    (r.declare name kind).locals = r.locals := by
  unfold Resolution.declare
  split
  · rfl
  · dsimp only
    split
    · split <;> rfl
    · rfl

@[simp] theorem locals_define (r : Resolution) (name : String) :
    (r.define name).locals = r.locals := by
  unfold Resolution.define
  split
  · rfl
  · split <;> rfl

@[simp] theorem locals_introduce (r : Resolution) (name : Token) (kind : BindingKind) :
    (r.introduce name kind).locals = r.locals := by
  rw [introduce, locals_define, locals_declare]

@[simp] theorem locals_bindReceiver (r : Resolution) (name : String) :
    (r.bindReceiver name).locals = r.locals := by
  unfold Resolution.bindReceiver
  split <;> rfl

theorem locals_introduceAll (token : α → Token) (kind : BindingKind) (list : List α) :
    ∀ r : Resolution,
      (list.foldl (fun r item => r.introduce (token item) kind) r).locals = r.locals := by
  induction list with
  | nil => exact fun r => rfl
  | cons item rest ih =>
      intro r
      rw [List.foldl_cons, ih, locals_introduce]

@[simp] theorem locals_params (list : List Param) (r : Resolution) :
    (params list r).locals = r.locals :=
  locals_introduceAll Param.name .parameter list r

@[simp] theorem locals_enums (list : List EnumDecl) :
    ∀ r : Resolution, (list.foldl (fun r decl => enumDecl decl r) r).locals = r.locals := by
  induction list with
  | nil => exact fun r => rfl
  | cons decl rest ih =>
      intro r
      rw [List.foldl_cons, ih]
      exact locals_introduceAll id .enumMember decl.members r

@[simp] theorem locals_exitSite (site : Site) (keyword : Token) (value : Option Expr)
    (r : Resolution) : (exitSite site keyword value r).locals = r.locals := by
  unfold exitSite
  split
  · split <;> rfl
  · split <;> rfl

@[simp] theorem locals_leaveClass (superclass : Option Superclass) (r : Resolution) :
    (leaveClass superclass r).locals = r.locals := by
  cases superclass <;> rfl

end Steps

/-! ## Statements -/

section Parts

variable {site : Site} {p : Place} {r : Resolution} {log : List NameLookup} {ms : List Mention}
  {r' : Resolution}

theorem Looks.logs (h : Looks log ms r r') (hnamed : Named r.scopes p) :
    Logs log (ms.map (Mention.located p)) [] r r' := by
  refine ⟨h.locals, fun l hl => ?_⟩
  rcases h.mentioned l hl with ⟨m, hm, rfl, huse⟩
  exact ⟨m.located p, List.mem_map_of_mem hm, rfl, rfl, huse,
    fun _ => .inl (hnamed.distance? m.name)⟩

/-- The first value of a variable stands in front of its declaration, but is resolved behind it. -/
theorem Looks.logs_initial {decl : VarDecl} {kind : BindingKind}
    (h : Looks log ms (r.declare decl.name kind) r') (hnamed : Named r.scopes p)
    (hms : ms = Stmt.optionalMentions decl.initial) (hown : Declarable decl.name.lexeme) :
    Logs log (ms.map (Mention.initial p decl.name.lexeme)) [⟨p, decl⟩] r r' := by
  have hdeclared := (walks_declare hnamed decl.name kind).named
  refine ⟨h.locals.trans (by rw [locals_declare]), fun l hl => ?_⟩
  rcases h.mentioned l hl with ⟨m, hm, rfl, huse⟩
  refine ⟨m.initial p decl.name.lexeme, List.mem_map_of_mem hm, rfl, rfl, huse, fun hpending => ?_⟩
  have hdistance : ((r.declare decl.name kind).lookUp m.id m.name).distance? =
      (p.declare [decl.name.lexeme]).distance? m.name := hdeclared.distance? m.name
  rw [hdistance]
  by_cases hfixed : p = [] ∨ m.name ∉ [decl.name.lexeme]
  · exact .inl (Place.distance?_declare hfixed)
  · rw [not_or, not_not, List.mem_singleton] at hfixed
    rcases hfixed with ⟨hlocal, hname⟩
    refine .inr ⟨_, List.mem_singleton_self _, hlocal, ?_, hname, hms ▸ hm⟩
    show m.use = .write
    cases hm' : m.use with
    | write => rfl
    | read =>
        have hplace : p.isEmpty = false := List.isEmpty_eq_false_iff.mpr hlocal
        simp [Mention.initial, hm', hname, hplace] at hpending
    | receiver => exact absurd hown (hname ▸ huse hm')

theorem optional_logs (site : Site) (value : Option Expr) (hnamed : Named r.scopes p) :
    Logs (optionalLookups site value r) (Stmt.optionalReferences p value) [] r
      (optionalExpr site value r) := by
  cases value with
  | none => exact .quiet rfl
  | some e => exact (expr_looks site e r).logs hnamed

theorem var_logs (site : Site) (decl : VarDecl) (hnamed : Named r.scopes p)
    (hname : Declarable decl.name.lexeme) :
    Logs (optionalLookups site decl.initial (r.declare decl.name .variable))
      (Stmt.initialReferences p decl) [⟨p, decl⟩] r
      ((optionalExpr site decl.initial (r.declare decl.name .variable)).define
        decl.name.lexeme) := by
  unfold Stmt.initialReferences
  cases hinitial : decl.initial with
  | none => exact ⟨by simp [optionalLookups, optionalExpr], fun l hl => by cases hl⟩
  | some e =>
      have hlogs := (expr_looks site e (r.declare decl.name .variable)).logs_initial hnamed
        (by rw [hinitial]; rfl) hname
      exact hlogs.around rfl (locals_define _ _)

theorem parent_logs (decl : ClassDecl Stmt) (hnamed : Named r.scopes p) :
    Logs (parentLookups decl.name decl.superclass decl.enums r) (Stmt.parentReferences p decl) [] r
      (enterClass decl.name decl.superclass decl.enums r) := by
  have henums := walks_enums decl.enums hnamed
  have hname := henums.after (walks_introduce henums.named decl.name .class)
  rw [← Place.declare_append] at hname
  unfold parentLookups enterClass Stmt.parentReferences
  cases decl.superclass with
  | none =>
      refine .quiet ?_
      rw [locals_bindReceiver, Resolution.enter, locals_introduce, locals_enums]
  | some parent =>
      dsimp only
      generalize hnamed' : (decl.enums.foldl (fun r decl => enumDecl decl r) r).introduce decl.name
        .class = named at hname ⊢
      have hlocals : named.locals = r.locals := by
        rw [← hnamed', locals_introduce, locals_enums]
      have hlooks : Looks [named.lookUp parent.id parent.name.lexeme]
          [⟨parent.id, parent.name.lexeme, .read⟩] named
          ((if parent.name.lexeme = decl.name.lexeme
            then named.report .selfInheritance parent.name else named).resolve parent.id
              parent.name.lexeme) := by
        refine .single .read ?_ ?_ fun huse => by cases huse
        · split <;> rfl
        · split <;> rfl
      refine ⟨?_, fun l hl => ?_⟩
      · rw [locals_bindReceiver, Resolution.enter, locals_bindReceiver, Resolution.enter,
          hlooks.locals, hlocals]
      · rw [List.mem_singleton.mp hl]
        refine ⟨_, List.mem_singleton_self _, rfl, rfl, fun huse => ?_, fun _ => .inl ?_⟩
        · cases huse
        · exact hname.named.distance? parent.name.lexeme

theorem block_logs {body : List Stmt}
    (hstmts : ∀ q r', Named r'.scopes q → site.At q →
      Logs (stmtsLookups site body r') (Stmt.listReferences q body) (Stmt.listVariables q body) r'
        (stmts site body r'))
    (hnamed : Named r.scopes p) (hsite : site.At p) :
    Logs (stmtsLookups site body r.enter) (Stmt.listReferences (p.enter (.block body) []) body)
      (Stmt.listVariables (p.enter (.block body) []) body) r (stmts site body r.enter).leave := by
  have henter : Walks [] (p.enter (.block body) []) r r.enter := walks_enter hnamed
  exact (hstmts _ _ henter.named (hsite.enter (by simp))).around rfl rfl

theorem functionBody_logs (decl : Function)
    (hstmts : ∀ q r', Named r'.scopes q → site.At q →
      Logs (stmtsLookups site decl.body r') (Stmt.listReferences q decl.body)
        (Stmt.listVariables q decl.body) r' (stmts site decl.body r'))
    (hnamed : Named r.scopes p) (hsite : site.At p)
    (hparams : ∀ param ∈ decl.params, Declarable param.name.lexeme) :
    Logs (stmtsLookups site decl.body (params decl.params r.enter))
      (Stmt.listReferences (p.enter (.function decl) decl.paramNames) decl.body)
      (Stmt.listVariables (p.enter (.function decl) decl.paramNames) decl.body) r
      (stmts site decl.body (params decl.params r.enter)).leave := by
  have henter : Walks [] (p.enter (.function decl) decl.paramNames) r _ := walks_params hnamed
  refine (hstmts _ _ henter.named (hsite.enter ?_)).around (locals_params _ _) rfl
  intro name hname
  rcases List.mem_map.mp hname with ⟨param, hparam, rfl⟩
  exact hparams param hparam

end Parts

mutual

theorem stmt_logs :
    ∀ (s : Stmt) (site : Site) (p : Place) (r : Resolution), Named r.scopes p → site.At p →
      s.Tidy Declarable →
        Logs (stmtLookups site s r) (s.references p) (s.locatedVariables p) r (stmt site s r)
  | .block body, site, p, r, hnamed, hsite, htidy =>
      block_logs (fun q r' hnamed' hsite' => stmts_logs body site q r' hnamed' hsite' htidy) hnamed
        hsite
  | .classDecl ⟨name, superclass, fields, enums, methods⟩, site, p, r, hnamed, _, htidy => by
      have henter := walks_enterClass ⟨name, superclass, fields, enums, methods⟩ hnamed (.block [])
      have hparent := parent_logs ⟨name, superclass, fields, enums, methods⟩ hnamed
      have hmethods := methods_logs methods _ _ _ _ henter.named
        (insideClass_at site p ⟨name, superclass, fields, enums, methods⟩) htidy.2.2
      exact (hparent.trans hmethods).around rfl (locals_leaveClass _ _)
  | .enumDecl decl, site, p, r, _, _, _ =>
      .quiet (locals_introduceAll id .enumMember decl.members r)
  | .function ⟨kind, name, parameters, returnType, body⟩, site, p, r, hnamed, hsite, htidy => by
      rcases htidy with ⟨hname, hparams, hbody⟩
      have hdeclare := walks_introduce hnamed name .function
      have hrest := functionBody_logs ⟨kind, name, parameters, returnType, body⟩
        (fun q r' hnamed' hsite' =>
          stmts_logs body { site with function := .function } q r' hnamed' hsite' hbody)
        hdeclare.named (hsite.declare (List.forall_mem_singleton.mpr hname)) hparams
      exact hrest.around (locals_introduce _ _ _) rfl
  | .ifThen condition thenBranch none, site, p, r, hnamed, hsite, htidy => by
      rcases htidy with ⟨hnone, hthen⟩
      have hcondition := walks_expr site condition hnamed hsite
      exact ((expr_looks site condition r).logs hnamed).trans
        (stmt_logs thenBranch site p _ hcondition.named hsite hthen)
  | .ifThen condition thenBranch (some elseBranch), site, p, r, hnamed, hsite, htidy => by
      rcases htidy with ⟨hnone, hthen, hnone', helse⟩
      have hcondition := walks_expr site condition hnamed hsite
      have hbranch := walks_stmt thenBranch site p _ hcondition.named hsite hthen
      rw [hnone, Place.declare_nil] at hbranch
      exact (((expr_looks site condition r).logs hnamed).trans
        (stmt_logs thenBranch site p _ hcondition.named hsite hthen)).trans
          (stmt_logs elseBranch site p _ hbranch.named hsite helse)
  | .while condition body, site, p, r, hnamed, hsite, htidy => by
      rcases htidy with ⟨hnone, hbody⟩
      have hcondition := walks_expr site condition hnamed hsite
      exact ((expr_looks site condition r).logs hnamed).trans
        (stmt_logs body site p _ hcondition.named hsite hbody)
  | .try keyword body handlerList otherwise, site, p, r, hnamed, hsite, htidy => by
      rcases htidy with ⟨hbody, hhandlers, hotherwise⟩
      have hguarded := walks_block
        (fun q r' hnamed' hsite' => walks_stmts body site q r' hnamed' hsite' hbody) hnamed hsite
      have hcaught := walks_handlers handlerList site p _ hguarded.named hsite hhandlers
      have hlogs := block_logs
        (fun q r' hnamed' hsite' => stmts_logs body site q r' hnamed' hsite' hbody) hnamed hsite
      have hlogs' := block_logs
        (fun q r' hnamed' hsite' => stmts_logs otherwise site q r' hnamed' hsite' hotherwise)
        hcaught.named hsite
      exact (hlogs.trans (handlers_logs handlerList site p _ hguarded.named hsite hhandlers)).trans
        hlogs'
  | .print keyword value, site, p, r, hnamed, _, _ => (expr_looks site value r).logs hnamed
  | .exit keyword value, site, p, r, hnamed, _, _ => by
      have hexit := walks_exitSite site keyword value hnamed
      exact (optional_logs site value hexit.named).around (locals_exitSite _ _ _ _) rfl
  | .raise keyword value, site, p, r, hnamed, _, _ => optional_logs site value hnamed
  | .var decl, site, p, r, hnamed, _, htidy => var_logs site decl hnamed htidy
  | .break keyword, site, p, r, _, _, _ => .quiet rfl
  | .expression value, site, p, r, hnamed, _, _ => (expr_looks site value r).logs hnamed
  | .uses names token, site, p, r, _, _, _ => .quiet rfl

theorem stmts_logs :
    ∀ (list : List Stmt) (site : Site) (p : Place) (r : Resolution), Named r.scopes p →
      site.At p → Stmt.TidyList Declarable list →
        Logs (stmtsLookups site list r) (Stmt.listReferences p list) (Stmt.listVariables p list) r
          (stmts site list r)
  | [], site, p, r, _, _, _ => .quiet rfl
  | s :: rest, site, p, r, hnamed, hsite, htidy => by
      have hfirst := walks_stmt s site p r hnamed hsite htidy.1
      exact (stmt_logs s site p r hnamed hsite htidy.1).trans
        (stmts_logs rest site _ _ hfirst.named (hsite.declare htidy.1.declarable) htidy.2)

theorem methods_logs :
    ∀ (list : List Function) (site : Site) (p : Place) (region : Region) (r : Resolution),
      Named r.scopes (p.enter region ["this"]) →
      (∀ method, site.At (p.enter (.receiver method) ["this"])) →
      Stmt.TidyMethods Declarable list →
        Logs (methodsLookups site list r) (Stmt.methodReferences p list)
          (Stmt.methodVariables p list) r (methods site list r)
  | [], site, p, region, r, _, _, _ => .quiet rfl
  | ⟨kind, name, parameters, returnType, body⟩ :: rest, site, p, region, r, hnamed, hsite,
      htidy => by
      rcases htidy with ⟨hparams, hbody, hrest⟩
      have hnamed' := hnamed.region (.receiver ⟨kind, name, parameters, returnType, body⟩)
      have hwalks := walks_functionBody ⟨kind, name, parameters, returnType, body⟩
        (fun q r' hnamed' hsite' =>
          walks_stmts body (insideMethod site name) q r' hnamed' hsite' hbody)
        hnamed' (hsite _) hparams
      have hfirst := functionBody_logs ⟨kind, name, parameters, returnType, body⟩
        (fun q r' hnamed' hsite' =>
          stmts_logs body (insideMethod site name) q r' hnamed' hsite' hbody)
        hnamed' (hsite _) hparams
      exact hfirst.trans
        (methods_logs rest site p region _ (hwalks.named.region region) hsite hrest)

theorem handlers_logs :
    ∀ (list : List (Handler Stmt)) (site : Site) (p : Place) (r : Resolution),
      Named r.scopes p → site.At p → Stmt.TidyHandlers Declarable list →
        Logs (handlersLookups site list r) (Stmt.handlerReferences p list)
          (Stmt.handlerVariables p list) r (handlers site list r)
  | [], site, p, r, _, _, _ => .quiet rfl
  | ⟨name, typeName, body⟩ :: rest, site, p, r, hnamed, hsite, htidy => by
      rcases htidy with ⟨hname, hnone, hbody, hrest⟩
      have henter : Walks [] (p.enter (.handler ⟨name, typeName, body⟩) []) r r.enter :=
        walks_enter hnamed
      have hbind := henter.after (walks_introduce henter.named name .handler)
      have hinside : site.At (p.enter (.handler ⟨name, typeName, body⟩) [name.lexeme]) :=
        hsite.enter (List.forall_mem_singleton.mpr hname)
      have hwalks := walks_stmt body site _ _ hbind.named hinside hbody
      rw [hnone, Place.declare_nil] at hwalks
      have hfirst : Logs _ _ _ r (stmt site body (r.enter.introduce name .handler)).leave :=
        (stmt_logs body site _ _ hbind.named hinside hbody).around (locals_introduce _ _ _) rfl
      exact hfirst.trans
        (handlers_logs rest site p _ (hbind.after hwalks).leave.named hsite hrest)

end

/-! ## Programs -/

section Programs

variable {first limit : NodeId} {statements : List Stmt}
variable (h : Stmt.NumberedProgram Declarable first statements limit)
include h

theorem program_logs :
    Logs (programLookups statements) (Stmt.listReferences [] statements)
      (Stmt.listVariables [] statements) start (program statements) := by
  refine stmts_logs statements .top [] start .nil ?_ h.tidy
  intro hsite
  cases hsite

/-- In an accepted program, references with one number are at one distance, but for assignments to
a local variable in its own first value. -/
theorem distance?_eq_of_id (hok : Diagnostic.anyError (program statements).diagnostics = false)
    {v w : Reference} (hv : v ∈ Stmt.listReferences [] statements)
    (hw : w ∈ Stmt.listReferences [] statements)
    (hreceiver : v.mention.use = .receiver → ¬Declarable v.mention.name)
    (hid : v.mention.id = w.mention.id) :
    w.distance? = v.distance? ∨
      ∃ var ∈ Stmt.listVariables [] statements, var.AssignsOwn v.mention := by
  have hcoherent := h.settled.coherent [] (pending_of_accepted h hok) v hv w hw
  cases huse : v.mention.use with
  | read => exact .inl (hcoherent (.inl huse) hid).2.1
  | receiver => exact .inl (hcoherent (.inr (hreceiver huse)) hid).2.1
  | write => exact h.settled.copies [] v hv w hw huse hid

/-- In an accepted program, look-ups for one number find one distance, but for assignments to a
local variable in its own first value. -/
theorem lookups_agree (hok : Diagnostic.anyError (program statements).diagnostics = false)
    {v w : NameLookup} (hv : v ∈ programLookups statements) (hw : w ∈ programLookups statements)
    (hid : v.id = w.id) : v.distance? = w.distance? ∨ Stmt.AssignsOwn statements v.id := by
  have hpending := pending_of_accepted h hok
  rcases (program_logs h).made v hv with ⟨ref, href, hmade⟩
  rcases (program_logs h).made w hw with ⟨ref', href', hmade'⟩
  have hrefs : ref.mention.id = ref'.mention.id := hmade.id.symm.trans (hid.trans hmade'.id)
  have hown : (∃ var ∈ Stmt.listVariables [] statements, var.AssignsOwn ref.mention) →
      Stmt.AssignsOwn statements v.id := by
    rintro ⟨var, hvar, hown⟩
    exact ⟨var, hvar, ref.mention, hmade.id.symm, hown⟩
  rcases hmade.distance? (hpending ref href) with hfirst | hfirst
  · rcases hmade'.distance? (hpending ref' href') with hsecond | hsecond
    · rcases distance?_eq_of_id h hok href href' hmade.receiver hrefs with hsame | hsame
      · exact .inl (hfirst.trans (hsame.symm.trans hsecond.symm))
      · exact .inr (hown hsame)
    · rw [(h.settled.twins [] ref href ref' href' hrefs).1] at hsecond
      exact .inr (hown hsecond)
  · exact .inr (hown hfirst)

/-- In an accepted program, a recorded distance is that of every assignment with its number, but for
assignments to a local variable in its own first value. -/
theorem distance?_of_written (hok : Diagnostic.anyError (program statements).diagnostics = false)
    {ref : Reference} {d : Nat} (href : ref ∈ Stmt.listReferences [] statements)
    (huse : ref.mention.use = .write)
    (hlocal : (program statements).locals[ref.mention.id]? = some d) :
    Stmt.AssignsOwn statements ref.mention.id ∨ ref.distance? = some d := by
  rw [(program_logs h).locals] at hlocal
  rcases NameLookup.exists_of_getElem?_foldl_record hlocal with hnone | ⟨l, hl, hid, hdistance⟩
  · cases hnone
  · rcases (program_logs h).made l hl with ⟨other, hother, hmade⟩
    have hsame : ref.mention.id = other.mention.id := hid.symm.trans hmade.id
    rcases hmade.distance? (pending_of_accepted h hok other hother) with hfound | ⟨var, hvar, hown⟩
    · rcases h.settled.copies [] ref href other hother huse hsame with hcopy | ⟨var, hvar, hown⟩
      · exact .inr (hcopy.symm.trans (hfound.symm.trans hdistance))
      · exact .inl ⟨var, hvar, ref.mention, rfl, hown⟩
    · exact .inl ⟨var, hvar, other.mention, hsame.symm, hown⟩

end Programs

end Resolution

end MiniPascal
