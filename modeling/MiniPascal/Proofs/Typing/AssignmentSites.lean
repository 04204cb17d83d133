import MiniPascal.Proofs.Typing.Knowledge

/-!
# Assignments in checked programs

Each assignment in a program has a site: what is known about types where it stands.  In a program
that passes the check, every assignment fits in with what is known at its site, except for those in
what is printed, raised, or returned at top level, which no check looks at.
-/

namespace MiniPascal

open Typing

namespace Stmt

/-- What is known behind a statement.  A statement with scopes of its own leaves nothing behind. -/
def learn (around : Option Callable) (known : TypeLookup) : Stmt → TypeLookup
  | .ifThen condition thenBranch none =>
      thenBranch.learn around (known.learnAll (condition.assignments none))
  | .ifThen condition thenBranch (some elseBranch) =>
      elseBranch.learn around
        (thenBranch.learn around (known.learnAll (condition.assignments none)))
  | .while condition body => body.learn around (known.learnAll (condition.assignments none))
  | .exit _ (some value) =>
      if around.isSome then known.learnAll (value.assignments none) else known
  | .var decl => known.learnVar decl
  | .expression value => known.learnAll (value.assignments none)
  | .block _ | .classDecl _ | .function _ | .try _ _ _ _ => known
  | .print _ _ | .exit _ none | .raise _ _ | .enumDecl _ | .break _ | .uses _ _ => known

end Stmt

/-- An assignment, what is known where it stands, and whether it is checked at all. -/
structure AssignmentSite where
  assignment : Assignment
  known : TypeLookup
  checked : Bool

namespace TypeLookup

/-- The sites of assignments one behind the other. -/
def sites (checked : Bool) : TypeLookup → List Assignment → List AssignmentSite
  | _, [] => []
  | known, a :: rest => ⟨a, known, checked⟩ :: sites checked (known.learn a) rest

def exprSites (checked : Bool) (known : TypeLookup) (e : Expr) : List AssignmentSite :=
  known.sites checked (e.assignments none)

def optionalSites (checked : Bool) (known : TypeLookup) : Option Expr → List AssignmentSite
  | none => []
  | some e => known.exprSites checked e

/-- What is known behind statements whose declarations are recorded first. -/
def learnBody (around : Option Callable) (known : TypeLookup) (body : List Stmt) : TypeLookup :=
  body.foldl (Stmt.learn around) (body.foldl register known)

/-- What is known at the start of a list of statements in a scope of its own. -/
def opened (known : TypeLookup) (body : List Stmt) : TypeLookup :=
  body.foldl register known.enter

/-- What is known at the start of the body of a function. -/
def withParams (known : TypeLookup) (params : List Param) (body : List Stmt) : TypeLookup :=
  body.foldl register
    (params.foldl (fun known param => known.declare param.name.lexeme param.typeName) known.enter)

/-- What is known inside a class, where its fields go by their own names. -/
def withFields (known : TypeLookup) (name : Token) (superclass : Option Superclass)
    (fields : List Field) : TypeLookup :=
  let inside := { known with currentClass := some name.lexeme }.enter
  fields.foldl (fun known field => known.declare field.name.lexeme field.typeName)
    (if superclass.isSome then inside.enter else inside)

end TypeLookup

namespace Stmt

mutual

/-- The sites in a statement inside the given function.  What is printed or raised is not checked,
nor is what is returned outside of functions. -/
def sites (around : Option Callable) (known : TypeLookup) : Stmt → List AssignmentSite
  | .block body => listSites around (known.opened body) body
  | .classDecl ⟨name, superclass, fields, _, methods⟩ =>
      methodSites (known.withFields name superclass fields) methods
  | .enumDecl _ => []
  | .function ⟨kind, _, params, returnType, body⟩ =>
      listSites (some { kind, returnType }) (known.withParams params body) body
  | .ifThen condition thenBranch none =>
      known.exprSites true condition ++
        thenBranch.sites around (known.learnAll (condition.assignments none))
  | .ifThen condition thenBranch (some elseBranch) =>
      known.exprSites true condition ++
        thenBranch.sites around (known.learnAll (condition.assignments none)) ++
        elseBranch.sites around
          (thenBranch.learn around (known.learnAll (condition.assignments none)))
  | .while condition body =>
      known.exprSites true condition ++
        body.sites around (known.learnAll (condition.assignments none))
  | .try _ body handlers otherwise =>
      listSites around (known.opened body) body ++ handlerSites around known handlers ++
        listSites around (known.opened otherwise) otherwise
  | .print _ value => known.exprSites false value
  | .exit _ value => known.optionalSites around.isSome value
  | .raise _ value => known.optionalSites false value
  | .var decl => known.optionalSites true decl.initial
  | .break _ => []
  | .expression value => known.exprSites true value
  | .uses _ _ => []

def listSites (around : Option Callable) (known : TypeLookup) : List Stmt → List AssignmentSite
  | [] => []
  | s :: rest => s.sites around known ++ listSites around (s.learn around known) rest

def methodSites (known : TypeLookup) : List Function → List AssignmentSite
  | [] => []
  | ⟨kind, _, params, returnType, body⟩ :: rest =>
      listSites (some { kind, returnType }) (known.withParams params body) body ++
        methodSites known rest

def handlerSites (around : Option Callable) (known : TypeLookup) :
    List (Handler Stmt) → List AssignmentSite
  | [] => []
  | ⟨name, typeName, body⟩ :: rest =>
      body.sites around (known.enter.declare name.lexeme (typeName.getD anyType)) ++
        handlerSites around known rest

end

end Stmt

/-! ## Every assignment has a site -/

theorem TypeLookup.map_sites (checked : Bool) : ∀ (list : List Assignment) (known : TypeLookup),
    (known.sites checked list).map AssignmentSite.assignment = list
  | [], _ => rfl
  | a :: rest, known => congrArg (a :: ·) (TypeLookup.map_sites checked rest (known.learn a))

theorem TypeLookup.map_optionalSites (checked : Bool) (known : TypeLookup) (e : Option Expr) :
    (known.optionalSites checked e).map AssignmentSite.assignment = Expr.optionalAssignments e := by
  cases e with
  | none => rfl
  | some e => exact TypeLookup.map_sites checked (e.assignments none) known

namespace Stmt

mutual

theorem map_sites (around : Option Callable) : ∀ (s : Stmt) (known : TypeLookup),
    (s.sites around known).map AssignmentSite.assignment = s.assignments
  | .block body, known => by
      rw [sites, assignments]
      exact map_listSites around body _
  | .classDecl ⟨name, superclass, fields, _, methods⟩, known => by
      rw [sites, assignments]
      exact map_methodSites methods _
  | .function ⟨kind, _, params, returnType, body⟩, known => by
      rw [sites, assignments]
      exact map_listSites (some { kind, returnType }) body _
  | .ifThen condition thenBranch none, known => by
      rw [sites, assignments, List.map_append, map_sites around thenBranch]
      exact congrArg (· ++ _) (TypeLookup.map_sites true _ known)
  | .ifThen condition thenBranch (some elseBranch), known => by
      rw [sites, assignments, List.map_append, List.map_append, map_sites around thenBranch,
        map_sites around elseBranch]
      exact congrArg (· ++ _ ++ _) (TypeLookup.map_sites true _ known)
  | .while condition body, known => by
      rw [sites, assignments, List.map_append, map_sites around body]
      exact congrArg (· ++ _) (TypeLookup.map_sites true _ known)
  | .try _ body handlers otherwise, known => by
      rw [sites, assignments, List.map_append, List.map_append, map_listSites around body,
        map_handlerSites around handlers, map_listSites around otherwise]
  | .print _ value, known => by
      rw [sites, assignments]
      exact TypeLookup.map_sites false _ known
  | .exit _ value, known => by
      rw [sites, assignments]
      exact TypeLookup.map_optionalSites _ known value
  | .raise _ value, known => by
      rw [sites, assignments]
      exact TypeLookup.map_optionalSites false known value
  | .var decl, known => by
      rw [sites, assignments]
      exact TypeLookup.map_optionalSites true known decl.initial
  | .expression value, known => by
      rw [sites, assignments]
      exact TypeLookup.map_sites true _ known
  | .enumDecl _, _ | .break _, _ | .uses _ _, _ => by
      rw [sites, assignments]
      rfl

theorem map_listSites (around : Option Callable) : ∀ (list : List Stmt) (known : TypeLookup),
    (listSites around known list).map AssignmentSite.assignment = listAssignments list
  | [], _ => by
      rw [listSites, listAssignments]
      rfl
  | s :: rest, known => by
      rw [listSites, listAssignments, List.map_append, map_sites around s,
        map_listSites around rest]

theorem map_methodSites : ∀ (methods : List Function) (known : TypeLookup),
    (methodSites known methods).map AssignmentSite.assignment = methodAssignments methods
  | [], _ => by
      rw [methodSites, methodAssignments]
      rfl
  | ⟨kind, _, params, returnType, body⟩ :: rest, known => by
      rw [methodSites, methodAssignments, List.map_append, map_listSites _ body,
        map_methodSites rest]

theorem map_handlerSites (around : Option Callable) :
    ∀ (handlers : List (Handler Stmt)) (known : TypeLookup),
      (handlerSites around known handlers).map AssignmentSite.assignment =
        handlerAssignments handlers
  | [], _ => by
      rw [handlerSites, handlerAssignments]
      rfl
  | ⟨name, typeName, body⟩ :: rest, known => by
      rw [handlerSites, handlerAssignments, List.map_append, map_sites around body,
        map_handlerSites around rest]

end

end Stmt

/-! ## Checked assignments fit -/

/-- The assignment fits in with what is known where it stands. -/
def AssignmentSite.Fits (site : AssignmentSite) : Prop :=
  site.assignment.Fits site.known

namespace TypeLookup

variable {checked : Bool} {site : AssignmentSite}

theorem fits_of_mem_sites : ∀ (list : List Assignment) (known : TypeLookup),
    known.AllFit list → site ∈ known.sites checked list → site.Fits
  | [], _, _, hsite => by cases hsite
  | a :: rest, known, h, hsite => by
      rcases List.mem_cons.mp hsite with rfl | hrest
      · exact h.1
      · exact fits_of_mem_sites rest (known.learn a) h.2 hrest

theorem checked_of_mem_sites : ∀ (list : List Assignment) (known : TypeLookup),
    site ∈ known.sites checked list → site.checked = checked
  | [], _, hsite => by cases hsite
  | a :: rest, known, hsite => by
      rcases List.mem_cons.mp hsite with rfl | hrest
      · rfl
      · exact checked_of_mem_sites rest (known.learn a) hrest

end TypeLookup

namespace Typing

/-- If the check passes, then what is known behind it is `after`, and the assignments at those of
the given sites that are checked fit. -/
def Walks (check : Check Unit) (known after : TypeLookup) (sites : List AssignmentSite) : Prop :=
  ∀ ⦃known'⦄, check known = .ok () known' →
    known' = after ∧ ∀ site ∈ sites, site.checked = true → site.Fits

namespace Walks

variable {check first second : Check Unit} {known between after : TypeLookup}
  {list list' : List AssignmentSite}

theorem skipped (h : ∀ site ∈ list, site.checked = false) : Walks (pure ()) known known list := by
  intro known' hrun
  cases hrun
  refine ⟨rfl, fun site hsite hchecked => ?_⟩
  rw [h site hsite] at hchecked
  cases hchecked

theorem nothing : Walks (pure ()) known known [] :=
  skipped fun _ h => by cases h

theorem modified (f : TypeLookup → TypeLookup) : Walks (modify f) known (f known) [] := by
  intro known' hrun
  cases hrun
  exact ⟨rfl, fun _ hsite => by cases hsite⟩

theorem followed (hfirst : Walks first known between list)
    (hsecond : Walks second between after list') :
    Walks (do first; second) known after (list ++ list') := by
  intro known' hrun
  rcases bind_eq_ok_iff.mp hrun with ⟨_, known₁, h₁, h₂⟩
  rcases hfirst h₁ with ⟨rfl, hfit⟩
  rcases hsecond h₂ with ⟨rfl, hfit'⟩
  exact ⟨rfl, List.forall_mem_append.mpr ⟨hfit, hfit'⟩⟩

theorem inScope (h : Walks check known.enter after list) (hinside : known.Inside after) :
    Walks (inScope check) known known list := by
  intro known' hrun
  unfold Typing.inScope at hrun
  cases hcheck : check known.enter with
  | error e inner =>
      rw [hcheck] at hrun
      cases hrun
  | ok value inner =>
      rw [hcheck] at hrun
      cases hrun
      rcases h hcheck with ⟨rfl, hfit⟩
      exact ⟨hinside.leave, hfit⟩

theorem insideClass {name : String}
    (h : Walks check { known with currentClass := some name }
      { known with currentClass := some name } list) :
    Walks (insideClass name check) known known list := by
  intro known' hrun
  unfold Typing.insideClass at hrun
  cases hcheck : check { known with currentClass := some name } with
  | error e inner =>
      rw [hcheck] at hrun
      cases hrun
  | ok value inner =>
      rw [hcheck] at hrun
      cases hrun
      rcases h hcheck with ⟨rfl, hfit⟩
      exact ⟨rfl, hfit⟩

end Walks

theorem Learns.walks {check : Check Unit} {list : List Assignment} (h : Learns check list)
    (known : TypeLookup) : Walks check known (known.learnAll list) (known.sites true list) := by
  intro known' hrun
  rcases h hrun with ⟨rfl, hfit⟩
  exact ⟨rfl, fun _ hsite _ => TypeLookup.fits_of_mem_sites _ _ hfit hsite⟩

theorem checkVar_walks (decl : VarDecl) (known : TypeLookup) :
    Walks (checkVar decl) known (known.learnVar decl) (known.optionalSites true decl.initial) := by
  intro known' hrun
  unfold checkVar at hrun
  unfold TypeLookup.learnVar TypeLookup.inferFrom
  cases hinitial : decl.initial with
  | none =>
      rw [hinitial] at hrun
      cases hrun
      exact ⟨rfl, fun _ hsite => by cases hsite⟩
  | some initial =>
      rw [hinitial] at hrun
      rcases bind_eq_ok_iff.mp hrun with ⟨_, known₁, hvalue, hrest⟩
      rcases (checkExpr_learns none initial).walks known hvalue with ⟨rfl, hfit⟩
      rcases bind_eq_ok_iff.mp hrest with ⟨inferred, _, hinferred, hrest⟩
      rcases typeOf_eq_ok_iff.mp hinferred with ⟨htype, rfl⟩
      refine ⟨?_, hfit⟩
      dsimp only
      split at hrest
      · next hany =>
          cases hrest
          rw [if_pos hany, htype]
      next hany =>
      rw [if_neg hany]
      rcases bind_eq_ok_iff.mp hrest with ⟨_, _, hdeclare, hrest⟩
      cases hdeclare
      rcases bind_eq_ok_iff.mp hrest with ⟨_, _, hget, hrest⟩
      cases hget
      split at hrest <;> cases hrest
      rfl

theorem checkExit_walks (around : Option Callable) (keyword : Token) (value : Expr)
    (known : TypeLookup) :
    Walks (checkExit around keyword value) known
      (if around.isSome then known.learnAll (value.assignments none) else known)
      (known.exprSites around.isSome value) := by
  cases around with
  | none => exact .skipped fun _ hsite => TypeLookup.checked_of_mem_sites _ _ hsite
  | some function =>
      intro known' hrun
      unfold checkExit at hrun
      dsimp only at hrun
      split at hrun
      · cases hrun
      rcases bind_eq_ok_iff.mp hrun with ⟨_, known₁, hvalue, hrest⟩
      rcases (checkExpr_learns none value).walks known hvalue with ⟨rfl, hfit⟩
      rcases bind_eq_ok_iff.mp hrest with ⟨inferred, _, htype, hrest⟩
      rcases typeOf_eq_ok_iff.mp htype with ⟨-, rfl⟩
      rcases bind_eq_ok_iff.mp hrest with ⟨_, _, hget, hrest⟩
      cases hget
      refine ⟨?_, hfit⟩
      split at hrest <;> cases hrest
      rfl

end Typing

namespace TypeLookup.Inside

variable {outer inner : TypeLookup}

theorem learnStmt (around : Option Callable) : ∀ (s : Stmt) {inner : TypeLookup},
    Inside outer inner → Inside outer (s.learn around inner)
  | .ifThen condition thenBranch none, _, h => by
      rw [Stmt.learn]
      exact learnStmt around thenBranch (h.learnAll _)
  | .ifThen condition thenBranch (some elseBranch), _, h => by
      rw [Stmt.learn]
      exact learnStmt around elseBranch (learnStmt around thenBranch (h.learnAll _))
  | .while condition body, _, h => by
      rw [Stmt.learn]
      exact learnStmt around body (h.learnAll _)
  | .exit _ (some value), _, h => by
      rw [Stmt.learn]
      split
      · exact h.learnAll _
      · exact h
  | .var decl, _, h => by
      rw [Stmt.learn]
      exact h.learnVar decl
  | .expression value, _, h => by
      rw [Stmt.learn]
      exact h.learnAll _
  | .exit _ none, _, h | .block _, _, h | .classDecl _, _, h | .enumDecl _, _, h
  | .function _, _, h | .try _ _ _ _, _, h | .print _ _, _, h | .raise _ _, _, h
  | .break _, _, h | .uses _ _, _, h => h

theorem learnBody (around : Option Callable) (body : List Stmt) (h : Inside outer inner) :
    Inside outer (inner.learnBody around body) :=
  foldl (fun _ s hknown => learnStmt around s hknown) body
    (foldl (fun _ s hknown => hknown.register s) body h)

theorem declareAll {α : Type} {list : List α} {symbol type : α → String}
    (h : Inside outer inner) :
    Inside outer (list.foldl (fun known x => known.declare (symbol x) (type x)) inner) :=
  foldl (fun _ _ hknown => hknown.declare _ _) list h

end TypeLookup.Inside

namespace Typing

/-- The check of statements behind the record of what they declare. -/
theorem declaring_walks {around : Option Callable} {body : List Stmt} {known : TypeLookup}
    {list : List AssignmentSite}
    (h : Walks (checkEach around body) (body.foldl register known)
      (known.learnBody around body) list) :
    Walks (declaring body (checkEach around body)) known (known.learnBody around body) list :=
  (Walks.modified _).followed h

theorem function_walks {around : Option Callable} {params : List Param} {body : List Stmt}
    {known : TypeLookup} {list : List AssignmentSite}
    (h : Walks (checkEach around body) (known.withParams params body)
      (body.foldl (Stmt.learn around) (known.withParams params body)) list) :
    Walks (inScope do declareParams params; declaring body (checkEach around body)) known known
      list :=
  .inScope ((Walks.modified _).followed (declaring_walks h))
    (.learnBody around body (.declareAll (.enter known)))

mutual

theorem checkStmt_walks (around : Option Callable) : ∀ (s : Stmt) (known : TypeLookup),
    Walks (checkStmt around s) known (s.learn around known) (s.sites around known)
  | .block body, known => by
      rw [checkStmt, Stmt.sites, Stmt.learn]
      exact .inScope (declaring_walks (checkEach_walks around body _))
        (.learnBody around body (.enter known))
  | .classDecl ⟨name, superclass, fields, _, methods⟩, known => by
      rw [checkStmt, Stmt.sites, Stmt.learn]
      refine .insideClass ?_
      cases superclass with
      | none =>
          refine .inScope ((Walks.modified _).followed (checkMethods_walks methods _)) ?_
          exact .declareAll (.enter _)
      | some parent =>
          refine .inScope (.inScope ((Walks.modified _).followed
            (checkMethods_walks methods _)) ?_) (.enter _)
          exact .declareAll (.enter _)
  | .function ⟨kind, _, params, returnType, body⟩, known => by
      rw [checkStmt, Stmt.sites, Stmt.learn]
      exact function_walks (checkEach_walks _ body _)
  | .ifThen condition thenBranch none, known => by
      rw [checkStmt, Stmt.sites, Stmt.learn]
      exact ((checkExpr_learns none condition).walks known).followed
        (checkStmt_walks around thenBranch _)
  | .ifThen condition thenBranch (some elseBranch), known => by
      rw [checkStmt, Stmt.sites, Stmt.learn, List.append_assoc]
      exact ((checkExpr_learns none condition).walks known).followed
        ((checkStmt_walks around thenBranch _).followed (checkStmt_walks around elseBranch _))
  | .while condition body, known => by
      rw [checkStmt, Stmt.sites, Stmt.learn]
      exact ((checkExpr_learns none condition).walks known).followed
        (checkStmt_walks around body _)
  | .try _ body handlers otherwise, known => by
      rw [checkStmt, Stmt.sites, Stmt.learn, List.append_assoc]
      have hbody := Walks.inScope (declaring_walks (checkEach_walks around body _))
        (.learnBody around body (.enter known))
      have hotherwise := Walks.inScope (declaring_walks (checkEach_walks around otherwise _))
        (.learnBody around otherwise (.enter known))
      exact hbody.followed ((checkHandlers_walks around handlers known).followed hotherwise)
  | .exit keyword (some value), known => by
      rw [checkStmt, Stmt.sites, Stmt.learn]
      exact checkExit_walks around keyword value known
  | .var decl, known => by
      rw [checkStmt, Stmt.sites, Stmt.learn]
      exact checkVar_walks decl known
  | .expression value, known => by
      rw [checkStmt, Stmt.sites, Stmt.learn]
      exact (checkExpr_learns none value).walks known
  | .print _ value, known => by
      rw [checkStmt, Stmt.sites, Stmt.learn]
      exact .skipped fun _ hsite => TypeLookup.checked_of_mem_sites _ _ hsite
  | .raise _ (some value), known => by
      rw [checkStmt, Stmt.sites, Stmt.learn]
      exact .skipped fun _ hsite => TypeLookup.checked_of_mem_sites _ _ hsite
  | .exit _ none, _ | .raise _ none, _ | .enumDecl _, _ | .break _, _ | .uses _ _, _ => by
      rw [checkStmt, Stmt.sites, Stmt.learn]
      exact .nothing

theorem checkEach_walks (around : Option Callable) : ∀ (list : List Stmt) (known : TypeLookup),
    Walks (checkEach around list) known (list.foldl (Stmt.learn around) known)
      (Stmt.listSites around known list)
  | [], known => by
      rw [checkEach, Stmt.listSites]
      exact .nothing
  | s :: rest, known => by
      rw [checkEach, Stmt.listSites]
      exact (checkStmt_walks around s known).followed (checkEach_walks around rest _)

theorem checkMethods_walks : ∀ (methods : List Function) (known : TypeLookup),
    Walks (checkMethods methods) known known (Stmt.methodSites known methods)
  | [], known => by
      rw [checkMethods, Stmt.methodSites]
      exact .nothing
  | ⟨kind, _, params, returnType, body⟩ :: rest, known => by
      rw [checkMethods, Stmt.methodSites]
      exact (function_walks (checkEach_walks _ body _)).followed (checkMethods_walks rest known)

theorem checkHandlers_walks (around : Option Callable) :
    ∀ (handlers : List (Handler Stmt)) (known : TypeLookup),
      Walks (checkHandlers around handlers) known known (Stmt.handlerSites around known handlers)
  | [], known => by
      rw [checkHandlers, Stmt.handlerSites]
      exact .nothing
  | ⟨name, typeName, body⟩ :: rest, known => by
      rw [checkHandlers, Stmt.handlerSites]
      have hbody := Walks.inScope ((Walks.modified fun known =>
        known.declare name.lexeme (typeName.getD anyType)).followed
          (checkStmt_walks around body (known.enter.declare name.lexeme (typeName.getD anyType))))
        (.learnStmt around body ((TypeLookup.Inside.enter known).declare _ _))
      exact hbody.followed (checkHandlers_walks around rest known)

end

def programSites (program : List Stmt) : List AssignmentSite :=
  Stmt.listSites none (program.foldl register .empty) program

/-- Every assignment in a program has a site.  If the check of the program reports nothing, then at
every site that is checked the type of the value is assignable to the type that the name is declared
with, if that is definite and not the one that the assignment is cast to. -/
theorem accepted_assignments_fit {program : List Stmt} (h : (checkProgram program).2 = []) :
    (programSites program).map AssignmentSite.assignment = Stmt.listAssignments program ∧
      ∀ site ∈ programSites program, site.checked = true → site.Fits := by
  refine ⟨Stmt.map_listSites none program _, ?_⟩
  have hrun : checkStmts none program .empty =
      checkEach none program (program.foldl register .empty) := rfl
  unfold checkProgram at h
  rw [hrun] at h
  cases hcheck : checkEach none program (program.foldl register .empty) with
  | error error known =>
      rw [hcheck] at h
      cases h
  | ok _ known => exact (checkEach_walks none program _ hcheck).2

def nameToken (lexeme : String) : Token where
  kind := .identifier
  lexeme
  position := .start
  file := "main.pas"

/-- `A := 2` -/
def numberAssigned : Assignment :=
  ⟨none, nameToken "A", .literal (.integer 2)⟩

/-- `A := 'text'` -/
def textAssigned : Assignment :=
  ⟨none, nameToken "A", .literal (.string "text")⟩

/-- A number is declared and assigned; then a text is assigned to it in what is printed, raised and
returned. -/
def misassigned : List Stmt :=
  let text := .assign 1 (nameToken "A") textAssigned.value
  [.var ⟨nameToken "A", "Integer", anyType, some (.literal (.integer 1))⟩,
    .expression (.assign 0 (nameToken "A") numberAssigned.value),
    .print (nameToken "print") text, .raise (nameToken "raise") (some text),
    .exit (nameToken "exit") (some text)]

/-- The number fits and the text does not, but nothing is reported: where the text is assigned, no
assignment is checked. -/
theorem accepted_assignments_fit_misassigned :
    (checkProgram misassigned).2 = [] ∧
      ∃ known, programSites misassigned =
          [⟨numberAssigned, known, true⟩, ⟨textAssigned, known, false⟩,
            ⟨textAssigned, known, false⟩, ⟨textAssigned, known, false⟩] ∧
        numberAssigned.Fits known ∧ ¬textAssigned.Fits known := by
  have haccepted : (checkProgram misassigned).2 = [] := by decide +kernel
  refine ⟨haccepted, _, rfl, ?_, ?_⟩
  · exact (accepted_assignments_fit haccepted).2 _ List.mem_cons_self rfl
  · intro hfits
    rcases hfits "Integer" rfl rfl rfl with ⟨actual, htype, hassignable⟩
    cases htype
    exact absurd hassignable (by decide +kernel)

end Typing

end MiniPascal
