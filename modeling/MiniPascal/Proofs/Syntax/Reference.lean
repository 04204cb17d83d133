import MiniPascal.Proofs.Syntax.Mention
import MiniPascal.Syntax.Stmt

/-!
# References to names

A reference is a mention of a name together with its place: the scopes around it, innermost first,
each with what opens it and the names declared in it before the reference.  The declaration that a
reference is about is the one in the nearest scope that has the name.
-/

namespace MiniPascal

/-- A name that a program can declare. -/
def Declarable (name : String) : Prop :=
  name ≠ "this" ∧ name ≠ "super"

theorem not_declarable_this : ¬Declarable "this" :=
  fun h => h.1 rfl

theorem not_declarable_super : ¬Declarable "super" :=
  fun h => h.2 rfl

/-- What opens a scope. -/
inductive Region where
  | block (body : List Stmt)
  | handler (handler : Handler Stmt)
  | function (decl : Function)
  /-- The scope of `super` around the methods of a class. -/
  | parent (decl : ClassDecl Stmt)
  /-- The scope of `this` around a method. -/
  | receiver (method : Function)

/-- A scope with the names declared in it so far. -/
structure LexicalScope where
  region : Region
  names : List String

/-- The scopes around a place, innermost first; there are none around top-level code. -/
abbrev Place := List LexicalScope

namespace Place

def enter (p : Place) (region : Region) (names : List String) : Place :=
  ⟨region, names⟩ :: p

def declare (p : Place) (names : List String) : Place :=
  match p with
  | [] => []
  | scope :: outer => { scope with names := scope.names ++ names } :: outer

/-- How many scopes lie between a place and the nearest one that has a name. -/
def distance? (p : Place) (name : String) : Option Nat :=
  p.findIdx? fun scope => decide (name ∈ scope.names)

/-- Inside a class that extends another one, `super` is right outside of `this`. -/
def Derived (p : Place) : Prop :=
  ∃ nearer, p.distance? "this" = some nearer ∧ p.distance? "super" = some (nearer + 1)

@[simp] theorem declare_nil (p : Place) : p.declare [] = p := by
  cases p <;> simp [declare]

theorem declare_append (p : Place) (xs ys : List String) :
    p.declare (xs ++ ys) = (p.declare xs).declare ys := by
  cases p <;> simp [declare]

@[simp] theorem length_declare (p : Place) (names : List String) :
    (p.declare names).length = p.length := by
  cases p <;> rfl

@[simp] theorem tail_declare (p : Place) (names : List String) :
    (p.declare names).tail = p.tail := by
  cases p <;> rfl

theorem distance?_declare {p : Place} {names : List String} {name : String}
    (h : p = [] ∨ name ∉ names) : (p.declare names).distance? name = p.distance? name := by
  cases p with
  | nil => rfl
  | cons scope outer =>
      have hname : name ∉ names := by
        rcases h with h | h
        · cases h
        · exact h
      simp [declare, distance?, List.findIdx?_cons, hname]

theorem scope_of_distance? {p : Place} {name : String} {d : Nat}
    (h : p.distance? name = some d) : ∃ scope, p[d]? = some scope ∧ name ∈ scope.names := by
  rcases List.findIdx?_eq_some_iff_getElem.mp h with ⟨hlt, hname, -⟩
  exact ⟨p[d], List.getElem?_eq_getElem hlt, of_decide_eq_true hname⟩

/-- Only to no distance at all can declarations bring a name. -/
theorem distance?_of_declare {p : Place} {names : List String} {name : String} {d : Nat}
    (h : (p.declare names).distance? name = some d) : d = 0 ∨ p.distance? name = some d := by
  cases p with
  | nil => exact .inr h
  | cons scope outer =>
      by_cases hname : name ∈ scope.names ++ names
      · simp only [declare, distance?, List.findIdx?_cons, hname, decide_true, if_true,
          Option.some.injEq] at h
        exact .inl h.symm
      · refine .inr ?_
        rw [← h, distance?_declare (.inr fun hmem => hname (List.mem_append_right _ hmem))]

/-- A name that has a distance keeps one when more names are declared. -/
theorem isSome_distance?_declare {p : Place} {names : List String} {name : String}
    (h : (p.distance? name).isSome) : ((p.declare names).distance? name).isSome := by
  cases p with
  | nil => exact h
  | cons scope outer =>
      simp only [declare, distance?, List.findIdx?_isSome, List.any_cons, List.mem_append,
        Bool.or_eq_true, decide_eq_true_iff] at h ⊢
      exact h.imp_left .inl

end Place

/-- A mention of a name at a place. -/
structure Reference where
  mention : Mention
  place : Place
  /-- The name is just being declared, and its own declaration may not read it. -/
  pending : Bool

namespace Reference

def distance? (r : Reference) : Option Nat :=
  r.place.distance? r.mention.name

/-- If the first of two references reads a name, or one that cannot be declared, the other one has
another number, or is the same mention at the same distance and as deep. -/
def Coherent (N : String → Prop) (v w : Reference) : Prop :=
  v.mention.use = .read ∨ ¬N v.mention.name → v.mention.id = w.mention.id →
    w.mention = v.mention ∧ w.distance? = v.distance? ∧ w.place.length = v.place.length

/-- Two references have different numbers, or are the same mention in the same outer scopes. -/
def Twins (v w : Reference) : Prop :=
  v.mention.id = w.mention.id → w.mention = v.mention ∧ w.place.tail = v.place.tail

end Reference

namespace Mention

/-- A mention at a place. -/
def located (p : Place) (m : Mention) : Reference where
  mention := m
  place := p
  pending := false

/-- A mention at a place, in the first value of the variable `own`. -/
def initial (p : Place) (own : String) (m : Mention) : Reference where
  mention := m
  place := p
  pending := !p.isEmpty && decide (m.use = .read ∧ m.name = own)

end Mention

/-! ## Declared names -/

namespace EnumDecl

def declared (decl : EnumDecl) : List String :=
  decl.members.map Token.lexeme

end EnumDecl

namespace FunctionDecl

def paramNames (decl : FunctionDecl S) : List String :=
  decl.params.map fun param => param.name.lexeme

end FunctionDecl

namespace ClassDecl

/-- The names that a class declares: those of its enumerations, then its own. -/
def declared (decl : ClassDecl S) : List String :=
  decl.enums.flatMap EnumDecl.declared ++ [decl.name.lexeme]

end ClassDecl

namespace Place

/-- The place around the methods of a class, which is declared at a place. -/
def insideClass (p : Place) (decl : ClassDecl Stmt) : Place :=
  match decl.superclass with
  | some _ => (p.declare decl.declared).enter (.parent decl) ["super"]
  | none => p.declare decl.declared

end Place

namespace Stmt

/-- The names that a statement declares in the scope it stands in. -/
def declared : Stmt → List String
  | .classDecl decl => decl.declared
  | .enumDecl decl => decl.declared
  | .function decl => [decl.name.lexeme]
  | .var decl => [decl.name.lexeme]
  | _ => []

/-- The names that statements declare. -/
def declaredBy (list : List Stmt) : List String :=
  list.flatMap declared

/-! ## References of statements -/

/-- The reference of a class to its superclass, at the place of the class. -/
def parentReferences (p : Place) (decl : ClassDecl Stmt) : List Reference :=
  match decl.superclass with
  | some parent =>
      [{ mention := ⟨parent.id, parent.name.lexeme, .read⟩
         place := p.declare decl.declared
         pending := decide (parent.name.lexeme = decl.name.lexeme) }]
  | none => []

def optionalReferences (p : Place) (value : Option Expr) : List Reference :=
  match value with
  | some e => e.mentions.map (Mention.located p)
  | none => []

/-- The references of the first value of a variable. -/
def initialReferences (p : Place) (decl : VarDecl) : List Reference :=
  match decl.initial with
  | some e => e.mentions.map (Mention.initial p decl.name.lexeme)
  | none => []

mutual

/-- The references of a statement at a place. -/
def references (p : Place) : Stmt → List Reference
  | .block body => listReferences (p.enter (.block body) []) body
  | .classDecl ⟨name, superclass, fields, enums, methods⟩ =>
      parentReferences p ⟨name, superclass, fields, enums, methods⟩ ++
        methodReferences (p.insideClass ⟨name, superclass, fields, enums, methods⟩) methods
  | .enumDecl _ => []
  | .function ⟨kind, name, params, returnType, body⟩ =>
      listReferences ((p.declare [name.lexeme]).enter
        (.function ⟨kind, name, params, returnType, body⟩)
        (params.map fun param => param.name.lexeme)) body
  | .ifThen condition thenBranch none =>
      condition.mentions.map (Mention.located p) ++ references p thenBranch
  | .ifThen condition thenBranch (some elseBranch) =>
      condition.mentions.map (Mention.located p) ++ references p thenBranch ++
        references p elseBranch
  | .while condition body => condition.mentions.map (Mention.located p) ++ references p body
  | .try _ body handlers otherwise =>
      listReferences (p.enter (.block body) []) body ++ handlerReferences p handlers ++
        listReferences (p.enter (.block otherwise) []) otherwise
  | .print _ value => value.mentions.map (Mention.located p)
  | .exit _ value => optionalReferences p value
  | .raise _ value => optionalReferences p value
  | .var decl => initialReferences p decl
  | .break _ => []
  | .expression value => value.mentions.map (Mention.located p)
  | .uses _ _ => []

def listReferences (p : Place) : List Stmt → List Reference
  | [] => []
  | s :: rest => references p s ++ listReferences (p.declare s.declared) rest

def methodReferences (p : Place) : List Function → List Reference
  | [] => []
  | ⟨kind, name, params, returnType, body⟩ :: rest =>
      listReferences ((p.enter (.receiver ⟨kind, name, params, returnType, body⟩) ["this"]).enter
        (.function ⟨kind, name, params, returnType, body⟩)
        (params.map fun param => param.name.lexeme)) body ++ methodReferences p rest

def handlerReferences (p : Place) : List (Handler Stmt) → List Reference
  | [] => []
  | ⟨name, typeName, body⟩ :: rest =>
      references (p.enter (.handler ⟨name, typeName, body⟩) [name.lexeme]) body ++
        handlerReferences p rest

end

section Tidy

variable (N : String → Prop)

mutual

/-- Only statements of a list declare names, and all names of declarations and units satisfy `N`. -/
def Tidy : Stmt → Prop
  | .block body => TidyList body
  | .classDecl ⟨name, _, _, enums, methods⟩ =>
      N name.lexeme ∧ (∀ decl ∈ enums, ∀ member ∈ decl.members, N member.lexeme) ∧
        TidyMethods methods
  | .enumDecl decl => ∀ member ∈ decl.members, N member.lexeme
  | .function ⟨_, name, params, _, body⟩ =>
      N name.lexeme ∧ (∀ param ∈ params, N param.name.lexeme) ∧ TidyList body
  | .ifThen _ thenBranch none => thenBranch.declared = [] ∧ Tidy thenBranch
  | .ifThen _ thenBranch (some elseBranch) =>
      thenBranch.declared = [] ∧ Tidy thenBranch ∧ elseBranch.declared = [] ∧ Tidy elseBranch
  | .while _ body => body.declared = [] ∧ Tidy body
  | .try _ body handlers otherwise => TidyList body ∧ TidyHandlers handlers ∧ TidyList otherwise
  | .var decl => N decl.name.lexeme
  | .uses _ unit => N unit.lexeme
  | .print _ _ | .exit _ _ | .raise _ _ | .break _ | .expression _ => True

def TidyList : List Stmt → Prop
  | [] => True
  | s :: rest => Tidy s ∧ TidyList rest

def TidyMethods : List Function → Prop
  | [] => True
  | ⟨_, _, params, _, body⟩ :: rest =>
      (∀ param ∈ params, N param.name.lexeme) ∧ TidyList body ∧ TidyMethods rest

def TidyHandlers : List (Handler Stmt) → Prop
  | [] => True
  | ⟨name, _, body⟩ :: rest =>
      N name.lexeme ∧ body.declared = [] ∧ Tidy body ∧ TidyHandlers rest

end

end Tidy

end Stmt

end MiniPascal
