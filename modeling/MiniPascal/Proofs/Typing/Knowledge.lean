import MiniPascal.Proofs.Sequence
import MiniPascal.Proofs.Syntax.Assignment
import MiniPascal.Typing.Check

/-!
# What a passed check has learnt

A check that passes has learnt the types of what is assigned to names without a type, and of the
variables declared on its way.  Whatever it learns in a scope is forgotten behind it.
-/

namespace MiniPascal

open Typing

/-! ## Expressions -/

/-- A name of a definite type, to which the assignment is not cast, is assigned a value that is
assignable to that type. -/
def Assignment.Fits (known : TypeLookup) (a : Assignment) : Prop :=
  ∀ expected, known.declared.find? a.name.lexeme = some expected → isAny expected = false →
    isCastTo a.cast expected = false →
    ∃ actual, known.typeOf a.value = .ok actual ∧ known.isAssignable expected actual = true

namespace TypeLookup

/-- Takes the type of a value for that of a name. -/
def inferFrom (known : TypeLookup) (name : Token) (value : Expr) : TypeLookup :=
  match known.typeOf value with
  | .ok type => known.infer name.lexeme type
  | .error _ => known

/-- What is known behind an assignment.  A name that is declared without a type takes on that of
the value. -/
def learn (known : TypeLookup) (a : Assignment) : TypeLookup :=
  match known.declared.find? a.name.lexeme with
  | none => known
  | some expected =>
      if isAny expected && !isCastTo a.cast expected then known.inferFrom a.name a.value
      else known

def learnAll (known : TypeLookup) (list : List Assignment) : TypeLookup :=
  list.foldl learn known

/-- Every assignment fits in with what is known behind those before it. -/
def AllFit : TypeLookup → List Assignment → Prop
  | _, [] => True
  | known, a :: rest => a.Fits known ∧ AllFit (known.learn a) rest

theorem learnAll_append (known : TypeLookup) (first second : List Assignment) :
    known.learnAll (first ++ second) = (known.learnAll first).learnAll second :=
  List.foldl_append

theorem allFit_append {known : TypeLookup} {first second : List Assignment} :
    known.AllFit (first ++ second) ↔ known.AllFit first ∧ (known.learnAll first).AllFit second := by
  induction first generalizing known with
  | nil => exact (iff_of_eq (true_and _)).symm
  | cons a rest ih =>
      rw [List.cons_append, AllFit, AllFit, ih, and_assoc]
      rfl

end TypeLookup

namespace Typing

variable {known known' : TypeLookup}

theorem typeOf_eq_ok_iff {e : Expr} {type : String} :
    typeOf e known = .ok type known' ↔ known.typeOf e = .ok type ∧ known = known' := by
  show (match known.typeOf e with
    | .ok type => (pure type : Check String)
    | .error error => throw error) known = _ ↔ _
  cases known.typeOf e with
  | ok found =>
      constructor
      · intro h
        cases h
        exact ⟨rfl, rfl⟩
      · rintro ⟨h, rfl⟩
        cases h
        rfl
  | error error =>
      constructor
      · intro h
        cases h
      · rintro ⟨h, -⟩
        cases h

/-- A check of assignments has passed: each of them fits, and they are what has been learnt. -/
def Learns (check : Check Unit) (list : List Assignment) : Prop :=
  ∀ ⦃known known'⦄, check known = .ok () known' → known' = known.learnAll list ∧ known.AllFit list

namespace Learns

theorem nothing : Learns (pure ()) [] := by
  intro known known' h
  cases h
  exact ⟨rfl, trivial⟩

theorem followed {first second : Check Unit} {list list' : List Assignment}
    (hfirst : Learns first list) (hsecond : Learns second list') :
    Learns (do first; second) (list ++ list') := by
  intro known known' h
  rcases bind_eq_ok_iff.mp h with ⟨_, known₁, h₁, h₂⟩
  rcases hfirst h₁ with ⟨rfl, hfit⟩
  rcases hsecond h₂ with ⟨rfl, hfit'⟩
  exact ⟨(TypeLookup.learnAll_append ..).symm, TypeLookup.allFit_append.mpr ⟨hfit, hfit'⟩⟩

/-- A check that only looks at what is known adds nothing. -/
theorem looking {first : Check Unit} {look : Check Unit} {list : List Assignment}
    (hfirst : Learns first list)
    (hlook : ∀ ⦃known known'⦄, look known = .ok () known' → known' = known) :
    Learns (do first; look) list := by
  intro known known' h
  rcases bind_eq_ok_iff.mp h with ⟨_, known₁, h₁, h₂⟩
  rw [hlook h₂]
  exact hfirst h₁

end Learns

theorem checkAssign_cases {cast : Option String} {name : Token} {value : Expr}
    (h : checkAssign cast name value known = .ok () known') :
    known.declared.find? name.lexeme = none ∧ known' = known ∨
    ∃ expected, known.declared.find? name.lexeme = some expected ∧
      (isCastTo cast expected = true ∧ known' = known ∨
        isCastTo cast expected = false ∧ ∃ actual, known.typeOf value = .ok actual ∧
          (isAny expected = true ∧ known' = known.infer name.lexeme actual ∨
            isAny expected = false ∧ known.isAssignable expected actual = true ∧
              known' = known)) := by
  unfold checkAssign at h
  rcases bind_eq_ok_iff.mp h with ⟨_, _, hget, hrest⟩
  cases hget
  cases hdeclared : known.declared.find? name.lexeme with
  | none =>
      rw [hdeclared] at hrest
      cases hrest
      exact .inl ⟨rfl, rfl⟩
  | some expected =>
      rw [hdeclared] at hrest
      refine .inr ⟨expected, rfl, ?_⟩
      dsimp only at hrest
      split at hrest
      · next hcast =>
          cases hrest
          exact .inl ⟨hcast, rfl⟩
      next hcast =>
      rcases bind_eq_ok_iff.mp hrest with ⟨actual, _, hvalue, hrest⟩
      rcases typeOf_eq_ok_iff.mp hvalue with ⟨htype, rfl⟩
      refine .inr ⟨Bool.eq_false_iff.mpr hcast, actual, htype, ?_⟩
      split at hrest
      · next hany =>
          cases hrest
          exact .inl ⟨hany, rfl⟩
      next hany =>
      rcases bind_eq_ok_iff.mp hrest with ⟨_, _, hget, hrest⟩
      cases hget
      split at hrest
      · next hassignable =>
          cases hrest
          exact .inr ⟨Bool.eq_false_iff.mpr hany, hassignable, rfl⟩
      · cases hrest

theorem checkAssign_learns (cast : Option String) (name : Token) (value : Expr) :
    Learns (checkAssign cast name value) [⟨cast, name, value⟩] := by
  intro known known' h
  show known' = known.learn ⟨cast, name, value⟩ ∧ Assignment.Fits known ⟨cast, name, value⟩ ∧ True
  unfold TypeLookup.learn TypeLookup.inferFrom Assignment.Fits
  rcases checkAssign_cases h with ⟨hdeclared, rfl⟩ | ⟨expected, hdeclared, hrest⟩
  · simp [hdeclared]
  rcases hrest with ⟨hcast, rfl⟩ | ⟨hcast, actual, htype, ⟨hany, rfl⟩ | ⟨hany, hassignable, rfl⟩⟩
  · simp [hdeclared, hcast]
  · simp [hdeclared, hcast, htype, hany]
  · simp [hdeclared, hcast, htype, hany, hassignable]

theorem checkSet_looks {cast : Option String} {object : Expr} {name : Token} {inferred : String}
    (h : checkSet cast object name inferred known = .ok () known') : known' = known := by
  unfold checkSet at h
  rcases bind_eq_ok_iff.mp h with ⟨receiver, _, htype, hrest⟩
  rcases typeOf_eq_ok_iff.mp htype with ⟨-, rfl⟩
  rcases bind_eq_ok_iff.mp hrest with ⟨_, _, hget, hrest⟩
  cases hget
  cases hfound : (known.declared.find? (memberSymbol receiver name.lexeme)).or
      (known.declared.find? name.lexeme) with
  | none =>
      rw [hfound] at hrest
      cases hrest
      rfl
  | some expected =>
      rw [hfound] at hrest
      dsimp only at hrest
      split at hrest <;> cases hrest
      rfl

mutual

theorem checkExpr_learns (cast : Option String) :
    ∀ e : Expr, Learns (checkExpr cast e) (e.assignments cast)
  | .literal _ | .variable _ _ | .this _ _ | .super _ _ _ => by
      rw [checkExpr]
      exact .nothing
  | .cast inner typeName => by
      rw [checkExpr]
      exact checkExpr_learns (some typeName) inner
  | .unary _ _ operand => by
      rw [checkExpr]
      exact checkExpr_learns none operand
  | .grouping inner => by
      rw [checkExpr]
      exact checkExpr_learns none inner
  | .get object _ => by
      rw [checkExpr]
      exact checkExpr_learns none object
  | .binary left _ _ right => by
      rw [checkExpr]
      exact (checkExpr_learns none left).followed (checkExpr_learns none right)
  | .logical left _ _ right => by
      rw [checkExpr]
      exact (checkExpr_learns none left).followed (checkExpr_learns none right)
  | .subscript _ object index => by
      rw [checkExpr]
      exact (checkExpr_learns none object).followed (checkExpr_learns none index)
  | .call callee _ arguments => by
      rw [checkExpr]
      exact (checkExpr_learns none callee).followed (checkExprs_learns arguments)
  | .map _ entries => by
      rw [checkExpr]
      exact checkEntries_learns entries
  | .assign _ name value => by
      rw [checkExpr]
      exact (checkExpr_learns none value).followed (checkAssign_learns cast name value)
  | .set object name value => by
      rw [checkExpr]
      intro known known' h
      rcases bind_eq_ok_iff.mp h with ⟨inferred, known₁, htype, hrest⟩
      rcases typeOf_eq_ok_iff.mp htype with ⟨-, rfl⟩
      refine (checkExpr_learns none value).followed
        ((checkExpr_learns none object).looking ?_) hrest
      exact fun _ _ hset => checkSet_looks hset

theorem checkExprs_learns : ∀ list : List Expr, Learns (checkExprs list) (Expr.listAssignments list)
  | [] => by
      rw [checkExprs]
      exact .nothing
  | e :: rest => by
      rw [checkExprs]
      exact (checkExpr_learns none e).followed (checkExprs_learns rest)

theorem checkEntries_learns :
    ∀ list : List (Expr × Expr), Learns (checkEntries list) (Expr.entryAssignments list)
  | [] => by
      rw [checkEntries]
      exact .nothing
  | (key, value) :: rest => by
      rw [checkEntries]
      rw [Expr.entryAssignments, List.append_assoc]
      exact (checkExpr_learns none key).followed
        ((checkExpr_learns none value).followed (checkEntries_learns rest))

end

end Typing

/-! ## Scopes -/

/-- A table with one more scope than another one, which is otherwise the same. -/
def TypeTable.Inside (outer inner : TypeTable) : Prop :=
  ∃ scope, inner = { outer with scopes := scope :: outer.scopes }

namespace TypeTable.Inside

variable {outer inner : TypeTable}

theorem enter (table : TypeTable) : Inside table table.enter :=
  ⟨∅, rfl⟩

theorem leave (h : Inside outer inner) : inner.leave = outer := by
  rcases h with ⟨scope, rfl⟩
  rfl

theorem set (h : Inside outer inner) (symbol type : String) :
    Inside outer (inner.set symbol type) := by
  rcases h with ⟨scope, rfl⟩
  exact ⟨scope.insert symbol type, rfl⟩

end TypeTable.Inside

/-- What is known in a scope: all that is known outside, and what the scope adds. -/
structure TypeLookup.Inside (outer inner : TypeLookup) : Prop where
  declared : outer.declared.Inside inner.declared
  inferred : outer.inferred.Inside inner.inferred
  parents : outer.parents.Inside inner.parents
  generics : outer.generics.Inside inner.generics
  currentClass : inner.currentClass = outer.currentClass

namespace TypeLookup

/-- What is known behind the declaration of a variable. -/
def learnVar (known : TypeLookup) (decl : VarDecl) : TypeLookup :=
  match decl.initial with
  | none => known
  | some initial =>
      let known := known.learnAll (initial.assignments none)
      if isAny decl.typeName then known.inferFrom decl.name initial
      else known.declare decl.name.lexeme decl.typeName

namespace Inside

variable {outer inner : TypeLookup}

theorem enter (known : TypeLookup) : Inside known known.enter :=
  ⟨.enter _, .enter _, .enter _, .enter _, rfl⟩

theorem leave (h : Inside outer inner) : inner.leave = outer := by
  unfold TypeLookup.leave
  rw [h.declared.leave, h.inferred.leave, h.parents.leave, h.generics.leave, h.currentClass]

theorem foldl {f : TypeLookup → α → TypeLookup}
    (hf : ∀ known x, Inside outer known → Inside outer (f known x)) :
    ∀ (list : List α) {inner : TypeLookup}, Inside outer inner →
      Inside outer (list.foldl f inner)
  | [], _, h => h
  | x :: rest, _, h => foldl hf rest (hf _ x h)

variable (h : Inside outer inner)
include h

theorem declare (symbol type : String) : Inside outer (inner.declare symbol type) :=
  ⟨h.declared.set symbol type, h.inferred, h.parents, h.generics, h.currentClass⟩

theorem infer (symbol type : String) : Inside outer (inner.infer symbol type) :=
  ⟨h.declared, h.inferred.set symbol type, h.parents, h.generics, h.currentClass⟩

theorem inherit (name parent : String) : Inside outer (inner.inherit name parent) :=
  ⟨h.declared, h.inferred, h.parents.set name parent, h.generics, h.currentClass⟩

theorem specialize (symbol type : String) : Inside outer (inner.specialize symbol type) :=
  ⟨h.declared, h.inferred, h.parents, h.generics.set symbol type, h.currentClass⟩

theorem inferFrom (name : Token) (value : Expr) : Inside outer (inner.inferFrom name value) := by
  unfold TypeLookup.inferFrom
  split
  · exact h.infer _ _
  · exact h

theorem learn (a : Assignment) : Inside outer (inner.learn a) := by
  unfold TypeLookup.learn
  split
  · exact h
  split
  · exact h.inferFrom a.name a.value
  · exact h

theorem learnAll (list : List Assignment) : Inside outer (inner.learnAll list) :=
  foldl (fun _ a hknown => hknown.learn a) list h

theorem learnVar (decl : VarDecl) : Inside outer (inner.learnVar decl) := by
  unfold TypeLookup.learnVar
  split
  · exact h
  dsimp only
  split
  · exact (h.learnAll _).inferFrom _ _
  · exact (h.learnAll _).declare _ _

theorem registerEnum (decl : EnumDecl) : Inside outer (registerEnum inner decl) :=
  foldl (fun _ _ hknown => hknown.declare _ _) decl.members h

theorem registerClass (decl : ClassDecl Stmt) : Inside outer (registerClass inner decl) := by
  have hnamed := (h.inherit decl.name.lexeme
    ((decl.superclass.map (·.name.lexeme)).getD anyType)).declare decl.name.lexeme decl.name.lexeme
  have henums := foldl (fun _ enum hknown => hknown.registerEnum enum) decl.enums hnamed
  have hmethods := foldl (f := registerMethod decl.name.lexeme)
    (fun _ _ hknown => hknown.declare _ _) decl.methods henums
  exact foldl (fun _ _ hknown => (hknown.declare _ _).specialize _ _) decl.fields hmethods

theorem register (s : Stmt) : Inside outer (register inner s) := by
  cases s with
  | enumDecl decl => exact h.registerEnum decl
  | function decl => exact h.declare _ _
  | classDecl decl => exact h.registerClass decl
  | var decl => exact (h.declare _ _).specialize _ _
  | _ => exact h

end Inside

end TypeLookup

end MiniPascal
