import MiniPascal.Syntax.Stmt

/-!
# Trees with their numbers moved up

A tree is moved up by adding the same number to those of all its nodes.  Everything else stays, and
lowered statements are those of the parts.
-/

namespace MiniPascal

variable (k : Nat)

/-! ## Expressions -/

namespace Expr

mutual

def shift : Expr → Expr
  | .literal value => .literal value
  | .unary op token operand => .unary op token (shift operand)
  | .binary left op token right => .binary (shift left) op token (shift right)
  | .logical left op token right => .logical (shift left) op token (shift right)
  | .grouping inner => .grouping (shift inner)
  | .variable id name => .variable (k + id) name
  | .assign id name value => .assign (k + id) name (shift value)
  | .call callee paren arguments => .call (shift callee) paren (shiftList arguments)
  | .get object name => .get (shift object) name
  | .set object name value => .set (shift object) name (shift value)
  | .subscript bracket object index => .subscript bracket (shift object) (shift index)
  | .map bracket entries => .map bracket (shiftEntries entries)
  | .this id keyword => .this (k + id) keyword
  | .super id keyword method => .super (k + id) keyword method
  | .cast inner typeName => .cast (shift inner) typeName

def shiftList : List Expr → List Expr
  | [] => []
  | e :: rest => shift e :: shiftList rest

def shiftEntries : List (Expr × Expr) → List (Expr × Expr)
  | [] => []
  | (key, value) :: rest => (shift key, shift value) :: shiftEntries rest

end

def shiftEntry (entry : Expr × Expr) : Expr × Expr :=
  (entry.1.shift k, entry.2.shift k)

theorem shiftList_eq_map (list : List Expr) : shiftList k list = list.map (shift k) := by
  induction list with
  | nil => rfl
  | cons e rest ih => rw [shiftList, List.map_cons, ih]

theorem shiftEntries_eq_map (entries : List (Expr × Expr)) :
    shiftEntries k entries = entries.map (shiftEntry k) := by
  induction entries with
  | nil => rfl
  | cons entry rest ih =>
      obtain ⟨key, value⟩ := entry
      rw [shiftEntries, List.map_cons, ih, shiftEntry]

end Expr

/-! ## Statements -/

/-- A variable with its first value moved up. -/
def VarDecl.shift (decl : VarDecl) : VarDecl :=
  { decl with initial := decl.initial.map (Expr.shift k) }

def Superclass.shift (parent : Superclass) : Superclass :=
  { parent with id := k + parent.id }

namespace Stmt

mutual

def shift : Stmt → Stmt
  | .block body => .block (shiftList body)
  | .classDecl ⟨name, superclass, fields, enums, methods⟩ =>
      .classDecl ⟨name, superclass.map (Superclass.shift k), fields, enums, shiftMethods methods⟩
  | .enumDecl decl => .enumDecl decl
  | .function ⟨kind, name, params, returnType, body⟩ =>
      .function ⟨kind, name, params, returnType, shiftList body⟩
  | .ifThen condition thenBranch none => .ifThen (condition.shift k) (shift thenBranch) none
  | .ifThen condition thenBranch (some elseBranch) =>
      .ifThen (condition.shift k) (shift thenBranch) (some (shift elseBranch))
  | .while condition body => .while (condition.shift k) (shift body)
  | .try keyword body handlers otherwise =>
      .try keyword (shiftList body) (shiftHandlers handlers) (shiftList otherwise)
  | .print keyword value => .print keyword (value.shift k)
  | .exit keyword value => .exit keyword (value.map (Expr.shift k))
  | .raise keyword value => .raise keyword (value.map (Expr.shift k))
  | .var decl => .var (decl.shift k)
  | .break keyword => .break keyword
  | .expression value => .expression (value.shift k)
  | .uses keyword unit => .uses keyword unit

def shiftList : List Stmt → List Stmt
  | [] => []
  | s :: rest => shift s :: shiftList rest

def shiftMethods : List Function → List Function
  | [] => []
  | ⟨kind, name, params, returnType, body⟩ :: rest =>
      ⟨kind, name, params, returnType, shiftList body⟩ :: shiftMethods rest

def shiftHandlers : List (Handler Stmt) → List (Handler Stmt)
  | [] => []
  | ⟨name, typeName, body⟩ :: rest => ⟨name, typeName, shift body⟩ :: shiftHandlers rest

end

theorem shiftList_eq_map (list : List Stmt) : shiftList k list = list.map (shift k) := by
  induction list with
  | nil => rfl
  | cons s rest ih => rw [shiftList, List.map_cons, ih]

end Stmt

def Function.shift (decl : Function) : Function :=
  { decl with body := Stmt.shiftList k decl.body }

/-- A class with its superclass and the bodies of its methods moved up. -/
def ClassDecl.shift (decl : ClassDecl Stmt) : ClassDecl Stmt :=
  { decl with
    superclass := decl.superclass.map (Superclass.shift k)
    methods := decl.methods.map (Function.shift k) }

def Handler.shift (handler : Handler Stmt) : Handler Stmt :=
  { handler with body := handler.body.shift k }

namespace Stmt

theorem shiftMethods_eq_map (methods : List Function) :
    shiftMethods k methods = methods.map (Function.shift k) := by
  induction methods with
  | nil => rfl
  | cons decl rest ih => rw [shiftMethods, List.map_cons, ih, Function.shift]

theorem shiftHandlers_eq_map (handlers : List (Handler Stmt)) :
    shiftHandlers k handlers = handlers.map (Handler.shift k) := by
  induction handlers with
  | nil => rfl
  | cons handler rest ih => rw [shiftHandlers, List.map_cons, ih, Handler.shift]

theorem shift_function (decl : Function) :
    (Stmt.function decl).shift k = .function (decl.shift k) := by
  rw [shift, Function.shift]

theorem shift_classDecl (decl : ClassDecl Stmt) :
    (Stmt.classDecl decl).shift k = .classDecl (decl.shift k) := by
  rw [shift, ClassDecl.shift, shiftMethods_eq_map]

theorem shift_ifThen (condition : Expr) (thenBranch : Stmt) (elseBranch : Option Stmt) :
    (Stmt.ifThen condition thenBranch elseBranch).shift k =
      .ifThen (condition.shift k) (thenBranch.shift k) (elseBranch.map (shift k)) := by
  cases elseBranch <;> rw [shift] <;> rfl

/-! ## Lowered statements -/

theorem shift_lowerFor (initial : Option Stmt) (condition increment : Option Expr) (body : Stmt) :
    (lowerFor initial condition increment body).shift k =
      lowerFor (initial.map (shift k)) (condition.map (Expr.shift k))
        (increment.map (Expr.shift k)) (body.shift k) := by
  have hcondition : (condition.getD (.literal (.boolean true))).shift k =
      (condition.map (Expr.shift k)).getD (.literal (.boolean true)) := by
    cases condition <;> simp [Expr.shift]
  cases initial <;> cases increment <;> simp [lowerFor, shift, shiftList, hcondition]

theorem shift_lowerCase (arms : List (Expr × Stmt)) (otherwise : Option Stmt) :
    (lowerCase arms otherwise).map (shift k) =
      lowerCase (arms.map fun arm => (arm.1.shift k, arm.2.shift k))
        (otherwise.map (shift k)) := by
  induction arms with
  | nil => rfl
  | cons arm rest ih =>
      simp only [lowerCase, List.foldr_cons, List.map_cons, Option.map_some] at ih ⊢
      rw [shift_ifThen, ih]

end Stmt

/-! ## Moving up by nothing -/

namespace Expr

mutual

theorem shift_zero (e : Expr) : e.shift 0 = e := by
  cases e with
  | call callee paren arguments => rw [shift, shift_zero callee, shiftList_zero arguments]
  | map bracket entries => rw [shift, shiftEntries_zero entries]
  | unary op token operand => rw [shift, shift_zero operand]
  | binary left op token right => rw [shift, shift_zero left, shift_zero right]
  | logical left op token right => rw [shift, shift_zero left, shift_zero right]
  | grouping inner => rw [shift, shift_zero inner]
  | «variable» id name => rw [shift, Nat.zero_add]
  | assign id name value => rw [shift, Nat.zero_add, shift_zero value]
  | get object name => rw [shift, shift_zero object]
  | set object name value => rw [shift, shift_zero object, shift_zero value]
  | subscript bracket object index => rw [shift, shift_zero object, shift_zero index]
  | this id keyword => rw [shift, Nat.zero_add]
  | super id keyword method => rw [shift, Nat.zero_add]
  | cast inner typeName => rw [shift, shift_zero inner]
  | literal value => rw [shift]

theorem shiftList_zero (list : List Expr) : shiftList 0 list = list := by
  cases list with
  | nil => rfl
  | cons e rest => rw [shiftList, shift_zero e, shiftList_zero rest]

theorem shiftEntries_zero (entries : List (Expr × Expr)) : shiftEntries 0 entries = entries := by
  cases entries with
  | nil => rfl
  | cons entry rest =>
      rcases entry with ⟨key, value⟩
      rw [shiftEntries, shift_zero key, shift_zero value, shiftEntries_zero rest]

end

theorem map_shift_zero (value : Option Expr) : value.map (shift 0) = value := by
  cases value with
  | none => rfl
  | some e => rw [Option.map_some, shift_zero]

end Expr

theorem VarDecl.shift_zero (decl : VarDecl) : decl.shift 0 = decl := by
  rw [shift, Expr.map_shift_zero]

theorem Superclass.map_shift_zero (parent : Option Superclass) :
    parent.map (Superclass.shift 0) = parent := by
  cases parent with
  | none => rfl
  | some parent => rw [Option.map_some, shift, Nat.zero_add]

namespace Stmt

mutual

theorem shift_zero (s : Stmt) : s.shift 0 = s := by
  cases s with
  | block body => rw [shift, shiftList_zero body]
  | classDecl decl =>
      rcases decl with ⟨name, superclass, fields, enums, methods⟩
      rw [shift, Superclass.map_shift_zero, shiftMethods_zero methods]
  | enumDecl decl => rw [shift]
  | function decl =>
      rcases decl with ⟨kind, name, params, returnType, body⟩
      rw [shift, shiftList_zero body]
  | ifThen condition thenBranch elseBranch =>
      cases elseBranch with
      | none => rw [shift, Expr.shift_zero, shift_zero thenBranch]
      | some elseBranch =>
          rw [shift, Expr.shift_zero, shift_zero thenBranch, shift_zero elseBranch]
  | «while» condition body => rw [shift, Expr.shift_zero, shift_zero body]
  | «try» keyword body handlers otherwise =>
      rw [shift, shiftList_zero body, shiftHandlers_zero handlers, shiftList_zero otherwise]
  | print keyword value => rw [shift, Expr.shift_zero]
  | exit keyword value => rw [shift, Expr.map_shift_zero]
  | raise keyword value => rw [shift, Expr.map_shift_zero]
  | var decl => rw [shift, VarDecl.shift_zero]
  | «break» keyword => rw [shift]
  | expression value => rw [shift, Expr.shift_zero]
  | uses keyword unit => rw [shift]

theorem shiftList_zero (list : List Stmt) : shiftList 0 list = list := by
  cases list with
  | nil => rfl
  | cons s rest => rw [shiftList, shift_zero s, shiftList_zero rest]

theorem shiftMethods_zero (methods : List Function) : shiftMethods 0 methods = methods := by
  cases methods with
  | nil => rfl
  | cons decl rest =>
      rcases decl with ⟨kind, name, params, returnType, body⟩
      rw [shiftMethods, shiftList_zero body, shiftMethods_zero rest]

theorem shiftHandlers_zero (handlers : List (Handler Stmt)) :
    shiftHandlers 0 handlers = handlers := by
  cases handlers with
  | nil => rfl
  | cons handler rest =>
      rcases handler with ⟨name, typeName, body⟩
      rw [shiftHandlers, shift_zero body, shiftHandlers_zero rest]

end

end Stmt

end MiniPascal
