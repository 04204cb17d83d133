import MiniPascal.Proofs.Machine.Choices
import MiniPascal.Proofs.Machine.Signatures

/-!
# Making instances

To make an instance is to run an initializer on it, if its class has one.  The first initializer
that takes the arguments is run.  If none takes them, the first one of all is run all the same, as
long as it has as many parameters as there are arguments.
-/

namespace MiniPascal
namespace Eval

/-- Makes an instance and runs an initializer on it. -/
def runInitializer (call : Caller) (cls : Class) (initializer : Fn) (arguments : List Value) :
    Eval Value := do
  let self ← modifyGet fun s => s.newInstance cls
  let bound ← bindMethod initializer self
  discard <| call bound arguments
  return .object self

section Instantiate

variable {cls : Class} {paren : Token} {arguments : List Value} {s : Store}

theorem instantiate_of_none (call : Caller) (h : cls.findMethod initializerName = none) :
    instantiate call cls paren arguments s =
      (do
        checkArity paren 0 arguments.length
        let self ← modifyGet fun s => s.newInstance cls
        return .object self : Eval Value) s := by
  unfold instantiate initializer?
  rw [h]
  rfl

theorem instantiate_of_some (call : Caller) {first : Fn}
    (h : cls.findMethod initializerName = some first) :
    instantiate call cls paren arguments s =
      (do
        let initializer := (s.findOverload first (arguments.map Value.typeName)).getD first
        checkArity paren initializer.arity arguments.length
        runInitializer call cls initializer arguments : Eval Value) s := by
  have hmatching : s.findMethodMatching cls initializerName (arguments.map Value.typeName) =
      s.findOverload first (arguments.map Value.typeName) := by
    rw [Store.findMethodMatching, h]
  have hinitializer : initializer? s cls (arguments.map Value.typeName) =
      some ((s.findOverload first (arguments.map Value.typeName)).getD first) := by
    rw [initializer?, h, hmatching]
    rfl
  unfold instantiate
  dsimp only
  rw [get_bind, hinitializer]
  rfl

variable {first initializer : Fn}

/-- The first initializer that takes the arguments is run. -/
theorem instantiate_of_taking (call : Caller) (hfirst : cls.findMethod initializerName = some first)
    (h : s.FirstTaking (first :: s.overloadsOf first) (arguments.map Value.typeName) initializer) :
    instantiate call cls paren arguments s = runInitializer call cls initializer arguments s := by
  have harity : initializer.arity = arguments.length := by
    rw [h.takes.arity, List.length_map]
  rw [instantiate_of_some call hfirst, Store.findOverload_eq_some_iff.mpr h]
  exact checkArity_then_of_eq harity _

/-- If no initializer takes the arguments, only their number is compared, with that of the first
one. -/
theorem instantiate_of_not_taking (call : Caller)
    (hfirst : cls.findMethod initializerName = some first)
    (h : ∀ initializer ∈ first :: s.overloadsOf first,
      ¬initializer.Takes s.parents (arguments.map Value.typeName)) :
    instantiate call cls paren arguments s =
      (do
        checkArity paren first.arity arguments.length
        runInitializer call cls first arguments : Eval Value) s := by
  rw [instantiate_of_some call hfirst, Store.findOverload_eq_none_iff.mpr h]
  rfl

end Instantiate

/-- Instantiating a class is one of four things, whatever functions do that are called.  The first
initializer in its nearest class that takes the arguments is run; or there is no initializer and no
argument; or the number of arguments is refused, and nothing has happened; or no initializer takes
the arguments, and the first one, which has as many parameters, is run. -/
theorem instantiate_cases (cls : Class) (paren : Token) (arguments : List Value) (s : Store) :
    let types := arguments.map Value.typeName
    (∃ first initializer, cls.Nearest initializerName first ∧
      s.FirstTaking (first :: s.overloadsOf first) types initializer ∧
      ∀ call, instantiate call cls paren arguments s =
        runInitializer call cls initializer arguments s) ∨
    ((∀ above ∈ cls.ancestry, above.methods.find? initializerName = none) ∧ arguments = [] ∧
      ∀ call, instantiate call cls paren arguments s =
        .ok (.object (s.newInstance cls).1) (s.newInstance cls).2) ∨
    (∃ expected, expected ≠ arguments.length ∧
      ∀ call, instantiate call cls paren arguments s =
        .error (.error ⟨paren, .arity expected arguments.length, none⟩) s) ∨
    ∃ first, cls.Nearest initializerName first ∧
      (∀ initializer ∈ first :: s.overloadsOf first, ¬initializer.Takes s.parents types) ∧
      first.arity = arguments.length ∧
      ∀ call, instantiate call cls paren arguments s =
        runInitializer call cls first arguments s := by
  intro types
  cases hfirst : cls.findMethod initializerName with
  | none =>
      cases arguments with
      | nil =>
          exact .inr (.inl ⟨Class.findMethod_eq_none_iff.mp hfirst, rfl,
            fun call => instantiate_of_none call hfirst⟩)
      | cons argument rest =>
          refine .inr (.inr (.inl ⟨0, (Nat.succ_ne_zero _).symm, fun call => ?_⟩))
          rw [instantiate_of_none call hfirst]
          exact checkArity_then_of_ne (Nat.succ_ne_zero _).symm _
  | some first =>
      have hnearest := Class.findMethod_eq_some_iff.mp hfirst
      cases hmatch : s.findOverload first types with
      | some initializer =>
          have htaking := Store.findOverload_eq_some_iff.mp hmatch
          exact .inl ⟨first, initializer, hnearest, htaking,
            fun call => instantiate_of_taking call hfirst htaking⟩
      | none =>
          have hnone := Store.findOverload_eq_none_iff.mp hmatch
          by_cases harity : first.arity = arguments.length
          · refine .inr (.inr (.inr ⟨first, hnearest, hnone, harity, fun call => ?_⟩))
            rw [instantiate_of_not_taking call hfirst hnone]
            exact checkArity_then_of_eq harity _
          · refine .inr (.inr (.inl ⟨first.arity, harity, fun call => ?_⟩))
            rw [instantiate_of_not_taking call hfirst hnone]
            exact checkArity_then_of_ne harity _

/-- A class whose initializer takes a number and prints a line. -/
def numbered : Class :=
  let name : Token := ⟨.identifier, "Init", ⟨3, 3⟩, "main.pas"⟩
  let param : Param := ⟨⟨.identifier, "X", ⟨3, 8⟩, "main.pas"⟩, "Integer"⟩
  let body : Stmt := .print (Exec.wordAt .print "print" 5 5) (.literal (.string "initialized"))
  let decl : Function := ⟨.constructor, name, [param], "", [body]⟩
  .mk 0 "A" none ((∅ : Table Fn).insert "Init" ⟨0, decl, Store.globals, true⟩)

/-- `A('text')` runs the initializer. -/
example : Choice.printed (Exec.ofEval do
    let _ ← instantiate (Exec.callFn Exec.topLevel 1) numbered
      ⟨.symbol .rightParen, ")", ⟨9, 9⟩, "main.pas"⟩ [.string "text"]) Store.initial =
    "initialized\n" := by
  decide +kernel

end Eval
end MiniPascal
