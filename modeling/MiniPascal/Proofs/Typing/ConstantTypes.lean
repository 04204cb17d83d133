import MiniPascal.Machine.Eval
import MiniPascal.Proofs.Sequence
import MiniPascal.Typing.Reduce

/-!
# Types of constant expressions

The type that an expression of constants reduces to is that of its value as long as each operator in
it keeps to the types of its operands.  Comparisons always do.  The others do not if `not`, `and` or
`or` is applied to anything but truth values, or if characters are calculated with.
-/

namespace MiniPascal

/-! ## Constant expressions -/

namespace Expr

/-- Made of constants by operators and parentheses, without casts. -/
def isConstant : Expr → Bool
  | .literal _ => true
  | .unary _ _ operand => operand.isConstant
  | .binary left _ _ right => left.isConstant && right.isConstant
  | .logical left _ _ right => left.isConstant && right.isConstant
  | .grouping inner => inner.isConstant
  | _ => false

/-- The inner expressions that the type of a constant one depends on; that of a comparison depends
on none. -/
def parts : Expr → List Expr
  | .unary _ _ operand => operand :: operand.parts
  | .binary left op _ right =>
      if op.isComparison then [] else left :: left.parts ++ right :: right.parts
  | .logical left _ _ right => left :: left.parts ++ right :: right.parts
  | .grouping inner => inner :: inner.parts
  | _ => []

/-- The value of the operator has the type that the expression reduces to, if its operands have the
given types. -/
def KeepsType (types : Expr → Except TypeError String) : Expr → Prop
  | .unary .not _ operand => types operand = .ok "Boolean"
  | .unary .negate _ operand => types operand ≠ .ok "Char"
  | .binary left op _ right =>
      op.isComparison = true ∨ ¬(types left = .ok "Char" ∧ types right = .ok "Char")
  | .logical left _ _ right => types left = .ok "Boolean" ∧ types right = .ok "Boolean"
  | _ => True

end Expr

namespace Value

/-- A value that a constant can have. -/
def IsConstant : Value → Prop
  | .nil | .boolean _ | .integer _ | .double _ | .char _ | .string _ => True
  | _ => False

end Value

namespace Typing

def constantTypes : List String :=
  ["Nil", "Boolean", "Integer", "Double", "Char", "String"]

theorem isAny_of_mem_constantTypes : ∀ type ∈ constantTypes, isAny type = false := by
  decide

theorem arithmeticType_of_constant {op : BinaryOp} {token : Token} {left right : String}
    (hleft : left ∈ constantTypes) (hright : right ∈ constantTypes) :
    arithmeticType op token left right =
      if (left = "String" || right = "String") && op = .add then .ok "String"
      else if left = right then .ok left
      else .error { token, fault := .operands } := by
  unfold arithmeticType
  rw [isAny_of_mem_constantTypes left hleft, isAny_of_mem_constantTypes right hright]
  rfl

theorem logicalType_of_constant {token : Token} {left right type : String}
    (hleft : left ∈ constantTypes) (hright : right ∈ constantTypes)
    (h : logicalType token left right = .ok type) : left = right ∧ type = "Boolean" := by
  unfold logicalType at h
  rw [isAny_of_mem_constantTypes left hleft, isAny_of_mem_constantTypes right hright] at h
  split at h
  · cases h
  · next hsame =>
      cases h
      exact ⟨by simpa using hsame, rfl⟩

section Reduce

variable {lookup : TypeLookup} {symbols : TypeTable}

theorem reduce_mem_constantTypes : ∀ (e : Expr) {type : String}, e.isConstant = true →
    reduce lookup symbols e = .ok type → type ∈ constantTypes
  | .literal value, _, _, h => by
      rw [reduce] at h
      cases h
      cases value <;> simp [Literal.typeName, constantTypes]
  | .unary _ _ operand, _, he, h => by
      rw [reduce] at h
      exact reduce_mem_constantTypes operand he h
  | .grouping inner, _, he, h => by
      rw [reduce] at h
      exact reduce_mem_constantTypes inner he h
  | .binary left op token right, _, he, h => by
      rcases Bool.and_eq_true_iff.mp he with ⟨hleft, hright⟩
      rw [reduce] at h
      split at h
      · cases h
        decide
      · rcases exists_of_bind_ok h with ⟨leftType, hleftType, h⟩
        rcases exists_of_bind_ok h with ⟨rightType, hrightType, h⟩
        have hleftMem := reduce_mem_constantTypes left hleft hleftType
        have hrightMem := reduce_mem_constantTypes right hright hrightType
        rw [arithmeticType_of_constant hleftMem hrightMem] at h
        split at h
        · cases h
          decide
        · split at h <;> cases h
          exact hleftMem
  | .logical left _ token right, _, he, h => by
      rcases Bool.and_eq_true_iff.mp he with ⟨hleft, hright⟩
      rw [reduce] at h
      rcases exists_of_bind_ok h with ⟨leftType, hleftType, h⟩
      rcases exists_of_bind_ok h with ⟨rightType, hrightType, h⟩
      have hsame := logicalType_of_constant (reduce_mem_constantTypes left hleft hleftType)
        (reduce_mem_constantTypes right hright hrightType) h
      rw [hsame.2]
      decide
  | .variable _ _, _, he, _ | .assign _ _ _, _, he, _ | .call _ _ _, _, he, _
  | .get _ _, _, he, _ | .set _ _ _, _, he, _ | .subscript _ _ _, _, he, _
  | .map _ _, _, he, _ | .this _ _, _, he, _ | .super _ _ _, _, he, _
  | .cast _ _, _, he, _ => by cases he

end Reduce

end Typing

/-! ## Operators -/

namespace Value

theorem IsConstant.typeName_mem {value : Value} (h : value.IsConstant) :
    value.typeName ∈ Typing.constantTypes := by
  cases value with
  | nil | boolean _ | integer _ | double _ | char _ | string _ =>
      simp [typeName, Typing.constantTypes]
  | _ => exact h.elim

theorem isConstant_ofLiteral (value : Literal) : (ofLiteral value).IsConstant := by
  cases value <;> trivial

theorem typeName_ofLiteral (value : Literal) : (ofLiteral value).typeName = value.typeName := by
  cases value <;> rfl

theorem applyUnary_isConstant {op : UnaryOp} {operand result : Value}
    (h : applyUnary op operand = .ok result) : result.IsConstant := by
  unfold applyUnary at h
  split at h <;> cases h <;> trivial

theorem applyNot_typeName {operand result : Value} (h : applyUnary .not operand = .ok result) :
    result.typeName = "Boolean" := by
  cases h
  rfl

/-- A negated number stays of its type; a negated character becomes an integer. -/
theorem applyNegate_typeName_iff {operand result : Value}
    (h : applyUnary .negate operand = .ok result) :
    result.typeName = operand.typeName ↔ operand.typeName ≠ "Char" := by
  cases operand with
  | integer _ | double _ | char _ =>
      cases h
      simp [typeName]
  | _ => cases h

theorem integerArithmetic_integer {op : BinaryOp} {a b : Int64} {result : Value}
    (h : integerArithmetic op a b = .ok result) : ∃ c, result = .integer c := by
  unfold integerArithmetic at h
  split at h
  · cases h
    exact ⟨_, rfl⟩
  · cases h
    exact ⟨_, rfl⟩
  · split at h <;> cases h
    exact ⟨_, rfl⟩
  · cases h

theorem doubleArithmetic_double {op : BinaryOp} {a b : Float} {result : Value}
    (h : doubleArithmetic op a b = .ok result) : ∃ c, result = .double c := by
  unfold doubleArithmetic at h
  split at h
  · cases h
    exact ⟨_, rfl⟩
  · cases h
    exact ⟨_, rfl⟩
  · split at h <;> cases h
    exact ⟨_, rfl⟩
  · cases h

/-- Operands of one type have a result of that type, except that characters are calculated with as
code points. -/
theorem arithmetic_typeName {op : BinaryOp} {left right result : Value}
    (h : arithmetic op left right = .ok result) :
    result.IsConstant ∧ left.typeName = right.typeName ∧ left.typeName ≠ "String" ∧
      (result.typeName = left.typeName ↔ left.typeName ≠ "Char") := by
  unfold arithmetic at h
  split at h
  · rcases integerArithmetic_integer h with ⟨c, rfl⟩
    simp [typeName, IsConstant]
  · rcases integerArithmetic_integer h with ⟨c, rfl⟩
    simp [typeName, IsConstant]
  · rcases doubleArithmetic_double h with ⟨c, rfl⟩
    simp [typeName, IsConstant]
  · cases h

end Value

namespace Store

variable {s : Store} {op : BinaryOp} {left right result : Value} {type : String} {token : Token}

theorem applyBinary_comparison (hop : op.isComparison = true)
    (h : s.applyBinary op left right = .ok result) : ∃ b, result = .boolean b := by
  have horder (hrun : Value.applyComparison op left right = .ok result) :
      ∃ b, result = .boolean b := by
    rcases exists_of_bind_ok hrun with ⟨found, -, hrest⟩
    cases found with
    | none =>
        cases hrest
        exact ⟨false, rfl⟩
    | some ordering =>
        rcases exists_of_bind_ok hrest with ⟨b, -, hpure⟩
        cases hpure
        exact ⟨b, rfl⟩
  cases op with
  | equal | notEqual =>
      cases h
      exact ⟨_, rfl⟩
  | greater | greaterEqual | less | lessEqual => exact horder h
  | add | subtract | multiply | divide => cases hop

/-- A sum with a string is a string; any other is of the type of its summands, or one of code
points. -/
theorem add_typeName (h : s.add left right = .ok result) :
    result.IsConstant ∧
      ((left.typeName = "String" ∨ right.typeName = "String") ∧ result.typeName = "String" ∨
        left.typeName = right.typeName ∧ left.typeName ≠ "String" ∧
          (result.typeName = left.typeName ↔ left.typeName ≠ "Char")) := by
  unfold add at h
  split at h
  case h_6 => cases h
  all_goals
    cases h
    simp [Value.typeName, Value.IsConstant]

/-- The result of an operator on constants is of the type that the operation reduces to, unless both
are characters. -/
theorem applyBinary_typeName_iff (hop : op.isComparison = false)
    (hleft : left.IsConstant) (hright : right.IsConstant)
    (h : s.applyBinary op left right = .ok result)
    (htype : Typing.arithmeticType op token left.typeName right.typeName = .ok type) :
    result.IsConstant ∧
      (result.typeName = type ↔ ¬(left.typeName = "Char" ∧ right.typeName = "Char")) := by
  rw [Typing.arithmeticType_of_constant hleft.typeName_mem hright.typeName_mem] at htype
  have hsame (hnone : left.typeName = right.typeName ∧ left.typeName ≠ "String" ∧
      (result.typeName = left.typeName ↔ left.typeName ≠ "Char")) :
      result.typeName = type ↔ ¬(left.typeName = "Char" ∧ right.typeName = "Char") := by
    rcases hnone with ⟨heq, hstring, hiff⟩
    rw [if_neg (by simp [← heq, hstring]), if_pos heq] at htype
    cases htype
    rw [hiff, ← heq, and_self]
  cases op with
  | add =>
      rcases add_typeName h with ⟨hconstant, ⟨hstring, hresult⟩ | hnone⟩
      · rw [if_pos (by simpa using hstring)] at htype
        cases htype
        refine ⟨hconstant, iff_of_true hresult ?_⟩
        rintro ⟨hl, hr⟩
        rw [hl, hr] at hstring
        simp at hstring
      · exact ⟨hconstant, hsame hnone⟩
  | subtract | multiply | divide =>
      rcases Value.arithmetic_typeName h with ⟨hconstant, hnone⟩
      exact ⟨hconstant, hsame hnone⟩
  | equal | notEqual | greater | greaterEqual | less | lessEqual => cases hop

end Store

/-! ## Types and values -/

namespace Eval

theorem orFail_eq_ok_iff {token : Token} {result : Except RuntimeFault α} {value : α}
    {s s' : Store} : orFail token result s = .ok value s' ↔ result = .ok value ∧ s = s' := by
  cases result with
  | error fault =>
      constructor
      · intro h
        cases h
      · rintro ⟨h, -⟩
        cases h
  | ok found =>
      constructor
      · intro h
        cases h
        exact ⟨rfl, rfl⟩
      · rintro ⟨h, rfl⟩
        cases h
        rfl

end Eval

namespace Typing

variable {lookup : TypeLookup} {symbols : TypeTable} {call : Eval.Caller} {cx : Context}

/-- One operator decides whether the type of a constant expression is that of its value, if the
operators within keep to their types. -/
theorem constant_keepsType : ∀ (e : Expr) {type : String} {value : Value} {s s' : Store},
    e.isConstant = true → reduce lookup symbols e = .ok type →
    Eval.expr call cx e s = .ok value s' →
    (∀ part ∈ e.parts, part.KeepsType (reduce lookup symbols)) →
    value.IsConstant ∧ (value.typeName = type ↔ e.KeepsType (reduce lookup symbols))
  | .literal value, _, _, _, _, _, htype, hrun, _ => by
      rw [reduce] at htype
      rw [Eval.expr] at hrun
      cases htype
      cases hrun
      exact ⟨Value.isConstant_ofLiteral value,
        iff_of_true (Value.typeName_ofLiteral value) trivial⟩
  | .grouping inner, _, _, _, _, he, htype, hrun, hparts => by
      rw [reduce] at htype
      rw [Eval.expr] at hrun
      rcases List.forall_mem_cons.mp hparts with ⟨hhead, hrest⟩
      rcases constant_keepsType inner he htype hrun hrest with ⟨hconstant, hiff⟩
      exact ⟨hconstant, iff_of_true (hiff.mpr hhead) trivial⟩
  | .unary op token operand, type, _, _, _, he, htype, hrun, hparts => by
      rw [reduce] at htype
      rw [Eval.expr] at hrun
      rcases bind_eq_ok_iff.mp hrun with ⟨operandValue, s₁, hoperand, hrest⟩
      rcases List.forall_mem_cons.mp hparts with ⟨hhead, hinner⟩
      rcases constant_keepsType operand he htype hoperand hinner with ⟨-, hiff⟩
      have htypeName := hiff.mpr hhead
      rcases Eval.orFail_eq_ok_iff.mp hrest with ⟨hresult, -⟩
      refine ⟨Value.applyUnary_isConstant hresult, ?_⟩
      cases op with
      | not =>
          rw [Value.applyNot_typeName hresult, Expr.KeepsType, htype, Except.ok.injEq, eq_comm]
      | negate =>
          rw [Expr.KeepsType, htype, ne_eq, Except.ok.injEq, ← htypeName]
          exact Value.applyNegate_typeName_iff hresult
  | .binary left op token right, type, _, s, _, he, htype, hrun, hparts => by
      rcases Bool.and_eq_true_iff.mp he with ⟨hleft, hright⟩
      rw [Eval.expr] at hrun
      rcases bind_eq_ok_iff.mp hrun with ⟨leftValue, s₁, hleftRun, hrest⟩
      rcases bind_eq_ok_iff.mp hrest with ⟨rightValue, s₂, hrightRun, hrest⟩
      rcases bind_eq_ok_iff.mp hrest with ⟨s₃, _, hget, hrest⟩
      cases hget
      rcases Eval.orFail_eq_ok_iff.mp hrest with ⟨hresult, -⟩
      rw [reduce] at htype
      by_cases hop : op.isComparison = true
      · rw [if_pos hop] at htype
        cases htype
        rcases Store.applyBinary_comparison hop hresult with ⟨b, rfl⟩
        exact ⟨trivial, iff_of_true rfl (.inl hop)⟩
      · rw [if_neg hop] at htype
        rcases exists_of_bind_ok htype with ⟨leftType, hleftType, htype⟩
        rcases exists_of_bind_ok htype with ⟨rightType, hrightType, htype⟩
        rw [Expr.parts, if_neg hop, List.cons_append, List.forall_mem_cons, List.forall_mem_append,
          List.forall_mem_cons] at hparts
        rcases hparts with ⟨hleftKeeps, hleftParts, hrightKeeps, hrightParts⟩
        rcases constant_keepsType left hleft hleftType hleftRun hleftParts with
          ⟨hleftConstant, hleftIff⟩
        rcases constant_keepsType right hright hrightType hrightRun hrightParts with
          ⟨hrightConstant, hrightIff⟩
        rw [← hleftIff.mpr hleftKeeps, ← hrightIff.mpr hrightKeeps] at htype
        rcases Store.applyBinary_typeName_iff (Bool.eq_false_iff.mpr hop) hleftConstant
          hrightConstant hresult htype with ⟨hconstant, hiff⟩
        refine ⟨hconstant, hiff.trans ?_⟩
        rw [Expr.KeepsType, hleftType, hrightType, Except.ok.injEq, Except.ok.injEq,
          hleftIff.mpr hleftKeeps, hrightIff.mpr hrightKeeps]
        exact ⟨.inr, fun h => h.resolve_left hop⟩
  | .logical left op token right, type, _, s, _, he, htype, hrun, hparts => by
      rcases Bool.and_eq_true_iff.mp he with ⟨hleft, hright⟩
      rw [reduce] at htype
      rcases exists_of_bind_ok htype with ⟨leftType, hleftType, htype⟩
      rcases exists_of_bind_ok htype with ⟨rightType, hrightType, htype⟩
      rcases logicalType_of_constant (reduce_mem_constantTypes left hleft hleftType)
        (reduce_mem_constantTypes right hright hrightType) htype with ⟨rfl, rfl⟩
      rw [Expr.KeepsType, hleftType, hrightType, and_self, Except.ok.injEq]
      rw [Expr.parts, List.cons_append, List.forall_mem_cons, List.forall_mem_append,
        List.forall_mem_cons] at hparts
      rcases hparts with ⟨hleftKeeps, hleftParts, hrightKeeps, hrightParts⟩
      rw [Eval.expr] at hrun
      rcases bind_eq_ok_iff.mp hrun with ⟨leftValue, s₁, hleftRun, hrest⟩
      split at hrest
      · -- The left operand decides.
        cases hrest
        rcases constant_keepsType left hleft hleftType hleftRun hleftParts with
          ⟨hconstant, hiff⟩
        exact ⟨hconstant, by rw [hiff.mpr hleftKeeps]⟩
      · rcases constant_keepsType right hright hrightType hrest hrightParts with
          ⟨hconstant, hiff⟩
        exact ⟨hconstant, by rw [hiff.mpr hrightKeeps]⟩
  | .variable _ _, _, _, _, _, he, _, _, _ | .assign _ _ _, _, _, _, _, he, _, _, _
  | .call _ _ _, _, _, _, _, he, _, _, _ | .get _ _, _, _, _, _, he, _, _, _
  | .set _ _ _, _, _, _, _, he, _, _, _ | .subscript _ _ _, _, _, _, _, he, _, _, _
  | .map _ _, _, _, _, _, he, _, _, _ | .this _ _, _, _, _, _, he, _, _, _
  | .super _ _ _, _, _, _, _, he, _, _, _ | .cast _ _, _, _, _, _, he, _, _, _ => by cases he

/-- What a constant expression evaluates to has the type that the expression reduces to exactly if
its operator keeps to the types of its operands, given that the operators within do. -/
theorem constant_typeName_iff {e : Expr} {type : String} {value : Value} {s s' : Store}
    (he : e.isConstant = true) (htype : reduce lookup symbols e = .ok type)
    (hrun : Eval.expr call cx e s = .ok value s')
    (hparts : ∀ part ∈ e.parts, part.KeepsType (reduce lookup symbols)) :
    value.typeName = type ↔ e.KeepsType (reduce lookup symbols) :=
  (constant_keepsType e he htype hrun hparts).2

def notToken : Token where
  kind := .keyword .not
  lexeme := "not"
  position := .start
  file := "main.pas"

/-- `not 0` -/
def negatedZero : Expr :=
  .unary .not notToken (.literal (.integer 0))

/-- `not ('a' = 'b')` -/
def negatedComparison : Expr :=
  .unary .not notToken (.grouping (.binary (.literal (.char 'a')) .equal
    ⟨.symbol .equal, "=", .start, "main.pas"⟩ (.literal (.char 'b'))))

/-- The value of an expression without names in an empty store. -/
def valueAlone (e : Expr) : EStateM.Result Failure Store Value :=
  Eval.expr (fun _ _ => pure .nil) ⟨∅, .still 0, []⟩ e .empty

/-- To `not` applied to a comparison, both assign a truth value.  What `not 0` evaluates to is one,
too, but its type is that of its operand. -/
theorem constant_typeName_iff_negated :
    (reduce .empty .empty negatedComparison = .ok "Boolean" ∧
      valueAlone negatedComparison = .ok (.boolean true) .empty ∧
      negatedComparison.KeepsType (reduce .empty .empty)) ∧
    (reduce .empty .empty negatedZero = .ok "Integer" ∧
      valueAlone negatedZero = .ok (.boolean true) .empty ∧
      ¬negatedZero.KeepsType (reduce .empty .empty)) := by
  have hcomparison : reduce .empty .empty negatedComparison = .ok "Boolean" := rfl
  have hcomparisonRun : valueAlone negatedComparison = .ok (.boolean true) .empty := rfl
  have hzero : reduce .empty .empty negatedZero = .ok "Integer" := rfl
  have hzeroRun : valueAlone negatedZero = .ok (.boolean true) .empty := rfl
  refine ⟨⟨hcomparison, hcomparisonRun, ?_⟩, hzero, hzeroRun, ?_⟩
  · refine (constant_typeName_iff rfl hcomparison hcomparisonRun ?_).mp rfl
    rintro part (_ | ⟨_, _ | ⟨_, hpart⟩⟩)
    · trivial
    · exact .inl rfl
    · cases hpart
  · intro hkeeps
    have hsame := (constant_typeName_iff rfl hzero hzeroRun ?_).mpr hkeeps
    · exact absurd hsame (by decide)
    · rintro part (_ | ⟨_, hpart⟩)
      · trivial
      · cases hpart

end Typing

end MiniPascal
