import MiniPascal.Machine.Display

/-!
# Operators

Arithmetic works on two numbers of one kind.  Integers are words of 64 bits and wrap around;
characters count as their code points; a sum with a string joins texts.
-/

namespace MiniPascal
namespace Value

def codePoint (c : Char) : Int64 :=
  Int64.ofNat c.toNat

def applyUnary (op : UnaryOp) (operand : Value) : Except RuntimeFault Value :=
  match op, operand with
  | .not, value => .ok (.boolean !value.isTruthy)
  | .negate, .integer value => .ok (.integer (-value))
  | .negate, .double value => .ok (.double (-value))
  | .negate, .char value => .ok (.integer (-codePoint value))
  | .negate, _ => .error .operandKind

/-- Subtraction, multiplication and division of integers. -/
def integerArithmetic (op : BinaryOp) (a b : Int64) : Except RuntimeFault Value :=
  match op with
  | .subtract => .ok (.integer (a - b))
  | .multiply => .ok (.integer (a * b))
  | .divide => if b = 0 then .error .divisionByZero else .ok (.integer (a / b))
  | _ => .error .operandKinds

/-- Subtraction, multiplication and division of doubles. -/
def doubleArithmetic (op : BinaryOp) (a b : Float) : Except RuntimeFault Value :=
  match op with
  | .subtract => .ok (.double (a - b))
  | .multiply => .ok (.double (a * b))
  | .divide => if b == 0.0 then .error .divisionByZero else .ok (.double (a / b))
  | _ => .error .operandKinds

/-- Subtraction, multiplication and division. -/
def arithmetic (op : BinaryOp) (left right : Value) : Except RuntimeFault Value :=
  match left, right with
  | .integer a, .integer b => integerArithmetic op a b
  | .char a, .char b => integerArithmetic op (codePoint a) (codePoint b)
  | .double a, .double b => doubleArithmetic op a b
  | _, _ => .error .operandKinds

/-- The order of two doubles; there is none with a NaN. -/
def compareDoubles (a b : Float) : Option Ordering :=
  if a < b then some .lt
  else if b < a then some .gt
  else if a == b then some .eq
  else none

/-- The order of two values of one kind; doubles may have none. -/
def order? (left right : Value) : Except RuntimeFault (Option Ordering) :=
  match left, right with
  | .integer a, .integer b => .ok (some (compare a.toInt b.toInt))
  | .double a, .double b => .ok (compareDoubles a b)
  | .char a, .char b => .ok (some (compare a.toNat b.toNat))
  | .enum a, .enum b =>
      if a.enumName = b.enumName then .ok (some (compare a.ordinal.toInt b.ordinal.toInt))
      else .error .operandKinds
  | _, _ => .error .operandKinds

/-- Whether an order satisfies a comparison. -/
def satisfies (op : BinaryOp) (ordering : Ordering) : Except RuntimeFault Bool :=
  match op with
  | .greater => .ok ordering.isGT
  | .greaterEqual => .ok ordering.isGE
  | .less => .ok ordering.isLT
  | .lessEqual => .ok ordering.isLE
  | _ => .error .operandKinds

/-- Comparison by order; a NaN satisfies none. -/
def applyComparison (op : BinaryOp) (left right : Value) : Except RuntimeFault Value := do
  match ← order? left right with
  | none => return .boolean false
  | some ordering => return .boolean (← satisfies op ordering)

end Value

namespace Store

/-- The sum of two numbers of one kind, or two texts joined. -/
def add (s : Store) (left right : Value) : Except RuntimeFault Value :=
  match left, right with
  | .integer a, .integer b => .ok (.integer (a + b))
  | .double a, .double b => .ok (.double (a + b))
  | .char a, .char b => .ok (.integer (Value.codePoint a + Value.codePoint b))
  | .string a, value => .ok (.string (a ++ s.display value))
  | value, .string b => .ok (.string (s.display value ++ b))
  | _, _ => .error .sumKinds

def applyBinary (s : Store) (op : BinaryOp) (left right : Value) : Except RuntimeFault Value :=
  match op with
  | .equal => .ok (.boolean (left.same right))
  | .notEqual => .ok (.boolean !left.same right)
  | .add => s.add left right
  | .greater | .greaterEqual | .less | .lessEqual => Value.applyComparison op left right
  | .subtract | .multiply | .divide => Value.arithmetic op left right

end Store

end MiniPascal
