import MiniPascal.Token

/-!
# Expressions

The tree of an expression.  Nodes that name something carry a number of their own, by which the
resolver records how far away the declaration is.
-/

namespace MiniPascal

abbrev NodeId := Nat

/-- Constants that stand in a program text. -/
inductive Literal where
  | nil
  | boolean (value : Bool)
  | integer (value : Int64)
  | double (value : Float)
  | char (value : Char)
  | string (value : String)
deriving DecidableEq

/-- Operators with one operand. -/
inductive UnaryOp where
  | negate
  | not
deriving DecidableEq, Repr

/-- Operators that always evaluate both operands. -/
inductive BinaryOp where
  | add | subtract | multiply | divide
  | equal | notEqual | greater | greaterEqual | less | lessEqual
deriving DecidableEq, Repr

namespace BinaryOp

/-- Operators that yield a truth value. -/
def isComparison : BinaryOp → Bool
  | .equal | .notEqual | .greater | .greaterEqual | .less | .lessEqual => true
  | .add | .subtract | .multiply | .divide => false

/-- The name of an operator in listings. -/
def title : BinaryOp → String
  | .add => "Add" | .subtract => "Subtract" | .multiply => "Multiply" | .divide => "Divide"
  | .equal => "Equal" | .notEqual => "NotEqual" | .greater => "Greater"
  | .greaterEqual => "GreaterEqual" | .less => "Less" | .lessEqual => "LessEqual"

end BinaryOp

/-- Operators that evaluate their right operand only when the left one does not decide. -/
inductive LogicalOp where
  | and
  | or
deriving DecidableEq, Repr

namespace UnaryOp

def title : UnaryOp → String
  | .negate => "Negate"
  | .not => "Not"

end UnaryOp

namespace LogicalOp

def title : LogicalOp → String
  | .and => "And"
  | .or => "Or"

end LogicalOp

/-- Expressions.  A `cast` names the type of the expression inside it. -/
inductive Expr where
  | literal (value : Literal)
  | unary (op : UnaryOp) (token : Token) (operand : Expr)
  | binary (left : Expr) (op : BinaryOp) (token : Token) (right : Expr)
  | logical (left : Expr) (op : LogicalOp) (token : Token) (right : Expr)
  | grouping (inner : Expr)
  | variable (id : NodeId) (name : Token)
  | assign (id : NodeId) (name : Token) (value : Expr)
  | call (callee : Expr) (paren : Token) (arguments : List Expr)
  | get (object : Expr) (name : Token)
  | set (object : Expr) (name : Token) (value : Expr)
  | subscript (bracket : Token) (object index : Expr)
  | map (bracket : Token) (entries : List (Expr × Expr))
  | this (id : NodeId) (keyword : Token)
  | super (id : NodeId) (keyword method : Token)
  | cast (inner : Expr) (typeName : String)

end MiniPascal
