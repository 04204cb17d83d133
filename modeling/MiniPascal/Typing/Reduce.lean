import MiniPascal.Typing.Lookup

/-!
# Types of expressions

An expression reduces to the name of its type.  A cast wins over inference, and what cannot be
seen through reduces to `Any`.
-/

namespace MiniPascal

/-- Why types do not fit. -/
inductive TypeFault where
  | initialValue
  | assignment
  | result
  | field
  | operands
  | procedureResult
deriving DecidableEq, Repr

namespace TypeFault

def message : TypeFault → String
  | .initialValue | .assignment | .result => "Type mismatch!"
  | .field | .operands => "Type mismatch."
  | .procedureResult => "Can't return value from procedure."

end TypeFault

structure TypeError where
  token : Token
  fault : TypeFault

namespace TypeError

def message (error : TypeError) : String :=
  error.fault.message

end TypeError

namespace Literal

def typeName : Literal → String
  | .nil => "Nil"
  | .boolean _ => "Boolean"
  | .integer _ => "Integer"
  | .double _ => "Double"
  | .char _ => "Char"
  | .string _ => "String"

end Literal

namespace Typing

/-- The type of a name that no table holds. -/
def builtinType (name : String) : String :=
  if name = "Str" || name = "Copy" then "String"
  else if name = "Length" then "Integer"
  else if name = "List" then "List"
  else if name = "Stack" then "Stack"
  else if name = "Map" then "Map"
  else anyType

/-- The type of a sum, difference, product or quotient; only sums take strings apart from other
types. -/
def arithmeticType (op : BinaryOp) (token : Token) (left right : String) :
    Except TypeError String :=
  if isAny left || isAny right then .ok left
  else if (left = "String" || right = "String") && op = .add then .ok "String"
  else if left = right then .ok left
  else .error { token, fault := .operands }

/-- The type of a conjunction or disjunction. -/
def logicalType (token : Token) (left right : String) : Except TypeError String :=
  if !isAny left && !isAny right && left ≠ right then .error { token, fault := .operands }
  else .ok "Boolean"

/-- The result of calling a name whose own type is `result`. -/
def namedCallType (lookup : TypeLookup) (symbols : TypeTable) (name result : String) : String :=
  if Text.sameName name "Str" || Text.sameName name "Copy" then "String"
  else if Text.sameName name "Length" then "Integer"
  else if isAny result then
    match lookup.currentClass with
    | some className => (symbols.find? (memberSymbol className name)).getD anyType
    | none => result
  else result

/-- The element type of a subscripted value of type `target`. -/
def elementType (lookup : TypeLookup) (object : Expr) (target : String) : String :=
  if Text.sameName target "String" then "Char"
  else
    match object with
    | .variable _ name => (lookup.generics.find? name.lexeme).getD anyType
    | _ => anyType

/-- The type of an expression, with the types of names taken from `symbols`. -/
def reduce (lookup : TypeLookup) (symbols : TypeTable) : Expr → Except TypeError String
  | .cast _ typeName => .ok typeName
  | .literal value => .ok value.typeName
  | .unary _ _ operand => reduce lookup symbols operand
  | .grouping inner => reduce lookup symbols inner
  | .binary left op token right =>
      if op.isComparison then .ok "Boolean"
      else do
        let leftType ← reduce lookup symbols left
        let rightType ← reduce lookup symbols right
        arithmeticType op token leftType rightType
  | .logical left _ token right => do
      let leftType ← reduce lookup symbols left
      let rightType ← reduce lookup symbols right
      logicalType token leftType rightType
  | .variable _ name => .ok ((symbols.find? name.lexeme).getD (builtinType name.lexeme))
  | .get object name => do
      let known ← reduce lookup symbols object
      let receiver ← if isAny known then reduce lookup lookup.inferred object else .ok known
      return (symbols.find? (memberSymbol receiver name.lexeme)).getD anyType
  | .call callee _ _ => do
      let result ← reduce lookup symbols callee
      match callee with
      | .variable _ name => return namedCallType lookup symbols name.lexeme result
      | _ => return result
  | .subscript _ object _ => do
      let target ← reduce lookup symbols object
      return elementType lookup object target
  | .map _ _ => .ok "Map"
  | .this _ _ => .ok (lookup.currentClass.getD anyType)
  | .assign _ _ _ => .ok anyType
  | .set _ _ _ => .ok anyType
  | .super _ _ _ => .ok anyType

end Typing

namespace TypeLookup

/-- The type of an expression by declared types. -/
def typeOf (lookup : TypeLookup) (e : Expr) : Except TypeError String :=
  Typing.reduce lookup lookup.declared e

end TypeLookup

end MiniPascal
