import MiniPascal.Parser.Cursor

/-!
# Parsing expressions

One parser a level, from assignment down to primary expressions.  The parser `inner` of nested
expressions is a parameter of each level, so that a level can be studied by itself; `expression`
ties the knot.  Fuel bounds the nesting and the length of every chain at once: both take tokens.
-/

namespace MiniPascal
namespace Parse

/-- The most arguments a call may have. -/
def maxArguments : Nat := 255

def equalityOp? (token : Token) : Option BinaryOp :=
  match token.symbol? with
  | some .equal => some .equal
  | some .lessGreater => some .notEqual
  | _ => none

def comparisonOp? (token : Token) : Option BinaryOp :=
  match token.symbol? with
  | some .greater => some .greater
  | some .greaterEqual => some .greaterEqual
  | some .less => some .less
  | some .lessEqual => some .lessEqual
  | _ => none

def additiveOp? (token : Token) : Option BinaryOp :=
  match token.symbol? with
  | some .plus => some .add
  | some .minus => some .subtract
  | _ => none

def multiplicativeOp? (token : Token) : Option BinaryOp :=
  match token.symbol? with
  | some .star => some .multiply
  | some .slash => some .divide
  | _ => none

def conjunctionOp? (token : Token) : Option LogicalOp :=
  if token.keyword? = some .and then some .and else none

def disjunctionOp? (token : Token) : Option LogicalOp :=
  if token.keyword? = some .or then some .or else none

/-- The operators in front of an operand. -/
def unaryOp? (token : Token) : Option UnaryOp :=
  if token.keyword? = some .not then some .not
  else if token.symbol? = some .minus then some .negate
  else none

/-- The constant that a token is. -/
def literal? (token : Token) : Option Literal :=
  match token.kind with
  | .keyword .false => some (.boolean false)
  | .keyword .true => some (.boolean true)
  | .keyword .nil => some .nil
  | .integer value => some (.integer value)
  | .float value => some (.double value)
  | .string value => some (.string value)
  | .char value => some (.char value)
  | _ => none

/-- Extends `left` by operators and operands as long as an operator is in front, grouping to the
left. -/
def chain (operator? : Token → Option β) (build : Expr → β → Token → Expr → Expr)
    (operand : Parse Expr) : Nat → Expr → Parse Expr
  | 0, _ => starve
  | fuel + 1, left => do
      match operator? (← peek) with
      | none => return left
      | some op =>
          let token ← advance
          let right ← operand
          chain operator? build operand fuel (build left op token right)

/-- A level of operators that group to the left. -/
def level (operator? : Token → Option β) (build : Expr → β → Token → Expr → Expr)
    (operand : Parse Expr) (fuel : Nat) : Parse Expr := do
  let left ← operand
  chain operator? build operand fuel left

def mapEntry (inner : Parse Expr) : Parse (Expr × Expr) := do
  let key ← inner
  discard <| expectSymbol .colon .mapColon
  let value ← inner
  return (key, value)

/-- The arguments of a call after its opening parenthesis, `count` of them already read. -/
def argumentsFrom (inner : Parse Expr) : Nat → Nat → Parse (List Expr)
  | 0, _ => starve
  | fuel + 1, count => do
      if maxArguments ≤ count then
        fail .tooManyArguments
      else
        let head ← inner
        if ← acceptSymbol .comma then
          let tail ← argumentsFrom inner fuel (count + 1)
          return head :: tail
        else
          return [head]

/-- The arguments of a call after its opening parenthesis, possibly none. -/
def arguments (inner : Parse Expr) (fuel : Nat) : Parse (List Expr) := do
  if ← atSymbol .rightParen then return [] else argumentsFrom inner fuel 0

/-- Literals, names, maps and expressions in parentheses. -/
def primary (inner : Parse Expr) (fuel : Nat) : Parse Expr := do
  let token ← peek
  match literal? token with
  | some value =>
      discard advance
      return .literal value
  | none =>
      match token.kind with
      | .keyword .super =>
          discard advance
          discard <| expectSymbol .dot .superDot
          let method ← expectName .superMethod
          return .super (← freshId) token method
      | .keyword .this =>
          discard advance
          return .this (← freshId) token
      | .identifier =>
          discard advance
          return .variable (← freshId) token
      | .symbol .leftBracket =>
          discard advance
          let entries ← separated (mapEntry inner) (acceptSymbol .comma) fuel
          discard <| expectSymbol .rightBracket .mapClose
          return .map token entries
      | .symbol .leftParen =>
          discard advance
          let value ← inner
          discard <| expectSymbol .rightParen .groupClose
          return .grouping value
      | _ => failAt token .expression

/-- Extends an expression by calls, subscripts and properties as long as one is in front. -/
def trailers (inner : Parse Expr) : Nat → Expr → Parse Expr
  | 0, _ => starve
  | fuel + 1, target => do
      match (← peek).symbol? with
      | some .leftParen =>
          discard advance
          let values ← arguments inner fuel
          let paren ← expectSymbol .rightParen .callClose
          trailers inner fuel (.call target paren values)
      | some .leftBracket =>
          discard advance
          let index ← inner
          let bracket ← expectSymbol .rightBracket .subscriptClose
          trailers inner fuel (.subscript bracket target index)
      | some .dot =>
          discard advance
          let name ← expectName .propertyName
          trailers inner fuel (.get target name)
      | _ => return target

/-- A primary expression with what trails it. -/
def call (inner : Parse Expr) (fuel : Nat) : Parse Expr := do
  let target ← primary inner fuel
  trailers inner fuel target

/-- Operators in front of an operand group to the right. -/
def unary (inner : Parse Expr) : Nat → Parse Expr
  | 0 => starve
  | fuel + 1 => do
      match unaryOp? (← peek) with
      | some op =>
          let token ← advance
          let operand ← unary inner fuel
          return .unary op token operand
      | none => call inner (fuel + 1)

/-- A node of an operator that evaluates both operands. -/
def buildBinary (left : Expr) (op : BinaryOp) (token : Token) (right : Expr) : Expr :=
  .binary left op token right

/-- A node of an operator that may skip its right operand. -/
def buildLogical (left : Expr) (op : LogicalOp) (token : Token) (right : Expr) : Expr :=
  .logical left op token right

def product (inner : Parse Expr) (fuel : Nat) : Parse Expr :=
  level multiplicativeOp? buildBinary (unary inner fuel) fuel

def sum (inner : Parse Expr) (fuel : Nat) : Parse Expr :=
  level additiveOp? buildBinary (product inner fuel) fuel

def comparison (inner : Parse Expr) (fuel : Nat) : Parse Expr :=
  level comparisonOp? buildBinary (sum inner fuel) fuel

def equality (inner : Parse Expr) (fuel : Nat) : Parse Expr :=
  level equalityOp? buildBinary (comparison inner fuel) fuel

def conjunction (inner : Parse Expr) (fuel : Nat) : Parse Expr :=
  level conjunctionOp? buildLogical (equality inner fuel) fuel

def disjunction (inner : Parse Expr) (fuel : Nat) : Parse Expr :=
  level disjunctionOp? buildLogical (conjunction inner fuel) fuel

/-- Turns what stands left of `:=` into an assignment; only names and properties can be assigned. -/
def assignTo (target : Expr) (mark : Token) (value : Expr) : Parse Expr :=
  match target with
  | .variable _ name => return .assign (← freshId) name value
  | .get object name => return .set object name value
  | _ => failAt mark .assignTarget

/-- Assignments group to the right. -/
def assignment (inner : Parse Expr) : Nat → Parse Expr
  | 0 => starve
  | fuel + 1 => do
      let target ← disjunction inner (fuel + 1)
      if ← acceptSymbol .colonEqual then
        let mark ← previous
        let value ← assignment inner fuel
        assignTo target mark value
      else
        return target

/-- An optional type after an expression. -/
def withCast (value : Expr) : Parse Expr := do
  if ← acceptKeyword .as then
    let name ← expectName .castName
    return .cast value name.lexeme
  else
    return value

/-- Expressions, nested less deeply than the fuel. -/
def expression : Nat → Parse Expr
  | 0 => starve
  | fuel + 1 => do
      let value ← assignment (expression fuel) (fuel + 1)
      withCast value

end Parse
end MiniPascal
