import MiniPascal.Parser.Expression

/-!
# Parsing declarations of names

Enumerations, variables, parameters and the sections that announce them in front of a body.
-/

namespace MiniPascal
namespace Parse

def enumDecl (fuel : Nat) : Parse EnumDecl := do
  let name ← expectName .enumName
  discard <| expectSymbol .equal .enumEqual
  discard <| expectSymbol .leftParen .enumOpen
  let members ← separated (expectName .enumMember) (acceptSymbol .comma) fuel
  discard <| expectSymbol .rightParen .enumClose
  discard <| expectSymbol .semicolon .headerSemicolon
  return { name, members }

/-- Enumerations after `type`, as long as a name is in front. -/
def enumSection (fuel : Nat) : Parse (List EnumDecl) :=
  collect atName (enumDecl fuel) fuel

/-- A type with the type of its elements, both `Any` where nothing is said. -/
def typeAnnotation : Parse (String × String) := do
  if ← acceptSymbol .colon then
    let typeName ← expectName .typeName
    if ← acceptKeyword .of then
      let generic ← expectName .genericName
      return (typeName.lexeme, generic.lexeme)
    else
      return (typeName.lexeme, anyType)
  else
    return (anyType, anyType)

def initialValue (expr : Parse Expr) : Parse (Option Expr) := do
  if ← acceptSymbol .colonEqual then
    let value ← expr
    return some value
  else
    return none

/-- What follows the names of a variable declaration, up to its semicolon. -/
def variableTail (expr : Parse Expr) : Parse (String × String × Option Expr) := do
  let (typeName, generic) ← typeAnnotation
  let initial ← initialValue expr
  discard <| expectSymbol .semicolon .variableSemicolon
  return (typeName, generic, initial)

/-- One declaration of variables that share type and first value. -/
def variableLine (expr : Parse Expr) (fuel : Nat) : Parse (List VarDecl) := do
  let names ← separated (expectName .variableName) (acceptSymbol .comma) fuel
  let (typeName, generic, initial) ← variableTail expr
  return names.map fun name => { name, typeName, generic, initial }

/-- Whether another declaration of the same section is in front: a name with a comma or a colon
after it. -/
def variableLineFollows : Parse Bool := do
  match (← get).ahead with
  | name :: mark :: _ =>
      return name.isIdentifier && (mark.symbol? = some .comma || mark.symbol? = some .colon)
  | _ => return false

def variableSection (expr : Parse Expr) (fuel : Nat) : Parse (List VarDecl) := do
  let lines ← separated (variableLine expr fuel) variableLineFollows fuel
  return lines.flatten

/-- The single variable of a counting loop. -/
def loopVariable (expr : Parse Expr) : Parse VarDecl := do
  let name ← expectName .variableName
  let (typeName, generic, initial) ← variableTail expr
  return { name, typeName, generic, initial }

inductive Section where
  | enums (decls : List EnumDecl)
  | variables (decls : List VarDecl)

/-- Whether a section is in front. -/
def atSection : Parse Bool := do
  return (← atKeyword .type) || (← atKeyword .var)

def announcement (expr : Parse Expr) (fuel : Nat) : Parse Section := do
  if ← acceptKeyword .type then
    let decls ← enumSection fuel
    return .enums decls
  else
    discard advance
    let decls ← variableSection expr fuel
    return .variables decls

def sections (expr : Parse Expr) (fuel : Nat) : Parse (List Section) :=
  collect atSection (announcement expr fuel) fuel

namespace Section

/-- The statements that a section stands for in a function. -/
def statements : Section → List Stmt
  | .enums decls => decls.map .enumDecl
  | .variables decls => decls.map .var

/-- The enumerations of a section in a class. -/
def enumDecls : Section → List EnumDecl
  | .enums decls => decls
  | .variables _ => []

/-- The fields of a section in a class; a first value has no effect there. -/
def fields : Section → List Field
  | .enums _ => []
  | .variables decls => decls.map fun decl =>
      { name := decl.name, typeName := decl.typeName, generic := decl.generic }

end Section

def param : Parse Param := do
  let name ← expectName .paramName
  if ← acceptSymbol .colon then
    let typeName ← expectName .paramType
    return { name, typeName := typeName.lexeme }
  else
    return { name, typeName := anyType }

def params (fuel : Nat) : Parse (List Param) := do
  if ← acceptSymbol .leftParen then
    let list ← if ← atSymbol .rightParen then pure []
      else separated param (acceptSymbol .comma) fuel
    discard <| expectSymbol .rightParen .paramClose
    return list
  else
    return []

/-- An optional result type; a procedure has none. -/
def resultType (kind : FunctionKind) : Parse String := do
  if ← acceptSymbol .colon then
    if kind = .procedure then
      fail .procedureResult
    else
      let name ← expectName .resultType
      return name.lexeme
  else
    return anyType

end Parse
end MiniPascal
