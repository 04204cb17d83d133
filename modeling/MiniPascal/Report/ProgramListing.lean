import MiniPascal.Report.TokenListing
import MiniPascal.Syntax.Stmt

/-!
# Listings of programs

The tree of a program with all its tokens, one item a line.
-/

namespace MiniPascal

namespace Literal

/-- A constant with its kind. -/
def shape : Literal → Shape
  | .nil => .atom "Nil"
  | .boolean value => .tuple "Boolean" [.atom (if value then "true" else "false")]
  | .integer value => .tuple "Integer" [.atom (toString value.toInt)]
  | .double value => .tuple "Double" [.atom (Decimal.write .tagged value)]
  | .char value => .tuple "Char" [.atom (Text.quoteSingle value)]
  | .string value => .tuple "String" [.atom (Text.quoteString value)]

end Literal

namespace Report

def textShape (text : String) : Shape :=
  .atom (Text.quoteString text)

/-- The number of a node. -/
def idShape (id : NodeId) : Shape :=
  .tuple "NodeId" [.atom (toString id)]

/-- A node of a tree with a record of its parts. -/
def node (name record : String) (fields : List (String × Shape)) : Shape :=
  .tuple name [.record record fields]

/-- An expression of the given kind, under an optional cast. -/
def exprRecord (cast : Option String) (kind : Shape) : Shape :=
  .record "Expression" [("kind", kind), ("cast", .optional (cast.map textShape))]

mutual

/-- An expression under an optional cast. -/
def exprShape (cast : Option String) : Expr → Shape
  | .cast inner typeName => exprShape (some typeName) inner
  | .literal value => exprRecord cast (.tuple "Literal" [value.shape])
  | .unary op token operand =>
      exprRecord cast <| node "Unary" "UnaryExpression" [
        ("operator", .atom op.title), ("token", token.shape),
        ("operand", exprShape none operand)]
  | .binary left op token right =>
      exprRecord cast <| node "Binary" "BinaryExpression" [
        ("left", exprShape none left), ("operator", .atom op.title),
        ("token", token.shape), ("right", exprShape none right)]
  | .logical left op token right =>
      exprRecord cast <| node "Logical" "LogicalExpression" [
        ("left", exprShape none left), ("operator", .atom op.title),
        ("token", token.shape), ("right", exprShape none right)]
  | .grouping inner => exprRecord cast (.tuple "Grouping" [exprShape none inner])
  | .variable id name =>
      exprRecord cast <| node "Variable" "VariableExpression" [
        ("id", idShape id), ("name", name.shape)]
  | .assign id name value =>
      exprRecord cast <| node "Assign" "AssignExpression" [
        ("id", idShape id), ("name", name.shape), ("value", exprShape none value)]
  | .call callee paren arguments =>
      exprRecord cast <| node "Call" "CallExpression" [
        ("callee", exprShape none callee), ("paren", paren.shape),
        ("arguments", .list (exprShapes arguments))]
  | .get object name =>
      exprRecord cast <| node "Get" "GetExpression" [
        ("object", exprShape none object), ("name", name.shape)]
  | .set object name value =>
      exprRecord cast <| node "Set" "SetExpression" [
        ("object", exprShape none object), ("name", name.shape),
        ("value", exprShape none value)]
  | .subscript bracket object index =>
      exprRecord cast <| node "Subscript" "SubscriptExpression" [
        ("bracket", bracket.shape), ("object", exprShape none object),
        ("index", exprShape none index)]
  | .map bracket entries =>
      exprRecord cast <| node "Map" "MapExpression" [
        ("bracket", bracket.shape), ("entries", .list (entryShapes entries))]
  | .this id keyword =>
      exprRecord cast <| node "This" "ThisExpression" [
        ("id", idShape id), ("keyword", keyword.shape)]
  | .super id keyword method =>
      exprRecord cast <| node "Super" "SuperExpression" [
        ("id", idShape id), ("keyword", keyword.shape), ("method", method.shape)]

def exprShapes : List Expr → List Shape
  | [] => []
  | e :: rest => exprShape none e :: exprShapes rest

def entryShapes : List (Expr × Expr) → List Shape
  | [] => []
  | (key, value) :: rest =>
      .tuple "" [exprShape none key, exprShape none value] :: entryShapes rest

end

def optionalExpr (value : Option Expr) : Shape :=
  .optional (value.map (exprShape none))

def enumShape (decl : EnumDecl) : Shape :=
  .record "EnumStatement" [
    ("name", decl.name.shape), ("members", .list (decl.members.map Token.shape))]

def fieldShape (field : Field) : Shape :=
  .record "FieldDeclaration" [
    ("name", field.name.shape), ("type_name", textShape field.typeName),
    ("generic", textShape field.generic)]

def paramShape (param : Param) : Shape :=
  .record "Parameter" [
    ("name", param.name.shape), ("type_name", textShape param.typeName)]

def superclassShape (parent : Superclass) : Shape :=
  .record "VariableExpression" [("id", idShape parent.id), ("name", parent.name.shape)]

mutual

def stmtShape : Stmt → Shape
  | .block body => node "Block" "BlockStatement" [("statements", .list (stmtShapes body))]
  | .classDecl ⟨name, superclass, fields, enums, methods⟩ =>
      node "Class" "ClassStatement" [
        ("name", name.shape), ("superclass", .optional (superclass.map superclassShape)),
        ("fields", .list (fields.map fieldShape)), ("enums", .list (enums.map enumShape)),
        ("methods", .list (functionShapes methods))]
  | .enumDecl decl => .tuple "Enum" [enumShape decl]
  | .function ⟨kind, name, params, returnType, body⟩ =>
      node "Function" "FunctionStatement" [
        ("kind", .atom kind.title), ("name", name.shape),
        ("parameters", .list (params.map paramShape)), ("return_type", textShape returnType),
        ("body", .list (stmtShapes body))]
  | .ifThen condition thenBranch none =>
      node "If" "IfStatement" [
        ("condition", exprShape none condition), ("then_branch", stmtShape thenBranch),
        ("else_branch", .atom "None")]
  | .ifThen condition thenBranch (some elseBranch) =>
      node "If" "IfStatement" [
        ("condition", exprShape none condition), ("then_branch", stmtShape thenBranch),
        ("else_branch", .tuple "Some" [stmtShape elseBranch])]
  | .while condition body =>
      node "While" "WhileStatement" [
        ("condition", exprShape none condition), ("body", stmtShape body)]
  | .try keyword body handlers otherwise =>
      node "Try" "TryStatement" [
        ("keyword", keyword.shape), ("body", .list (stmtShapes body)),
        ("handlers", .list (handlerShapes handlers)), ("default", .list (stmtShapes otherwise))]
  | .print keyword value =>
      node "Print" "PrintStatement" [
        ("keyword", keyword.shape), ("expression", exprShape none value)]
  | .exit keyword value =>
      node "Exit" "ExitStatement" [("keyword", keyword.shape), ("value", optionalExpr value)]
  | .raise keyword value =>
      node "Raise" "RaiseStatement" [("keyword", keyword.shape), ("value", optionalExpr value)]
  | .var decl =>
      node "Var" "VarStatement" [
        ("name", decl.name.shape), ("type_name", textShape decl.typeName),
        ("generic", textShape decl.generic), ("initializer", optionalExpr decl.initial)]
  | .break keyword => node "Break" "BreakStatement" [("keyword", keyword.shape)]
  | .expression value =>
      node "Expression" "ExpressionStatement" [("expression", exprShape none value)]
  | .uses keyword unit =>
      node "Uses" "UsesStatement" [("keyword", keyword.shape), ("unit", unit.shape)]

def stmtShapes : List Stmt → List Shape
  | [] => []
  | s :: rest => stmtShape s :: stmtShapes rest

def functionShapes : List Function → List Shape
  | [] => []
  | ⟨kind, name, params, returnType, body⟩ :: rest =>
      .record "FunctionStatement" [
        ("kind", .atom kind.title), ("name", name.shape),
        ("parameters", .list (params.map paramShape)), ("return_type", textShape returnType),
        ("body", .list (stmtShapes body))] :: functionShapes rest

def handlerShapes : List (Handler Stmt) → List Shape
  | [] => []
  | ⟨name, typeName, body⟩ :: rest =>
      .record "ExceptHandler" [
        ("name", name.shape), ("type_name", .optional (typeName.map textShape)),
        ("body", stmtShape body)] :: handlerShapes rest

end

/-- The tree of a program. -/
def programTree (statements : List Stmt) : String :=
  (Shape.record "Program" [("statements", .list (stmtShapes statements))]).pretty 0 ++ "\n"

end Report

end MiniPascal
