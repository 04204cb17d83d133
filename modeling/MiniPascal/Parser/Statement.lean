import MiniPascal.Parser.Declaration

/-!
# Parsing statements

Statements and declarations contain each other.  Each parser below takes the parsers of what is
nested in it as a `Nested` record, and `grammar` ties the knot with fuel for the depth of nesting.
Whether a statement stands inside a loop is passed down, for `break` is reported outside of one.
-/

namespace MiniPascal

/-- What happens after a syntax fault: parsing stops, or goes on at the next statement. -/
inductive Recovery where
  | strict
  | synchronize
deriving DecidableEq, Repr

/-- The parsers of nested statements and declarations; the flag tells whether a loop is around. -/
structure Nested where
  statement : Bool → Parse Stmt
  declaration : Bool → Parse (List Stmt)

namespace Parse

/-- Reports the fault of a declaration, and gives the declaration up when synchronizing. -/
def recover (mode : Recovery) (decl : Parse (List Stmt)) : Parse (List Stmt) := fun c =>
  match decl c with
  | .ok statements c' => .ok statements c'
  | .error .starved c' => .error .starved c'
  | .error (.fault error) c' =>
      let reported := c'.report (.errorAt error.token error.message)
      match mode with
      | .strict => .error (.fault error) reported
      | .synchronize => .ok [] reported.synchronize

/-- A declaration, or a loose semicolon. -/
def declarationItem (decl : Parse (List Stmt)) : Parse (List Stmt) := do
  if ← acceptSymbol .semicolon then return [] else decl

/-- Declarations up to the end of the text or a word that closes them. -/
def declarations (decl : Parse (List Stmt)) (close : Keyword) (fuel : Nat) :
    Parse (List Stmt) := do
  let open? : Parse Bool := do return !(← atKeyword close) && !(← atEnd)
  let items ← collect open? (declarationItem decl) fuel
  return items.flatten

def expressionStatement (expr : Parse Expr) : Parse Stmt := do
  let value ← expr
  discard <| expectSymbol .semicolon .valueSemicolon
  return .expression value

/-- The first clause of a counting loop. -/
def forInitial (expr : Parse Expr) : Parse (Option Stmt) := do
  if ← acceptSymbol .semicolon then
    return none
  else if ← acceptKeyword .var then
    let decl ← loopVariable expr
    return some (.var decl)
  else
    let statement ← expressionStatement expr
    return some statement

/-- An expression, unless what closes an empty clause is in front. -/
def optional (closed : Parse Bool) (expr : Parse Expr) : Parse (Option Expr) := do
  if ← closed then
    return none
  else
    let value ← expr
    return some value

def forStatement (nested : Nested) (expr : Parse Expr) : Parse Stmt := do
  let initial ← forInitial expr
  let condition ← optional (atSymbol .semicolon) expr
  discard <| expectSymbol .semicolon .loopSemicolon
  let increment ← optional (atKeyword .do) expr
  discard <| expectKeyword .do .forDo
  let body ← nested.statement true
  return Stmt.lowerFor initial condition increment body

def whileStatement (nested : Nested) (expr : Parse Expr) : Parse Stmt := do
  let condition ← expr
  discard <| expectKeyword .do .whileDo
  let body ← nested.statement true
  return .while condition body

/-- The end of a loop after `break`, reported when there is no loop around. -/
def breakStatement (inLoop : Bool) : Parse Stmt := do
  let keyword ← previous
  unless inLoop do
    report (.errorAt keyword "Must be inside a loop to use 'break'.")
  discard <| expectSymbol .semicolon .breakSemicolon
  return .break keyword

def ifStatement (nested : Nested) (inLoop : Bool) (expr : Parse Expr) : Parse Stmt := do
  let condition ← expr
  discard <| expectKeyword .then .ifThen
  let thenBranch ← nested.statement inLoop
  if ← acceptKeyword .else then
    let elseBranch ← nested.statement inLoop
    return .ifThen condition thenBranch (some elseBranch)
  else
    return .ifThen condition thenBranch none

/-- Whether a handler is in front; `on` is no reserved word. -/
def atHandler : Parse Bool := do
  let token ← peek
  return token.isIdentifier && Text.sameName token.lexeme "on"

def handler (nested : Nested) (inLoop : Bool) : Parse (Handler Stmt) := do
  discard advance
  let name ← expectName .handlerName
  let typeName ← if ← acceptSymbol .colon then
      (do let token ← expectName .typeName; return some token.lexeme)
    else pure none
  discard <| expectKeyword .do .handlerDo
  let body ← nested.statement inLoop
  return { name, typeName, body }

def tryStatement (nested : Nested) (inLoop : Bool) (fuel : Nat) : Parse Stmt := do
  let keyword ← previous
  let body ← declarations (nested.declaration inLoop) .except fuel
  discard <| expectKeyword .except .tryExcept
  let handlers ← collect atHandler (handler nested inLoop) fuel
  let otherwise ← declarations (nested.declaration inLoop) .end fuel
  discard <| expectKeyword .end .tryEnd
  return .try keyword body handlers otherwise

/-- The comparison of a `case` with one label. -/
def caseLabel (expr : Parse Expr) (subject : Expr) : Parse Expr := do
  let label ← expr
  let place ← previous
  return .binary subject .equal (.synthetic (.symbol .equal) "=" place) label

/-- Further labels of the same arm, each joined by a disjunction. -/
def caseLabels (expr : Parse Expr) (subject : Expr) : Nat → Expr → Parse Expr
  | 0, _ => starve
  | fuel + 1, condition => do
      if ← acceptSymbol .comma then
        let place ← previous
        let additional ← caseLabel expr subject
        caseLabels expr subject fuel
          (.logical condition .or (.synthetic (.keyword .or) "or" place) additional)
      else
        return condition

/-- The arms of a `case` up to its `end`, with the statement after `else`. -/
def caseArms (nested : Nested) (inLoop : Bool) (expr : Parse Expr) (subject : Expr) :
    Nat → Parse (List (Expr × Stmt) × Option Stmt)
  | 0 => starve
  | fuel + 1 => do
      let label ← caseLabel expr subject
      let condition ← caseLabels expr subject fuel label
      discard <| expectSymbol .colon .caseColon
      let body ← nested.statement inLoop
      discard <| acceptSymbol .semicolon
      if ← acceptKeyword .end then
        return ([(condition, body)], none)
      else if ← acceptKeyword .else then
        let otherwise ← nested.statement inLoop
        discard <| acceptSymbol .semicolon
        discard <| expectKeyword .end .caseEnd
        return ([(condition, body)], some otherwise)
      else if ← atEnd then
        fail .caseEnd
      else
        let (arms, otherwise) ← caseArms nested inLoop expr subject fuel
        return ((condition, body) :: arms, otherwise)

def caseStatement (nested : Nested) (inLoop : Bool) (expr : Parse Expr) (fuel : Nat) :
    Parse Stmt := do
  let subject ← expr
  discard <| expectKeyword .of .caseOf
  let (arms, otherwise) ← caseArms nested inLoop expr subject fuel
  match Stmt.lowerCase arms otherwise with
  | some statement => return statement
  | none => failAt (← previous) .caseEnd

def printStatement (expr : Parse Expr) : Parse Stmt := do
  let keyword ← previous
  let value ← expr
  discard <| expectSymbol .semicolon .valueSemicolon
  return .print keyword value

/-- An optional value and its semicolon, after `exit` or `raise`. -/
def resultValue (expr : Parse Expr) : Parse (Option Expr) := do
  let value ← optional (atSymbol .semicolon) expr
  discard <| expectSymbol .semicolon .resultSemicolon
  return value

def exitStatement (expr : Parse Expr) : Parse Stmt := do
  let keyword ← previous
  return .exit keyword (← resultValue expr)

def raiseStatement (expr : Parse Expr) : Parse Stmt := do
  let keyword ← previous
  return .raise keyword (← resultValue expr)

def blockStatement (nested : Nested) (inLoop : Bool) (fuel : Nat) : Parse Stmt := do
  let body ← declarations (nested.declaration inLoop) .end fuel
  discard <| expectKeyword .end .blockEnd
  return .block body

/-- A statement, told by the reserved word in front. -/
def statement (nested : Nested) (expr : Parse Expr) (fuel : Nat) (inLoop : Bool) :
    Parse Stmt := do
  match (← peek).keyword? with
  | some .for => discard advance; forStatement nested expr
  | some .break => discard advance; breakStatement inLoop
  | some .if => discard advance; ifStatement nested inLoop expr
  | some .try => discard advance; tryStatement nested inLoop fuel
  | some .case => discard advance; caseStatement nested inLoop expr fuel
  | some .print => discard advance; printStatement expr
  | some .exit => discard advance; exitStatement expr
  | some .raise => discard advance; raiseStatement expr
  | some .while => discard advance; whileStatement nested expr
  | some .begin => discard advance; blockStatement nested inLoop fuel
  | _ => expressionStatement expr

/-- A function after the word that announces it. -/
def function (nested : Nested) (inLoop : Bool) (expr : Parse Expr) (fuel : Nat)
    (kind : FunctionKind) : Parse Function := do
  let name ← expectName (.functionName kind)
  let parameters ← params fuel
  let returnType ← resultType kind
  discard <| expectSymbol .semicolon .headerSemicolon
  let announced ← sections expr fuel
  discard <| expectKeyword .begin (.functionBegin kind)
  let body ← declarations (nested.declaration inLoop) .end fuel
  discard <| expectKeyword .end (.functionEnd kind)
  return { kind, name, params := parameters, returnType,
           body := announced.flatMap Section.statements ++ body }

/-- The word in front of a method. -/
def methodKind : Parse FunctionKind := do
  if ← acceptKeyword .function then return .function
  else if ← acceptKeyword .procedure then return .procedure
  else if ← acceptKeyword .constructor then return .constructor
  else return .method

def method (nested : Nested) (inLoop : Bool) (expr : Parse Expr) (fuel : Nat) :
    Parse Function := do
  let kind ← methodKind
  let decl ← function nested inLoop expr fuel kind
  discard <| acceptSymbol .semicolon
  return decl

def superclass : Parse (Option Superclass) := do
  if ← acceptSymbol .leftParen then
    let name ← expectName .superclassName
    discard <| expectSymbol .rightParen .superclassParen
    return some { id := ← freshId, name }
  else
    return none

def classDecl (nested : Nested) (inLoop : Bool) (expr : Parse Expr) (fuel : Nat) :
    Parse (ClassDecl Stmt) := do
  let name ← expectName .className
  let parent ← superclass
  discard <| expectSymbol .semicolon .classSemicolon
  let announced ← sections expr fuel
  discard <| expectKeyword .begin .classBegin
  let open? : Parse Bool := do return !(← atKeyword .end) && !(← atEnd)
  let methods ← collect open? (method nested inLoop expr fuel) fuel
  discard <| expectKeyword .end .classEnd
  return { name, superclass := parent, methods,
           fields := announced.flatMap Section.fields
           enums := announced.flatMap Section.enumDecls }

def usesDecl : Parse Stmt := do
  let keyword ← previous
  let name ← expectName .unitName
  discard <| expectSymbol .semicolon .unitSemicolon
  return .uses keyword name

/-- A declaration or a statement.  One declaration may stand for several statements. -/
def declaration (nested : Nested) (here : Bool → Parse Stmt) (expr : Parse Expr) (fuel : Nat)
    (inLoop : Bool) : Parse (List Stmt) := do
  match (← peek).keyword? with
  | some .uses =>
      discard advance
      return [← usesDecl]
  | some .class =>
      discard advance
      let decl ← classDecl nested inLoop expr fuel
      return [.classDecl decl]
  | some .function =>
      discard advance
      let decl ← function nested inLoop expr fuel .function
      return [.function decl]
  | some .procedure =>
      discard advance
      let decl ← function nested inLoop expr fuel .procedure
      return [.function decl]
  | some .var =>
      discard advance
      let decls ← variableSection expr fuel
      return decls.map .var
  | some .type =>
      discard advance
      let decls ← enumSection fuel
      return decls.map .enumDecl
  | _ =>
      let single ← here inLoop
      return [single]

end Parse

/-- The parsers of statements and declarations, nested less deeply than the fuel. -/
def grammar (mode : Recovery) : Nat → Nested
  | 0 => { statement := fun _ => Parse.starve, declaration := fun _ => Parse.starve }
  | fuel + 1 =>
      let nested := grammar mode fuel
      let expr := Parse.expression (fuel + 1)
      let here := Parse.statement nested expr (fuel + 1)
      { statement := here
        declaration := fun inLoop =>
          Parse.recover mode (Parse.declaration nested here expr (fuel + 1) inLoop) }

end MiniPascal
