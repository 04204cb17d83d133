import MiniPascal.Diagnostic
import MiniPascal.Typing.Reduce

/-!
# Checking types

A best-effort check of declared types.  A list of statements is checked in two passes: first its
declarations are recorded, then each statement is checked.  The first fault ends the check.
-/

namespace MiniPascal

/-- The function around a place. -/
structure Callable where
  kind : FunctionKind
  returnType : String

/-- A check of types: it may record types and stops at the first fault. -/
abbrev Check := EStateM TypeError TypeLookup

namespace Typing

/-- Stops at a token. -/
def mismatch (token : Token) (fault : TypeFault) : Check α :=
  throw { token, fault }

/-- The type of an expression by what is known so far. -/
def typeOf (e : Expr) : Check String := do
  match (← get).typeOf e with
  | .ok type => return type
  | .error error => throw error

/-- Runs a check in a scope of its own, which is left however the check ends. -/
def inScope (check : Check α) : Check α := fun lookup =>
  match check lookup.enter with
  | .ok value inside => .ok value inside.leave
  | .error error inside => .error error inside.leave

def insideClass (name : String) (check : Check α) : Check α := fun lookup =>
  match check { lookup with currentClass := some name } with
  | .ok value inside => .ok value { inside with currentClass := lookup.currentClass }
  | .error error inside => .error error { inside with currentClass := lookup.currentClass }

/-! ## Recording declarations -/

def registerEnum (lookup : TypeLookup) (decl : EnumDecl) : TypeLookup :=
  decl.members.foldl (fun lookup member => lookup.declare member.lexeme decl.name.lexeme) lookup

def registerMethod (className : String) (lookup : TypeLookup) (method : Function) : TypeLookup :=
  lookup.declare (memberSymbol className method.name.lexeme) method.returnType

def registerField (className : String) (lookup : TypeLookup) (field : Field) : TypeLookup :=
  (lookup.declare (memberSymbol className field.name.lexeme) field.typeName).specialize
    field.name.lexeme field.generic

/-- Records a class with its enumerations and members. -/
def registerClass (lookup : TypeLookup) (decl : ClassDecl Stmt) : TypeLookup :=
  let name := decl.name.lexeme
  let parent := (decl.superclass.map (·.name.lexeme)).getD anyType
  let named := (lookup.inherit name parent).declare name name
  let withEnums := decl.enums.foldl registerEnum named
  let withMethods := decl.methods.foldl (registerMethod name) withEnums
  decl.fields.foldl (registerField name) withMethods

/-- Records what a statement declares. -/
def register (lookup : TypeLookup) : Stmt → TypeLookup
  | .enumDecl decl => registerEnum lookup decl
  | .function decl => lookup.declare decl.name.lexeme decl.returnType
  | .classDecl decl => registerClass lookup decl
  | .var decl =>
      (lookup.declare decl.name.lexeme decl.typeName).specialize decl.name.lexeme decl.generic
  | _ => lookup

/-- Records what statements declare, in order, and goes on. -/
def declaring (statements : List Stmt) (check : Check Unit) : Check Unit := do
  modify fun lookup => statements.foldl register lookup
  check

/-! ## Checking expressions -/

/-- Whether a cast names the expected type. -/
def isCastTo (cast : Option String) (expected : String) : Bool :=
  match cast with
  | some typeName => Text.sameName typeName expected
  | none => false

/-- Checks an assignment whose value has been checked. -/
def checkAssign (cast : Option String) (name : Token) (value : Expr) : Check Unit := do
  match (← get).declared.find? name.lexeme with
  | none => return
  | some expected =>
      if isCastTo cast expected then
        return
      else
        let inferred ← typeOf value
        if isAny expected then
          modify (·.infer name.lexeme inferred)
        else if (← get).isAssignable expected inferred then
          return
        else
          mismatch name .assignment

/-- Checks a write to a property, whose value has type `inferred`. -/
def checkSet (cast : Option String) (object : Expr) (name : Token) (inferred : String) :
    Check Unit := do
  let receiver ← typeOf object
  let lookup ← get
  let known :=
    (lookup.declared.find? (memberSymbol receiver name.lexeme)).or
      (lookup.declared.find? name.lexeme)
  match known with
  | none => return
  | some expected =>
      if isAny expected || isCastTo cast expected || Text.sameName inferred "Nil" ||
          lookup.isAssignable expected inferred then
        return
      else
        mismatch name .field

mutual

/-- Checks an expression that stands under the given cast. -/
def checkExpr (cast : Option String) : Expr → Check Unit
  | .literal _ => pure ()
  | .variable _ _ => pure ()
  | .this _ _ => pure ()
  | .super _ _ _ => pure ()
  | .cast inner typeName => checkExpr (some typeName) inner
  | .unary _ _ operand => checkExpr none operand
  | .grouping inner => checkExpr none inner
  | .binary left _ _ right => do
      checkExpr none left
      checkExpr none right
  | .logical left _ _ right => do
      checkExpr none left
      checkExpr none right
  | .call callee _ arguments => do
      checkExpr none callee
      checkExprs arguments
  | .get object _ => checkExpr none object
  | .subscript _ object index => do
      checkExpr none object
      checkExpr none index
  | .map _ entries => checkEntries entries
  | .assign _ name value => do
      checkExpr none value
      checkAssign cast name value
  | .set object name value => do
      let inferred ← typeOf value
      checkExpr none value
      checkExpr none object
      checkSet cast object name inferred

def checkExprs : List Expr → Check Unit
  | [] => pure ()
  | e :: rest => do
      checkExpr none e
      checkExprs rest

def checkEntries : List (Expr × Expr) → Check Unit
  | [] => pure ()
  | (key, value) :: rest => do
      checkExpr none key
      checkExpr none value
      checkEntries rest

end

/-! ## Checking statements -/

/-- Checks the first value of a variable. -/
def checkVar (decl : VarDecl) : Check Unit := do
  match decl.initial with
  | none => return
  | some initial =>
      checkExpr none initial
      let inferred ← typeOf initial
      if isAny decl.typeName then
        modify (·.infer decl.name.lexeme inferred)
      else
        modify (·.declare decl.name.lexeme decl.typeName)
        if (← get).isAssignable decl.typeName inferred then
          return
        else
          mismatch decl.name .initialValue

/-- Checks a return with a value. -/
def checkExit (around : Option Callable) (keyword : Token) (value : Expr) : Check Unit := do
  match around with
  | none => return
  | some function =>
      if function.kind = .procedure then
        mismatch keyword .procedureResult
      else
        checkExpr none value
        let inferred ← typeOf value
        if isAny function.returnType || (← get).isAssignable function.returnType inferred then
          return
        else
          mismatch keyword .result

def declareParams (params : List Param) : Check Unit :=
  modify fun lookup =>
    params.foldl (fun lookup param => lookup.declare param.name.lexeme param.typeName) lookup

/-- Declares the fields of a class by their own names. -/
def declareFields (fields : List Field) : Check Unit :=
  modify fun lookup =>
    fields.foldl (fun lookup field => lookup.declare field.name.lexeme field.typeName) lookup

/-- Runs the check of a class body in its scopes: one of its own, and one more under a
superclass. -/
def inClassScopes (superclass : Option Superclass) (check : Check Unit) : Check Unit :=
  match superclass with
  | some _ => inScope (inScope check)
  | none => inScope check

mutual

/-- Checks a statement inside the given function. -/
def checkStmt (around : Option Callable) : Stmt → Check Unit
  | .block body => inScope (declaring body (checkEach around body))
  | .classDecl ⟨name, superclass, fields, _, methods⟩ =>
      insideClass name.lexeme <| inClassScopes superclass do
        declareFields fields
        checkMethods methods
  | .function ⟨kind, _, params, returnType, body⟩ =>
      inScope do
        declareParams params
        declaring body (checkEach (some { kind, returnType }) body)
  | .ifThen condition thenBranch none => do
      checkExpr none condition
      checkStmt around thenBranch
  | .ifThen condition thenBranch (some elseBranch) => do
      checkExpr none condition
      checkStmt around thenBranch
      checkStmt around elseBranch
  | .while condition body => do
      checkExpr none condition
      checkStmt around body
  | .try _ body handlers otherwise => do
      inScope (declaring body (checkEach around body))
      checkHandlers around handlers
      inScope (declaring otherwise (checkEach around otherwise))
  | .exit keyword (some value) => checkExit around keyword value
  | .exit _ none => pure ()
  | .var decl => checkVar decl
  | .expression value => checkExpr none value
  | .enumDecl _ => pure ()
  | .print _ _ => pure ()
  | .raise _ _ => pure ()
  | .break _ => pure ()
  | .uses _ _ => pure ()

def checkEach (around : Option Callable) : List Stmt → Check Unit
  | [] => pure ()
  | s :: rest => do
      checkStmt around s
      checkEach around rest

/-- Checks the methods of a class in order. -/
def checkMethods : List Function → Check Unit
  | [] => pure ()
  | ⟨kind, _, params, returnType, body⟩ :: rest => do
      inScope do
        declareParams params
        declaring body (checkEach (some { kind, returnType }) body)
      checkMethods rest

/-- Checks handlers in order, each in a scope that declares its variable. -/
def checkHandlers (around : Option Callable) : List (Handler Stmt) → Check Unit
  | [] => pure ()
  | ⟨name, typeName, body⟩ :: rest => do
      inScope do
        modify (·.declare name.lexeme (typeName.getD anyType))
        checkStmt around body
      checkHandlers around rest

end

/-- Records the declarations of a list of statements, then checks each of them. -/
def checkStmts (around : Option Callable) (statements : List Stmt) : Check Unit :=
  declaring statements (checkEach around statements)

/-- Checks a program from nothing known: what is known afterwards, and the report of a fault. -/
def checkProgram (statements : List Stmt) : TypeLookup × List Diagnostic :=
  match checkStmts none statements .empty with
  | .ok _ lookup => (lookup, [])
  | .error error lookup => (lookup, [.errorAt error.token error.message])

end Typing

end MiniPascal
