import MiniPascal.Syntax.Stmt

/-!
# Syntax faults

The causes for which a token sequence is no program, and their wording.
-/

namespace MiniPascal

/-- What the parser missed, or refused, at a token. -/
inductive SyntaxFault where
  | unitName | unitSemicolon
  | className | superclassName | superclassParen | classSemicolon | classBegin | classEnd
  | enumName | enumEqual | enumOpen | enumMember | enumClose | headerSemicolon
  | typeName | genericName | variableName | variableSemicolon
  | functionName (kind : FunctionKind) | paramName | paramType | paramClose
  | procedureResult | resultType
  | functionBegin (kind : FunctionKind) | functionEnd (kind : FunctionKind)
  | loopSemicolon | forDo | breakSemicolon | ifThen
  | tryExcept | handlerName | handlerDo | tryEnd
  | caseOf | caseColon | caseEnd
  | valueSemicolon | resultSemicolon | whileDo | blockEnd
  | castName | assignTarget
  | subscriptClose | propertyName | tooManyArguments | callClose
  | superDot | superMethod | mapColon | mapClose | groupClose | expression
deriving DecidableEq, Repr

namespace SyntaxFault

def message : SyntaxFault → String
  | .unitName => "Expected identifier."
  | .unitSemicolon => "Expected ';'"
  | .className => "Expect class name."
  | .superclassName => "Expect superclass name."
  | .superclassParen => "Expect ')' after superclass name."
  | .classSemicolon => "Expect ';' after class declaration."
  | .classBegin => "Expect 'begin' before class body."
  | .classEnd => "Expect 'end' after class body."
  | .enumName => "Expect enum name."
  | .enumEqual => "Expect '=' after enum declaration."
  | .enumOpen => "Expect '('"
  | .enumMember => "Expect enum identifier."
  | .enumClose => "Expect ')'"
  | .headerSemicolon => "Expect ';'"
  | .typeName => "Expected type."
  | .genericName => "Expect generic type."
  | .variableName => "Expect variable name."
  | .variableSemicolon => "Expect ';' after variable declaration."
  | .functionName kind => "Expect " ++ kind.describe ++ " name."
  | .paramName => "Expect parameter name."
  | .paramType => "Expect type."
  | .paramClose => "Expect ')' after parameters."
  | .procedureResult => "Procedures cannot have return type."
  | .resultType => "Expected return type."
  | .functionBegin kind => "Expect 'begin' before " ++ kind.describe ++ " body."
  | .functionEnd kind => "Expect 'end' after " ++ kind.describe ++ " body."
  | .loopSemicolon => "Expect ';' after loop condition."
  | .forDo => "Expect 'do' after for clauses."
  | .breakSemicolon => "Expect ';' after 'break'."
  | .ifThen => "Expect 'then' after if condition."
  | .tryExcept => "Expect 'except' after try block."
  | .handlerName => "Expected variable name."
  | .handlerDo => "Expected 'do'."
  | .tryEnd => "Expect 'end' after except block."
  | .caseOf => "Expect 'of' after case condition."
  | .caseColon => "Expect ':' after condition."
  | .caseEnd => "Expected 'end'."
  | .valueSemicolon => "Expect ';' after value."
  | .resultSemicolon => "Expect ';' after exit value."
  | .whileDo => "Expect 'do' after condition."
  | .blockEnd => "Expect 'end' after block."
  | .castName => "Expect typecast identifier."
  | .assignTarget => "Invalid assignment target."
  | .subscriptClose => "Expect ']' after subscript."
  | .propertyName => "Expect property name after '.'"
  | .tooManyArguments => "Can't have more than 255 arguments."
  | .callClose => "Expect ')' after arguments."
  | .superDot => "Expect '.' after 'super'."
  | .superMethod => "Expect superclass method name"
  | .mapColon => "Expect ':' after key."
  | .mapClose => "Expect ']' after map."
  | .groupClose => "Expect ')' after expression."
  | .expression => "Expect expression."

end SyntaxFault

structure SyntaxError where
  token : Token
  fault : SyntaxFault

namespace SyntaxError

def message (error : SyntaxError) : String :=
  error.fault.message

end SyntaxError

end MiniPascal
