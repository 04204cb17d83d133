import MiniPascal.Machine.Value

/-!
# Faults of a running program

The causes for which evaluation fails, and the ways in which statements end early.
-/

namespace MiniPascal

/-- Why evaluation fails. -/
inductive RuntimeFault where
  | variableExists
  | undefinedVariable (name : String)
  | undefinedProperty (name : String)
  | superclassKind
  | raised (text : String)
  | raisedNothing
  | operandKind
  | sumKinds
  | operandKinds
  | divisionByZero
  | noProperties
  | noFields
  | containerField (kind : String)
  | noSignature
  | arity (expected got : Nat)
  | notCallable
  | subscriptKind
  | indexKind
  | indexRange
  | stackEmpty
  | ordinalText (text : String)
  | ordinalKind (typeName : String)
  | copyKind
  | lengthKind (typeName : String)
  | arraySize
  | unwritten (reason : String)
  | assertion
  | assertionEqual (left right : String)
deriving DecidableEq, Repr

namespace RuntimeFault

def message : RuntimeFault → String
  | .variableExists => "Variable already exists!"
  | .undefinedVariable name => "Undefined variable '" ++ name ++ "'."
  | .undefinedProperty name => "Undefined property '" ++ name ++ "'."
  | .superclassKind => "Superclass must be a class."
  | .raised text => text
  | .raisedNothing => "Exception"
  | .operandKind => "Operand must be a number."
  | .sumKinds => "Operands must be two numbers, or two strings."
  | .operandKinds => "Operands must be numbers."
  | .divisionByZero => "Division by zero."
  | .noProperties => "Only instances have properties."
  | .noFields => "Only instances have fields."
  | .containerField kind => "Can't add properties to " ++ kind ++ "."
  | .noSignature => "No matching signature for function."
  | .arity expected got =>
      "Expected " ++ toString expected ++ " arguments but got " ++ toString got ++ "."
  | .notCallable => "Can only call functions and classes."
  | .subscriptKind => "Subscript target should be an ordinal."
  | .indexKind => "Index must be a number."
  | .indexRange => "Index out of range."
  | .stackEmpty => "Stack is empty."
  | .ordinalText text => "Can't take the ordinal of '" ++ text ++ "'."
  | .ordinalKind typeName => "Can't take the ordinal of a " ++ typeName ++ "."
  | .copyKind => "Copy expects a string."
  | .lengthKind typeName => "Can't take the length of a " ++ typeName ++ "."
  | .arraySize => "Array size out of range."
  | .unwritten reason => "Unable to write output: " ++ reason
  | .assertion => "Assertion 'left = right' failed."
  | .assertionEqual left right =>
      "Assertion 'left = right' failed. Expected '" ++ left ++ "' but got '" ++ right ++ "'."

end RuntimeFault

/-- A fault, the token at which it shows, and the value that was raised, if any. -/
structure RuntimeError where
  token : Token
  fault : RuntimeFault
  value : Option Value

namespace RuntimeError

def message (error : RuntimeError) : String :=
  error.fault.message

/-- The value that handlers see: the raised one, or else the message. -/
def raisedValue (error : RuntimeError) : Value :=
  error.value.getD (.string error.message)

end RuntimeError

/-- Why an expression has no value. -/
inductive Failure where
  | error (error : RuntimeError)
  | starved

/-- How a statement ends early. -/
inductive Signal where
  | break
  | exit (value : Value)
  | failed (failure : Failure)

namespace Signal

def message : Signal → String
  | .break => "'break' escaped its loop"
  | .exit _ => "exit"
  | .failed (.error error) => error.message
  | .failed .starved => "out of fuel"

end Signal

end MiniPascal
