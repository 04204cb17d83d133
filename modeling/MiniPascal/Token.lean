import MiniPascal.Source

/-!
# Tokens

A token is a lexeme with its kind, the place of its first character and the file it stands in.
Literals carry their value.
-/

namespace MiniPascal

inductive Keyword where
  | and
  | «class»
  | else
  | false
  | for
  | if
  | nil
  | not
  | or
  | print
  | exit
  | super
  | then
  | this
  | true
  | type
  | var
  | while
  | begin
  | end
  | do
  | case
  | of
  | constructor
  | function
  | procedure
  | try
  | except
  | finally
  | raise
  | break
  | as
  | unit
  | uses
  | const
deriving DecidableEq, Repr

namespace Keyword

/-- All reserved words with their spelling in small letters. -/
def spellings : List (String × Keyword) := [
  ("and", .and), ("class", .class), ("else", .else), ("false", .false), ("for", .for),
  ("if", .if), ("nil", .nil), ("not", .not), ("or", .or), ("print", .print), ("exit", .exit),
  ("super", .super), ("then", .then), ("this", .this), ("true", .true), ("type", .type),
  ("var", .var), ("while", .while), ("begin", .begin), ("end", .end), ("do", .do),
  ("case", .case), ("of", .of), ("constructor", .constructor), ("function", .function),
  ("procedure", .procedure), ("try", .try), ("except", .except), ("finally", .finally),
  ("raise", .raise), ("break", .break), ("as", .as), ("unit", .unit), ("uses", .uses),
  ("const", .const)]

/-- The reserved word with a given spelling in small letters. -/
def ofSpelling? (word : String) : Option Keyword :=
  spellings.lookup word

def title : Keyword → String
  | .and => "And" | .class => "Class" | .else => "Else" | .false => "False" | .for => "For"
  | .if => "If" | .nil => "Nil" | .not => "Not" | .or => "Or" | .print => "Print"
  | .exit => "Exit" | .super => "Super" | .then => "Then" | .this => "This" | .true => "True"
  | .type => "Type" | .var => "Var" | .while => "While" | .begin => "Begin" | .end => "End"
  | .do => "Do" | .case => "Case" | .of => "Of" | .constructor => "Constructor"
  | .function => "Function" | .procedure => "Procedure" | .try => "Try" | .except => "Except"
  | .finally => "Finally" | .raise => "Raise" | .break => "Break" | .as => "As"
  | .unit => "Unit" | .uses => "Uses" | .const => "Const"

end Keyword

inductive Symbol where
  | leftParen | rightParen | leftBracket | rightBracket | comma | dot | colon | colonEqual
  | semicolon | equal | lessGreater | greater | greaterEqual | less | lessEqual | plus | minus
  | star | slash
deriving DecidableEq, Repr

namespace Symbol

def title : Symbol → String
  | .leftParen => "LParen" | .rightParen => "RParen" | .leftBracket => "LBracket"
  | .rightBracket => "RBracket" | .comma => "Comma" | .dot => "Dot" | .colon => "Colon"
  | .colonEqual => "ColonEqual" | .semicolon => "Semicolon" | .equal => "Equal"
  | .lessGreater => "LessGreater" | .greater => "Greater" | .greaterEqual => "GreaterEqual"
  | .less => "Less" | .lessEqual => "LessEqual" | .plus => "Plus" | .minus => "Minus"
  | .star => "Star" | .slash => "Slash"

end Symbol

/-- What a token is; literals carry their value. -/
inductive TokenKind where
  | identifier
  | integer (value : Int64)
  | float (value : Float)
  | string (value : String)
  | char (value : Char)
  | keyword (word : Keyword)
  | symbol (mark : Symbol)
  | endOfFile
deriving DecidableEq

/-- A lexeme in its place. -/
structure Token where
  kind : TokenKind
  lexeme : String
  position : Position
  file : String
deriving DecidableEq

namespace Token

/-- The stretch of text that a token covers: as many columns as its lexeme has characters, and at
least one. -/
def span (token : Token) : Span where
  line := token.position.line
  column := token.position.column
  endLine := token.position.line
  endColumn := token.position.column + (max token.lexeme.length 1 - 1)

/-- How a token is named in messages. -/
def display (token : Token) : String :=
  match token.kind with
  | .endOfFile => "end of file"
  | _ => "'" ++ token.lexeme ++ "'"

/-- A token that no source text holds, placed where another one stands. -/
def synthetic (kind : TokenKind) (lexeme : String) (place : Token) : Token where
  kind
  lexeme
  position := place.position
  file := place.file

def keyword? (token : Token) : Option Keyword :=
  match token.kind with
  | .keyword word => some word
  | _ => none

def symbol? (token : Token) : Option Symbol :=
  match token.kind with
  | .symbol mark => some mark
  | _ => none

def isIdentifier (token : Token) : Bool :=
  match token.kind with
  | .identifier => true
  | _ => false

end Token

end MiniPascal
