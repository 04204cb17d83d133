import MiniPascal.Decimal.Write
import MiniPascal.Report.Shape
import MiniPascal.Text.Json
import MiniPascal.Text.Quoted
import MiniPascal.Token.Lexer

/-!
# Listings of tokens

The tokens of a source, one a line, or as a JSON array.
-/

namespace MiniPascal

namespace TokenKind

/-- The kind of a token with its value. -/
def shape : TokenKind → Shape
  | .identifier => .atom "Identifier"
  | .integer value => .tuple "IntegerLiteral" [.atom (toString value.toInt)]
  | .float value => .tuple "FloatLiteral" [.atom (Decimal.write .tagged value)]
  | .string value => .tuple "StringLiteral" [.atom (Text.quoteString value)]
  | .char value => .tuple "CharLiteral" [.atom (Text.quoteSingle value)]
  | .keyword word => .tuple "Keyword" [.atom word.title]
  | .symbol mark => .atom mark.title
  | .endOfFile => .atom "Eof"

/-- The name of the kind of a token; a reserved word goes by its own name. -/
def title : TokenKind → String
  | .identifier => "Identifier"
  | .integer _ => "IntegerLiteral"
  | .float _ => "FloatLiteral"
  | .string _ => "StringLiteral"
  | .char _ => "CharLiteral"
  | .keyword word => word.title
  | .symbol mark => mark.title
  | .endOfFile => "Eof"

end TokenKind

namespace Token

def shape (token : Token) : Shape :=
  .record "Token" [
    ("kind", token.kind.shape),
    ("lexeme", .atom (Text.quoteString token.lexeme)),
    ("line", .atom (toString token.position.line)),
    ("column", .atom (toString token.position.column)),
    ("file", .atom (Text.quoteString token.file))]

def json (token : Token) : Text.Json :=
  .object [
    ("column", .number token.position.column),
    ("kind", .string token.kind.title),
    ("lexeme", .string token.lexeme),
    ("line", .number token.position.line)]

end Token

namespace Report

def tokenLines (tokens : List Token) : String :=
  String.join (tokens.map fun token => token.shape.compact ++ "\n")

/-- The tokens of a source as a JSON array. -/
def tokensJson (source : Source) : String :=
  (Text.Json.array ((Lexer.scan source).all.map Token.json)).pretty 0 ++ "\n"

end Report

end MiniPascal
