import MiniPascal.Text.CharClass

/-!
# Quoted text

A quoted text stands between two quotes.  The quote itself, the backslash and the common control
characters are written with a backslash, and every other character without a shape of its own by
its code point in braces.
-/

namespace MiniPascal
namespace Text

/-- A code point in lower-case hexadecimal digits. -/
def hexDigits (n : Nat) : String :=
  String.ofList (Nat.toDigits 16 n)

/-- One character as it is written between two quotes. -/
def quoteChar (quote c : Char) : String :=
  if c = '\x00' then "\\0"
  else if c = '\t' then "\\t"
  else if c = '\r' then "\\r"
  else if c = '\n' then "\\n"
  else if c = '\\' then "\\\\"
  else if c = quote then String.ofList ['\\', quote]
  else if isPrintable c then String.singleton c
  else "\\u\x7b" ++ hexDigits c.toNat ++ "\x7d"

/-- A text between double quotes. -/
def quoteString (text : String) : String :=
  "\"" ++ String.join (text.toList.map (quoteChar '"')) ++ "\""

/-- A character between single quotes. -/
def quoteSingle (c : Char) : String :=
  "'" ++ quoteChar '\'' c ++ "'"

end Text
end MiniPascal
