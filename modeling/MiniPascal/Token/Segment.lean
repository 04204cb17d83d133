import MiniPascal.Decimal.Read
import MiniPascal.Text.Case
import MiniPascal.Text.CharClass
import MiniPascal.Token

/-!
# Segments of a text

A text falls apart into segments: single white-space characters, comments, tokens and malformed
lexemes.  Where a segment ends depends only on the text from its first character on, so the
division needs no places; the lexer adds those.
-/

namespace MiniPascal

/-- Why a stretch of text is no token. -/
inductive LexicalFault where
  | unterminatedString
  | invalidCharacter
  | invalidNumber
  | unexpectedCharacter
deriving DecidableEq, Repr

inductive SegmentKind where
  | blank
  | comment
  | token (kind : TokenKind)
  | malformed (fault : LexicalFault)
deriving DecidableEq

/-- A stretch of text with what it is. -/
structure Segment where
  kind : SegmentKind
  text : List Char
deriving DecidableEq

namespace Segment

def faultMessage (fault : LexicalFault) (lexeme : String) : String :=
  match fault with
  | .unterminatedString => "Unterminated string."
  | .invalidCharacter => "Invalid character: " ++ lexeme
  | .invalidNumber => "Invalid number: " ++ lexeme
  | .unexpectedCharacter => "Unexpected character: " ++ lexeme

/-- The characters between tokens. -/
def isSeparator (c : Char) : Bool :=
  c = ' ' || c = '\t' || c = '\r' || c = '\n'

def startsName (c : Char) : Bool :=
  Text.isLetter c || c = '_' || c = '?'

def continuesName (c : Char) : Bool :=
  Text.isLetter c || Text.isNumeral c || c = '_' || c = '?'

/-- The kind of a quoted literal: a single character between the quotes is a character. -/
def quotedKind : List Char → TokenKind
  | [c] => .char c
  | body => .string (String.ofList body)

/-- A quoted literal, from its opening quote on. -/
def quoted (rest : List Char) : Segment × List Char :=
  let body := rest.takeWhile (· ≠ '\'')
  match rest.dropWhile (· ≠ '\'') with
  | [] => ({ kind := .malformed .unterminatedString, text := '\'' :: rest }, [])
  | quote :: after =>
      ({ kind := .token (quotedKind body), text := '\'' :: body ++ [quote] }, after)

/-- The greatest code of a character. -/
def maxCode : Nat := 0x10FFFF

/-- The character with a code given in decimal digits. -/
def charOfCode? (digits : List Char) : Option Char :=
  if digits.isEmpty then none
  else
    match Decimal.natUpTo? maxCode digits with
    | none => none
    | some code => if code.isValidChar then some (Char.ofNat code) else none

/-- A character literal by code, from its `#` on. -/
def charCode (rest : List Char) : Segment × List Char :=
  let digits := rest.takeWhile Char.isDigit
  let kind : SegmentKind :=
    match charOfCode? digits with
    | some c => .token (.char c)
    | none => .malformed .invalidCharacter
  ({ kind, text := '#' :: digits }, rest.dropWhile Char.isDigit)

/-- The kind of a whole number. -/
def integerKind (digits : List Char) : SegmentKind :=
  match Decimal.integerOfDigits? digits with
  | some value => .token (.integer value)
  | none => .malformed .invalidNumber

/-- A number, given all characters from its first digit on.  A point belongs to it only when a
digit follows. -/
def number (cs : List Char) : Segment × List Char :=
  let whole := cs.takeWhile Char.isDigit
  match cs.dropWhile Char.isDigit with
  | '.' :: d :: after =>
      if d.isDigit then
        let fraction := (d :: after).takeWhile Char.isDigit
        ({ kind := .token (.float (Decimal.ofParts whole fraction)),
           text := whole ++ '.' :: fraction },
          (d :: after).dropWhile Char.isDigit)
      else
        ({ kind := integerKind whole, text := whole }, '.' :: d :: after)
  | rest => ({ kind := integerKind whole, text := whole }, rest)

/-- The kind of a word: a reserved word in any letter case, or a name. -/
def wordKind (word : List Char) : TokenKind :=
  match Keyword.ofSpelling? (Text.lower (String.ofList word)) with
  | some keyword => .keyword keyword
  | none => .identifier

/-- A word, given its first character. -/
def word (c : Char) (rest : List Char) : Segment × List Char :=
  let lexeme := c :: rest.takeWhile continuesName
  ({ kind := .token (wordKind lexeme), text := lexeme }, rest.dropWhile continuesName)

/-- A symbol that is complete. -/
def symbol (mark : Symbol) (text rest : List Char) : Segment × List Char :=
  ({ kind := .token (.symbol mark), text }, rest)

/-- The symbol of a single character that starts no longer symbol. -/
def singleSymbol? : Char → Option Symbol
  | '(' => some .leftParen
  | ')' => some .rightParen
  | '[' => some .leftBracket
  | ']' => some .rightBracket
  | ',' => some .comma
  | '.' => some .dot
  | '+' => some .plus
  | '-' => some .minus
  | ';' => some .semicolon
  | '*' => some .star
  | '=' => some .equal
  | _ => none

/-- Punctuation, or a character that starts no lexeme. -/
def punctuation (c : Char) (rest : List Char) : Segment × List Char :=
  match c, rest with
  | ':', '=' :: after => symbol .colonEqual [':', '='] after
  | ':', _ => symbol .colon [':'] rest
  | '>', '=' :: after => symbol .greaterEqual ['>', '='] after
  | '>', _ => symbol .greater ['>'] rest
  | '<', '=' :: after => symbol .lessEqual ['<', '='] after
  | '<', '>' :: after => symbol .lessGreater ['<', '>'] after
  | '<', _ => symbol .less ['<'] rest
  | _, _ =>
      match singleSymbol? c with
      | some mark => symbol mark [c] rest
      | none => ({ kind := .malformed .unexpectedCharacter, text := [c] }, rest)

/-- A slash, or a comment up to the end of its line. -/
def slash (rest : List Char) : Segment × List Char :=
  match rest with
  | '/' :: _ =>
      ({ kind := .comment, text := '/' :: rest.takeWhile (· ≠ '\n') }, rest.dropWhile (· ≠ '\n'))
  | _ => symbol .slash ['/'] rest

/-- The first segment of a text and what follows it. -/
def first (c : Char) (rest : List Char) : Segment × List Char :=
  if isSeparator c then ({ kind := .blank, text := [c] }, rest)
  else if c = '/' then slash rest
  else if c = '\'' then quoted rest
  else if c = '#' then charCode rest
  else if c.isDigit then number (c :: rest)
  else if startsName c then word c rest
  else punctuation c rest

/-- The segments of a text, at most `fuel` of them. -/
def splitAtMost : Nat → List Char → List Segment
  | 0, _ => []
  | _ + 1, [] => []
  | fuel + 1, c :: rest =>
      (first c rest).1 :: splitAtMost fuel (first c rest).2

/-- The segments of a text.  Each takes a character, so there are no more than characters. -/
def split (text : List Char) : List Segment :=
  splitAtMost text.length text

end Segment

end MiniPascal
