import Mathlib.Algebra.Group.Nat.Defs
import MiniPascal.Machine.Eval
import MiniPascal.Parser.Program
import MiniPascal.Proofs.Token.Division

/-!
# Literals

A text that consists of one literal is one token; the expression that is read from it has the value
that is written there, in every store.  A number that is too large and a code of no character are
no tokens, and each of them is reported.
-/

namespace MiniPascal

namespace Source

/-- The text is a single token, and the expression that is read from it has the value. -/
def ReadsAs (source : Source) (kind : TokenKind) (value : Value) : Prop :=
  (Lexer.scan source).diagnostics = [] ∧
  (Lexer.scan source).tokens =
    [{ kind, lexeme := source.text, position := .start, file := source.path }] ∧
  ∃ e, (parseExpression (Lexer.scan source)).result = .ok e ∧
    (parseExpression (Lexer.scan source)).diagnostics = [] ∧
    ∀ (call : Eval.Caller) (cx : Context) (s : Store), Eval.expr call cx e s = .ok value s

/-- There is no token in the text, and one report at its start. -/
def IsRefused (source : Source) (message : String) : Prop :=
  (Lexer.scan source).tokens = [] ∧
  (Lexer.scan source).diagnostics =
    [{ message, level := .error, span := .point .start, file := source.path }]

theorem scan_of_stands {source : Source} {segment : Segment} (h : segment.Stands [])
    (htext : source.text.toList = segment.text) :
    Lexer.scan source = Lexer.scanFrom source.path .start [segment] := by
  have hdivides := Segment.Divides.cons h .nil
  rw [List.append_nil] at hdivides
  rw [Lexer.scan, htext, Segment.split_eq_iff.mpr hdivides]

theorem isRefused_of_stands {source : Source} {fault : LexicalFault} {text : List Char}
    (h : Segment.Stands ⟨.malformed fault, text⟩ []) (htext : source.text.toList = text) :
    source.IsRefused (Segment.faultMessage fault source.text) := by
  unfold IsRefused
  rw [scan_of_stands h htext, ← String.ofList_toList (s := source.text), htext]
  exact ⟨rfl, rfl⟩

/-- A literal that is alone in a text is read as it stands. -/
theorem parseExpression_literal {token last : Token} {literal : Literal}
    (htoken : Parse.literal? token = some literal) (hlast : last.kind = .endOfFile) :
    parseExpression ⟨[token], last, []⟩ = ⟨.ok (.literal literal), [], 0⟩ := by
  rcases token with ⟨kind, lexeme, position, file⟩
  rcases last with ⟨lastKind, lastLexeme, lastPosition, lastFile⟩
  cases hlast
  cases kind with
  | keyword word => cases word <;> cases htoken <;> rfl
  | identifier | symbol | endOfFile => cases htoken
  | _ =>
      cases htoken
      rfl

theorem readsAs_of_stands {source : Source} {kind : TokenKind} {text : List Char}
    (literal : Literal) (h : Segment.Stands ⟨.token kind, text⟩ [])
    (htext : source.text.toList = text)
    (hliteral : ∀ token : Token, token.kind = kind → Parse.literal? token = some literal) :
    source.ReadsAs kind (.ofLiteral literal) := by
  have hlexeme : String.ofList text = source.text := by rw [← htext, String.ofList_toList]
  unfold ReadsAs
  rw [scan_of_stands h htext]
  have hend : (Lexer.endToken source.path (.advance .start text)).kind = .endOfFile := rfl
  have hparse := parseExpression_literal
    (hliteral ⟨kind, String.ofList text, .start, source.path⟩ rfl) hend
  refine ⟨rfl, by rw [← hlexeme]; rfl, .literal literal, ?_, ?_, fun call cx s => ?_⟩
  · exact congrArg Parsed.result hparse
  · exact congrArg Parsed.diagnostics hparse
  · rw [Eval.expr]
    rfl

end Source

/-! ## The three kinds of literals -/

namespace Segment

theorem stops_nil (p : Char → Bool) : Text.Stops p [] := by
  intro c hc
  cases hc

theorem digits_stand {digits : List Char} (hne : digits ≠ [])
    (hdigits : ∀ d ∈ digits, d.isDigit = true) : Stands ⟨integerKind digits, digits⟩ [] := by
  cases digits with
  | nil => exact absurd rfl hne
  | cons d rest =>
      refine integer_stands hdigits (stops_nil _) ?_
      rintro ⟨e, after, hpoint, -⟩
      cases hpoint

end Segment

namespace Source

variable {path : String}

theorem number_readsAs {digits : String} (hne : digits.toList ≠ [])
    (hdigits : ∀ d ∈ digits.toList, d.isDigit = true)
    (h : Decimal.natOfDigits digits.toList < 2 ^ 63) :
    let value := Int64.ofNat (Decimal.natOfDigits digits.toList)
    ReadsAs ⟨path, digits⟩ (.integer value) (.integer value) := by
  intro value
  have hstands := Segment.digits_stand hne hdigits
  rw [Segment.integerKind_of_le (Nat.le_of_lt_succ h)] at hstands
  refine readsAs_of_stands (.integer value) hstands rfl fun token hkind => ?_
  rw [Parse.literal?, hkind]

theorem number_isRefused {digits : String} (hne : digits.toList ≠ [])
    (hdigits : ∀ d ∈ digits.toList, d.isDigit = true)
    (h : 2 ^ 63 ≤ Decimal.natOfDigits digits.toList) :
    IsRefused ⟨path, digits⟩ ("Invalid number: " ++ digits) := by
  have hstands := Segment.digits_stand hne hdigits
  rw [Segment.integerKind_of_lt h] at hstands
  exact isRefused_of_stands hstands rfl

theorem toList_quoted (body : String) :
    ("'" ++ body ++ "'").toList = '\'' :: body.toList ++ ['\''] := by
  rw [String.toList_append, String.toList_append]
  rfl

theorem character_readsAs {body : String} {c : Char} (hquote : '\'' ∉ body.toList)
    (h : body.toList = [c]) : ReadsAs ⟨path, "'" ++ body ++ "'"⟩ (.char c) (.char c) := by
  have hstands : Segment.Stands _ [] := .quoted hquote
  rw [h] at hstands
  refine readsAs_of_stands (.char c) hstands ?_ fun token hkind => ?_
  · rw [toList_quoted, h]
  · rw [Parse.literal?, hkind]

theorem string_readsAs {body : String} (hquote : '\'' ∉ body.toList)
    (h : ∀ c, body.toList ≠ [c]) :
    ReadsAs ⟨path, "'" ++ body ++ "'"⟩ (.string body) (.string body) := by
  have hkind : Segment.quotedKind body.toList = .string body := by
    unfold Segment.quotedKind
    split
    · next c hsingle => exact absurd hsingle (h c)
    · rw [String.ofList_toList]
  have hstands : Segment.Stands _ [] := .quoted hquote
  rw [hkind] at hstands
  refine readsAs_of_stands (.string body) hstands (toList_quoted body)
    fun token hkind => ?_
  rw [Parse.literal?, hkind]

theorem toList_code (digits : String) : ("#" ++ digits).toList = '#' :: digits.toList := by
  rw [String.toList_append]
  rfl

theorem code_readsAs {digits : String} (hne : digits.toList ≠ [])
    (hdigits : ∀ d ∈ digits.toList, d.isDigit = true)
    (h : (Decimal.natOfDigits digits.toList).isValidChar) :
    let c := Char.ofNat (Decimal.natOfDigits digits.toList)
    ReadsAs ⟨path, "#" ++ digits⟩ (.char c) (.char c) := by
  intro c
  have hstands := Segment.Stands.code hdigits (Segment.stops_nil _) ⟨hne, h⟩
  refine readsAs_of_stands (.char c) hstands (toList_code digits) fun token hkind => ?_
  rw [Parse.literal?, hkind]

theorem code_isRefused {digits : String} (hdigits : ∀ d ∈ digits.toList, d.isDigit = true)
    (h : ¬(Decimal.natOfDigits digits.toList).isValidChar) :
    IsRefused ⟨path, "#" ++ digits⟩ ("Invalid character: #" ++ digits) := by
  have hstands := Segment.Stands.noCode hdigits (Segment.stops_nil _) fun hcode => h hcode.2
  have hrefused : IsRefused ⟨path, "#" ++ digits⟩ _ :=
    isRefused_of_stands hstands (toList_code digits)
  have hmessage : "Invalid character: " ++ ("#" ++ digits) = "Invalid character: #" ++ digits := by
    rw [← String.append_assoc]
    rfl
  exact hmessage ▸ hrefused

/-- Literals come back as they are written.  Digits, with any leading zeros, are the integer that
they denote, as long as it is less than two to the power of 63, and else no token but a report.  A
text between quotes that has none itself is a character if it has only one, and else a string.
Digits after `#` are the character of which they are the code, and a report if there is none. -/
theorem literals_read_back (path : String) :
    (∀ digits : String, digits.toList ≠ [] → (∀ d ∈ digits.toList, d.isDigit = true) →
      let n := Decimal.natOfDigits digits.toList
      (n < 2 ^ 63 → ∃ value : Int64, value.toInt = n ∧
        ReadsAs ⟨path, digits⟩ (.integer value) (.integer value)) ∧
      (2 ^ 63 ≤ n → IsRefused ⟨path, digits⟩ ("Invalid number: " ++ digits))) ∧
    (∀ body : String, '\'' ∉ body.toList →
      (∀ c, body.toList = [c] → ReadsAs ⟨path, "'" ++ body ++ "'"⟩ (.char c) (.char c)) ∧
      ((∀ c, body.toList ≠ [c]) →
        ReadsAs ⟨path, "'" ++ body ++ "'"⟩ (.string body) (.string body))) ∧
    (∀ digits : String, digits.toList ≠ [] → (∀ d ∈ digits.toList, d.isDigit = true) →
      let n := Decimal.natOfDigits digits.toList
      (n.isValidChar → ∃ c : Char, c.toNat = n ∧
        ReadsAs ⟨path, "#" ++ digits⟩ (.char c) (.char c)) ∧
      (¬n.isValidChar → IsRefused ⟨path, "#" ++ digits⟩ ("Invalid character: #" ++ digits))) := by
  refine ⟨fun digits hne hdigits => ⟨fun h => ?_, number_isRefused hne hdigits⟩,
    fun body hquote => ⟨fun c => character_readsAs hquote, string_readsAs hquote⟩,
    fun digits hne hdigits => ⟨fun h => ?_, code_isRefused hdigits⟩⟩
  · exact ⟨_, Int64.toInt_ofNat_of_lt h, number_readsAs hne hdigits h⟩
  · refine ⟨_, ?_, code_readsAs hne hdigits h⟩
    rw [Char.ofNat, dif_pos h]
    rfl

/-- A number with leading zeros, one that is too large, a quote of one character, and the code of
a surrogate. -/
theorem literals_read_back_limits :
    ReadsAs ⟨"", "007"⟩ (.integer 7) (.integer 7) ∧
      IsRefused ⟨"", "9223372036854775808"⟩ "Invalid number: 9223372036854775808" ∧
      ReadsAs ⟨"", "'ß'"⟩ (.char 'ß') (.char 'ß') ∧
      IsRefused ⟨"", "#55296"⟩ "Invalid character: #55296" := by
  have hall := literals_read_back ""
  have hseven := (hall.1 "007" (by decide) (List.all_eq_true.mp (by decide))).1 (by decide)
  have hlarge := (hall.1 "9223372036854775808" (by decide) (List.all_eq_true.mp (by decide))).2 (by decide)
  have hquote := (hall.2.1 "ß" (by decide)).1 'ß' (by decide)
  have hcode := (hall.2.2 "55296" (by decide) (List.all_eq_true.mp (by decide))).2 (by decide)
  refine ⟨?_, hlarge, hquote, hcode⟩
  rcases hseven with ⟨value, hvalue, hreads⟩
  have hsame : value = 7 := Int64.toInt_inj.mp (hvalue.trans (by decide))
  rwa [hsame] at hreads

end Source

end MiniPascal
