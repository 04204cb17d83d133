import MiniPascal.Token.Segment

/-!
# Lexemes

What a segment may be, said without the lexer: which texts are white space, comments, tokens of each
kind or malformed, and what may follow them.  A text is divided into segments that each may stand in
front of the next ones.
-/

namespace MiniPascal

/-! ## Stretches of a class -/

namespace Text

/-- No character of a class stands in front. -/
def Stops (p : Char → Bool) (text : List Char) : Prop :=
  ∀ c ∈ text.head?, p c = false

variable {p : Char → Bool} {stretch rest : List Char}

theorem stops_dropWhile (p : Char → Bool) (text : List Char) : Stops p (text.dropWhile p) := by
  intro c hc
  have hhead := List.head?_dropWhile_not p text
  rw [Option.mem_def.mp hc] at hhead
  exact hhead

theorem Stops.takeWhile_eq_nil (h : Stops p rest) : rest.takeWhile p = [] := by
  cases rest with
  | nil => rfl
  | cons c rest => exact List.takeWhile_cons_of_neg (by simp [h c rfl])

theorem Stops.dropWhile_eq (h : Stops p rest) : rest.dropWhile p = rest := by
  cases rest with
  | nil => rfl
  | cons c rest => exact List.dropWhile_cons_of_neg (by simp [h c rfl])

theorem takeWhile_stretch (hall : ∀ c ∈ stretch, p c = true) (h : Stops p rest) :
    (stretch ++ rest).takeWhile p = stretch := by
  rw [List.takeWhile_append_of_pos hall, h.takeWhile_eq_nil, List.append_nil]

theorem dropWhile_stretch (hall : ∀ c ∈ stretch, p c = true) (h : Stops p rest) :
    (stretch ++ rest).dropWhile p = rest := by
  rw [List.dropWhile_append_of_pos hall, h.dropWhile_eq]

theorem all_ne {c : Char} (h : c ∉ stretch) : ∀ d ∈ stretch, decide (d ≠ c) = true := by
  intro d hd
  exact decide_eq_true fun hsame => h (hsame ▸ hd)

theorem mem_takeWhile {text : List Char} : ∀ c ∈ text.takeWhile p, p c = true :=
  List.all_eq_true.mp List.all_takeWhile

end Text

/-! ## Symbols and reserved words -/

namespace Symbol

def spelling : Symbol → List Char
  | .leftParen => ['('] | .rightParen => [')'] | .leftBracket => ['['] | .rightBracket => [']']
  | .comma => [','] | .dot => ['.'] | .colon => [':'] | .colonEqual => [':', '=']
  | .semicolon => [';'] | .equal => ['='] | .lessGreater => ['<', '>'] | .greater => ['>']
  | .greaterEqual => ['>', '='] | .less => ['<'] | .lessEqual => ['<', '='] | .plus => ['+']
  | .minus => ['-'] | .star => ['*'] | .slash => ['/']

/-- No longer symbol stands where `mark` stands in front of `rest`. -/
def Longest (mark : Symbol) (rest : List Char) : Prop :=
  ∀ other : Symbol, other.spelling <+: mark.spelling ++ rest →
    other.spelling.length ≤ mark.spelling.length

theorem length_spelling_le (mark : Symbol) : mark.spelling.length ≤ 2 := by
  cases mark <;> decide

/-- A symbol of one character is the longest unless a second one is there to go on with it. -/
theorem longest_iff_of_one {mark : Symbol} {c : Char} (hmark : mark.spelling = [c])
    {rest : List Char} :
    mark.Longest rest ↔ ∀ (other : Symbol) (d : Char), other.spelling = [c, d] →
      rest.head? ≠ some d := by
  constructor
  · intro h other d hother hrest
    cases rest with
    | nil => cases hrest
    | cons e rest =>
        cases hrest
        have hlength := h other (by simp [hmark, hother])
        simp [hmark, hother] at hlength
  · intro h other hstands
    have htwo := other.length_spelling_le
    rw [hmark] at hstands ⊢
    match hspelling : other.spelling with
    | [] | [_] => simp
    | [a, d] =>
        rw [hspelling, List.singleton_append, List.cons_prefix_cons] at hstands
        rcases hstands with ⟨rfl, after, rfl⟩
        exact absurd rfl (h other d hspelling)
    | _ :: _ :: _ :: _ =>
        rw [hspelling] at htwo
        simp at htwo

theorem longest_of_two {mark : Symbol} (h : mark.spelling.length = 2) (rest : List Char) :
    mark.Longest rest := by
  intro other _
  rw [h]
  exact other.length_spelling_le

end Symbol

namespace Keyword

theorem spellings_injective : ∀ a ∈ spellings, ∀ b ∈ spellings, a.1 = b.1 → a = b := by
  decide +kernel

theorem ofSpelling?_eq_some_iff {text : String} {word : Keyword} :
    ofSpelling? text = some word ↔ (text, word) ∈ spellings := by
  constructor
  · intro h
    rcases List.lookup_eq_some_iff.mp h with ⟨front, back, hsplit, -⟩
    rw [hsplit]
    exact List.mem_append_right _ List.mem_cons_self
  · intro h
    cases hfound : ofSpelling? text with
    | none =>
        have hother := List.lookup_eq_none_iff.mp hfound _ h
        simp at hother
    | some other =>
        rcases List.lookup_eq_some_iff.mp hfound with ⟨front, back, hsplit, -⟩
        have hmem : (text, other) ∈ spellings := by
          rw [hsplit]
          exact List.mem_append_right _ List.mem_cons_self
        exact congrArg some (Prod.mk.inj (spellings_injective _ hmem _ h rfl)).2

theorem ofSpelling?_eq_none_iff {text : String} :
    ofSpelling? text = none ↔ ∀ word, (text, word) ∉ spellings := by
  simp only [← ofSpelling?_eq_some_iff, Option.eq_none_iff_forall_ne_some]

end Keyword

namespace Segment

/-! ## The lexical grammar -/

/-- Characters that start no lexeme. -/
structure Foreign (c : Char) : Prop where
  blank : isSeparator c = false
  starts : startsName c = false
  digit : c.isDigit = false
  quote : c ≠ '\''
  hash : c ≠ '#'
  mark : ∀ mark : Symbol, mark.spelling.head? ≠ some c

theorem Foreign.ne {c d : Char} (h : Foreign c) (mark : Symbol)
    (hd : mark.spelling.head? = some d) : c ≠ d :=
  fun hsame => h.mark mark (hsame ▸ hd)

/-- A point and a digit, which would go on with a number. -/
def Fraction (rest : List Char) : Prop :=
  ∃ d after, rest = '.' :: d :: after ∧ d.isDigit = true

/-- The digits are the code of a character. -/
def IsCode (digits : List Char) : Prop :=
  digits ≠ [] ∧ (Decimal.natOfDigits digits).isValidChar

/-- A word: a character that starts names, and all that go on with it. -/
structure IsWord (c : Char) (cs rest : List Char) : Prop where
  starts : startsName c = true
  continues : ∀ d ∈ cs, continuesName d = true
  stops : Text.Stops continuesName rest

/-- A segment may stand in front of a text. -/
inductive Stands : Segment → List Char → Prop where
  | blank {c : Char} {rest : List Char} (h : isSeparator c = true) : Stands ⟨.blank, [c]⟩ rest
  | comment {body rest : List Char} (hbody : '\n' ∉ body) (hend : Text.Stops (· ≠ '\n') rest) :
      Stands ⟨.comment, '/' :: '/' :: body⟩ rest
  | quoted {body rest : List Char} (hbody : '\'' ∉ body) :
      Stands ⟨.token (quotedKind body), '\'' :: body ++ ['\'']⟩ rest
  | unterminated {body : List Char} (hbody : '\'' ∉ body) :
      Stands ⟨.malformed .unterminatedString, '\'' :: body⟩ []
  | code {digits rest : List Char} (hdigits : ∀ d ∈ digits, d.isDigit = true)
      (hend : Text.Stops Char.isDigit rest) (h : IsCode digits) :
      Stands ⟨.token (.char (Char.ofNat (Decimal.natOfDigits digits))), '#' :: digits⟩ rest
  | noCode {digits rest : List Char} (hdigits : ∀ d ∈ digits, d.isDigit = true)
      (hend : Text.Stops Char.isDigit rest) (h : ¬ IsCode digits) :
      Stands ⟨.malformed .invalidCharacter, '#' :: digits⟩ rest
  | integer {d : Char} {digits rest : List Char} (hdigits : ∀ e ∈ d :: digits, e.isDigit = true)
      (hend : Text.Stops Char.isDigit rest) (hwhole : ¬ Fraction rest)
      (h : Decimal.natOfDigits (d :: digits) ≤ Decimal.maxInteger) :
      Stands ⟨.token (.integer (Int64.ofNat (Decimal.natOfDigits (d :: digits)))), d :: digits⟩ rest
  | noInteger {d : Char} {digits rest : List Char} (hdigits : ∀ e ∈ d :: digits, e.isDigit = true)
      (hend : Text.Stops Char.isDigit rest) (hwhole : ¬ Fraction rest)
      (h : Decimal.maxInteger < Decimal.natOfDigits (d :: digits)) :
      Stands ⟨.malformed .invalidNumber, d :: digits⟩ rest
  | float {d e : Char} {whole fraction rest : List Char}
      (hwhole : ∀ f ∈ d :: whole, f.isDigit = true)
      (hfraction : ∀ f ∈ e :: fraction, f.isDigit = true) (hend : Text.Stops Char.isDigit rest) :
      Stands ⟨.token (.float (Decimal.ofParts (d :: whole) (e :: fraction))),
        d :: whole ++ '.' :: e :: fraction⟩ rest
  | reserved {c : Char} {cs rest : List Char} {word : Keyword} (hword : IsWord c cs rest)
      (h : (Text.lower (String.ofList (c :: cs)), word) ∈ Keyword.spellings) :
      Stands ⟨.token (.keyword word), c :: cs⟩ rest
  | name {c : Char} {cs rest : List Char} (hword : IsWord c cs rest)
      (h : ∀ word, (Text.lower (String.ofList (c :: cs)), word) ∉ Keyword.spellings) :
      Stands ⟨.token .identifier, c :: cs⟩ rest
  | symbol {mark : Symbol} {rest : List Char} (hlongest : mark.Longest rest)
      (hcomment : ¬ ['/', '/'] <+: mark.spelling ++ rest) :
      Stands ⟨.token (.symbol mark), mark.spelling⟩ rest
  | unexpected {c : Char} {rest : List Char} (h : Foreign c) :
      Stands ⟨.malformed .unexpectedCharacter, [c]⟩ rest

/-- A text is divided into segments, each of which may stand in front of those behind it. -/
inductive Divides : List Char → List Segment → Prop where
  | nil : Divides [] []
  | cons {segment : Segment} {rest : List Char} {segments : List Segment}
      (h : segment.Stands rest) (hrest : Divides rest segments) :
      Divides (segment.text ++ rest) (segment :: segments)

/-- Nothing is lost. -/
theorem Divides.flatten_eq {text : List Char} {segments : List Segment}
    (h : Divides text segments) : (segments.map (·.text)).flatten = text := by
  induction h with
  | nil => rfl
  | cons _ _ ih => rw [List.map_cons, List.flatten_cons, ih]

theorem Divides.stands_of_mem {text : List Char} {segments : List Segment}
    (h : Divides text segments) {segment : Segment} (hmem : segment ∈ segments) :
    ∃ rest, segment.Stands rest := by
  induction h with
  | nil => cases hmem
  | @cons _ rest _ hstands _ ih =>
      rcases List.mem_cons.mp hmem with rfl | hmem
      · exact ⟨rest, hstands⟩
      · exact ih hmem

end Segment

end MiniPascal
