import MiniPascal.Proofs.Token.Lexemes

/-!
# The division of a text

The lexer divides every text into segments that may stand where they do, and there is no other way
to divide it: what may stand in front of a text is what the lexer finds there.
-/

namespace MiniPascal

namespace Segment

/-! ## Classes of characters -/

theorem not_isLetter_of_isDigit {c : Char} (h : c.isDigit = true) : Text.isLetter c = false := by
  have hrange : 48 ≤ c.toNat ∧ c.toNat ≤ 57 := Char.isDigit_iff_toNat.mp h
  have hupper : c.isUpper = false :=
    decide_eq_false fun hletter => absurd (show 65 ≤ c.toNat from hletter.1) (by omega)
  have hlower : c.isLower = false :=
    Bool.and_eq_false_imp.mpr fun hletter =>
      absurd (show 97 ≤ c.toNat from of_decide_eq_true hletter) (by omega)
  unfold Text.isLetter
  rw [if_pos (show c.toNat < 128 by omega)]
  show (c.isUpper || c.isLower) = false
  rw [hupper, hlower]
  rfl

theorem not_isDigit_of_startsName {c : Char} (h : startsName c = true) : c.isDigit = false := by
  rw [Bool.eq_false_iff]
  intro hdigit
  unfold startsName at h
  rw [not_isLetter_of_isDigit hdigit, Bool.false_or, Bool.or_eq_true, decide_eq_true_eq,
    decide_eq_true_eq] at h
  rcases h with rfl | rfl <;> cases hdigit

/-! ## Values of digits -/

theorem integerKind_of_le {digits : List Char}
    (h : Decimal.natOfDigits digits ≤ Decimal.maxInteger) :
    integerKind digits = .token (.integer (Int64.ofNat (Decimal.natOfDigits digits))) := by
  rw [integerKind, Decimal.integerOfDigits?, Decimal.natUpTo?_eq, if_pos h]
  rfl

theorem integerKind_of_lt {digits : List Char}
    (h : Decimal.maxInteger < Decimal.natOfDigits digits) :
    integerKind digits = .malformed .invalidNumber := by
  rw [integerKind, Decimal.integerOfDigits?, Decimal.natUpTo?_eq, if_neg (Nat.not_le_of_lt h)]
  rfl

theorem charOfCode?_of_isCode {digits : List Char} (h : IsCode digits) :
    charOfCode? digits = some (Char.ofNat (Decimal.natOfDigits digits)) := by
  have hne : ¬ digits.isEmpty = true := by simpa using h.1
  have hle : Decimal.natOfDigits digits ≤ maxCode := by
    rcases h.2 with hlow | ⟨-, hhigh⟩
    · exact Nat.le_trans (Nat.le_of_lt hlow) (by decide)
    · exact Nat.le_of_lt_succ hhigh
  rw [charOfCode?, if_neg hne, Decimal.natUpTo?_eq, if_pos hle]
  exact if_pos h.2

theorem charOfCode?_of_not_isCode {digits : List Char} (h : ¬ IsCode digits) :
    charOfCode? digits = none := by
  unfold charOfCode?
  by_cases hempty : digits.isEmpty = true
  · exact if_pos hempty
  · have hcode : ¬ (Decimal.natOfDigits digits).isValidChar :=
      fun hvalid => h ⟨by simpa using hempty, hvalid⟩
    rw [if_neg hempty, Decimal.natUpTo?_eq]
    split
    · rfl
    · next code hcode' =>
        split at hcode'
        · cases hcode'
          exact if_neg hcode
        · cases hcode'

/-! ## The lexer finds what stands in front -/

theorem first_of_isDigit {c : Char} (h : c.isDigit = true) (rest : List Char) :
    first c rest = number (c :: rest) := by
  have hne {d : Char} (hd : d.isDigit = false) : c ≠ d := by
    rintro rfl
    rw [hd] at h
    cases h
  have hblank : isSeparator c = false := by
    simp [isSeparator, hne]
  simp [first, hblank, hne, h]

theorem first_of_startsName {c : Char} (h : startsName c = true) (rest : List Char) :
    first c rest = word c rest := by
  have hne {d : Char} (hd : startsName d = false) : c ≠ d := by
    rintro rfl
    rw [hd] at h
    cases h
  have hblank : isSeparator c = false := by
    simp [isSeparator, hne (show startsName ' ' = false by decide +kernel),
      hne (show startsName '\t' = false by decide +kernel),
      hne (show startsName '\r' = false by decide +kernel),
      hne (show startsName '\n' = false by decide +kernel)]
  have hdigit := not_isDigit_of_startsName h
  simp [first, hblank, hdigit, h, hne (show startsName '/' = false by decide +kernel),
    hne (show startsName '\'' = false by decide +kernel),
    hne (show startsName '#' = false by decide +kernel)]

theorem number_of_whole {digits rest : List Char} (hdigits : ∀ d ∈ digits, d.isDigit = true)
    (hend : Text.Stops Char.isDigit rest) (hwhole : ¬ Fraction rest) :
    number (digits ++ rest) = (⟨integerKind digits, digits⟩, rest) := by
  rw [number, Text.takeWhile_stretch hdigits hend, Text.dropWhile_stretch hdigits hend]
  dsimp only
  split
  · next d after =>
      rw [if_neg fun hd => hwhole ⟨d, after, rfl, hd⟩]
  · rfl

theorem number_of_fraction {e : Char} {whole fraction rest : List Char}
    (hwhole : ∀ d ∈ whole, d.isDigit = true) (hfraction : ∀ d ∈ e :: fraction, d.isDigit = true)
    (hend : Text.Stops Char.isDigit rest) :
    number (whole ++ '.' :: (e :: fraction ++ rest)) =
      (⟨.token (.float (Decimal.ofParts whole (e :: fraction))), whole ++ '.' :: e :: fraction⟩,
        rest) := by
  have hpoint : Text.Stops Char.isDigit ('.' :: (e :: fraction ++ rest)) := by
    intro c hc
    cases hc
    rfl
  rw [number, Text.takeWhile_stretch hwhole hpoint, Text.dropWhile_stretch hwhole hpoint]
  dsimp only
  split
  · next d after hcons =>
      have hsame : d :: after = e :: fraction ++ rest := (List.cons.inj hcons).2.symm
      have hd : d.isDigit = true := hfraction d ((List.cons.inj hsame).1 ▸ List.mem_cons_self)
      rw [if_pos hd, hsame, Text.takeWhile_stretch hfraction hend,
        Text.dropWhile_stretch hfraction hend]
  · next hnone => exact absurd rfl (hnone _ _)

theorem word_of_isWord {c : Char} {cs rest : List Char} (h : IsWord c cs rest) :
    word c (cs ++ rest) = (⟨.token (wordKind (c :: cs)), c :: cs⟩, rest) := by
  rw [word, Text.takeWhile_stretch h.continues h.stops, Text.dropWhile_stretch h.continues h.stops]

theorem punctuation_of_longest {mark : Symbol} {rest : List Char} (hslash : mark ≠ .slash)
    (h : mark.Longest rest) :
    ∃ c tail, mark.spelling = c :: tail ∧
      punctuation c (tail ++ rest) = (⟨.token (.symbol mark), mark.spelling⟩, rest) := by
  cases mark with
  | slash => exact absurd rfl hslash
  | colon =>
      have hrest : rest.head? ≠ some '=' := (Symbol.longest_iff_of_one rfl).mp h .colonEqual _ rfl
      refine ⟨':', [], rfl, ?_⟩
      rw [punctuation]
      · rfl
      · rintro after rfl
        exact hrest rfl
  | greater =>
      have hrest : rest.head? ≠ some '=' := (Symbol.longest_iff_of_one rfl).mp h .greaterEqual _ rfl
      refine ⟨'>', [], rfl, ?_⟩
      rw [punctuation]
      · rfl
      · rintro after rfl
        exact hrest rfl
  | less =>
      have hlongest := (Symbol.longest_iff_of_one rfl).mp h
      have hequal : rest.head? ≠ some '=' := hlongest .lessEqual _ rfl
      have hgreater : rest.head? ≠ some '>' := hlongest .lessGreater _ rfl
      refine ⟨'<', [], rfl, ?_⟩
      rw [punctuation]
      · rfl
      · rintro after rfl
        exact hequal rfl
      · rintro after rfl
        exact hgreater rfl
  | _ => exact ⟨_, _, rfl, rfl⟩

theorem spelling_of_singleSymbol? {c : Char} {mark : Symbol} (h : singleSymbol? c = some mark) :
    mark.spelling = [c] ∧ mark ≠ .slash ∧ ∀ rest, mark.Longest rest := by
  have hcolon : singleSymbol? ':' = none := rfl
  have hgreater : singleSymbol? '>' = none := rfl
  have hless : singleSymbol? '<' = none := rfl
  have hspelling : mark.spelling = [c] ∧ mark ≠ .slash := by
    unfold singleSymbol? at h
    split at h <;> cases h <;> exact ⟨rfl, by simp⟩
  refine ⟨hspelling.1, hspelling.2, fun rest => ?_⟩
  refine (Symbol.longest_iff_of_one hspelling.1).mpr fun other d hother => ?_
  cases other <;> cases hother <;> simp [hcolon, hgreater, hless] at h

/-- Besides the characters that may go on, those of single symbols start the symbols. -/
theorem head?_spelling_ne {c : Char} (h : singleSymbol? c = none) (hslash : c ≠ '/')
    (hcolon : c ≠ ':') (hgreater : c ≠ '>') (hless : c ≠ '<') (mark : Symbol) :
    mark.spelling.head? ≠ some c := by
  intro hhead
  cases mark with
  | slash => exact hslash (Option.some.inj hhead).symm
  | colon | colonEqual => exact hcolon (Option.some.inj hhead).symm
  | greater | greaterEqual => exact hgreater (Option.some.inj hhead).symm
  | less | lessEqual | lessGreater => exact hless (Option.some.inj hhead).symm
  | _ =>
      cases hhead
      cases h

theorem punctuation_of_foreign {c : Char} {rest : List Char} (h : Foreign c) :
    punctuation c rest = (⟨.malformed .unexpectedCharacter, [c]⟩, rest) := by
  have hnone : singleSymbol? c = none := by
    cases hsingle : singleSymbol? c with
    | none => rfl
    | some mark =>
        have hhead := h.mark mark
        rw [(spelling_of_singleSymbol? hsingle).1] at hhead
        exact absurd rfl hhead
  unfold punctuation
  split
  · exact absurd rfl (h.ne .colon rfl)
  · exact absurd rfl (h.ne .colon rfl)
  · exact absurd rfl (h.ne .greater rfl)
  · exact absurd rfl (h.ne .greater rfl)
  · exact absurd rfl (h.ne .less rfl)
  · exact absurd rfl (h.ne .less rfl)
  · exact absurd rfl (h.ne .less rfl)
  · rw [hnone]

theorem first_of_other {c : Char} {rest : List Char} (hblank : isSeparator c = false)
    (hstarts : startsName c = false) (hdigit : c.isDigit = false) (hquote : c ≠ '\'')
    (hhash : c ≠ '#') (hslash : c ≠ '/') : first c rest = punctuation c rest := by
  simp [first, hblank, hstarts, hdigit, hquote, hhash, hslash]

theorem first_of_longest {mark : Symbol} {rest : List Char} (h : mark.Longest rest)
    (hcomment : ¬ ['/', '/'] <+: mark.spelling ++ rest) :
    ∃ c tail, mark.spelling = c :: tail ∧
      first c (tail ++ rest) = (⟨.token (.symbol mark), mark.spelling⟩, rest) := by
  by_cases hslash : mark = .slash
  · cases hslash
    refine ⟨'/', [], rfl, ?_⟩
    show slash rest = _
    rw [slash]
    · rfl
    · rintro after rfl
      exact hcomment ⟨after, rfl⟩
  · rcases punctuation_of_longest hslash h with ⟨c, tail, hspelling, hrun⟩
    refine ⟨c, tail, hspelling, ?_⟩
    rw [← hrun]
    cases mark <;> first | exact absurd rfl hslash | (cases hspelling; rfl)

/-- What may stand in front of a text is what the lexer finds there. -/
theorem Stands.first_eq {segment : Segment} {rest : List Char} (h : segment.Stands rest) :
    ∃ c tail, segment.text = c :: tail ∧ first c (tail ++ rest) = (segment, rest) := by
  cases h with
  | blank h => exact ⟨_, [], rfl, if_pos h⟩
  | @comment body _ hbody hend =>
      have hall := Text.all_ne (show '\n' ∉ '/' :: body by simpa using hbody)
      refine ⟨'/', '/' :: body, rfl, ?_⟩
      show (Segment.mk .comment ('/' :: ('/' :: body ++ rest).takeWhile (· ≠ '\n')),
        ('/' :: body ++ rest).dropWhile (· ≠ '\n')) = _
      rw [Text.takeWhile_stretch hall hend, Text.dropWhile_stretch hall hend]
  | @quoted body _ hbody =>
      have hall := Text.all_ne hbody
      have hend : Text.Stops (· ≠ '\'') ('\'' :: rest) := by
        intro c hc
        cases hc
        rfl
      refine ⟨'\'', body ++ ['\''], rfl, ?_⟩
      show Segment.quoted (body ++ ['\''] ++ rest) = _
      rw [List.append_assoc, List.singleton_append, Segment.quoted, Text.takeWhile_stretch hall hend,
        Text.dropWhile_stretch hall hend]
  | @unterminated body hbody =>
      have hall := Text.all_ne hbody
      refine ⟨'\'', body, rfl, ?_⟩
      have hend : Text.Stops (· ≠ '\'') [] := by
        intro c hc
        cases hc
      show Segment.quoted (body ++ []) = _
      rw [Segment.quoted, Text.dropWhile_stretch hall hend, List.append_nil]
  | @code digits _ hdigits hend h =>
      refine ⟨'#', digits, rfl, ?_⟩
      show charCode (digits ++ rest) = _
      rw [charCode, Text.takeWhile_stretch hdigits hend, Text.dropWhile_stretch hdigits hend,
        charOfCode?_of_isCode h]
  | @noCode digits _ hdigits hend h =>
      refine ⟨'#', digits, rfl, ?_⟩
      show charCode (digits ++ rest) = _
      rw [charCode, Text.takeWhile_stretch hdigits hend, Text.dropWhile_stretch hdigits hend,
        charOfCode?_of_not_isCode h]
  | @integer d digits _ hdigits hend hwhole h =>
      refine ⟨d, digits, rfl, ?_⟩
      rw [first_of_isDigit (hdigits d List.mem_cons_self), ← List.cons_append,
        number_of_whole hdigits hend hwhole, integerKind_of_le h]
  | @noInteger d digits _ hdigits hend hwhole h =>
      refine ⟨d, digits, rfl, ?_⟩
      rw [first_of_isDigit (hdigits d List.mem_cons_self), ← List.cons_append,
        number_of_whole hdigits hend hwhole, integerKind_of_lt h]
  | @float d e whole fraction _ hwhole hfraction hend =>
      refine ⟨d, whole ++ '.' :: e :: fraction, rfl, ?_⟩
      rw [first_of_isDigit (hwhole d List.mem_cons_self), List.append_assoc]
      exact number_of_fraction hwhole hfraction hend
  | @reserved c cs _ word hword h =>
      refine ⟨c, cs, rfl, ?_⟩
      rw [first_of_startsName hword.starts, word_of_isWord hword, wordKind,
        Keyword.ofSpelling?_eq_some_iff.mpr h]
  | @name c cs _ hword h =>
      refine ⟨c, cs, rfl, ?_⟩
      rw [first_of_startsName hword.starts, word_of_isWord hword, wordKind,
        Keyword.ofSpelling?_eq_none_iff.mpr h]
  | symbol hlongest hcomment => exact first_of_longest hlongest hcomment
  | @unexpected c _ h =>
      refine ⟨c, [], rfl, ?_⟩
      rw [List.nil_append, first_of_other h.blank h.starts h.digit h.quote h.hash (h.ne .slash rfl),
        punctuation_of_foreign h]

/-! ## What the lexer finds may stand there -/

/-- A segment and what is behind it, taken off the front of a text. -/
structure TakenOff (text : List Char) (result : Segment × List Char) : Prop where
  stands : result.1.Stands result.2
  whole : result.1.text ++ result.2 = text

theorem slash_takenOff (rest : List Char) : TakenOff ('/' :: rest) (slash rest) := by
  unfold slash
  split
  · next after =>
      have hbody : '\n' ∉ after.takeWhile (· ≠ '\n') :=
        fun hmem => by simpa using Text.mem_takeWhile _ hmem
      constructor
      · exact .comment hbody (Text.stops_dropWhile _ after)
      · exact congrArg (fun tail => '/' :: '/' :: tail) List.takeWhile_append_dropWhile
  · next hnone =>
      have hcomment : ¬ ['/', '/'] <+: '/' :: rest := by
        rintro ⟨after, hafter⟩
        exact hnone after (List.cons.inj hafter).2.symm
      have hlongest : Symbol.slash.Longest rest := by
        refine (Symbol.longest_iff_of_one rfl).mpr fun other d hother => ?_
        cases other <;> cases hother
      exact ⟨.symbol hlongest hcomment, rfl⟩

theorem quoted_takenOff (rest : List Char) : TakenOff ('\'' :: rest) (quoted rest) := by
  have hbody : '\'' ∉ rest.takeWhile (· ≠ '\'') :=
    fun hmem => by simpa using Text.mem_takeWhile _ hmem
  have hwhole : rest.takeWhile (· ≠ '\'') ++ rest.dropWhile (· ≠ '\'') = rest :=
    List.takeWhile_append_dropWhile
  unfold quoted
  dsimp only
  split
  · next hnil =>
      rw [hnil, List.append_nil] at hwhole
      rw [hwhole] at hbody
      exact ⟨.unterminated hbody, List.append_nil _⟩
  · next quote after hcons =>
      have hquote : quote = '\'' := by
        have hstops := Text.stops_dropWhile (· ≠ '\'') rest quote (by rw [hcons]; rfl)
        simpa using hstops
      rw [hcons, hquote] at hwhole
      rw [hquote]
      constructor
      · exact .quoted hbody
      · show '\'' :: (rest.takeWhile (· ≠ '\'') ++ ['\''] ++ after) = _
        rw [List.append_assoc, List.singleton_append, hwhole]

theorem charCode_takenOff (rest : List Char) : TakenOff ('#' :: rest) (charCode rest) := by
  have hend := Text.stops_dropWhile Char.isDigit rest
  constructor
  · unfold charCode
    dsimp only
    by_cases hcode : IsCode (rest.takeWhile Char.isDigit)
    · rw [charOfCode?_of_isCode hcode]
      exact .code Text.mem_takeWhile hend hcode
    · rw [charOfCode?_of_not_isCode hcode]
      exact .noCode Text.mem_takeWhile hend hcode
  · exact congrArg ('#' :: ·) List.takeWhile_append_dropWhile

/-- Digits that no fraction follows are a whole number, of any size. -/
theorem integer_stands {d : Char} {digits rest : List Char}
    (hdigits : ∀ e ∈ d :: digits, e.isDigit = true) (hend : Text.Stops Char.isDigit rest)
    (hwhole : ¬ Fraction rest) : Stands ⟨integerKind (d :: digits), d :: digits⟩ rest := by
  by_cases hsmall : Decimal.natOfDigits (d :: digits) ≤ Decimal.maxInteger
  · rw [integerKind_of_le hsmall]
    exact .integer hdigits hend hwhole hsmall
  · rw [integerKind_of_lt (Nat.lt_of_not_le hsmall)]
    exact .noInteger hdigits hend hwhole (Nat.lt_of_not_le hsmall)

theorem number_takenOff {c : Char} (hc : c.isDigit = true) (rest : List Char) :
    TakenOff (c :: rest) (number (c :: rest)) := by
  have hdigits : ∀ d ∈ c :: rest.takeWhile Char.isDigit, d.isDigit = true :=
    List.forall_mem_cons.mpr ⟨hc, Text.mem_takeWhile⟩
  have hend := Text.stops_dropWhile Char.isDigit rest
  have hwhole : rest.takeWhile Char.isDigit ++ rest.dropWhile Char.isDigit = rest :=
    List.takeWhile_append_dropWhile
  unfold number
  rw [List.takeWhile_cons_of_pos hc, List.dropWhile_cons_of_pos hc]
  dsimp only
  split
  · next d after hpoint =>
      rw [hpoint] at hend hwhole
      split
      · next hd =>
          have hfraction : ∀ e ∈ d :: after.takeWhile Char.isDigit, e.isDigit = true :=
            List.forall_mem_cons.mpr ⟨hd, Text.mem_takeWhile⟩
          rw [List.takeWhile_cons_of_pos hd, List.dropWhile_cons_of_pos hd]
          constructor
          · exact .float hdigits hfraction (Text.stops_dropWhile _ after)
          · show c :: rest.takeWhile Char.isDigit ++ '.' :: d :: after.takeWhile Char.isDigit ++
              after.dropWhile Char.isDigit = c :: rest
            rw [List.append_assoc, List.cons_append, List.cons_append, List.cons_append,
              List.takeWhile_append_dropWhile, hwhole]
      · next hd =>
          have hnone : ¬ Fraction ('.' :: d :: after) := by
            rintro ⟨e, back, hsame, he⟩
            cases hsame
            exact hd he
          exact ⟨integer_stands hdigits hend hnone, congrArg (c :: ·) hwhole⟩
  · next hother =>
      have hnone : ¬ Fraction (rest.dropWhile Char.isDigit) := by
        rintro ⟨e, back, hsame, -⟩
        exact hother e back hsame
      exact ⟨integer_stands hdigits hend hnone, congrArg (c :: ·) hwhole⟩

theorem word_takenOff {c : Char} (hc : startsName c = true) (rest : List Char) :
    TakenOff (c :: rest) (word c rest) := by
  have hword : IsWord c (rest.takeWhile continuesName) (rest.dropWhile continuesName) :=
    ⟨hc, Text.mem_takeWhile, Text.stops_dropWhile continuesName rest⟩
  constructor
  · unfold word wordKind
    dsimp only
    cases hkeyword : Keyword.ofSpelling?
        (Text.lower (String.ofList (c :: rest.takeWhile continuesName))) with
    | some keyword => exact .reserved hword (Keyword.ofSpelling?_eq_some_iff.mp hkeyword)
    | none => exact .name hword (Keyword.ofSpelling?_eq_none_iff.mp hkeyword)
  · exact congrArg (c :: ·) List.takeWhile_append_dropWhile

theorem symbol_takenOff (mark : Symbol) {c : Char} {tail rest : List Char}
    (hspelling : mark.spelling = c :: tail) (hslash : mark ≠ .slash) (hlongest : mark.Longest rest) :
    TakenOff (c :: tail ++ rest) (symbol mark (c :: tail) rest) := by
  have hcomment : ¬ ['/', '/'] <+: mark.spelling ++ rest := by
    intro hprefix
    rw [hspelling, List.cons_append, List.cons_prefix_cons] at hprefix
    have hslash' : mark.spelling.head? = some '/' := by rw [hspelling, ← hprefix.1]; rfl
    cases mark <;> first | exact hslash rfl | cases hslash'
  constructor
  · show Stands ⟨.token (.symbol mark), c :: tail⟩ rest
    rw [← hspelling]
    exact .symbol hlongest hcomment
  · rfl

theorem punctuation_takenOff {c : Char} (hblank : isSeparator c = false)
    (hstarts : startsName c = false) (hdigit : c.isDigit = false) (hquote : c ≠ '\'')
    (hhash : c ≠ '#') (hslash : c ≠ '/') (rest : List Char) :
    TakenOff (c :: rest) (punctuation c rest) := by
  unfold punctuation
  split
  · exact symbol_takenOff .colonEqual rfl (by simp) (Symbol.longest_of_two rfl _)
  · next hequal =>
      refine symbol_takenOff .colon rfl (by simp) ?_
      refine (Symbol.longest_iff_of_one rfl).mpr fun other d hother hrest => ?_
      rcases List.head?_eq_some_iff.mp hrest with ⟨after, rfl⟩
      cases other <;> cases hother
      exact hequal after rfl
  · exact symbol_takenOff .greaterEqual rfl (by simp) (Symbol.longest_of_two rfl _)
  · next hequal =>
      refine symbol_takenOff .greater rfl (by simp) ?_
      refine (Symbol.longest_iff_of_one rfl).mpr fun other d hother hrest => ?_
      rcases List.head?_eq_some_iff.mp hrest with ⟨after, rfl⟩
      cases other <;> cases hother
      exact hequal after rfl
  · exact symbol_takenOff .lessEqual rfl (by simp) (Symbol.longest_of_two rfl _)
  · exact symbol_takenOff .lessGreater rfl (by simp) (Symbol.longest_of_two rfl _)
  · next hequal hgreater =>
      refine symbol_takenOff .less rfl (by simp) ?_
      refine (Symbol.longest_iff_of_one rfl).mpr fun other d hother hrest => ?_
      rcases List.head?_eq_some_iff.mp hrest with ⟨after, rfl⟩
      cases other <;> cases hother
      · exact hgreater after rfl
      · exact hequal after rfl
  · next hcolon hgreater hless _ _ _ _ =>
      cases hsingle : singleSymbol? c with
      | some mark =>
          rcases spelling_of_singleSymbol? hsingle with ⟨hspelling, hother, hlongest⟩
          exact symbol_takenOff mark hspelling hother (hlongest rest)
      | none =>
          have hmark := head?_spelling_ne hsingle hslash hcolon hgreater hless
          exact ⟨.unexpected ⟨hblank, hstarts, hdigit, hquote, hhash, hmark⟩, rfl⟩

/-- The first segment of a text may stand in front of what is behind it. -/
theorem first_takenOff (c : Char) (rest : List Char) : TakenOff (c :: rest) (first c rest) := by
  unfold first
  split
  · next hblank => exact ⟨.blank hblank, rfl⟩
  split
  · next hslash =>
      subst hslash
      exact slash_takenOff rest
  split
  · next hquote =>
      subst hquote
      exact quoted_takenOff rest
  split
  · next hhash =>
      subst hhash
      exact charCode_takenOff rest
  split
  · next hdigit => exact number_takenOff hdigit rest
  split
  · next hstarts => exact word_takenOff hstarts rest
  · next hblank hslash hquote hhash hdigit hstarts =>
      exact punctuation_takenOff (Bool.eq_false_iff.mpr hblank) (Bool.eq_false_iff.mpr hstarts)
        (Bool.eq_false_iff.mpr hdigit) hquote hhash hslash rest

/-! ## Divisions -/

theorem divides_splitAtMost : ∀ (fuel : Nat) (text : List Char), text.length ≤ fuel →
    Divides text (splitAtMost fuel text) := by
  intro fuel
  induction fuel with
  | zero =>
      intro text hlength
      rw [List.eq_nil_of_length_eq_zero (Nat.le_zero.mp hlength)]
      exact .nil
  | succ fuel ih =>
      intro text hlength
      cases text with
      | nil => exact .nil
      | cons c rest =>
          have htaken := first_takenOff c rest
          rcases htaken.stands.first_eq with ⟨d, tail, htext, -⟩
          have hshorter : (first c rest).2.length ≤ fuel := by
            have hwhole := congrArg List.length htaken.whole
            rw [htext, List.length_append, List.length_cons, List.length_cons] at hwhole
            rw [List.length_cons] at hlength
            omega
          have hdivides := Divides.cons htaken.stands (ih _ hshorter)
          rwa [htaken.whole] at hdivides

/-- A division is what the lexer finds. -/
theorem Divides.splitAtMost_eq {text : List Char} {segments : List Segment}
    (h : Divides text segments) :
    ∀ fuel, text.length ≤ fuel → splitAtMost fuel text = segments := by
  induction h with
  | nil =>
      intro fuel _
      cases fuel <;> rfl
  | @cons segment rest segments hstands _ ih =>
      intro fuel hlength
      rcases hstands.first_eq with ⟨c, tail, htext, hfirst⟩
      rw [htext, List.cons_append, List.length_cons, List.length_append] at hlength
      cases fuel with
      | zero => cases hlength
      | succ fuel =>
          rw [htext, List.cons_append, splitAtMost, hfirst]
          exact congrArg (segment :: ·) (ih fuel (by omega))

/-- The lexer divides a text in the only way there is. -/
theorem split_eq_iff {text : List Char} {segments : List Segment} :
    split text = segments ↔ Divides text segments := by
  constructor
  · rintro rfl
    exact divides_splitAtMost text.length text (Nat.le_refl _)
  · intro h
    exact h.splitAtMost_eq text.length (Nat.le_refl _)

end Segment

end MiniPascal
