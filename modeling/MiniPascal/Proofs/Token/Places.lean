import MiniPascal.Proofs.Token.Scanning
import MiniPascal.Report.Message

/-!
# Where tokens stand

A token has the place of its first character, counted while scanning.  Lines are counted once more
when a report shows one, with a rule of their own for the ends of lines.  The two counts agree at
every token.  The last place of a token is not counted but worked out from the length of its lexeme,
and is right exactly for a lexeme within one line.
-/

namespace MiniPascal

/-! ## Lines -/

namespace Text

theorem lines_newline_append (front rest : List Char) :
    lines (front ++ '\n' :: rest) = lines (front ++ ['\n']) ++ lines rest ∧
      (lines (front ++ ['\n'])).length = front.count '\n' + 1 := by
  induction front with
  | nil =>
      constructor
      · rfl
      · rfl
  | cons c front ih =>
      have hhead : (front ++ '\n' :: rest).head? = (front ++ ['\n']).head? := by
        cases front <;> rfl
      rw [List.cons_append, List.cons_append, lines, lines, hhead]
      by_cases hnewline : c = '\n'
      · subst hnewline
        simp [ih.1, ih.2]
      · have hcount : (c :: front).count '\n' = front.count '\n' :=
          List.count_cons_of_ne hnewline
        rw [if_neg hnewline, if_neg hnewline, hcount]
        split
        · exact ih
        · rw [ih.1]
          cases hlines : lines (front ++ ['\n']) with
          | nil =>
              rw [hlines] at ih
              cases ih.2
          | cons line others =>
              constructor
              · rfl
              · rw [← ih.2, hlines]
                rfl

/-- A character that ends no line is in the line of the characters in front of it. -/
theorem exists_lines_eq {current : List Char} {c : Char} (rest : List Char)
    (hcurrent : '\n' ∉ current) (hnewline : c ≠ '\n') (hreturn : c ≠ '\r') :
    ∃ tail others, lines (current ++ c :: rest) = (current ++ c :: tail) :: others := by
  induction current with
  | nil =>
      rw [List.nil_append, lines, if_neg hnewline, if_neg fun h => hreturn h.1]
      cases lines rest with
      | nil => exact ⟨[], [], rfl⟩
      | cons line others => exact ⟨line, others, rfl⟩
  | cons d current ih =>
      rw [List.mem_cons, not_or] at hcurrent
      obtain ⟨tail, others, hlines⟩ := ih hcurrent.2
      -- a carriage return in front of the character does not end the line
      have hnext : (current ++ c :: rest).head? ≠ some '\n' := by
        cases current with
        | nil =>
            intro hhead
            exact hnewline (Option.some.inj hhead)
        | cons e current =>
            intro hhead
            cases hhead
            exact hcurrent.2 List.mem_cons_self
      rw [List.cons_append, lines, if_neg (Ne.symm hcurrent.1), if_neg fun h => hnext h.2, hlines]
      exact ⟨tail, others, rfl⟩

end Text

/-! ## Places behind a text -/

namespace Position

/-- The last line of a text, with what is in front of it. -/
theorem exists_last_line (text : List Char) :
    '\n' ∉ text ∨ ∃ front current, text = front ++ '\n' :: current ∧ '\n' ∉ current := by
  by_cases hmem : '\n' ∈ text
  · obtain ⟨current, front, hreverse, hcurrent⟩ :=
      List.eq_append_cons_of_mem (List.mem_reverse.mpr hmem)
    refine .inr ⟨front.reverse, current.reverse, ?_, ?_⟩
    · rw [← List.reverse_reverse text, hreverse]
      simp
    · rwa [List.mem_reverse]
  · exact .inl hmem

theorem behind_append (text : List Char) {current : List Char} (h : '\n' ∉ current) :
    behind (text ++ current) =
      ⟨(behind text).line, (behind text).column + current.length⟩ := by
  have hall : ∀ c ∈ current.reverse, decide (c ≠ '\n') = true :=
    Text.all_ne (by rwa [List.mem_reverse])
  unfold behind
  rw [List.count_append, List.count_eq_zero.mpr h, List.reverse_append,
    List.takeWhile_append_of_pos hall, List.length_append, List.length_reverse]
  simp only [Position.mk.injEq]
  omega

theorem behind_newline (text : List Char) :
    behind (text ++ ['\n']) = ⟨(behind text).line + 1, 1⟩ := by
  rw [← step_behind]
  rfl

theorem line_behind_append (text more : List Char) :
    (behind (text ++ more)).line = (behind text).line + more.count '\n' := by
  show 1 + (text ++ more).count '\n' = 1 + text.count '\n' + more.count '\n'
  rw [List.count_append, Nat.add_assoc]

end Position

namespace Text

/-- The line counted at a place in a text has the character of that place at the column counted,
unless that character ends a line. -/
theorem lines_behind (before rest : List Char) {c : Char} (hnewline : c ≠ '\n')
    (hreturn : c ≠ '\r') :
    ∃ chars, (lines (before ++ c :: rest))[before.count '\n']? = some chars ∧
      chars[(Position.behind before).column - 1]? = some c := by
  rcases Position.exists_last_line before with hbefore | ⟨front, current, rfl, hcurrent⟩
  · obtain ⟨tail, others, hlines⟩ := exists_lines_eq rest hbefore hnewline hreturn
    have hplace : Position.behind before = ⟨1, 1 + before.length⟩ :=
      Position.behind_append [] hbefore
    exists before ++ c :: tail
    constructor
    · rw [List.count_eq_zero.mpr hbefore, hlines]
      rfl
    · rw [hplace]
      simp
  · obtain ⟨tail, others, hlines⟩ := exists_lines_eq rest hcurrent hnewline hreturn
    obtain ⟨hsplit, hlength⟩ := lines_newline_append front (current ++ c :: rest)
    have hcolumn : (Position.behind (front ++ '\n' :: current)).column = 1 + current.length := by
      rw [List.append_cons, Position.behind_append _ hcurrent, Position.behind_newline]
    have hcount : (front ++ '\n' :: current).count '\n' = front.count '\n' + 1 := by
      rw [List.count_append, List.count_cons_self, List.count_eq_zero.mpr hcurrent]
    exists current ++ c :: tail
    constructor
    · rw [List.append_assoc, List.cons_append, hsplit, hlines, hcount, ← hlength,
        List.getElem?_append_right (Nat.le_refl _), Nat.sub_self]
      rfl
    · rw [hcolumn]
      simp

theorem line?_behind {text : String} {before rest : List Char} {c : Char}
    (htext : text.toList = before ++ c :: rest) (hnewline : c ≠ '\n') (hreturn : c ≠ '\r') :
    ∃ line, line? text (Position.behind before).line = some line ∧
      line.toList[(Position.behind before).column - 1]? = some c := by
  obtain ⟨chars, hline, hcolumn⟩ := lines_behind before rest hnewline hreturn
  exists String.ofList chars
  constructor
  · rw [show (Position.behind before).line = before.count '\n' + 1 from Nat.add_comm _ _]
    show (lines text.toList)[before.count '\n']?.map String.ofList = _
    rw [htext, hline]
    rfl
  · rw [String.toList_ofList]
    exact hcolumn

end Text

/-! ## Where segments stand -/

namespace Segment

/-- A segment of a divided text stands in front of what is behind it. -/
theorem Divides.exists_of_mem_located {text : List Char} {segments : List Segment}
    (h : Divides text segments) : ∀ {before front : List Char} {segment : Segment},
    (front, segment) ∈ located before segments →
      ∃ rest, before ++ text = front ++ (segment.text ++ rest) ∧ segment.Stands rest := by
  induction h with
  | nil =>
      intro before front segment hmem
      cases hmem
  | @cons first rest segments hstands _ ih =>
      intro before front segment hmem
      rcases List.mem_cons.mp hmem with hsame | hmem
      · cases hsame
        exact ⟨rest, rfl, hstands⟩
      · obtain ⟨behind, htext, hsegment⟩ := ih hmem
        rw [List.append_assoc] at htext
        exact ⟨behind, htext, hsegment⟩

variable {kind : TokenKind} {text rest : List Char}

/-- A token starts with a character that could not stand between tokens. -/
theorem Stands.exists_cons (h : Stands ⟨.token kind, text⟩ rest) :
    ∃ c tail, text = c :: tail ∧ isSeparator c = false := by
  obtain ⟨c, tail, htext, hfirst⟩ := h.first_eq
  have hseparator : isSeparator c = false := by
    rw [Bool.eq_false_iff]
    intro hblank
    rw [first, if_pos hblank] at hfirst
    cases hfirst
  exact ⟨c, tail, htext, hseparator⟩

/-- Only quoted literals go over several lines. -/
theorem Stands.quoted_of_newline (h : Stands ⟨.token kind, text⟩ rest) (hnewline : '\n' ∈ text) :
    ∃ body, text = '\'' :: body ++ ['\''] := by
  have hdigit {digits : List Char} (hdigits : ∀ d ∈ digits, d.isDigit = true) :
      '\n' ∉ digits := by
    intro hmem
    cases hdigits _ hmem
  have hword {c : Char} {cs : List Char} (hword : IsWord c cs rest) : '\n' ∉ c :: cs := by
    rw [List.mem_cons, not_or]
    constructor
    · rintro rfl
      exact absurd hword.starts (by decide +kernel)
    · intro hmem
      exact absurd (hword.continues _ hmem) (by decide +kernel)
  cases h with
  | @quoted body _ _ => exact ⟨body, rfl⟩
  | code hdigits _ _ => exact absurd hnewline (by simp [hdigit hdigits])
  | integer hdigits _ _ _ => exact absurd hnewline (hdigit hdigits)
  | float hwhole hfraction _ =>
      rcases List.mem_append.mp hnewline with hmem | hmem
      · exact absurd hmem (hdigit hwhole)
      · rcases List.mem_cons.mp hmem with hpoint | hmem
        · cases hpoint
        · exact absurd hmem (hdigit hfraction)
  | reserved hreserved _ => exact absurd hnewline (hword hreserved)
  | name hname _ => exact absurd hnewline (hword hname)
  | @symbol mark _ _ _ => cases mark <;> exact absurd hnewline (by decide)

end Segment

/-! ## Where tokens stand -/

namespace Span

def first (span : Span) : Position where
  line := span.line
  column := span.column

def last (span : Span) : Position where
  line := span.endLine
  column := span.endColumn

end Span

namespace Lexer

/-- The lexeme of a token is a piece of the text, and the token has the place where it starts. -/
theorem exists_of_mem_tokens {source : Source} {token : Token} (h : token ∈ (scan source).all)
    (hkind : token.kind ≠ .endOfFile) :
    ∃ before rest, source.text.toList = before ++ (token.lexeme.toList ++ rest) ∧
      token.position = .behind before ∧ token.file = source.path ∧
      Segment.Stands ⟨.token token.kind, token.lexeme.toList⟩ rest := by
  have hmem : token ∈ (scan source).tokens := by
    rcases List.mem_append.mp h with hmem | hlast
    · exact hmem
    · rw [List.mem_singleton.mp hlast] at hkind
      exact absurd (last_kind source) hkind
  rw [scan_eq] at hmem
  obtain ⟨⟨before, ⟨kind, text⟩⟩, hlocated, hat⟩ := List.mem_filterMap.mp hmem
  cases kind with
  | token kind =>
      cases hat
      have hdivides := Segment.split_eq_iff.mp (Eq.refl (Segment.split source.text.toList))
      obtain ⟨rest, htext, hstands⟩ := hdivides.exists_of_mem_located hlocated
      rw [List.nil_append] at htext
      refine ⟨before, rest, ?_, rfl, rfl, ?_⟩
      · rw [String.toList_ofList]
        exact htext
      · rw [String.toList_ofList]
        exact hstands
  | _ => cases hat

/-- The line of a token is there, in every report too, and at the column of the token it has the
first character of its lexeme. -/
theorem token_in_its_line (source : Source) {token : Token} (h : token ∈ (scan source).all)
    (hkind : token.kind ≠ .endOfFile) :
    ∃ line c, source.line? token.position.line = some line ∧
      (∀ files, Report.lineText? files source token.file token.position.line = some line) ∧
      1 ≤ token.position.column ∧ line.toList[token.position.column - 1]? = some c ∧
      token.lexeme.toList.head? = some c := by
  obtain ⟨before, rest, htext, hposition, hfile, hstands⟩ := exists_of_mem_tokens h hkind
  obtain ⟨c, tail, hlexeme, hblank⟩ := hstands.exists_cons
  rw [hlexeme, List.cons_append] at htext
  have hnewline : c ≠ '\n' := by
    rintro rfl
    cases hblank
  have hreturn : c ≠ '\r' := by
    rintro rfl
    cases hblank
  obtain ⟨line, hline, hcolumn⟩ := Text.line?_behind htext hnewline hreturn
  rw [← hposition] at hline hcolumn
  have hreport : ∀ files,
      Report.lineText? files source token.file token.position.line = some line := by
    intro files
    rw [Report.lineText?, if_pos hfile]
    exact hline
  have hfirst : 1 ≤ token.position.column := by
    rw [hposition]
    exact Nat.le_add_right 1 _
  have hhead : token.lexeme.toList.head? = some c := by
    rw [hlexeme]
    rfl
  exact ⟨line, c, hline, hreport, hfirst, hcolumn, hhead⟩

/-- A literal over two lines, the first of which ends in a carriage return and a line feed. -/
def brokenLiteral : Source where
  path := "main.pas"
  text := "\t'é\r\n ß' X\r\n"

theorem token_in_its_line_afterLiteral :
    ∃ token ∈ (scan brokenLiteral).all, token.kind ≠ .endOfFile ∧ token.position = ⟨2, 5⟩ ∧
      ∃ line c, brokenLiteral.line? 2 = some line ∧
        (∀ files, Report.lineText? files brokenLiteral token.file 2 = some line) ∧
        line.toList[4]? = some c ∧ token.lexeme.toList.head? = some c := by
  have htoken : (scan brokenLiteral).all[1]? = some ⟨.identifier, "X", ⟨2, 5⟩, "main.pas"⟩ := by
    decide +kernel
  have hmem := List.mem_of_getElem? htoken
  have hkind : TokenKind.identifier ≠ .endOfFile := by decide
  obtain ⟨line, c, hline, hreport, -, hcolumn, hhead⟩ := token_in_its_line brokenLiteral hmem hkind
  exact ⟨_, hmem, hkind, rfl, line, c, hline, hreport, hcolumn, hhead⟩

/-- The span of a token starts where its lexeme starts.  It ends where the lexeme ends if and only
if the lexeme has no line feed; only a quoted literal can have one. -/
theorem token_span_exact_iff (source : Source) {token : Token} (h : token ∈ (scan source).all)
    (hkind : token.kind ≠ .endOfFile) :
    ∃ before rest, source.text.toList = before ++ (token.lexeme.toList ++ rest) ∧
      token.span.first = .behind before ∧
      (token.span.last = .behind (before ++ token.lexeme.toList.dropLast) ↔
        '\n' ∉ token.lexeme.toList) ∧
      ('\n' ∈ token.lexeme.toList → ∃ body, token.lexeme.toList = '\'' :: body ++ ['\'']) := by
  obtain ⟨before, rest, htext, hposition, -, hstands⟩ := exists_of_mem_tokens h hkind
  have hexact : token.span.last = .behind (before ++ token.lexeme.toList.dropLast) ↔
      '\n' ∉ token.lexeme.toList := by
    constructor
    · intro hlast hnewline
      -- a line feed in the lexeme is in front of its last character, which then is a quote
      obtain ⟨body, hlexeme⟩ := hstands.quoted_of_newline hnewline
      have hdrop : '\n' ∈ token.lexeme.toList.dropLast := by
        rw [hlexeme] at hnewline ⊢
        rw [List.dropLast_concat]
        simpa using hnewline
      have hline := congrArg Position.line hlast
      rw [Position.line_behind_append, ← hposition] at hline
      have hcount := List.count_pos_iff.mpr hdrop
      have hsame : token.span.last.line = token.position.line := rfl
      omega
    · intro hnewline
      have hdrop : '\n' ∉ token.lexeme.toList.dropLast :=
        fun hmem => hnewline ((List.dropLast_sublist _).subset hmem)
      obtain ⟨c, tail, hlexeme, -⟩ := hstands.exists_cons
      have hlength : 1 ≤ token.lexeme.length := by
        rw [← String.length_toList, hlexeme]
        exact Nat.succ_pos _
      rw [Position.behind_append before hdrop, ← hposition, List.length_dropLast]
      show Position.mk token.position.line
        (token.position.column + (max token.lexeme.length 1 - 1)) = _
      rw [Nat.max_eq_left hlength, String.length_toList]
  exact ⟨before, rest, htext, hposition, hexact, hstands.quoted_of_newline⟩

/-- The span of a literal over two lines ends on the first of them, behind its end. -/
theorem token_span_exact_iff_brokenLiteral :
    ∃ token ∈ (scan brokenLiteral).all, token.kind ≠ .endOfFile ∧ token.span.last = ⟨1, 8⟩ ∧
      ∃ before rest, brokenLiteral.text.toList = before ++ (token.lexeme.toList ++ rest) ∧
        token.span.first = .behind before ∧
        token.span.last ≠ .behind (before ++ token.lexeme.toList.dropLast) ∧
        ∃ body, token.lexeme.toList = '\'' :: body ++ ['\''] := by
  have htoken : (scan brokenLiteral).all[0]? =
      some ⟨.string "é\r\n ß", "'é\r\n ß'", ⟨1, 2⟩, "main.pas"⟩ := by
    decide +kernel
  have hmem := List.mem_of_getElem? htoken
  have hkind : TokenKind.string "é\r\n ß" ≠ .endOfFile := TokenKind.noConfusion
  obtain ⟨before, rest, htext, hfirst, hlast, hquoted⟩ :=
    token_span_exact_iff brokenLiteral hmem hkind
  have hnewline : '\n' ∈ "'é\r\n ß'".toList := by decide
  have hend : (⟨1, 8⟩ : Position) ≠ .behind (before ++ "'é\r\n ß'".toList.dropLast) :=
    fun hsame => hlast.mp hsame hnewline
  exact ⟨_, hmem, hkind, rfl, before, rest, htext, hfirst, hend, hquoted hnewline⟩

end Lexer

end MiniPascal
