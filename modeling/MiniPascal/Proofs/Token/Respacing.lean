import MiniPascal.Proofs.Token.Scanning

/-!
# Lexemes with spaces in between

Where a token ends is decided by its own lexeme and at most two characters behind it, and a space
goes on with no token.  So the lexemes of a scan, written out with single spaces in between, are
scanned to the same tokens again, whatever stood between them before.
-/

namespace MiniPascal

/-! ## The end of the text, or a space -/

def Text.Parted : List Char → Prop
  | [] => True
  | c :: _ => c = ' '

namespace Text.Parted

variable {rest : List Char} (h : Text.Parted rest)
include h

theorem stops {p : Char → Bool} (hspace : p ' ' = false) : Text.Stops p rest := by
  cases rest with
  | nil =>
      intro c hc
      cases hc
  | cons d tail =>
      intro c hc
      cases hc
      rw [show d = ' ' from h]
      exact hspace

theorem not_fraction : ¬ Segment.Fraction rest := by
  rintro ⟨d, after, rfl, -⟩
  exact absurd (show '.' = ' ' from h) (by decide)

/-- What begins a text in front of a space and has none in it begins the text itself. -/
theorem prefix_of_prefix_append {front text : List Char} (hfront : ' ' ∉ front)
    (hbegins : front <+: text ++ rest) : front <+: text := by
  cases rest with
  | nil => rwa [List.append_nil] at hbegins
  | cons c tail =>
      have hc : c = ' ' := h
      subst hc
      refine List.prefix_of_prefix_length_le hbegins (List.prefix_append text _) ?_
      refine Nat.le_of_not_lt fun hlonger => ?_
      have hspace : text ++ [' '] <+: front := by
        refine List.prefix_of_prefix_length_le ?_ hbegins ?_
        · exact ⟨tail, by rw [List.append_assoc, List.singleton_append]⟩
        · rw [List.length_append, List.length_singleton]
          omega
      exact hfront (hspace.subset (List.mem_append_right _ List.mem_cons_self))

end Text.Parted

theorem Symbol.no_space (mark : Symbol) : ' ' ∉ mark.spelling := by
  cases mark <;> decide

theorem Symbol.longest_of_parted (mark : Symbol) {rest : List Char} (h : Text.Parted rest) :
    mark.Longest rest :=
  fun other hother => (h.prefix_of_prefix_append other.no_space hother).length_le

theorem Symbol.no_comment (mark : Symbol) {rest : List Char} (h : Text.Parted rest) :
    ¬ ['/', '/'] <+: mark.spelling ++ rest := by
  intro hcomment
  have hmark := h.prefix_of_prefix_append (by decide) hcomment
  revert hmark
  cases mark <;> decide

/-! ## Segments with spaces in between -/

namespace Segment

def space : Segment where
  kind := .blank
  text := [' ']

theorem space_stands (rest : List Char) : space.Stands rest :=
  .blank rfl

/-- The kind and the lexeme of a token segment. -/
def content? (segment : Segment) : Option (TokenKind × String) :=
  match segment.kind with
  | .token kind => some (kind, String.ofList segment.text)
  | _ => none

def tokensOf (segments : List Segment) : List Segment :=
  segments.filter fun segment => segment.content?.isSome

/-- A token may stand at the end of the text and in front of a space, wherever else it may. -/
theorem Stands.parted {segment : Segment} {rest rest' : List Char} (h : segment.Stands rest)
    (htoken : segment.content?.isSome) (hrest : Text.Parted rest') : segment.Stands rest' := by
  have hdigits : Text.Stops Char.isDigit rest' := hrest.stops rfl
  have hword {c : Char} {cs : List Char} (h : IsWord c cs rest) : IsWord c cs rest' :=
    ⟨h.starts, h.continues, hrest.stops (by decide +kernel)⟩
  cases h with
  | quoted hbody => exact .quoted hbody
  | code hall _ hcode => exact .code hall hdigits hcode
  | integer hall _ _ hsmall => exact .integer hall hdigits hrest.not_fraction hsmall
  | float hwhole hfraction _ => exact .float hwhole hfraction hdigits
  | reserved h hspelling => exact .reserved (hword h) hspelling
  | name h hspelling => exact .name (hword h) hspelling
  | @symbol mark _ _ _ => exact .symbol (mark.longest_of_parted hrest) (mark.no_comment hrest)
  | _ => cases htoken

/-- Token segments with single spaces in between divide their joined text. -/
theorem divides_spaced : ∀ {segments : List Segment},
    (∀ segment ∈ segments, segment.content?.isSome ∧ ∃ rest, segment.Stands rest) →
      Divides ([' '].intercalate (segments.map (·.text))) (segments.intersperse space)
  | [], _ => .nil
  | [segment], h => by
      rcases h segment List.mem_cons_self with ⟨htoken, rest, hstands⟩
      have hstands' : segment.Stands [] := hstands.parted htoken trivial
      have hdivides := Divides.cons hstands' .nil
      rw [List.append_nil] at hdivides
      simpa [List.intercalate] using hdivides
  | segment :: next :: others, h => by
      rcases List.forall_mem_cons.mp h with ⟨⟨htoken, rest, hstands⟩, hothers⟩
      have hstands' (cs : List Char) : segment.Stands (' ' :: cs) := hstands.parted htoken rfl
      have hdivides := Divides.cons (hstands' _) (.cons (space_stands _) (divides_spaced hothers))
      simpa [List.intercalate_cons_cons] using hdivides

theorem content?_space : space.content? = none := rfl

theorem filterMap_content?_spaced (segments : List Segment) :
    (segments.intersperse space).filterMap content? = segments.filterMap content? := by
  induction segments with
  | nil => rfl
  | cons segment rest ih =>
      cases rest with
      | nil => rfl
      | cons next others =>
          rw [List.intersperse_cons_cons, List.filterMap_cons, List.filterMap_cons,
            List.filterMap_cons, content?_space, ih]

theorem filterMap_content?_tokensOf (segments : List Segment) :
    (tokensOf segments).filterMap content? = segments.filterMap content? := by
  rw [tokensOf, List.filterMap_filter]
  congr 1
  funext segment
  cases segment.content? <;> rfl

theorem text_of_content? {segment : Segment} {content : TokenKind × String}
    (h : segment.content? = some content) : content.2.toList = segment.text := by
  unfold content? at h
  split at h
  · cases h
    exact String.toList_ofList
  · cases h

theorem mem_spaced {segment : Segment} {segments : List Segment}
    (h : segment ∈ segments.intersperse space) : segment ∈ segments ∨ segment = space := by
  induction segments with
  | nil => cases h
  | cons first rest ih =>
      cases rest with
      | nil => exact .inl h
      | cons next others =>
          rw [List.intersperse_cons_cons, List.mem_cons, List.mem_cons] at h
          rcases h with rfl | rfl | h
          · exact .inl List.mem_cons_self
          · exact .inr rfl
          · exact (ih h).imp_left (List.mem_cons_of_mem first)

end Segment

namespace Token

/-- The kind and the lexeme of a token. -/
def content (token : Token) : TokenKind × String :=
  (token.kind, token.lexeme)

end Token

namespace Lexer

open Segment (located tokenAt reportAt Divides content? tokensOf)

theorem content_located (file : String) (segments : List Segment) : ∀ before,
    ((located before segments).filterMap (tokenAt file)).map Token.content =
      segments.filterMap content? := by
  induction segments with
  | nil =>
      intro before
      rfl
  | cons segment rest ih =>
      intro before
      rcases segment with ⟨kind, text⟩
      have hrest := ih (before ++ text)
      cases kind with
      | token kind => exact congrArg ((kind, String.ofList text) :: ·) hrest
      | _ => exact hrest

theorem reports_located (file : String) {segments : List Segment}
    (h : ∀ segment ∈ segments, ∀ fault, segment.kind ≠ .malformed fault) : ∀ before,
    (located before segments).filterMap (reportAt file) = [] := by
  induction segments with
  | nil =>
      intro before
      rfl
  | cons segment rest ih =>
      intro before
      rcases List.forall_mem_cons.mp h with ⟨hsegment, hothers⟩
      have hrest := ih hothers (before ++ segment.text)
      rcases segment with ⟨kind, text⟩
      cases kind with
      | malformed fault => exact absurd rfl (hsegment fault)
      | _ => exact hrest

/-- The contents of the tokens of a scan are those of the segments of its text. -/
theorem content_scan (source : Source) :
    (scan source).tokens.map Token.content =
      (Segment.split source.text.toList).filterMap content? := by
  rw [scan_eq, content_located]

theorem content_last (source : Source) : (scan source).last.content = (.endOfFile, "") := by
  rw [scan_eq]
  rfl

theorem lexemes_scan (source : Source) :
    (scan source).tokens.map (fun token => token.lexeme.toList) =
      (tokensOf (Segment.split source.text.toList)).map (·.text) := by
  have hlexemes := congrArg (List.map fun content => content.2.toList) (content_scan source)
  rw [List.map_map, ← Segment.filterMap_content?_tokensOf, List.map_filterMap] at hlexemes
  refine hlexemes.trans ?_
  generalize htokens : tokensOf (Segment.split source.text.toList) = tokens
  have hall : ∀ segment ∈ tokens, segment.content?.isSome := by
    rw [← htokens]
    exact fun segment hmem => (List.mem_filter.mp hmem).2
  clear htokens
  induction tokens with
  | nil => rfl
  | cons segment rest ih =>
      rcases List.forall_mem_cons.mp hall with ⟨htoken, hrest⟩
      rcases Option.isSome_iff_exists.mp htoken with ⟨content, hcontent⟩
      rw [List.filterMap_cons, hcontent, List.map_cons, ← ih hrest,
        ← Segment.text_of_content? hcontent]
      rfl

/-- The lexemes of a scan with single spaces in between, in a file of any name. -/
def respaced (path : String) (source : Source) : Source where
  path
  text := " ".intercalate ((scan source).tokens.map (·.lexeme))

/-- The lexemes of a scan, joined by single spaces, are scanned to tokens with the same kinds,
values and lexemes, up to the token for the end of the text, and nothing is reported. -/
theorem scan_respaced (path : String) (source : Source) :
    (scan (respaced path source)).all.map Token.content =
        (scan source).all.map Token.content ∧
      (scan (respaced path source)).last.kind = .endOfFile ∧
      (scan (respaced path source)).diagnostics = [] := by
  let segments := Segment.split source.text.toList
  have hstands : ∀ segment ∈ tokensOf segments,
      segment.content?.isSome ∧ ∃ rest, segment.Stands rest := by
    intro segment hmem
    rcases List.mem_filter.mp hmem with ⟨hmem, htoken⟩
    exact ⟨htoken, (Segment.split_eq_iff.mp rfl).stands_of_mem hmem⟩
  have htext : (respaced path source).text.toList =
      [' '].intercalate ((tokensOf segments).map (·.text)) := by
    rw [respaced, String.toList_intercalate, List.map_map]
    exact congrArg _ (lexemes_scan source)
  have hsplit : Segment.split (respaced path source).text.toList =
      (tokensOf segments).intersperse Segment.space := by
    rw [htext]
    exact Segment.split_eq_iff.mpr (Segment.divides_spaced hstands)
  refine ⟨?_, last_kind _, ?_⟩
  · unfold Scan.all
    rw [List.map_append, List.map_append, content_scan, content_scan, hsplit,
      Segment.filterMap_content?_spaced, Segment.filterMap_content?_tokensOf, List.map_singleton,
      List.map_singleton, content_last, content_last]
  · rw [scan_eq, hsplit]
    refine reports_located _ (fun segment hmem fault hkind => ?_) []
    -- besides the spaces there are tokens only
    rcases Segment.mem_spaced hmem with hmem | rfl
    · have htoken := (hstands segment hmem).1
      unfold content? at htoken
      rw [hkind] at htoken
      cases htoken
    · cases hkind

end Lexer

end MiniPascal
