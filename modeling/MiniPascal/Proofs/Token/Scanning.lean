import MiniPascal.Proofs.Token.Division
import MiniPascal.Token.Lexer

/-!
# Scanning loses nothing

The tokens and reports of a scan are those of the one division of its text, each at the place where
its segment starts.  Places are counted off as the scan goes on; they agree with a count of the line
feeds and characters in front.
-/

namespace MiniPascal

namespace Position

/-- The place behind a text: a line for every line feed, and a column for every character since. -/
def behind (text : List Char) : Position where
  line := 1 + text.count '\n'
  column := 1 + (text.reverse.takeWhile (· ≠ '\n')).length

theorem step_behind (text : List Char) (c : Char) :
    (behind text).step c = behind (text ++ [c]) := by
  unfold step behind
  by_cases hc : c = '\n'
  · subst hc
    simp [Nat.add_assoc]
  · simp [hc, Nat.add_comm]

theorem advance_behind (text : List Char) :
    ∀ before, (behind before).advance text = behind (before ++ text) := by
  induction text with
  | nil =>
      intro before
      rw [advance_nil, List.append_nil]
  | cons c rest ih =>
      intro before
      rw [advance_cons, step_behind, ih, List.append_assoc, List.singleton_append]

end Position

namespace Segment

/-- Segments, each with the text in front of it, where `before` is in front of all. -/
def located (before : List Char) : List Segment → List (List Char × Segment)
  | [] => []
  | segment :: rest => (before, segment) :: located (before ++ segment.text) rest

/-- The token of a segment, at the place where the segment starts. -/
def tokenAt (file : String) : List Char × Segment → Option Token
  | (before, ⟨.token kind, text⟩) =>
      some { kind, lexeme := String.ofList text, position := .behind before, file }
  | _ => none

/-- The report of a malformed segment, at the place where it starts. -/
def reportAt (file : String) : List Char × Segment → Option Diagnostic
  | (before, ⟨.malformed fault, text⟩) =>
      some { message := faultMessage fault (String.ofList text), level := .error,
             span := .point (.behind before), file }
  | _ => none

theorem Stands.kind_ne {segment : Segment} {rest : List Char} (h : segment.Stands rest) :
    segment.kind ≠ .token .endOfFile := by
  cases h with
  | @quoted body _ _ =>
      unfold quotedKind
      split <;> simp
  | _ => simp

theorem mem_of_mem_located {before : List Char} {segments : List Segment} {front : List Char}
    {segment : Segment} (h : (front, segment) ∈ located before segments) : segment ∈ segments := by
  induction segments generalizing before with
  | nil => cases h
  | cons other rest ih =>
      rcases List.mem_cons.mp h with hsame | h
      · exact (Prod.mk.inj hsame).2 ▸ List.mem_cons_self
      · exact List.mem_cons_of_mem _ (ih h)

end Segment

namespace Lexer

open Segment (located tokenAt reportAt Divides)

/-- What a scan makes of segments behind a text. -/
theorem scanFrom_behind (file : String) (segments : List Segment) : ∀ before,
    scanFrom file (.behind before) segments =
      { tokens := (located before segments).filterMap (tokenAt file)
        last := endToken file (.behind (before ++ (segments.map (·.text)).flatten))
        diagnostics := (located before segments).filterMap (reportAt file) } := by
  induction segments with
  | nil =>
      intro before
      rw [List.map_nil, List.flatten_nil, List.append_nil]
      rfl
  | cons segment rest ih =>
      intro before
      rw [scanFrom, Position.advance_behind, ih, List.map_cons, List.flatten_cons,
        ← List.append_assoc]
      rcases segment with ⟨kind, text⟩
      cases kind <;> rfl

theorem scan_eq (source : Source) :
    scan source =
      { tokens := (located [] (Segment.split source.text.toList)).filterMap (tokenAt source.path)
        last := endToken source.path (.behind source.text.toList)
        diagnostics :=
          (located [] (Segment.split source.text.toList)).filterMap (reportAt source.path) } := by
  have hscan := scanFrom_behind source.path (Segment.split source.text.toList) []
  rw [List.nil_append, (Segment.split_eq_iff.mp rfl).flatten_eq] at hscan
  exact hscan

theorem last_kind (source : Source) : (scan source).last.kind = .endOfFile := by
  rw [scan_eq]
  rfl

theorem segment_of_mem {source : Source} {token : Token} (h : token ∈ (scan source).tokens) :
    ∃ segment ∈ Segment.split source.text.toList,
      segment.kind = .token token.kind ∧ token.lexeme = String.ofList segment.text := by
  rw [scan_eq] at h
  rcases List.mem_filterMap.mp h with ⟨⟨before, ⟨kind, text⟩⟩, hmem, hat⟩
  cases kind with
  | token kind =>
      cases hat
      exact ⟨_, Segment.mem_of_mem_located hmem, rfl, rfl⟩
  | _ => cases hat

/-- A text falls apart into segments in exactly one way, and nothing is lost.  The tokens of a scan
are those of the token segments, in order, and its reports those of the malformed segments; each has
the text of its segment, and the line and column at which the segment starts.  One token for the end
of the text stands last, at the place behind the whole text. -/
theorem scan_lossless (source : Source) :
    ∃ segments, (∀ other, Divides source.text.toList other ↔ other = segments) ∧
      (segments.map (·.text)).flatten = source.text.toList ∧
      (scan source).tokens = (located [] segments).filterMap (tokenAt source.path) ∧
      (scan source).diagnostics = (located [] segments).filterMap (reportAt source.path) ∧
      (scan source).last = ⟨.endOfFile, "", .behind source.text.toList, source.path⟩ ∧
      ∀ token ∈ (scan source).tokens, token.kind ≠ .endOfFile := by
  have hdivides : Divides source.text.toList (Segment.split source.text.toList) :=
    Segment.split_eq_iff.mp rfl
  refine ⟨Segment.split source.text.toList, ?_, hdivides.flatten_eq, ?_, ?_, ?_, ?_⟩
  · intro other
    rw [← Segment.split_eq_iff]
    exact eq_comm
  · rw [scan_eq]
  · rw [scan_eq]
  · rw [scan_eq]
    rfl
  · intro token htoken hend
    rcases segment_of_mem htoken with ⟨segment, hmem, hkind, -⟩
    rcases hdivides.stands_of_mem hmem with ⟨rest, hstands⟩
    exact hstands.kind_ne (hend ▸ hkind)

end Lexer

end MiniPascal
