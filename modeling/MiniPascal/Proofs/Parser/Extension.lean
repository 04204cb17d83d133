import MiniPascal.Proofs.Parser.Recovery
import MiniPascal.Proofs.Syntax.Renumbering

/-!
# Expressions in front of more text

A parser that has a result has it also where more tokens follow, fuel is more plenty, and numbers
start higher: the same tokens are passed, and the numbers of the result are moved up.  What it takes
is that the parser stops in front of a token of its own text, which then stops it here as well.
-/

namespace MiniPascal

/-- How a text goes on behind another one, and what is there before it is parsed. -/
structure Extension where
  more : List Token
  last : Token
  shift : Nat
  reports : List Diagnostic
  ends : last.kind = .endOfFile

/-- What is known where a parser starts, and what it then has to do. -/
inductive Footing where
  /-- The tokens passed last agree. -/
  | steady
  /-- The tokens passed last agree, and another one has to be passed. -/
  | taking
  /-- The tokens passed last may differ, and another one has to be passed. -/
  | unsure
  /-- As before, where it is known that a token is in front. -/
  | facing

namespace Footing

/-- Whether the tokens passed last agree. -/
def agrees : Footing → Prop
  | .steady | .taking => True
  | .unsure | .facing => False

/-- Whether a token has to be passed. -/
def takes : Footing → Prop
  | .steady => False
  | .taking | .unsure | .facing => True

/-- A parser that copes with one footing copes with another one. -/
def Covers : Footing → Footing → Prop
  | .unsure, _ => True
  | .taking, .taking | .taking, .steady => True
  | .steady, .steady => True
  | .facing, .facing => True
  | _, _ => False

end Footing

/-- A cursor of the longer text stands where `c` stands, with more behind. -/
structure Cursor.Beside (x : Extension) (footing : Footing) (c c' : Cursor) : Prop where
  ends : c.last.kind = .endOfFile
  ahead : c'.ahead = c.ahead ++ x.more
  last : c'.last = x.last
  nextId : c'.nextId = x.shift + c.nextId
  diagnostics : c'.diagnostics = x.reports ++ c.diagnostics
  previous : footing.agrees → c'.previous = c.previous
  front : footing = .facing → c.ahead ≠ []

/-- Where a parser gets to that starts with some footing: on in the same text. -/
structure Cursor.Onward (footing : Footing) (c d : Cursor) : Prop where
  last : d.last = c.last
  ahead : d.ahead <:+ c.ahead
  takes : footing.takes → d.ahead.length < c.ahead.length

namespace Cursor.Onward

variable {footing : Footing} {c d e : Cursor}

theorem refl (c : Cursor) : c.Onward .steady c :=
  ⟨rfl, List.suffix_refl _, False.elim⟩

theorem trans (hcd : c.Onward footing d) (hde : d.Onward .steady e) : c.Onward footing e where
  last := hde.last.trans hcd.last
  ahead := hde.ahead.trans hcd.ahead
  takes := fun h => Nat.lt_of_le_of_lt hde.ahead.length_le (hcd.takes h)

theorem trans_taking (hcd : c.Onward .steady d) (hde : d.Onward .taking e) :
    c.Onward .taking e where
  last := hde.last.trans hcd.last
  ahead := hde.ahead.trans hcd.ahead
  takes := fun h => Nat.lt_of_lt_of_le (hde.takes h) hcd.ahead.length_le

theorem of_taking (h : c.Onward .taking d) : c.Onward footing d :=
  ⟨h.last, h.ahead, fun _ => h.takes trivial⟩

theorem ne_nil (h : c.Onward footing d) (hd : d.ahead ≠ []) : c.ahead ≠ [] := by
  intro hc
  have hsuffix := h.ahead
  rw [hc] at hsuffix
  exact hd (List.suffix_nil.mp hsuffix)

theorem ne_nil_of_takes (h : c.Onward footing d) (hfooting : footing.takes) : c.ahead ≠ [] :=
  List.ne_nil_of_length_pos (Nat.lt_of_le_of_lt (Nat.zero_le _) (h.takes hfooting))

end Cursor.Onward

namespace Cursor.Beside

variable {x : Extension} {footing footing' : Footing} {c c' : Cursor}

/-- Beside every cursor that copes with a footing there is one of the longer text. -/
theorem exists_of_ends (x : Extension) (footing : Footing) {c : Cursor}
    (hends : c.last.kind = .endOfFile) (hfront : footing = .facing → c.ahead ≠ []) : ∃ c', c.Beside x footing c' :=
  ⟨⟨c.previous, c.ahead ++ x.more, x.last, x.shift + c.nextId, x.reports ++ c.diagnostics⟩,
    hends, rfl, rfl, rfl, rfl, fun _ => rfl, hfront⟩

theorem change (h : c.Beside x footing c') (hprevious : footing'.agrees → footing.agrees)
    (hfront : footing' = .facing → c.ahead ≠ []) : c.Beside x footing' c' where
  ends := h.ends
  ahead := h.ahead
  last := h.last
  nextId := h.nextId
  diagnostics := h.diagnostics
  previous := fun hagrees => h.previous (hprevious hagrees)
  front := hfront

theorem peek (h : c.Beside x footing c') (hahead : c.ahead ≠ []) : c'.peek = c.peek := by
  cases hc : c.ahead with
  | nil => exact absurd hc hahead
  | cons token rest => rw [Cursor.peek, Cursor.peek, h.ahead, hc]; rfl

theorem peek_nil (h : c.Beside x footing c') (hahead : c.ahead = []) :
    c.peek.kind = .endOfFile ∧ c'.peek = x.more.headD x.last := by
  rw [Cursor.peek, Cursor.peek, h.ahead, h.last, hahead]
  exact ⟨h.ends, rfl⟩

theorem advance (h : c.Beside x footing c') (hahead : c.ahead ≠ []) :
    c.advance.Beside x .steady c'.advance ∧ c.Onward .taking c.advance := by
  cases hc : c.ahead with
  | nil => exact absurd hc hahead
  | cons token rest =>
      have hc' : c'.ahead = token :: (rest ++ x.more) := by rw [h.ahead, hc]; rfl
      constructor
      · constructor <;> simp [Cursor.advance, hc, hc', h.ends, h.last, h.nextId, h.diagnostics]
      · constructor <;> simp [Cursor.advance, hc]

end Cursor.Beside

namespace Parse

/-- If `p` has a result from `c`, then `q` has the same one from `c'`, with `f` of its value, and
both have passed the same tokens.  Without a `tail` this only holds as long as `p` does not get to
the end of its text. -/
def AlongFrom (x : Extension) (tail : Bool) (footing : Footing) (f : α → β) (p : Parse α)
    (q : Parse β) (c c' : Cursor) : Prop :=
  ∀ value d, p c = .ok value d →
    c.Onward footing d ∧
      (tail = true ∨ d.ahead ≠ [] → ∃ d', q c' = .ok (f value) d' ∧ d.Beside x .steady d')

/-- From all cursors beside each other, `q` has the results of `p`. -/
def Along (x : Extension) (tail : Bool) (footing : Footing) (f : α → β) (p : Parse α)
    (q : Parse β) : Prop :=
  ∀ c c', c.Beside x footing c' → AlongFrom x tail footing f p q c c'

namespace Along

variable {x : Extension} {tail : Bool} {footing : Footing}

/-! ## Composition -/

theorem pure {f : α → β} {value : α} {value' : β} (h : value' = f value) :
    Along x tail .steady f (pure value) (pure value') := by
  intro c c' hc value' d hrun
  cases hrun
  exact ⟨.refl c, fun _ => ⟨c', by rw [h]; rfl, hc⟩⟩

theorem never {f : α → β} {p : Parse α} {q : Parse β} (h : ∀ c value d, p c ≠ .ok value d) :
    Along x tail footing f p q :=
  fun c _ _ value d hrun => absurd hrun (h c value d)

theorem failAt {f : α → β} {q : Parse β} (token : Token) (fault : SyntaxFault) :
    Along x tail footing f (Parse.failAt token fault) q :=
  never fun _ _ _ => nofun

theorem fail {f : α → β} {q : Parse β} (fault : SyntaxFault) :
    Along x tail footing f (Parse.fail fault) q :=
  never fun _ _ _ => nofun

theorem starve {f : α → β} {q : Parse β} : Along x tail footing f Parse.starve q :=
  never fun _ _ _ => nofun

theorem congr {f g : α → β} {p : Parse α} {q : Parse β} (h : Along x tail footing f p q)
    (hfg : ∀ value, f value = g value) : Along x tail footing g p q := by
  rw [← funext hfg]
  exact h

/-- What holds up to the end of the text holds in front of it. -/
theorem inner {f : α → β} {p : Parse α} {q : Parse β} (h : Along x true footing f p q) :
    Along x tail footing f p q := by
  intro c c' hc value d hrun
  rcases h c c' hc value d hrun with ⟨hcd, hrest⟩
  exact ⟨hcd, fun _ => hrest (.inl rfl)⟩

theorem cover {f : α → β} {p : Parse α} {q : Parse β} {footing' : Footing}
    (h : Along x tail footing f p q) (hcovers : footing.Covers footing') :
    Along x tail footing' f p q := by
  intro c c' hc value d hrun
  have hbeside : c.Beside x footing c' := by
    refine hc.change ?_ ?_ <;> cases footing <;> cases footing' <;>
      simp_all [Footing.Covers, Footing.agrees, hc.front]
  rcases h c c' hbeside value d hrun with ⟨hcd, hrest⟩
  refine ⟨⟨hcd.last, hcd.ahead, fun htaken => hcd.takes ?_⟩, hrest⟩
  cases footing <;> cases footing' <;> simp_all [Footing.Covers, Footing.takes]

theorem bind {f : α → β} {g : γ → δ} {p : Parse α} {q : Parse β} {k : α → Parse γ}
    {l : β → Parse δ} (hpq : Along x tail footing f p q)
    (hkl : ∀ value, Along x tail .steady g (k value) (l (f value))) :
    Along x tail footing g (p >>= k) (q >>= l) := by
  intro c c' hc result e hrun
  rcases bind_eq_ok_iff.mp hrun with ⟨value, d, hp, hk⟩
  rcases hpq c c' hc value d hp with ⟨hcd, hq⟩
  rcases Cursor.Beside.exists_of_ends x .steady (hcd.last ▸ hc.ends) nofun with
    ⟨e', he'⟩
  have hde := (hkl value d e' he' result e hk).1
  refine ⟨hcd.trans hde, fun hend => ?_⟩
  rcases hq (hend.imp_right hde.ne_nil) with ⟨d', hrun', hd⟩
  rcases (hkl value d d' hd result e hk).2 hend with ⟨e', hrun'', he⟩
  exact ⟨e', by rw [bind_of_ok hrun', hrun''], he⟩

/-- A parser in front of one that takes a token does not get to the end of the text. -/
theorem before {f : α → β} {g : γ → δ} {p : Parse α} {q : Parse β} {k : α → Parse γ}
    {l : β → Parse δ} (hpq : Along x false footing f p q)
    (hkl : ∀ value, Along x tail .taking g (k value) (l (f value))) :
    Along x tail footing g (p >>= k) (q >>= l) := by
  intro c c' hc result e hrun
  rcases bind_eq_ok_iff.mp hrun with ⟨value, d, hp, hk⟩
  rcases hpq c c' hc value d hp with ⟨hcd, hq⟩
  rcases Cursor.Beside.exists_of_ends x .taking (hcd.last ▸ hc.ends) nofun with
    ⟨e', he'⟩
  have hde := (hkl value d e' he' result e hk).1
  refine ⟨hcd.trans ⟨hde.last, hde.ahead, False.elim⟩, fun hend => ?_⟩
  rcases hq (.inr (hde.ne_nil_of_takes trivial)) with ⟨d', hrun', hd⟩
  have hd' : d.Beside x .taking d' := hd.change id nofun
  rcases (hkl value d d' hd' result e hk).2 hend with ⟨e', hrun'', he⟩
  exact ⟨e', by rw [bind_of_ok hrun', hrun''], he⟩

theorem before_taking {f : α → β} {g : γ → δ} {p : Parse α} {q : Parse β} {k : α → Parse γ}
    {l : β → Parse δ} (hpq : Along x false .steady f p q)
    (hkl : ∀ value, Along x tail .taking g (k value) (l (f value))) :
    Along x tail .taking g (p >>= k) (q >>= l) := by
  intro c c' hc result e hrun
  rcases before hpq hkl c c' (hc.change id nofun) result e hrun with ⟨hce, hrest⟩
  refine ⟨⟨hce.last, hce.ahead, fun _ => ?_⟩, hrest⟩
  rcases bind_eq_ok_iff.mp hrun with ⟨value, d, hp, hk⟩
  have hcd := (hpq c c' (hc.change id nofun) value d hp).1
  rcases Cursor.Beside.exists_of_ends x .taking (hcd.last ▸ hc.ends) nofun with
    ⟨e', he'⟩
  exact (hcd.trans_taking (hkl value d e' he' result e hk).1).takes trivial

theorem discard {f : α → β} {p : Parse α} {q : Parse β} (h : Along x tail footing f p q) :
    Along x tail footing id (discard p) (discard q) := by
  show Along x tail footing id (p >>= fun _ => Pure.pure ()) (q >>= fun _ => Pure.pure ())
  exact h.bind fun _ => pure rfl

theorem after {f : α → β} {g : γ → δ} {p : Parse α} {q : Parse β} {k : Parse γ} {l : Parse δ}
    (hpq : Along x tail footing f p q) (hkl : Along x tail .steady g k l) :
    Along x tail footing g (Functor.discard p >>= fun _ => k) (Functor.discard q >>= fun _ => l) :=
  hpq.discard.bind fun _ => hkl

theorem branch {f : α → β} {test test' : Parse Bool} {p p' : Parse α} {q q' : Parse β}
    (htest : Along x tail footing id test test') (hthen : Along x tail .steady f p q)
    (helse : Along x tail .steady f p' q') :
    Along x tail footing f (test >>= fun holds => if holds = true then p else p')
      (test' >>= fun holds => if holds = true then q else q') := by
  refine htest.bind fun holds => ?_
  cases holds with
  | true => exact hthen
  | false => exact helse

/-! ## Looks and single steps -/

theorem peek : Along x false .steady id Parse.peek Parse.peek := by
  intro c c' hc value d hrun
  cases hrun
  refine ⟨.refl c, fun hend => ⟨c', ?_, hc⟩⟩
  rw [← hc.peek (hend.resolve_left Bool.false_ne_true)]
  rfl

theorem atEnd : Along x false .steady id Parse.atEnd Parse.atEnd := by
  intro c c' hc value d hrun
  cases hrun
  refine ⟨.refl c, fun hend => ⟨c', ?_, hc⟩⟩
  have hahead : c'.ahead.isEmpty = c.ahead.isEmpty := by
    cases h : c.ahead with
    | nil => exact absurd h (hend.resolve_left Bool.false_ne_true)
    | cons token rest => rw [hc.ahead, h]; rfl
  exact congrArg (EStateM.Result.ok · c') hahead

theorem previous : Along x tail .steady id Parse.previous Parse.previous := by
  intro c c' hc value d hrun
  cases hrun
  refine ⟨.refl c, fun _ => ⟨c', ?_, hc⟩⟩
  exact congrArg (EStateM.Result.ok · c') (hc.previous trivial)

theorem freshId : Along x tail .steady (x.shift + ·) Parse.freshId Parse.freshId := by
  intro c c' hc value d hrun
  cases hrun
  refine ⟨⟨rfl, List.suffix_refl _, False.elim⟩, fun _ => ?_⟩
  refine ⟨{ c' with nextId := c'.nextId + 1 }, ?_, ?_⟩
  · exact congrArg (EStateM.Result.ok · _) hc.nextId
  · exact ⟨hc.ends, hc.ahead, hc.last, congrArg (· + 1) hc.nextId, hc.diagnostics, hc.previous,
      nofun⟩

theorem report (diagnostic : Diagnostic) :
    Along x tail .steady id (Parse.report diagnostic) (Parse.report diagnostic) := by
  intro c c' hc value d hrun
  cases hrun
  refine ⟨⟨rfl, List.suffix_refl _, False.elim⟩, fun _ => ?_⟩
  refine ⟨c'.report diagnostic, rfl, hc.ends, hc.ahead, hc.last, hc.nextId, ?_, hc.previous, nofun⟩
  simp [Cursor.report, hc.diagnostics]

theorem advance_of_ne_nil {c c' : Cursor} (hc : c.Beside x footing c') (hahead : c.ahead ≠ []) :
    AlongFrom x tail footing id Parse.advance Parse.advance c c' := by
  intro value d hrun
  cases hrun
  rcases hc.advance hahead with ⟨hbeside, hcd⟩
  refine ⟨hcd.of_taking, fun _ => ⟨c'.advance, ?_, hbeside⟩⟩
  exact congrArg (EStateM.Result.ok · c'.advance) (hbeside.previous trivial)

theorem advance_facing : Along x tail .facing id Parse.advance Parse.advance :=
  fun _ _ hc => advance_of_ne_nil hc (hc.front rfl)

theorem advance : Along x false .steady id Parse.advance Parse.advance := by
  intro c c' hc value d hrun
  cases hahead : c.ahead with
  | nil =>
      cases hrun
      have hsame : c.advance = c := by rw [Cursor.advance, hahead]
      rw [hsame]
      exact ⟨.refl c, fun hend => absurd hahead (hend.resolve_left Bool.false_ne_true)⟩
  | cons token rest => exact advance_of_ne_nil hc (by simp [hahead]) value d hrun

/-- A look at the token in front, after which it is known to be there or to end the text. -/
theorem front_from {g : γ → δ} {k : Token → Parse γ} {l : Token → Parse δ} {c c' : Cursor}
    (hc : c.Beside x .unsure c')
    (hfront : Along x tail .facing g (k c.peek) (l c.peek))
    (hend : c.peek.kind = .endOfFile → Along x tail .unsure g (k c.peek) (l c.peek)) :
    AlongFrom x tail .unsure g (Parse.peek >>= k) (Parse.peek >>= l) c c' := by
  intro value d hrun
  have hrun' : k c.peek c = .ok value d := hrun
  by_cases hahead : c.ahead = []
  · have hcd := (hend (hc.peek_nil hahead).1 c c' hc value d hrun').1
    exact absurd hahead (hcd.ne_nil_of_takes trivial)
  · rcases hfront c c' (hc.change id fun _ => hahead) value d hrun' with ⟨hcd, hrest⟩
    refine ⟨⟨hcd.last, hcd.ahead, hcd.takes⟩, fun hends => ?_⟩
    rcases hrest hends with ⟨d', hrun'', hd⟩
    refine ⟨d', ?_, hd⟩
    rw [← hc.peek hahead] at hrun''
    exact hrun''

theorem front {g : γ → δ} {k : Token → Parse γ} {l : Token → Parse δ}
    (hfront : ∀ token, Along x tail .facing g (k token) (l token))
    (hend : ∀ token, token.kind = .endOfFile → Along x tail .unsure g (k token) (l token)) :
    Along x tail .unsure g (Parse.peek >>= k) (Parse.peek >>= l) :=
  fun c _ hc => front_from hc (hfront c.peek) (hend c.peek)

section Accept

variable {accepted? : Parse Bool} {test : Token → Prop} [DecidablePred test]
  (hrun : ∀ c, accepted? c = if test c.peek then .ok true c.advance else .ok false c)
  (hends : ∀ token, token.kind = .endOfFile → ¬ test token)
include hrun hends

/-- The two ways on from an optional token, which must not be the first one of what follows the
text unless a token has to be passed anyway. -/
theorem ifAccept_from {f : α → β} {p p' : Parse α} {q q' : Parse β} {c c' : Cursor}
    (hmore : tail = true → ¬ footing.takes → ¬ test (x.more.headD x.last))
    (hc : c.Beside x footing c') (hthen : Along x tail .steady f p q)
    (helse : AlongFrom x tail footing f p' q' c c') :
    AlongFrom x tail footing f (accepted? >>= fun accepted => if accepted = true then p else p')
      (accepted? >>= fun accepted => if accepted = true then q else q') c c' := by
  intro value e hresult
  have hpass {d : Cursor} (htest : test d.peek) : accepted? d = .ok true d.advance := by
    rw [hrun, if_pos htest]
  have hstay {d : Cursor} (htest : ¬ test d.peek) : accepted? d = .ok false d := by
    rw [hrun, if_neg htest]
  by_cases hahead : c.ahead = []
  · rcases hc.peek_nil hahead with ⟨hkind, hpeek⟩
    rw [bind_of_ok (hstay (hends _ hkind))] at hresult
    rcases helse value e hresult with ⟨hce, hrest⟩
    refine ⟨hce, fun hend => ?_⟩
    rcases hrest hend with ⟨e', hresult', he⟩
    have htail : tail = true := hend.resolve_right fun hne => hce.ne_nil hne hahead
    have hrefused : ¬ test c'.peek := by
      rw [hpeek]
      exact hmore htail fun htakes => hce.ne_nil_of_takes htakes hahead
    exact ⟨e', by rw [bind_of_ok (hstay hrefused)]; exact hresult', he⟩
  · have hpeek := hc.peek hahead
    by_cases htest : test c.peek
    · rw [bind_of_ok (hpass htest)] at hresult
      rcases hc.advance hahead with ⟨hbeside, hcd⟩
      rcases hthen _ _ hbeside value e hresult with ⟨hde, hrest⟩
      refine ⟨(hcd.trans hde).of_taking, fun hend => ?_⟩
      rcases hrest hend with ⟨e', hresult', he⟩
      exact ⟨e', by rw [bind_of_ok (hpass (hpeek ▸ htest))]; exact hresult', he⟩
    · rw [bind_of_ok (hstay htest)] at hresult
      rcases helse value e hresult with ⟨hce, hrest⟩
      refine ⟨hce, fun hend => ?_⟩
      rcases hrest hend with ⟨e', hresult', he⟩
      exact ⟨e', by rw [bind_of_ok (hstay (hpeek ▸ htest))]; exact hresult', he⟩

theorem accept : Along x false .steady id accepted? accepted? := by
  have hsame : (accepted? >>= fun accepted => if accepted = true then Pure.pure true
      else Pure.pure false) = accepted? := by
    funext c
    by_cases htest : test c.peek
    · rw [bind_of_ok (by rw [hrun, if_pos htest]), hrun, if_pos htest]
      rfl
    · rw [bind_of_ok (by rw [hrun, if_neg htest]), hrun, if_neg htest]
      rfl
  intro c c' hc
  rw [← hsame]
  exact ifAccept_from hrun hends nofun hc (pure rfl) (pure rfl c c' hc)

end Accept

theorem expect {expected : Parse Token} (test : Token → Prop) [DecidablePred test]
    (fault : SyntaxFault)
    (hrun : ∀ c, expected c = if test c.peek then Parse.advance c else Parse.fail fault c)
    (hends : ∀ token, token.kind = .endOfFile → ¬ test token) :
    Along x tail footing id expected expected := by
  intro c c' hc value d hresult
  rw [hrun] at hresult
  by_cases htest : test c.peek
  · rw [if_pos htest] at hresult
    have hahead : c.ahead ≠ [] := fun hahead => hends _ (hc.peek_nil hahead).1 htest
    rw [hrun, if_pos (by rwa [hc.peek hahead])]
    exact advance_of_ne_nil hc hahead value d hresult
  · rw [if_neg htest] at hresult
    cases hresult

end Along

/-! ## Symbols, reserved words and names -/

theorem symbol?_ne_of_ends {mark : Symbol} (token : Token) (h : token.kind = .endOfFile) :
    token.symbol? ≠ some mark := by
  simp [Token.symbol?, h]

theorem keyword?_ne_of_ends {word : Keyword} (token : Token) (h : token.kind = .endOfFile) :
    token.keyword? ≠ some word := by
  simp [Token.keyword?, h]

section Tokens

variable {x : Extension} {tail : Bool} {footing : Footing}

theorem atSymbol_along (mark : Symbol) :
    Along x false .steady id (atSymbol mark) (atSymbol mark) :=
  Along.peek.bind fun _ => .pure rfl

theorem atKeyword_along (word : Keyword) :
    Along x false .steady id (atKeyword word) (atKeyword word) :=
  Along.peek.bind fun _ => .pure rfl

theorem atName_along : Along x false .steady id atName atName :=
  Along.peek.bind fun _ => .pure rfl

theorem acceptSymbol_along (mark : Symbol) :
    Along x false .steady id (acceptSymbol mark) (acceptSymbol mark) :=
  .accept (acceptSymbol_run mark) symbol?_ne_of_ends

theorem acceptKeyword_along (word : Keyword) :
    Along x false .steady id (acceptKeyword word) (acceptKeyword word) :=
  .accept (acceptKeyword_run word) keyword?_ne_of_ends

theorem expectSymbol_along (mark : Symbol) (fault : SyntaxFault) :
    Along x tail footing id (expectSymbol mark fault) (expectSymbol mark fault) := by
  refine .expect (fun token => token.symbol? = some mark) fault (fun c => ?_)
    symbol?_ne_of_ends
  show (if decide (c.peek.symbol? = some mark) = true then advance else fail fault) c = _
  simp only [decide_eq_true_eq]
  split <;> rfl

theorem expectKeyword_along (word : Keyword) (fault : SyntaxFault) :
    Along x tail footing id (expectKeyword word fault) (expectKeyword word fault) := by
  refine .expect (fun token => token.keyword? = some word) fault (fun c => ?_)
    keyword?_ne_of_ends
  show (if decide (c.peek.keyword? = some word) = true then advance else fail fault) c = _
  simp only [decide_eq_true_eq]
  split <;> rfl

theorem expectName_along (fault : SyntaxFault) :
    Along x tail footing id (expectName fault) (expectName fault) := by
  refine .expect (fun token => token.isIdentifier = true) fault (fun c => ?_)
    fun token hkind => by simp [Token.isIdentifier, hkind]
  show (if c.peek.isIdentifier = true then advance else fail fault) c = _
  split <;> rfl

theorem Along.ifKeyword {f : α → β} {word : Keyword} {p p' : Parse α} {q q' : Parse β}
    (hmore : tail = true → ¬ footing.takes → (x.more.headD x.last).keyword? ≠ some word)
    (hthen : Along x tail .steady f p q) (helse : Along x tail footing f p' q') :
    Along x tail footing f
      (acceptKeyword word >>= fun accepted => if accepted = true then p else p')
      (acceptKeyword word >>= fun accepted => if accepted = true then q else q') :=
  fun c c' hc =>
    ifAccept_from (acceptKeyword_run word) keyword?_ne_of_ends hmore hc hthen (helse c c' hc)

end Tokens

/-! ## Loops -/

section Loops

variable {x : Extension} {tail : Bool} {footing : Footing}

theorem exists_succ_of_lt {fuel fuel' : Nat} (h : fuel + 1 ≤ fuel') :
    ∃ rest, fuel' = rest + 1 ∧ fuel ≤ rest :=
  ⟨fuel' - 1, by omega, by omega⟩

theorem separated_along {f : α → β} {item : Parse α} {item' : Parse β} {more : Parse Bool}
    (hitem : Along x tail footing f item item') (hitem' : Along x tail .steady f item item')
    (hmore : Along x tail .steady id more more) (fuel fuel' : Nat) (hfuel : fuel ≤ fuel') :
    Along x tail footing (List.map f) (separated item more fuel) (separated item' more fuel') := by
  induction fuel generalizing fuel' footing with
  | zero => exact .starve
  | succ fuel ih =>
      rcases exists_succ_of_lt hfuel with ⟨fuel', rfl, hless⟩
      refine hitem.bind fun head => hmore.branch ?_ (.pure rfl)
      exact (ih hitem' fuel' hless).bind fun tail => .pure rfl

theorem collect_along {f : α → β} {item : Parse α} {item' : Parse β} {more : Parse Bool}
    (hmore : Along x tail .steady id more more) (hitem : Along x tail .steady f item item')
    (fuel fuel' : Nat) (hfuel : fuel ≤ fuel') :
    Along x tail .steady (List.map f) (collect more item fuel) (collect more item' fuel') := by
  induction fuel generalizing fuel' with
  | zero => exact .starve
  | succ fuel ih =>
      rcases exists_succ_of_lt hfuel with ⟨fuel', rfl, hless⟩
      refine hmore.branch ?_ (.pure rfl)
      exact hitem.bind fun head => (ih fuel' hless).bind fun tail => .pure rfl

end Loops

/-! ## Expressions -/

section Expressions

variable {x : Extension} {inner inner' : Parse Expr}

theorem chain_along {operator? : Token → Option γ} {build : Expr → γ → Token → Expr → Expr}
    {operand operand' : Parse Expr}
    (hbuild : ∀ left op token right, (build left op token right).shift x.shift =
      build (left.shift x.shift) op token (right.shift x.shift))
    (hoperand : Along x false .steady (Expr.shift x.shift) operand operand') (fuel fuel' : Nat)
    (hfuel : fuel ≤ fuel') (left : Expr) :
    Along x false .steady (Expr.shift x.shift) (chain operator? build operand fuel left)
      (chain operator? build operand' fuel' (left.shift x.shift)) := by
  induction fuel generalizing fuel' left with
  | zero => exact .starve
  | succ fuel ih =>
      rcases exists_succ_of_lt hfuel with ⟨fuel', rfl, hless⟩
      refine Along.peek.bind fun token => ?_
      simp only [id]
      cases operator? token with
      | none => exact .pure rfl
      | some op =>
          refine Along.advance.bind fun token => hoperand.bind fun right => ?_
          have hnext := ih fuel' hless (build left op token right)
          rw [hbuild] at hnext
          exact hnext

theorem level_along {operator? : Token → Option γ} {build : Expr → γ → Token → Expr → Expr}
    {operand operand' : Parse Expr}
    (hbuild : ∀ left op token right, (build left op token right).shift x.shift =
      build (left.shift x.shift) op token (right.shift x.shift))
    (hoperand : Along x false .unsure (Expr.shift x.shift) operand operand') {fuel fuel' : Nat}
    (hfuel : fuel ≤ fuel') :
    Along x false .unsure (Expr.shift x.shift) (level operator? build operand fuel)
      (level operator? build operand' fuel') :=
  hoperand.bind fun left =>
    chain_along hbuild (hoperand.cover trivial) fuel fuel' hfuel left

variable (hinner : Along x false .unsure (Expr.shift x.shift) inner inner')
include hinner

theorem mapEntry_along :
    Along x false .steady (Expr.shiftEntry x.shift) (mapEntry inner) (mapEntry inner') :=
  (hinner.cover trivial).bind fun _ => (expectSymbol_along _ _).after <|
    (hinner.cover trivial).bind fun _ => .pure rfl

theorem argumentsFrom_along (fuel fuel' count : Nat) (hfuel : fuel ≤ fuel') :
    Along x false .steady (List.map (Expr.shift x.shift)) (argumentsFrom inner fuel count)
      (argumentsFrom inner' fuel' count) := by
  induction fuel generalizing fuel' count with
  | zero => exact .starve
  | succ fuel ih =>
      rcases exists_succ_of_lt hfuel with ⟨fuel', rfl, hless⟩
      unfold argumentsFrom
      split
      · exact .fail _
      · refine (hinner.cover trivial).bind fun head => (acceptSymbol_along _).branch ?_ (.pure rfl)
        exact (ih fuel' (count + 1) hless).bind fun tail => .pure rfl

theorem arguments_along {fuel fuel' : Nat} (hfuel : fuel ≤ fuel') :
    Along x false .steady (List.map (Expr.shift x.shift)) (arguments inner fuel)
      (arguments inner' fuel') :=
  (atSymbol_along _).branch (.pure rfl) (argumentsFrom_along hinner fuel fuel' 0 hfuel)

theorem primary_along {fuel fuel' : Nat} (hfuel : fuel ≤ fuel') :
    Along x false .unsure (Expr.shift x.shift) (primary inner fuel) (primary inner' fuel') := by
  refine .front (fun token => ?_) fun token hkind => ?_
  · cases literal? token with
    | some value => exact Along.advance_facing.after (.pure (by rw [Expr.shift]))
    | none =>
        dsimp only
        split
        · refine Along.advance_facing.after ((expectSymbol_along _ _).after ?_)
          refine (expectName_along _).bind fun method => Along.freshId.bind fun id => ?_
          exact .pure (by rw [Expr.shift]; rfl)
        · refine Along.advance_facing.after (Along.freshId.bind fun id => ?_)
          exact .pure (by rw [Expr.shift])
        · refine Along.advance_facing.after (Along.freshId.bind fun id => ?_)
          exact .pure (by rw [Expr.shift])
        · refine Along.advance_facing.after ?_
          refine (separated_along (mapEntry_along hinner) (mapEntry_along hinner)
            (acceptSymbol_along _) fuel fuel' hfuel).bind fun entries => ?_
          refine (expectSymbol_along _ _).after (.pure ?_)
          rw [Expr.shift, Expr.shiftEntries_eq_map]
        · refine Along.advance_facing.after ((hinner.cover trivial).bind fun value => ?_)
          exact (expectSymbol_along _ _).after (.pure (by rw [Expr.shift]))
        · exact .failAt _ _
  · have hliteral : literal? token = none := by simp [literal?, hkind]
    rw [hliteral]
    dsimp only
    rw [hkind]
    exact .failAt _ _

theorem trailers_along (fuel fuel' : Nat) (hfuel : fuel ≤ fuel') (target : Expr) :
    Along x false .steady (Expr.shift x.shift) (trailers inner fuel target)
      (trailers inner' fuel' (target.shift x.shift)) := by
  induction fuel generalizing fuel' target with
  | zero => exact .starve
  | succ fuel ih =>
      rcases exists_succ_of_lt hfuel with ⟨fuel', rfl, hless⟩
      refine Along.peek.bind fun token => ?_
      simp only [id]
      split
      · refine Along.advance.after ((arguments_along hinner hless).bind fun values => ?_)
        refine (expectSymbol_along _ _).bind fun paren => ?_
        have hcall := ih fuel' hless (.call target paren values)
        rw [Expr.shift, Expr.shiftList_eq_map] at hcall
        exact hcall
      · refine Along.advance.after ((hinner.cover trivial).bind fun index => ?_)
        refine (expectSymbol_along _ _).bind fun bracket => ?_
        have hsubscript := ih fuel' hless (.subscript bracket target index)
        rw [Expr.shift] at hsubscript
        exact hsubscript
      · refine Along.advance.after ((expectName_along _).bind fun name => ?_)
        have hget := ih fuel' hless (.get target name)
        rw [Expr.shift] at hget
        exact hget
      · exact .pure rfl

theorem call_along {fuel fuel' : Nat} (hfuel : fuel ≤ fuel') :
    Along x false .unsure (Expr.shift x.shift) (call inner fuel) (call inner' fuel') :=
  (primary_along hinner hfuel).bind fun target =>
    trailers_along hinner fuel fuel' hfuel target

theorem unary_along (fuel fuel' : Nat) (hfuel : fuel ≤ fuel') :
    Along x false .unsure (Expr.shift x.shift) (unary inner fuel) (unary inner' fuel') := by
  induction fuel generalizing fuel' with
  | zero => exact .starve
  | succ fuel ih =>
      rcases exists_succ_of_lt hfuel with ⟨fuel', rfl, hless⟩
      have hcall : Along x false .unsure (Expr.shift x.shift) (call inner (fuel + 1))
          (call inner' (fuel' + 1)) := call_along hinner hfuel
      refine .front (fun token => ?_) fun token hkind => ?_
      · cases unaryOp? token with
        | none => exact hcall.cover trivial
        | some op =>
            refine Along.advance_facing.bind fun token => ?_
            exact ((ih fuel' hless).cover trivial).bind fun operand => .pure (by rw [Expr.shift]; rfl)
      · have hop : unaryOp? token = none := by
          simp [unaryOp?, Token.keyword?, Token.symbol?, hkind]
        rw [hop]
        exact hcall

theorem disjunction_along {fuel fuel' : Nat} (hfuel : fuel ≤ fuel') :
    Along x false .unsure (Expr.shift x.shift) (disjunction inner fuel)
      (disjunction inner' fuel') := by
  have hbinary (left : Expr) (op : BinaryOp) (token : Token) (right : Expr) :
      (buildBinary left op token right).shift x.shift =
        buildBinary (left.shift x.shift) op token (right.shift x.shift) := by
    rw [buildBinary, buildBinary, Expr.shift]
  have hlogical (left : Expr) (op : LogicalOp) (token : Token) (right : Expr) :
      (buildLogical left op token right).shift x.shift =
        buildLogical (left.shift x.shift) op token (right.shift x.shift) := by
    rw [buildLogical, buildLogical, Expr.shift]
  have hunary := unary_along hinner fuel fuel' hfuel
  have hproduct : Along x false .unsure (Expr.shift x.shift) (product inner fuel)
      (product inner' fuel') := level_along hbinary hunary hfuel
  have hsum : Along x false .unsure (Expr.shift x.shift) (sum inner fuel) (sum inner' fuel') :=
    level_along hbinary hproduct hfuel
  have hcomparison : Along x false .unsure (Expr.shift x.shift) (comparison inner fuel)
      (comparison inner' fuel') := level_along hbinary hsum hfuel
  have hequality : Along x false .unsure (Expr.shift x.shift) (equality inner fuel)
      (equality inner' fuel') := level_along hbinary hcomparison hfuel
  exact level_along hlogical (level_along hlogical hequality hfuel) hfuel

omit hinner in
theorem assignTo_along (target : Expr) (mark : Token) (value : Expr) :
    Along x false .steady (Expr.shift x.shift) (assignTo target mark value)
      (assignTo (target.shift x.shift) mark (value.shift x.shift)) := by
  cases target with
  | «variable» id name =>
      rw [Expr.shift]
      exact Along.freshId.bind fun id => .pure (by rw [Expr.shift])
  | get object name =>
      rw [Expr.shift]
      exact .pure (by rw [Expr.shift])
  | _ => exact .failAt _ _

theorem assignment_along (fuel fuel' : Nat) (hfuel : fuel ≤ fuel') :
    Along x false .unsure (Expr.shift x.shift) (assignment inner fuel)
      (assignment inner' fuel') := by
  induction fuel generalizing fuel' with
  | zero => exact .starve
  | succ fuel ih =>
      rcases exists_succ_of_lt hfuel with ⟨fuel', rfl, hless⟩
      refine (disjunction_along hinner hfuel).bind fun target => ?_
      refine (acceptSymbol_along _).branch ?_ (.pure rfl)
      refine Along.previous.bind fun mark => ((ih fuel' hless).cover trivial).bind fun value => ?_
      exact assignTo_along target mark value

end Expressions

theorem expression_along {x : Extension} (fuel fuel' : Nat) (hfuel : fuel ≤ fuel') :
    Along x false .unsure (Expr.shift x.shift) (expression fuel) (expression fuel') := by
  induction fuel generalizing fuel' with
  | zero => exact .starve
  | succ fuel ih =>
      rcases exists_succ_of_lt hfuel with ⟨fuel', rfl, hless⟩
      refine (assignment_along (ih fuel' hless) _ _ hfuel).bind fun value => ?_
      refine (acceptKeyword_along _).branch ?_ (.pure rfl)
      exact (expectName_along _).bind fun name => .pure (by rw [Expr.shift]; rfl)

end Parse
end MiniPascal
