import MiniPascal.Proofs.Parser.ProgramAgreement

/-!
# Scripts of single steps

A cursor holds the tokens in front of it, so that no look at them can miss.  A script is a parser
put together from looks at single tokens and from steps past one of them.  It can also be run over
a numbered sequence of tokens, with nothing but an index to stand for the cursor: there a look may
find no token, and a step may lead off the sequence.  Over a sequence with one token for the end of
the text, which stands last, neither happens, and both runs of a script come to the same.
-/

namespace MiniPascal

/-- A parser in single steps. -/
inductive Script : Type → Type 1
  /-- A result without any step. -/
  | done {α : Type} (value : α) : Script α
  | stop {α : Type} (why : Stop) : Script α
  /-- The token in front. -/
  | peek : Script Token
  /-- The symbol behind the token in front, if there is one. -/
  | second : Script (Option Symbol)
  /-- The token passed last. -/
  | previous : Script Token
  | atEnd : Script Bool
  /-- Passes one token and returns it. -/
  | advance : Script Token
  | freshId : Script NodeId
  | report (diagnostic : Diagnostic) : Script Unit
  /-- Reports the fault of a declaration, and gives the declaration up when synchronizing. -/
  | recover (mode : Recovery) (decl : Script (List Stmt)) : Script (List Stmt)
  | bind {α β : Type} (first : Script α) (next : α → Script β) : Script β

/-- The symbol behind the token in front of a cursor. -/
def Parse.second : Parse (Option Symbol) := fun c =>
  .ok (c.ahead.tail.head?.bind Token.symbol?) c

/-- The index of a cursor in a sequence of tokens, with the reports and node numbers given out. -/
structure Spot where
  index : Nat
  nextId : NodeId
  diagnostics : List Diagnostic

namespace Spot

def start (firstId : NodeId) : Spot where
  index := 0
  nextId := firstId
  diagnostics := []

def report (spot : Spot) (diagnostic : Diagnostic) : Spot :=
  { spot with diagnostics := spot.diagnostics ++ [diagnostic] }

/-- Steps past a token, but never past one that ends the text.  There is no spot without a token,
and none behind the sequence. -/
def advance? (tokens : List Token) (spot : Spot) : Option Spot := do
  let token ← tokens[spot.index]?
  if token.kind = .endOfFile then
    return spot
  else if spot.index + 1 < tokens.length then
    return { spot with index := spot.index + 1 }
  else
    none

/-- Steps on to the next boundary, past at most as many tokens as `limit` says. -/
def skip? (tokens : List Token) : Nat → Spot → Option Spot
  | 0, _ => none
  | limit + 1, spot => do
      let token ← tokens[spot.index]?
      if token.kind = .endOfFile then
        return spot
      else
        let previous ← tokens[spot.index - 1]?
        if previous.symbol? = some .semicolon || Cursor.startsStatement token then
          return spot
        else
          skip? tokens limit (← spot.advance? tokens)

/-- Gives up a faulty statement: passes a token, then steps on to the next boundary. -/
def synchronize? (tokens : List Token) (spot : Spot) : Option Spot := do
  skip? tokens tokens.length (← spot.advance? tokens)

end Spot

namespace Script

/-- The parser that takes the steps of a script with a cursor. -/
def parser : {α : Type} → Script α → Parse α
  | _, .done value => pure value
  | _, .stop why => throw why
  | _, .peek => Parse.peek
  | _, .second => Parse.second
  | _, .previous => Parse.previous
  | _, .atEnd => Parse.atEnd
  | _, .advance => Parse.advance
  | _, .freshId => Parse.freshId
  | _, .report diagnostic => Parse.report diagnostic
  | _, .recover mode decl => Parse.recover mode decl.parser
  | _, .bind first next => first.parser >>= fun value => (next value).parser

/-- All declarations of the script are parsed in one mode, and it reports nothing but their faults
and the misplaced `break`. -/
def Plain (mode : Recovery) : {α : Type} → Script α → Prop
  | _, .report diagnostic => Misplaced diagnostic
  | _, .recover declMode decl => declMode = mode ∧ decl.Plain mode
  | _, .bind first next => first.Plain mode ∧ ∀ value, (next value).Plain mode
  | _, .done _ | _, .stop _ | _, .peek | _, .second | _, .previous | _, .atEnd | _, .advance
  | _, .freshId => True

/-- Takes the steps of a script over a sequence of tokens.  There is no outcome where a token is
looked for outside of the sequence, or the spot leaves it. -/
def walk (tokens : List Token) : {α : Type} → Script α → Spot → Option (Except Stop α × Spot)
  | _, .done value, spot => some (.ok value, spot)
  | _, .stop why, spot => some (.error why, spot)
  | _, .peek, spot => do
      let token ← tokens[spot.index]?
      return (.ok token, spot)
  | _, .second, spot => some (.ok (tokens[spot.index + 1]?.bind Token.symbol?), spot)
  | _, .previous, spot => do
      let token ← tokens[spot.index - 1]?
      return (.ok token, spot)
  | _, .atEnd, spot => do
      let token ← tokens[spot.index]?
      return (.ok (token.kind = .endOfFile), spot)
  | _, .advance, spot => do
      let next ← spot.advance? tokens
      let token ← tokens[next.index - 1]?
      return (.ok token, next)
  | _, .freshId, spot => some (.ok spot.nextId, { spot with nextId := spot.nextId + 1 })
  | _, .report diagnostic, spot => some (.ok (), spot.report diagnostic)
  | _, .recover mode decl, spot =>
      match decl.walk tokens spot with
      | some (.error (.fault error), next) =>
          let reported := next.report (.errorAt error.token error.message)
          match mode with
          | .strict => some (.error (.fault error), reported)
          | .synchronize => do
              let resumed ← reported.synchronize? tokens
              return (.ok [], resumed)
      | outcome => outcome
  | _, .bind first next, spot =>
      match first.walk tokens spot with
      | some (.ok value, spot') => (next value).walk tokens spot'
      | some (.error why, spot') => some (.error why, spot')
      | none => none

end Script

/-! ## Cursors and their indices -/

/-- A cursor over the tokens stands at a spot: in front of it is what the index leaves, and right
behind it the token one index less, or the first one. -/
structure Cursor.StandsAt (tokens : List Token) (last : Token) (c : Cursor) (spot : Spot) :
    Prop where
  index_le : spot.index ≤ tokens.length
  ahead : c.ahead = tokens.drop spot.index
  previous : (tokens ++ [last])[spot.index - 1]? = some c.previous
  last : c.last = last
  nextId : c.nextId = spot.nextId
  diagnostics : c.diagnostics = spot.diagnostics

namespace Cursor.StandsAt

variable {tokens : List Token} {last : Token} {c : Cursor} {spot : Spot}

theorem start (tokens : List Token) (last : Token) (firstId : NodeId) :
    (Cursor.start tokens last firstId).StandsAt tokens last (.start firstId) where
  index_le := Nat.zero_le _
  ahead := rfl
  previous := by cases tokens <;> rfl
  last := rfl
  nextId := rfl
  diagnostics := rfl

theorem peek (h : c.StandsAt tokens last spot) :
    (tokens ++ [last])[spot.index]? = some c.peek := by
  unfold Cursor.peek
  rw [h.ahead, h.last]
  rcases Nat.lt_or_eq_of_le h.index_le with hless | hend
  · rw [List.getElem?_append_left hless, List.drop_eq_getElem_cons hless,
      List.getElem?_eq_getElem hless]
    rfl
  · rw [hend, List.drop_length, List.getElem?_append_right (Nat.le_refl _), Nat.sub_self]
    rfl

theorem report (h : c.StandsAt tokens last spot) (diagnostic : Diagnostic) :
    (c.report diagnostic).StandsAt tokens last (spot.report diagnostic) :=
  { h with diagnostics := congrArg (· ++ [diagnostic]) h.diagnostics }

/-- The symbol behind the token in front is that of the next index: the end of the text is no
symbol. -/
theorem second (h : c.StandsAt tokens last spot) (hlast : last.kind = .endOfFile) :
    (tokens ++ [last])[spot.index + 1]?.bind Token.symbol? =
      c.ahead.tail.head?.bind Token.symbol? := by
  rw [h.ahead, List.tail_drop, List.head?_drop]
  rcases Nat.lt_or_ge (spot.index + 1) tokens.length with hless | hge
  · rw [List.getElem?_append_left hless]
  · rw [List.getElem?_append_right hge, List.getElem?_eq_none hge]
    cases hindex : spot.index + 1 - tokens.length with
    | zero => simp [Token.symbol?, hlast]
    | succ n => rfl

variable (hlast : last.kind = .endOfFile) (hothers : ∀ token ∈ tokens, token.kind ≠ .endOfFile)

include hlast in
theorem advance_nil (h : c.StandsAt tokens last spot) (hahead : c.ahead = []) :
    spot.advance? (tokens ++ [last]) = some spot := by
  have hpeek : c.peek.kind = .endOfFile := by
    rw [Cursor.peek, hahead, List.headD_nil, h.last, hlast]
  simp [Spot.advance?, h.peek, hpeek]

include hothers in
theorem advance_cons (h : c.StandsAt tokens last spot) {token : Token} {rest : List Token}
    (hahead : c.ahead = token :: rest) :
    spot.advance? (tokens ++ [last]) = some { spot with index := spot.index + 1 } ∧
      ({ c with previous := token, ahead := rest } : Cursor).StandsAt tokens last
        { spot with index := spot.index + 1 } := by
  have hdrop : tokens.drop spot.index = token :: rest := h.ahead ▸ hahead
  have hless : spot.index < tokens.length := by
    have hlength := congrArg List.length hdrop
    rw [List.length_drop, List.length_cons] at hlength
    omega
  have hpeek : c.peek = token := peek_of_ahead hahead
  have hkind : token.kind ≠ .endOfFile :=
    hothers token (List.mem_of_mem_drop (hdrop ▸ List.mem_cons_self))
  constructor
  · simp [Spot.advance?, h.peek, hpeek, hkind, hless]
  · refine ⟨hless, ?_, ?_, h.last, h.nextId, h.diagnostics⟩
    · show rest = _
      rw [← List.tail_drop, hdrop, List.tail_cons]
    · show (tokens ++ [last])[spot.index + 1 - 1]? = some token
      rw [Nat.add_sub_cancel, h.peek, hpeek]

include hlast hothers in
theorem advance (h : c.StandsAt tokens last spot) :
    ∃ next, spot.advance? (tokens ++ [last]) = some next ∧
      c.advance.StandsAt tokens last next := by
  unfold Cursor.advance
  cases hahead : c.ahead with
  | nil => exact ⟨spot, h.advance_nil hlast hahead, h⟩
  | cons token rest => exact ⟨_, h.advance_cons hothers hahead⟩

include hlast hothers in
/-- Skipping ends after as many tokens as are in front, at the latest. -/
theorem skip (h : c.StandsAt tokens last spot) {limit : Nat} (hlimit : c.ahead.length < limit) :
    ∃ next, spot.skip? (tokens ++ [last]) limit = some next ∧
      ({ c with previous := (skipToBoundary c.previous c.ahead).1
                ahead := (skipToBoundary c.previous c.ahead).2 } : Cursor).StandsAt
        tokens last next := by
  induction limit generalizing c spot with
  | zero => exact absurd hlimit (Nat.not_lt_zero _)
  | succ limit ih =>
      cases hahead : c.ahead with
      | nil =>
          have hpeek : c.peek.kind = .endOfFile := by
            rw [Cursor.peek, hahead, List.headD_nil, h.last, hlast]
          refine ⟨spot, ?_, ?_⟩
          · simp [Spot.skip?, h.peek, hpeek]
          · simpa [skipToBoundary, ← hahead] using h
      | cons token rest =>
          have hpeek : c.peek = token := peek_of_ahead hahead
          have hkind : token.kind ≠ .endOfFile :=
            hothers token (List.mem_of_mem_drop (h.ahead ▸ hahead ▸ List.mem_cons_self))
          rcases h.advance_cons hothers hahead with ⟨hadvance, hnext⟩
          rw [hahead, List.length_cons] at hlimit
          unfold skipToBoundary
          by_cases hboundary : c.previous.symbol? = some .semicolon ∨ startsStatement token = true
          · rw [if_pos (by simpa using hboundary)]
            refine ⟨spot, ?_, ?_⟩
            · simp [Spot.skip?, h.peek, hpeek, hkind, h.previous, hboundary]
            · simpa [← hahead] using h
          · rw [if_neg (by simpa using hboundary)]
            rcases ih hnext (Nat.lt_of_succ_lt_succ hlimit) with ⟨next, hskip, hstands⟩
            refine ⟨next, ?_, hstands⟩
            simp [Spot.skip?, h.peek, hpeek, hkind, h.previous, hboundary, hadvance, hskip]

include hlast hothers in
theorem synchronize (h : c.StandsAt tokens last spot) :
    ∃ next, spot.synchronize? (tokens ++ [last]) = some next ∧
      c.synchronize.StandsAt tokens last next := by
  rcases h.advance hlast hothers with ⟨next, hadvance, hnext⟩
  have hlimit : c.advance.ahead.length < (tokens ++ [last]).length := by
    rw [hnext.ahead, List.length_drop, List.length_append, List.length_singleton]
    omega
  rcases hnext.skip hlast hothers hlimit with ⟨resumed, hskip, hresumed⟩
  refine ⟨resumed, ?_, hresumed⟩
  rw [Spot.synchronize?, hadvance]
  exact hskip

end Cursor.StandsAt

/-! ## Both runs of a script -/

namespace Script

/-- What a script comes to over a sequence of tokens is what its parser comes to. -/
def Walks (tokens : List Token) (last : Token) (script : Script α) (c : Cursor) (spot : Spot) :
    Prop :=
  match script.parser c with
  | .ok value d => ∃ next, script.walk (tokens ++ [last]) spot = some (.ok value, next) ∧
      d.StandsAt tokens last next
  | .error why d => ∃ next, script.walk (tokens ++ [last]) spot = some (.error why, next) ∧
      d.StandsAt tokens last next

variable {tokens : List Token} {last : Token}

/-- No token is looked for outside of the sequence, and no step leads off it. -/
theorem walks (hlast : last.kind = .endOfFile)
    (hothers : ∀ token ∈ tokens, token.kind ≠ .endOfFile) (script : Script α) :
    ∀ {c : Cursor} {spot : Spot}, c.StandsAt tokens last spot →
      script.Walks tokens last c spot := by
  induction script with
  | done value => exact fun h => ⟨_, rfl, h⟩
  | stop why => exact fun h => ⟨_, rfl, h⟩
  | peek =>
      intro c spot h
      exact ⟨spot, by simp [walk, h.peek], h⟩
  | second =>
      intro c spot h
      exact ⟨spot, by rw [walk, h.second hlast], h⟩
  | previous =>
      intro c spot h
      exact ⟨spot, by simp [walk, h.previous], h⟩
  | atEnd =>
      intro c spot h
      refine ⟨spot, ?_, h⟩
      cases hahead : c.ahead with
      | nil =>
          have hpeek : c.peek.kind = .endOfFile := by
            rw [Cursor.peek, hahead, List.headD_nil, h.last, hlast]
          simp [walk, h.peek, hpeek, Cursor.atEnd, hahead]
      | cons token rest =>
          have hpeek : c.peek = token := Cursor.peek_of_ahead hahead
          have hkind : token.kind ≠ .endOfFile :=
            hothers token (List.mem_of_mem_drop (h.ahead ▸ hahead ▸ List.mem_cons_self))
          simp [walk, h.peek, hpeek, hkind, Cursor.atEnd, hahead]
  | advance =>
      intro c spot h
      rcases h.advance hlast hothers with ⟨next, hadvance, hnext⟩
      refine ⟨next, ?_, hnext⟩
      simp [walk, hadvance, hnext.previous]
  | freshId =>
      intro c spot h
      refine ⟨{ spot with nextId := spot.nextId + 1 }, ?_, ?_⟩
      · rw [walk, h.nextId]
      · exact { h with nextId := congrArg (· + 1) h.nextId }
  | report diagnostic => exact fun h => ⟨_, rfl, h.report diagnostic⟩
  | recover mode decl ih =>
      intro c spot h
      have hdecl := ih h
      unfold Walks at hdecl ⊢
      unfold parser Parse.recover walk
      cases hrun : decl.parser c with
      | ok statements d =>
          rw [hrun] at hdecl
          rcases hdecl with ⟨next, hwalk, hnext⟩
          exact ⟨next, by rw [hwalk], hnext⟩
      | error why d =>
          rw [hrun] at hdecl
          rcases hdecl with ⟨next, hwalk, hnext⟩
          rw [hwalk]
          cases why with
          | starved => exact ⟨next, rfl, hnext⟩
          | fault error =>
              have hreported := hnext.report (.errorAt error.token error.message)
              cases mode with
              | strict => exact ⟨_, rfl, hreported⟩
              | synchronize =>
                  rcases hreported.synchronize hlast hothers with ⟨resumed, hskip, hresumed⟩
                  exact ⟨resumed, by simp [hskip], hresumed⟩
  | bind first next ihfirst ihnext =>
      intro c spot h
      have hfirst := ihfirst h
      unfold Walks at hfirst ⊢
      unfold parser walk
      cases hrun : first.parser c with
      | ok value d =>
          rw [hrun] at hfirst
          rcases hfirst with ⟨spot', hwalk, hspot'⟩
          rw [bind_of_ok hrun, hwalk]
          exact ihnext value hspot'
      | error why d =>
          rw [hrun] at hfirst
          rcases hfirst with ⟨spot', hwalk, hspot'⟩
          rw [bind_of_error hrun, hwalk]
          exact ⟨spot', rfl, hspot'⟩

end Script

end MiniPascal
