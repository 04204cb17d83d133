import MiniPascal.Proofs.Parser.Recovery
import MiniPascal.Proofs.Syntax.CaseFolding

/-!
# Parsing folded tokens

No parser looks at how a reserved word is spelled.  Run from a cursor whose tokens are folded, with
any reports in front of the others, it gets as far as before, with a folded result and the same
reports behind those in front.
-/

namespace MiniPascal

/-- A cursor with its tokens folded, and with reports in front of its own. -/
def Cursor.fold (words : Keyword → Bool) (before : List Diagnostic) (c : Cursor) : Cursor where
  previous := c.previous.fold words
  ahead := c.ahead.map (Token.fold words)
  last := c.last.fold words
  nextId := c.nextId
  diagnostics := before ++ c.diagnostics

def Stop.fold (words : Keyword → Bool) : Stop → Stop
  | .fault error => .fault { error with token := error.token.fold words }
  | .starved => .starved

namespace Cursor

variable (words : Keyword → Bool) (before : List Diagnostic) (c : Cursor)

@[simp] theorem peek_fold : (c.fold words before).peek = c.peek.fold words := by
  cases h : c.ahead <;> simp [peek, fold, h]

@[simp] theorem atEnd_fold : (c.fold words before).atEnd = c.atEnd := by
  simp [atEnd, fold]

@[simp] theorem advance_fold : (c.fold words before).advance = c.advance.fold words before := by
  cases h : c.ahead <;> simp [advance, fold, h]

@[simp] theorem report_fold (diagnostic : Diagnostic) :
    (c.fold words before).report diagnostic = (c.report diagnostic).fold words before := by
  simp [report, fold]

@[simp] theorem startsStatement_fold (token : Token) :
    startsStatement (token.fold words) = startsStatement token := by
  simp [startsStatement]

theorem skipToBoundary_fold (previous : Token) (ahead : List Token) :
    skipToBoundary (previous.fold words) (ahead.map (Token.fold words)) =
      ((skipToBoundary previous ahead).1.fold words,
        (skipToBoundary previous ahead).2.map (Token.fold words)) := by
  induction ahead generalizing previous with
  | nil => rfl
  | cons token rest ih =>
      simp only [List.map_cons, skipToBoundary, Token.symbol?_fold, startsStatement_fold]
      split
      · rfl
      · exact ih token

@[simp] theorem synchronize_fold :
    (c.fold words before).synchronize = c.synchronize.fold words before := by
  have hskip := skipToBoundary_fold words c.advance.previous c.advance.ahead
  simp only [synchronize, advance_fold]
  simp only [fold] at hskip ⊢
  rw [hskip]

end Cursor

namespace Parse

def foldResult (words : Keyword → Bool) (before : List Diagnostic) (f : α → β) :
    EStateM.Result Stop Cursor α → EStateM.Result Stop Cursor β
  | .ok value c => .ok (f value) (c.fold words before)
  | .error stop c => .error (stop.fold words) (c.fold words before)

/-- From a folded cursor, `q` does what `p` does from the cursor itself, with `f` of its results.
The text ends as it did, and not in a name. -/
def Mirrors (words : Keyword → Bool) (f : α → β) (p : Parse α) (q : Parse β) : Prop :=
  ∀ before c, c.last.isIdentifier = false →
    (left p c).last = c.last ∧ q (c.fold words before) = foldResult words before f (p c)

variable {words : Keyword → Bool}

/-! ## Composition -/

namespace Mirrors

theorem pure {f : α → β} {value : α} {value' : β} (h : value' = f value) :
    Mirrors words f (pure value) (pure value') := by
  intro before c _
  rw [h]
  exact ⟨rfl, rfl⟩

theorem bind {f : α → β} {g : γ → δ} {p : Parse α} {q : Parse β} {k : α → Parse γ}
    {l : β → Parse δ} (hpq : Mirrors words f p q)
    (hkl : ∀ value, Mirrors words g (k value) (l (f value))) :
    Mirrors words g (p >>= k) (q >>= l) := by
  intro before c hlast
  rcases hpq before c hlast with ⟨hsame, hrun⟩
  cases hp : p c with
  | error stop d =>
      rw [hp] at hrun
      rw [left_of_error hp] at hsame
      rw [left_of_error (bind_of_error hp), bind_of_error hp, bind_of_error hrun]
      exact ⟨hsame, rfl⟩
  | ok value d =>
      rw [hp] at hrun
      rw [left_of_ok hp] at hsame
      rcases hkl value before d (hsame ▸ hlast) with ⟨hsame', hrun'⟩
      rw [bind_of_ok hp, bind_of_ok hrun]
      refine ⟨?_, hrun'⟩
      unfold left at hsame' ⊢
      rw [bind_of_ok hp, hsame', hsame]

theorem congr {f g : α → β} {p : Parse α} {q : Parse β} (h : Mirrors words f p q)
    (hfg : ∀ value, f value = g value) : Mirrors words g p q := by
  rw [← funext hfg]
  exact h

theorem discard {f : α → β} {p : Parse α} {q : Parse β} (h : Mirrors words f p q) :
    Mirrors words id (discard p) (discard q) := by
  show Mirrors words id (p >>= fun _ => Pure.pure ()) (q >>= fun _ => Pure.pure ())
  exact h.bind fun _ => pure rfl

theorem after {f : α → β} {g : γ → δ} {p : Parse α} {q : Parse β} {k : Parse γ} {l : Parse δ}
    (hpq : Mirrors words f p q) (hkl : Mirrors words g k l) :
    Mirrors words g (Functor.discard p >>= fun _ => k) (Functor.discard q >>= fun _ => l) :=
  hpq.discard.bind fun _ => hkl

theorem branch {f : α → β} {test test' : Parse Bool} {p p' : Parse α} {q q' : Parse β}
    (htest : Mirrors words id test test') (hthen : Mirrors words f p q)
    (helse : Mirrors words f p' q') :
    Mirrors words f (test >>= fun holds => if holds = true then p else p')
      (test' >>= fun holds => if holds = true then q else q') := by
  refine htest.bind fun holds => ?_
  cases holds with
  | true => exact hthen
  | false => exact helse

end Mirrors

/-! ## Single steps -/

theorem starve_mirrors {f : α → β} : Mirrors words f starve starve :=
  fun _ _ _ => ⟨rfl, rfl⟩

theorem peek_mirrors : Mirrors words (Token.fold words) peek peek := by
  intro before c _
  refine ⟨rfl, ?_⟩
  show EStateM.Result.ok (c.fold words before).peek (c.fold words before) = _
  rw [Cursor.peek_fold]
  rfl

theorem previous_mirrors : Mirrors words (Token.fold words) previous previous :=
  fun _ _ _ => ⟨rfl, rfl⟩

theorem atEnd_mirrors : Mirrors words id atEnd atEnd := by
  intro before c _
  refine ⟨rfl, ?_⟩
  show EStateM.Result.ok (c.fold words before).atEnd (c.fold words before) = _
  rw [Cursor.atEnd_fold]
  rfl

theorem advance_mirrors : Mirrors words (Token.fold words) advance advance := by
  intro before c _
  refine ⟨c.advance_keeps.1, ?_⟩
  show EStateM.Result.ok (c.fold words before).advance.previous (c.fold words before).advance = _
  rw [Cursor.advance_fold]
  rfl

theorem freshId_mirrors : Mirrors words id freshId freshId :=
  fun _ _ _ => ⟨rfl, rfl⟩

theorem failAt_mirrors {f : α → β} (token : Token) (fault : SyntaxFault) :
    Mirrors words f (failAt token fault) (failAt (token.fold words) fault) :=
  fun _ _ _ => ⟨rfl, rfl⟩

theorem fail_mirrors {f : α → β} (fault : SyntaxFault) :
    Mirrors words f (fail fault) (fail fault) :=
  peek_mirrors.bind fun token => failAt_mirrors token fault

theorem report_mirrors (diagnostic : Diagnostic) :
    Mirrors words id (report diagnostic) (report diagnostic) := by
  intro before c _
  refine ⟨rfl, ?_⟩
  show EStateM.Result.ok () ((c.fold words before).report diagnostic) = _
  rw [Cursor.report_fold]
  rfl

theorem atSymbol_mirrors (mark : Symbol) : Mirrors words id (atSymbol mark) (atSymbol mark) :=
  peek_mirrors.bind fun token => .pure (by simp)

theorem atKeyword_mirrors (word : Keyword) : Mirrors words id (atKeyword word) (atKeyword word) :=
  peek_mirrors.bind fun token => .pure (by simp)

theorem atName_mirrors : Mirrors words id atName atName :=
  peek_mirrors.bind fun token => .pure (by simp)

theorem acceptSymbol_mirrors (mark : Symbol) :
    Mirrors words id (acceptSymbol mark) (acceptSymbol mark) :=
  (atSymbol_mirrors mark).branch (advance_mirrors.after (.pure rfl)) (.pure rfl)

theorem acceptKeyword_mirrors (word : Keyword) :
    Mirrors words id (acceptKeyword word) (acceptKeyword word) :=
  (atKeyword_mirrors word).branch (advance_mirrors.after (.pure rfl)) (.pure rfl)

theorem expectSymbol_mirrors (mark : Symbol) (fault : SyntaxFault) :
    Mirrors words (Token.fold words) (expectSymbol mark fault) (expectSymbol mark fault) :=
  (atSymbol_mirrors mark).branch advance_mirrors (fail_mirrors fault)

theorem expectKeyword_mirrors (word : Keyword) (fault : SyntaxFault) :
    Mirrors words (Token.fold words) (expectKeyword word fault) (expectKeyword word fault) :=
  (atKeyword_mirrors word).branch advance_mirrors (fail_mirrors fault)

theorem expectName_mirrors (fault : SyntaxFault) :
    Mirrors words id (expectName fault) (expectName fault) := by
  intro before c hlast
  by_cases h : c.peek.isIdentifier = true
  · have hrun (d : Cursor) (hd : d.peek.isIdentifier = true) :
        expectName fault d = advance d := by
      show (if d.peek.isIdentifier = true then advance else fail fault) d = _
      rw [if_pos hd]
    have hname : c.advance.previous.fold words = c.advance.previous := by
      refine Token.fold_of_isIdentifier words ?_
      cases hahead : c.ahead with
      | nil => simp [Cursor.peek, hahead, hlast] at h
      | cons token rest => simpa [Cursor.peek, Cursor.advance, hahead] using h
    have hmirrors : Mirrors words (Token.fold words) advance advance := advance_mirrors
    rcases hmirrors before c hlast with ⟨hsame, hadvance⟩
    unfold left at hsame ⊢
    rw [hrun c h, hrun (c.fold words before) (by simpa using h), hadvance]
    refine ⟨hsame, ?_⟩
    show EStateM.Result.ok (c.advance.previous.fold words) _ = .ok c.advance.previous _
    rw [hname]
  · have hrun (d : Cursor) (hd : ¬d.peek.isIdentifier = true) :
        expectName fault d = fail fault d := by
      show (if d.peek.isIdentifier = true then advance else fail fault) d = _
      rw [if_neg hd]
    have hmirrors : Mirrors words id (fail fault : Parse Token) (fail fault) :=
      fail_mirrors fault
    have hfail := hmirrors before c hlast
    unfold left at hfail ⊢
    rw [hrun c h, hrun (c.fold words before) (by simpa using h)]
    exact hfail

/-! ## Loops -/

theorem separated_mirrors {f : α → β} {item : Parse α} {item' : Parse β} {more more' : Parse Bool}
    (hitem : Mirrors words f item item') (hmore : Mirrors words id more more') (fuel : Nat) :
    Mirrors words (List.map f) (separated item more fuel) (separated item' more' fuel) := by
  induction fuel with
  | zero => exact starve_mirrors
  | succ fuel ih =>
      refine hitem.bind fun head => hmore.branch ?_ (.pure rfl)
      exact ih.bind fun tail => .pure rfl

theorem collect_mirrors {f : α → β} {item : Parse α} {item' : Parse β} {more more' : Parse Bool}
    (hmore : Mirrors words id more more') (hitem : Mirrors words f item item') (fuel : Nat) :
    Mirrors words (List.map f) (collect more item fuel) (collect more' item' fuel) := by
  induction fuel with
  | zero => exact starve_mirrors
  | succ fuel ih =>
      refine hmore.branch ?_ (.pure rfl)
      exact hitem.bind fun head => ih.bind fun tail => .pure rfl

/-! ## Expressions -/

section Operators

variable (token : Token)

@[simp] theorem equalityOp?_fold : equalityOp? (token.fold words) = equalityOp? token := by
  simp [equalityOp?]

@[simp] theorem comparisonOp?_fold : comparisonOp? (token.fold words) = comparisonOp? token := by
  simp [comparisonOp?]

@[simp] theorem additiveOp?_fold : additiveOp? (token.fold words) = additiveOp? token := by
  simp [additiveOp?]

@[simp] theorem multiplicativeOp?_fold :
    multiplicativeOp? (token.fold words) = multiplicativeOp? token := by
  simp [multiplicativeOp?]

@[simp] theorem conjunctionOp?_fold : conjunctionOp? (token.fold words) = conjunctionOp? token := by
  simp [conjunctionOp?]

@[simp] theorem disjunctionOp?_fold : disjunctionOp? (token.fold words) = disjunctionOp? token := by
  simp [disjunctionOp?]

@[simp] theorem unaryOp?_fold : unaryOp? (token.fold words) = unaryOp? token := by
  simp [unaryOp?]

@[simp] theorem literal?_fold : literal? (token.fold words) = literal? token := by
  simp [literal?]

end Operators

section Expressions

variable {inner : Parse Expr}

theorem chain_mirrors {operator? : Token → Option γ} {build : Expr → γ → Token → Expr → Expr}
    {operand : Parse Expr} (hoperator : ∀ token, operator? (token.fold words) = operator? token)
    (hbuild : ∀ left op token right, (build left op token right).fold words =
      build (left.fold words) op (token.fold words) (right.fold words))
    (hoperand : Mirrors words (Expr.fold words) operand operand) :
    ∀ (fuel : Nat) (left : Expr), Mirrors words (Expr.fold words)
      (chain operator? build operand fuel left)
      (chain operator? build operand fuel (left.fold words)) := by
  intro fuel
  induction fuel with
  | zero =>
      intro left
      exact starve_mirrors
  | succ fuel ih =>
      intro left
      refine peek_mirrors.bind fun token => ?_
      rw [hoperator]
      cases operator? token with
      | none => exact .pure rfl
      | some op =>
          refine advance_mirrors.bind fun token => hoperand.bind fun right => ?_
          rw [← hbuild]
          exact ih (build left op token right)

theorem level_mirrors {operator? : Token → Option γ} {build : Expr → γ → Token → Expr → Expr}
    {operand : Parse Expr} (hoperator : ∀ token, operator? (token.fold words) = operator? token)
    (hbuild : ∀ left op token right, (build left op token right).fold words =
      build (left.fold words) op (token.fold words) (right.fold words))
    (hoperand : Mirrors words (Expr.fold words) operand operand) (fuel : Nat) :
    Mirrors words (Expr.fold words) (level operator? build operand fuel)
      (level operator? build operand fuel) :=
  hoperand.bind fun left => chain_mirrors hoperator hbuild hoperand fuel left

variable (hinner : Mirrors words (Expr.fold words) inner inner)
include hinner

theorem mapEntry_mirrors : Mirrors words (Expr.foldEntry words) (mapEntry inner) (mapEntry inner) :=
  hinner.bind fun _ => (expectSymbol_mirrors _ _).after (hinner.bind fun _ => .pure rfl)

theorem argumentsFrom_mirrors : ∀ fuel count, Mirrors words (List.map (Expr.fold words))
    (argumentsFrom inner fuel count) (argumentsFrom inner fuel count) := by
  intro fuel
  induction fuel with
  | zero =>
      intro count
      exact starve_mirrors
  | succ fuel ih =>
      intro count
      unfold argumentsFrom
      split
      · exact fail_mirrors _
      · refine hinner.bind fun head => (acceptSymbol_mirrors _).branch ?_ (.pure rfl)
        exact (ih (count + 1)).bind fun tail => .pure rfl

theorem arguments_mirrors (fuel : Nat) : Mirrors words (List.map (Expr.fold words))
    (arguments inner fuel) (arguments inner fuel) :=
  (atSymbol_mirrors _).branch (.pure rfl) (argumentsFrom_mirrors hinner fuel 0)

theorem primary_mirrors (fuel : Nat) :
    Mirrors words (Expr.fold words) (primary inner fuel) (primary inner fuel) := by
  refine peek_mirrors.bind fun token => ?_
  rw [literal?_fold]
  cases literal? token with
  | some value => exact advance_mirrors.after (.pure (by rw [Expr.fold]))
  | none =>
      dsimp only
      rw [Token.kind_fold]
      split
      · refine advance_mirrors.after ((expectSymbol_mirrors _ _).after ?_)
        refine (expectName_mirrors _).bind fun method => freshId_mirrors.bind fun id => ?_
        exact .pure (by rw [Expr.fold]; rfl)
      · next hkind =>
          have hword : (if words .this then token.fold words else token) = token.fold words := by
            rw [Token.fold_of_keyword words hkind]
            split <;> rfl
          refine advance_mirrors.after (freshId_mirrors.bind fun id => ?_)
          exact .pure (by rw [Expr.fold, hword]; rfl)
      · next hkind =>
          have hname : token.fold words = token :=
            Token.fold_of_isIdentifier words (by simp [Token.isIdentifier, hkind])
          refine advance_mirrors.after (freshId_mirrors.bind fun id => ?_)
          exact .pure (by rw [Expr.fold, hname]; rfl)
      · refine advance_mirrors.after ?_
        refine (separated_mirrors (mapEntry_mirrors hinner) (acceptSymbol_mirrors _) fuel).bind
          fun entries => (expectSymbol_mirrors _ _).after ?_
        exact .pure (by rw [Expr.fold, Expr.foldEntries_eq_map])
      · refine advance_mirrors.after (hinner.bind fun value => ?_)
        exact (expectSymbol_mirrors _ _).after (.pure (by rw [Expr.fold]))
      · exact failAt_mirrors token _

theorem trailers_mirrors : ∀ fuel target, Mirrors words (Expr.fold words)
    (trailers inner fuel target) (trailers inner fuel (target.fold words)) := by
  intro fuel
  induction fuel with
  | zero =>
      intro target
      exact starve_mirrors
  | succ fuel ih =>
      intro target
      refine peek_mirrors.bind fun token => ?_
      rw [Token.symbol?_fold]
      split
      · refine advance_mirrors.after ((arguments_mirrors hinner fuel).bind fun values => ?_)
        refine (expectSymbol_mirrors _ _).bind fun paren => ?_
        have hcall := ih (.call target paren values)
        rw [Expr.fold, Expr.foldList_eq_map] at hcall
        exact hcall
      · refine advance_mirrors.after (hinner.bind fun index => ?_)
        refine (expectSymbol_mirrors _ _).bind fun bracket => ?_
        have hsubscript := ih (.subscript bracket target index)
        rw [Expr.fold] at hsubscript
        exact hsubscript
      · refine advance_mirrors.after ((expectName_mirrors _).bind fun name => ?_)
        have hget := ih (.get target name)
        rw [Expr.fold] at hget
        exact hget
      · exact .pure rfl

theorem call_mirrors (fuel : Nat) :
    Mirrors words (Expr.fold words) (call inner fuel) (call inner fuel) :=
  (primary_mirrors hinner fuel).bind fun target => trailers_mirrors hinner fuel target

theorem unary_mirrors : ∀ fuel,
    Mirrors words (Expr.fold words) (unary inner fuel) (unary inner fuel) := by
  intro fuel
  induction fuel with
  | zero => exact starve_mirrors
  | succ fuel ih =>
      refine peek_mirrors.bind fun token => ?_
      rw [unaryOp?_fold]
      cases unaryOp? token with
      | none => exact call_mirrors hinner (fuel + 1)
      | some op =>
          refine advance_mirrors.bind fun token => ih.bind fun operand => ?_
          exact .pure (by rw [Expr.fold])

theorem disjunction_mirrors (fuel : Nat) :
    Mirrors words (Expr.fold words) (disjunction inner fuel) (disjunction inner fuel) := by
  have hbinary (left : Expr) (op : BinaryOp) (token : Token) (right : Expr) :
      (buildBinary left op token right).fold words =
        buildBinary (left.fold words) op (token.fold words) (right.fold words) := by
    rw [buildBinary, buildBinary, Expr.fold]
  have hlogical (left : Expr) (op : LogicalOp) (token : Token) (right : Expr) :
      (buildLogical left op token right).fold words =
        buildLogical (left.fold words) op (token.fold words) (right.fold words) := by
    rw [buildLogical, buildLogical, Expr.fold]
  have hproduct := level_mirrors multiplicativeOp?_fold hbinary (unary_mirrors hinner fuel) fuel
  have hsum := level_mirrors additiveOp?_fold hbinary hproduct fuel
  have hcomparison := level_mirrors comparisonOp?_fold hbinary hsum fuel
  have hequality := level_mirrors equalityOp?_fold hbinary hcomparison fuel
  have hconjunction := level_mirrors conjunctionOp?_fold hlogical hequality fuel
  exact level_mirrors disjunctionOp?_fold hlogical hconjunction fuel

omit hinner in
theorem assignTo_mirrors (target : Expr) (mark : Token) (value : Expr) :
    Mirrors words (Expr.fold words) (assignTo target mark value)
      (assignTo (target.fold words) (mark.fold words) (value.fold words)) := by
  cases target with
  | «variable» id name =>
      rw [Expr.fold]
      exact freshId_mirrors.bind fun id => .pure (by rw [Expr.fold]; rfl)
  | get object name =>
      rw [Expr.fold]
      exact .pure (by rw [Expr.fold])
  | _ =>
      rw [Expr.fold]
      exact failAt_mirrors mark _

theorem assignment_mirrors : ∀ fuel,
    Mirrors words (Expr.fold words) (assignment inner fuel) (assignment inner fuel) := by
  intro fuel
  induction fuel with
  | zero => exact starve_mirrors
  | succ fuel ih =>
      refine (disjunction_mirrors hinner (fuel + 1)).bind fun target => ?_
      refine (acceptSymbol_mirrors _).branch ?_ (.pure rfl)
      refine previous_mirrors.bind fun mark => ih.bind fun value => ?_
      exact assignTo_mirrors target mark value

end Expressions

theorem withCast_mirrors (value : Expr) :
    Mirrors words (Expr.fold words) (withCast value) (withCast (value.fold words)) := by
  refine (acceptKeyword_mirrors _).branch ?_ (.pure rfl)
  exact (expectName_mirrors _).bind fun name => .pure (by rw [Expr.fold]; rfl)

theorem expression_mirrors : ∀ fuel,
    Mirrors words (Expr.fold words) (expression fuel) (expression fuel) := by
  intro fuel
  induction fuel with
  | zero => exact starve_mirrors
  | succ fuel ih =>
      exact (assignment_mirrors ih (fuel + 1)).bind fun value => withCast_mirrors value

end Parse
end MiniPascal
