import MiniPascal.Proofs.Parser.Bounds
import MiniPascal.Proofs.Syntax.Subterms

/-!
# What is read as an expression

A parser that announces readings reports each expression that `expression` has come to, nested ones
too, as soon as it has.  Apart from these reports it does what the parser of the grammar does.  What
an expression is built from is not lost on the way: every reading is a part of the result.
-/

namespace MiniPascal

/-- An expression that has been read. -/
structure Reading where
  /-- Whether it has been read for the first value of a field. -/
  forField : Bool
  value : Expr

namespace Parse

def announcing (forField : Bool) (note : Reading → Diagnostic) (parser : Parse Expr) :
    Parse Expr := do
  let value ← parser
  report (note { forField, value })
  return value

/-- Expressions, announced with all expressions that are read inside of them. -/
def announcedExpression (forField : Bool) (note : Reading → Diagnostic) : Nat → Parse Expr
  | 0 => starve
  | fuel + 1 => announcing forField note do
      let value ← assignment (announcedExpression forField note fuel) (fuel + 1)
      withCast value

end Parse

/-! ## Logs -/

def Cursor.withReports (c : Cursor) (reports : List Diagnostic) : Cursor :=
  { c with diagnostics := reports }

/-- What is reported and read, in order. -/
abbrev ParserLog := List (Diagnostic ⊕ Reading)

namespace ParserLog

def reports (log : ParserLog) : List Diagnostic :=
  log.filterMap Sum.getLeft?

def readings (log : ParserLog) : List Reading :=
  log.filterMap Sum.getRight?

/-- The reports, and among them those that announce readings. -/
def written (note : Reading → Diagnostic) (log : ParserLog) : List Diagnostic :=
  log.map (Sum.elim id note)

variable (log more : ParserLog)

theorem reports_append : reports (log ++ more) = reports log ++ reports more :=
  List.filterMap_append

theorem readings_append : readings (log ++ more) = readings log ++ readings more :=
  List.filterMap_append

theorem written_append (note : Reading → Diagnostic) :
    written note (log ++ more) = written note log ++ written note more :=
  List.map_append

/-- Where nothing else is reported, there are the announcements only. -/
theorem written_of_reports_nil {log : ParserLog} (h : reports log = [])
    (note : Reading → Diagnostic) : written note log = (readings log).map note := by
  induction log with
  | nil => rfl
  | cons entry rest ih =>
      cases entry with
      | inl report => cases h
      | inr reading => exact congrArg (note reading :: ·) (ih h)

end ParserLog

/-! ## Parsers that announce -/

/-- What a run of an announcing parser has come to: what it announces is read in the given places,
and unless it is read for a field, it is held by the result together with what was held before. -/
structure Announced (places : Bool → Prop) (base : List Expr)
    (q : (Reading → Diagnostic) → Parse α) (c : Cursor) (value : α) (held : List Expr) (d : Cursor)
    (log : ParserLog) : Prop where
  reports : d.diagnostics = c.diagnostics ++ log.reports
  run : ∀ note reports, q note (c.withReports reports) =
    .ok value (d.withReports (reports ++ log.written note))
  base : base ⊆ held
  places : ∀ reading ∈ log.readings, places reading.forField
  kept : ∀ reading ∈ log.readings, reading.forField = false → reading.value ∈ held

/-- The parser `q` announces what `p` reads, wherever `p` has a result, and the result holds it. -/
def Announces (places : Bool → Prop) (base : List Expr) (p : Parse α)
    (q : (Reading → Diagnostic) → Parse α) (held : α → List Expr) : Prop :=
  ∀ c value d, p c = .ok value d → ∃ log, Announced places base q c value (held value) d log

namespace Announces

variable {places : Bool → Prop} {base : List Expr}

theorem imp {p : Parse α} {q : (Reading → Diagnostic) → Parse α} {held held' : α → List Expr}
    (h : Announces places base p q held) (hheld : ∀ value, held value ⊆ held' value) :
    Announces places base p q held' := by
  intro c value d hrun
  rcases h c value d hrun with ⟨log, hlog⟩
  exact ⟨log, hlog.reports, hlog.run, List.Subset.trans hlog.base (hheld value), hlog.places,
    fun reading hmem hkept => hheld value (hlog.kept reading hmem hkept)⟩

theorem weaken {base' : List Expr} {p : Parse α} {q : (Reading → Diagnostic) → Parse α}
    {held : α → List Expr} (h : Announces places base p q held) (hbase : base' ⊆ base) :
    Announces places base' p q held := by
  intro c value d hrun
  rcases h c value d hrun with ⟨log, hlog⟩
  exact ⟨log, hlog.reports, hlog.run, List.Subset.trans hbase hlog.base, hlog.places, hlog.kept⟩

/-- Parsers in sequence, the second one for the results that the first one can have. -/
theorem bindOf {p : Parse α} {q : (Reading → Diagnostic) → Parse α} {k : α → Parse β}
    {l : (Reading → Diagnostic) → α → Parse β} {held : α → List Expr} {held' : β → List Expr}
    (hp : Announces places base p q held)
    (hk : ∀ value, (∃ c d, p c = .ok value d) →
      Announces places (held value) (k value) (fun note => l note value) held') :
    Announces places base (p >>= k) (fun note => q note >>= l note) held' := by
  intro c result e hrun
  rcases bind_eq_ok_iff.mp hrun with ⟨value, d, hfirst, hrest⟩
  rcases hp c value d hfirst with ⟨log, hlog⟩
  rcases hk value ⟨c, d, hfirst⟩ d result e hrest with ⟨more, hmore⟩
  refine ⟨log ++ more, ?_, ?_, ?_, ?_, ?_⟩
  · rw [hmore.reports, hlog.reports, ParserLog.reports_append, List.append_assoc]
  · intro note reports
    rw [bind_of_ok (hlog.run note reports), hmore.run, ParserLog.written_append, List.append_assoc]
  · exact List.Subset.trans hlog.base hmore.base
  · rw [ParserLog.readings_append]
    exact List.forall_mem_append.mpr ⟨hlog.places, hmore.places⟩
  · rw [ParserLog.readings_append]
    exact List.forall_mem_append.mpr
      ⟨fun reading hmem hkept => hmore.base (hlog.kept reading hmem hkept), hmore.kept⟩

theorem bind {p : Parse α} {q : (Reading → Diagnostic) → Parse α} {k : α → Parse β}
    {l : (Reading → Diagnostic) → α → Parse β} {held : α → List Expr} {held' : β → List Expr}
    (hp : Announces places base p q held)
    (hk : ∀ value, Announces places (held value) (k value) (fun note => l note value) held') :
    Announces places base (p >>= k) (fun note => q note >>= l note) held' :=
  hp.bindOf fun value _ => hk value

theorem of_silent {p : Parse α} (h : ∀ c value d, p c = .ok value d →
    d.diagnostics = c.diagnostics ∧
      ∀ reports, p (c.withReports reports) = .ok value (d.withReports reports)) :
    Announces places base p (fun _ => p) fun _ => base := by
  intro c value d hrun
  rcases h c value d hrun with ⟨hreports, hsame⟩
  refine ⟨[], ?_, ?_, List.Subset.refl _, List.forall_mem_nil _, List.forall_mem_nil _⟩
  · rw [hreports]
    exact (List.append_nil _).symm
  · intro note reports
    show _ = EStateM.Result.ok value (d.withReports (reports ++ []))
    rw [List.append_nil, hsame reports]

theorem pure {value : α} {held : α → List Expr} (h : base ⊆ held value) :
    Announces places base (Pure.pure value) (fun _ => Pure.pure value) held := by
  intro c value' d hrun
  cases hrun
  refine ⟨[], (List.append_nil _).symm, ?_, h, List.forall_mem_nil _, List.forall_mem_nil _⟩
  intro note reports
  show _ = EStateM.Result.ok value (c.withReports (reports ++ []))
  rw [List.append_nil]
  rfl

theorem done {value : α} {held : α → List Expr} (h : base = held value) :
    Announces places base (Pure.pure value) (fun _ => Pure.pure value) held :=
  .pure (h ▸ List.Subset.refl _)

theorem throw {stop : Stop} {q : (Reading → Diagnostic) → Parse α} {held : α → List Expr} :
    Announces places base (MonadExcept.throw stop) q held := by
  intro c value d hrun
  cases hrun

theorem fail {fault : SyntaxFault} {q : (Reading → Diagnostic) → Parse α}
    {held : α → List Expr} : Announces places base (Parse.fail fault) q held := by
  intro c value d hrun
  cases hrun

theorem report (diagnostic : Diagnostic) :
    Announces places base (Parse.report diagnostic) (fun _ => Parse.report diagnostic)
      fun _ => base := by
  intro c value d hrun
  cases hrun
  exact ⟨[.inl diagnostic], rfl, fun _ _ => rfl, List.Subset.refl _, List.forall_mem_nil _,
    List.forall_mem_nil _⟩

theorem recover {p : Parse (List Stmt)} {q : (Reading → Diagnostic) → Parse (List Stmt)}
    {held : List Stmt → List Expr} (h : Announces places base p q held) :
    Announces places base (Parse.recover .strict p) (fun note => Parse.recover .strict (q note))
      held := by
  intro c value d hrun
  have hok : p c = .ok value d := by
    unfold Parse.recover at hrun
    cases hp : p c with
    | ok statements d' =>
        rw [hp] at hrun
        exact hrun
    | error why d' =>
        rw [hp] at hrun
        cases why <;> cases hrun
  rcases h c value d hok with ⟨log, hlog⟩
  refine ⟨log, hlog.reports, fun note reports => ?_, hlog.base, hlog.places, hlog.kept⟩
  rw [Parse.recover, hlog.run]

theorem advance : Announces places base Parse.advance (fun _ => Parse.advance) fun _ => base := by
  refine of_silent fun c value d hrun => ?_
  rcases c with ⟨before, ahead, last, nextId, diagnostics⟩
  cases ahead <;> cases hrun <;> exact ⟨rfl, fun _ => rfl⟩

theorem script {script : Script α} (h : script.Plain .strict) :
    Announces places base script.parser (fun _ => script.parser) fun _ => base := by
  induction script with
  | done value => exact .done rfl
  | stop why => exact .throw
  | advance => exact advance
  | report diagnostic => exact report diagnostic
  | recover mode decl ih =>
      rcases h with ⟨rfl, hdecl⟩
      exact (ih hdecl).recover
  | bind first next ihfirst ihnext => exact (ihfirst h.1).bind fun value => ihnext value (h.2 value)
  | peek | second | previous | atEnd | freshId =>
      refine of_silent fun c value d hrun => ?_
      cases hrun
      exact ⟨rfl, fun _ => rfl⟩

theorem plain {p : Parse α} (h : Composed .strict p) :
    Announces places base p (fun _ => p) fun _ => base := by
  rcases h with ⟨script, hplain, rfl⟩
  exact .script hplain

theorem step {p : Parse α} {k : α → Parse β} {l : (Reading → Diagnostic) → α → Parse β}
    {held : β → List Expr} (hp : Composed .strict p)
    (hk : ∀ value, Announces places base (k value) (fun note => l note value) held) :
    Announces places base (p >>= k) (fun note => p >>= l note) held :=
  (plain hp).bind hk

theorem ite {b : Bool} {p p' : Parse α} {q q' : (Reading → Diagnostic) → Parse α}
    {held : α → List Expr} (hp : Announces places base p q held)
    (hp' : Announces places base p' q' held) :
    Announces places base (if b = true then p else p')
      (fun note => if b = true then q note else q' note) held := by
  cases b with
  | true => exact hp
  | false => exact hp'

end Announces

/-- The parser `q` announces what `p` reads, and with what was held before, the result holds the
given expressions, which include those. -/
def KeepsParts (places : Bool → Prop) (p : Parse α) (q : (Reading → Diagnostic) → Parse α)
    (parts : α → List Expr) : Prop :=
  ∀ base, Announces places base p q fun value => base ++ parts value

namespace KeepsParts

variable {places : Bool → Prop}

theorem append_subset_of_subset {base list list' : List Expr} (h : list ⊆ list') :
    base ++ list ⊆ base ++ list' :=
  List.append_subset.mpr
    ⟨List.subset_append_left _ _, List.Subset.trans h (List.subset_append_right _ _)⟩

theorem separated {item : Parse α} {item' : (Reading → Diagnostic) → Parse α}
    {parts : α → List Expr} {more : Parse Bool} (hitem : KeepsParts places item item' parts)
    (hmore : Composed .strict more) : ∀ fuel,
    KeepsParts places (Parse.separated item more fuel)
      (fun note => Parse.separated (item' note) more fuel) fun list => list.flatMap parts
  | 0, _ => .throw
  | fuel + 1, base => by
      refine (hitem base).bind fun head => .step hmore fun _ => .ite ?_ (.pure (by simp))
      exact (separated hitem hmore fuel _).bind fun tail => .pure (by simp)

theorem collect {item : Parse α} {item' : (Reading → Diagnostic) → Parse α}
    {parts : α → List Expr} {more : Parse Bool} (hmore : Composed .strict more)
    (hitem : KeepsParts places item item' parts) : ∀ fuel,
    KeepsParts places (Parse.collect more item fuel)
      (fun note => Parse.collect more (item' note) fuel) fun list => list.flatMap parts
  | 0, _ => .throw
  | fuel + 1, base => by
      refine .step hmore fun _ => .ite ((hitem base).bind fun head => ?_) (.pure (by simp))
      exact (collect hmore hitem fuel _).bind fun tail => .pure (by simp)

/-! ## Expressions -/

section Expressions

variable {inner : Parse Expr} {inner' : (Reading → Diagnostic) → Parse Expr}

/-- The operands of a chain are kept, and so is what it starts with. -/
theorem chain {operator? : Token → Option β} {build : Expr → β → Token → Expr → Expr}
    {operand : Parse Expr} {operand' : (Reading → Diagnostic) → Parse Expr}
    (hoperand : KeepsParts places operand operand' Expr.inner)
    (hbuild : ∀ left op token right,
      left.inner ++ right.inner ⊆ (build left op token right).inner) :
    ∀ fuel base left, Announces places (base ++ left.inner)
      (Parse.chain operator? build operand fuel left)
      (fun note => Parse.chain operator? build (operand' note) fuel left)
      fun value => base ++ value.inner
  | 0, _, _ => .throw
  | fuel + 1, base, left => by
      refine .step .peek fun token => ?_
      cases operator? token with
      | none => exact .done rfl
      | some op =>
          refine .step .advance fun token => (hoperand _).bind fun right => ?_
          refine (chain hoperand hbuild fuel base _).weaken ?_
          rw [List.append_assoc]
          exact append_subset_of_subset (hbuild left op token right)

theorem level {operator? : Token → Option β} {build : Expr → β → Token → Expr → Expr}
    {operand : Parse Expr} {operand' : (Reading → Diagnostic) → Parse Expr}
    (hoperand : KeepsParts places operand operand' Expr.inner)
    (hbuild : ∀ left op token right,
      left.inner ++ right.inner ⊆ (build left op token right).inner) (fuel : Nat) :
    KeepsParts places (Parse.level operator? build operand fuel)
      (fun note => Parse.level operator? build (operand' note) fuel) Expr.inner :=
  fun base => (hoperand base).bind fun left => chain hoperand hbuild fuel base left

section Nested

variable (hinner : KeepsParts places inner inner' Expr.subterms)
include hinner

theorem mapEntry : KeepsParts places (Parse.mapEntry inner)
    (fun note => Parse.mapEntry (inner' note))
    fun entry => entry.1.subterms ++ entry.2.subterms := by
  intro base
  refine (hinner base).bind fun key => .step (.discard (.expectSymbol _ _)) fun _ => ?_
  exact (hinner _).bind fun value => .pure (by simp)

theorem argumentsFrom : ∀ fuel count,
    KeepsParts places (Parse.argumentsFrom inner fuel count)
      (fun note => Parse.argumentsFrom (inner' note) fuel count) Expr.listSubterms
  | 0, _, _ => .throw
  | fuel + 1, count, base => by
      unfold Parse.argumentsFrom
      by_cases hcount : Parse.maxArguments ≤ count
      · simp only [if_pos hcount]
        exact .fail
      · simp only [if_neg hcount]
        refine (hinner base).bind fun head => .step (.acceptSymbol _) fun _ => .ite ?_ ?_
        · refine (argumentsFrom fuel (count + 1) _).bind fun tail => .pure ?_
          simp [Expr.listSubterms]
        · exact .pure (by simp [Expr.listSubterms])

theorem arguments (fuel : Nat) : KeepsParts places (Parse.arguments inner fuel)
    (fun note => Parse.arguments (inner' note) fuel) Expr.listSubterms := by
  intro base
  refine .step (.atSymbol _) fun _ => .ite (.pure ?_) (argumentsFrom hinner fuel 0 base)
  simp [Expr.listSubterms]

theorem primary (fuel : Nat) : KeepsParts places (Parse.primary inner fuel)
    (fun note => Parse.primary (inner' note) fuel) Expr.inner := by
  intro base
  refine .step .peek fun token => ?_
  cases Parse.literal? token with
  | some value => exact .step (.discard .advance) fun _ => .pure (by simp)
  | none =>
      dsimp only
      cases token.kind with
      | identifier =>
          exact .step (.discard .advance) fun _ => .step .freshId fun _ => .pure (by simp)
      | keyword word =>
          cases word with
          | super =>
              refine .step (.discard .advance) fun _ => ?_
              refine .step (.discard (.expectSymbol _ _)) fun _ => .step (.expectName _) fun _ => ?_
              exact .step .freshId fun _ => .pure (by simp)
          | this => exact .step (.discard .advance) fun _ => .step .freshId fun _ => .pure (by simp)
          | _ => exact .throw
      | symbol mark =>
          cases mark with
          | leftBracket =>
              refine .step (.discard .advance) fun _ => ?_
              refine (separated (mapEntry hinner) (.acceptSymbol _) fuel base).bind
                fun entries => ?_
              refine .step (.discard (.expectSymbol _ _)) fun _ => .done ?_
              exact congrArg (base ++ ·) (Expr.entrySubterms_eq entries).symm
          | leftParen =>
              refine .step (.discard .advance) fun _ => (hinner base).bind fun value => ?_
              exact .step (.discard (.expectSymbol _ _)) fun _ => .done rfl
          | _ => exact .throw
      | _ => exact .throw

/-- What trails an expression is kept, and so is what the expression is built from. -/
theorem trailers : ∀ fuel base target, Announces places (base ++ target.inner)
    (Parse.trailers inner fuel target) (fun note => Parse.trailers (inner' note) fuel target)
    fun value => base ++ value.inner
  | 0, _, _ => .throw
  | fuel + 1, base, target => by
      have hdone : Announces places (base ++ target.inner) (pure target) (fun _ => pure target)
          fun value => base ++ value.inner := .done rfl
      have hgrow (list : List Expr) :
          base ++ target.inner ++ list ⊆ base ++ (target.subterms ++ list) := by
        rw [List.append_assoc]
        refine append_subset_of_subset (List.append_subset.mpr ⟨?_, List.subset_append_right _ _⟩)
        exact List.Subset.trans target.inner_subset_subterms (List.subset_append_left _ _)
      refine .step .peek fun token => ?_
      cases token.symbol? with
      | none => exact hdone
      | some mark =>
          cases mark with
          | leftParen =>
              refine .step (.discard .advance) fun _ => ?_
              refine (arguments hinner fuel _).bind fun values => ?_
              refine .step (.expectSymbol _ _) fun paren => ?_
              exact (trailers fuel base (.call target paren values)).weaken (hgrow _)
          | leftBracket =>
              refine .step (.discard .advance) fun _ => (hinner _).bind fun index => ?_
              refine .step (.expectSymbol _ _) fun bracket => ?_
              exact (trailers fuel base (.subscript bracket target index)).weaken (hgrow _)
          | dot =>
              refine .step (.discard .advance) fun _ => .step (.expectName _) fun name => ?_
              refine (trailers fuel base (.get target name)).weaken ?_
              exact append_subset_of_subset target.inner_subset_subterms
          | _ => exact hdone

theorem unary : ∀ fuel, KeepsParts places (Parse.unary inner fuel)
    (fun note => Parse.unary (inner' note) fuel) Expr.inner
  | 0, _ => .throw
  | fuel + 1, base => by
      refine .step .peek fun token => ?_
      cases Parse.unaryOp? token with
      | some op =>
          refine .step .advance fun _ => (unary fuel base).bind fun operand => .pure ?_
          exact append_subset_of_subset operand.inner_subset_subterms
      | none =>
          exact (primary hinner (fuel + 1) base).bind fun target =>
            trailers hinner (fuel + 1) base target

theorem disjunction (fuel : Nat) : KeepsParts places (Parse.disjunction inner fuel)
    (fun note => Parse.disjunction (inner' note) fuel) Expr.inner := by
  have hoperands (left right : Expr) :
      left.inner ++ right.inner ⊆ left.subterms ++ right.subterms :=
    List.append_subset.mpr
      ⟨List.Subset.trans left.inner_subset_subterms (List.subset_append_left _ _),
        List.Subset.trans right.inner_subset_subterms (List.subset_append_right _ _)⟩
  have hbinary (left : Expr) (op : BinaryOp) (token : Token) (right : Expr) :
      left.inner ++ right.inner ⊆ (Parse.buildBinary left op token right).inner :=
    hoperands left right
  have hlogical (left : Expr) (op : LogicalOp) (token : Token) (right : Expr) :
      left.inner ++ right.inner ⊆ (Parse.buildLogical left op token right).inner :=
    hoperands left right
  exact level (level (level (level (level (level (unary hinner fuel) hbinary fuel) hbinary fuel)
    hbinary fuel) hbinary fuel) hlogical fuel) hlogical fuel

end Nested

/-- A target leaves all that it is built from to the assignment that it is rewritten into. -/
theorem assignTo (base : List Expr) (target : Expr) (mark : Token) (value : Expr) :
    Announces places (base ++ target.inner ++ value.inner) (Parse.assignTo target mark value)
      (fun _ => Parse.assignTo target mark value) fun e => base ++ e.inner := by
  rw [List.append_assoc]
  cases target with
  | «variable» id name =>
      refine .step .freshId fun id => .pure (append_subset_of_subset ?_)
      exact value.inner_subset_subterms
  | get object name =>
      refine .pure (append_subset_of_subset (append_subset_of_subset ?_))
      exact value.inner_subset_subterms
  | _ => exact .throw

section Nested

variable (hinner : KeepsParts places inner inner' Expr.subterms)
include hinner

theorem assignment : ∀ fuel, KeepsParts places (Parse.assignment inner fuel)
    (fun note => Parse.assignment (inner' note) fuel) Expr.inner
  | 0, _ => .throw
  | fuel + 1, base => by
      refine (disjunction hinner (fuel + 1) base).bind fun target => ?_
      refine .step (.acceptSymbol _) fun _ => .ite ?_ (.done rfl)
      refine .step .previous fun mark => (assignment fuel _).bind fun value => ?_
      exact assignTo base target mark value

end Nested

theorem withCast (base : List Expr) (value : Expr) :
    Announces places (base ++ value.inner) (Parse.withCast value) (fun _ => Parse.withCast value)
      fun e => base ++ e.inner := by
  refine .step (.acceptKeyword _) fun _ => .ite ?_ (.done rfl)
  refine .step (.expectName _) fun name => .pure (append_subset_of_subset ?_)
  exact value.inner_subset_subterms

theorem announcing {p : Parse Expr} {q : (Reading → Diagnostic) → Parse Expr} {forField : Bool}
    (hplace : places forField) (hp : KeepsParts places p q Expr.inner) :
    KeepsParts places p (fun note => Parse.announcing forField note (q note)) Expr.subterms := by
  intro base c value d hrun
  rcases hp base c value d hrun with ⟨log, hlog⟩
  have hheld : base ++ value.inner ⊆ base ++ value.subterms :=
    append_subset_of_subset value.inner_subset_subterms
  refine ⟨log ++ [.inr { forField, value }], ?_, ?_, List.Subset.trans hlog.base hheld, ?_, ?_⟩
  · rw [ParserLog.reports_append, hlog.reports]
    exact (congrArg (c.diagnostics ++ ·) (List.append_nil _)).symm
  · intro note reports
    rw [Parse.announcing, bind_of_ok (hlog.run note reports), ParserLog.written_append,
      ← List.append_assoc]
    rfl
  · rw [ParserLog.readings_append]
    exact List.forall_mem_append.mpr ⟨hlog.places, List.forall_mem_singleton.mpr hplace⟩
  · rw [ParserLog.readings_append]
    refine List.forall_mem_append.mpr ⟨fun reading hmem hkept => ?_, ?_⟩
    · exact hheld (hlog.kept reading hmem hkept)
    · exact List.forall_mem_singleton.mpr fun _ => List.mem_append_right _ value.mem_subterms

/-- Every expression that is read on the way is a part of the one that is read in the end. -/
theorem expression (forField : Bool) : ∀ fuel,
    KeepsParts (· = forField) (Parse.expression fuel)
      (fun note => Parse.announcedExpression forField note fuel) Expr.subterms
  | 0 => fun _ => .throw
  | fuel + 1 => by
      refine announcing rfl fun base => ?_
      exact (assignment (expression forField fuel) (fuel + 1) base).bind (withCast base)

end Expressions

end KeepsParts

end MiniPascal
