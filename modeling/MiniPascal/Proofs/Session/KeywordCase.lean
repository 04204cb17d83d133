import MiniPascal.Proofs.Machine.StatementCaseFolding
import MiniPascal.Proofs.Parser.StatementCaseFolding
import MiniPascal.Proofs.Scope.CaseFolding
import MiniPascal.Proofs.Session.Recording

/-!
# The letter case of reserved words

Two sessions whose sources scan to the same but for the letter case of some reserved words compile
alike: the same sources are accepted, with the same reports.  If `this` is spelled alike in both,
what runs is alike as well: results, output and global variables.
-/

namespace MiniPascal

variable (words : Keyword → Bool)

/-- A compiler with the tokens it has scanned folded. -/
def Compiler.fold (c : Compiler) : Compiler :=
  { c with scanned := c.scanned.map (Token.fold words) }

def Compilation.fold (compilation : Compilation) : Compilation :=
  { compilation with program := Stmt.foldList words compilation.program }

def Compile.Expansion.fold (expansion : Compile.Expansion) : Compile.Expansion :=
  { expansion with statements := Stmt.foldList words expansion.statements }

/-- Two sources with the same tokens up to the letter case of the words, and the same malformed
lexemes. -/
def Source.SameUpTo (a b : Source) : Prop :=
  (Lexer.scan a).fold words = (Lexer.scan b).fold words

instance (a b : Source) : Decidable (a.SameUpTo words b) :=
  let scan := (Lexer.scan a).fold words
  let scan' := (Lexer.scan b).fold words
  decidable_of_iff (scan.tokens = scan'.tokens ∧ scan.last = scan'.last ∧
    scan.diagnostics = scan'.diagnostics) (Scan.mk.injEq .. ▸ Iff.rfl)

/-! ## Compiling -/

namespace Compile

def folded (f : α → α) : EStateM.Result CompileFailure Compiler α →
    Except CompileFailure α × Compiler
  | .ok value c => (.ok (f value), c.fold words)
  | .error failure c => (.error failure, c.fold words)

/-- From compilers that are the same once folded, two stages come to outcomes that are the same
once folded. -/
def Agree (f : α → α) (x y : Compile α) : Prop :=
  ∀ c d : Compiler, c.fold words = d.fold words → folded words f (x c) = folded words f (y d)

namespace Agree

variable {words} {α β : Type} {f : α → α} {g : β → β}

theorem pure {a b : α} (h : f a = f b) :
    Agree words f (Pure.pure a : Compile α) (Pure.pure b) := by
  intro c d hcd
  show (Except.ok (f a), c.fold words) = (Except.ok (f b), d.fold words)
  rw [h, hcd]

theorem throw (failure : CompileFailure) :
    Agree words f (MonadExcept.throw failure : Compile α) (MonadExcept.throw failure) := by
  intro c d hcd
  exact Prod.ext rfl hcd

theorem bind {x y : Compile α} {k l : α → Compile β} (hxy : Agree words f x y)
    (hkl : ∀ a b, f a = f b → Agree words g (k a) (l b)) :
    Agree words g (x >>= k) (y >>= l) := by
  intro c d hcd
  have hfirst := hxy c d hcd
  show folded words g (EStateM.bind x k c) = folded words g (EStateM.bind y l d)
  unfold EStateM.bind
  cases hx : x c with
  | ok a c' =>
      cases hy : y d with
      | ok b d' =>
          rw [hx, hy] at hfirst
          rcases Prod.mk.inj hfirst with ⟨hvalue, hcompiler⟩
          exact hkl a b (Except.ok.inj hvalue) c' d' hcompiler
      | error failure d' =>
          rw [hx, hy] at hfirst
          cases (Prod.mk.inj hfirst).1
  | error failure c' =>
      cases hy : y d with
      | ok b d' =>
          rw [hx, hy] at hfirst
          cases (Prod.mk.inj hfirst).1
      | error failure' d' =>
          rw [hx, hy] at hfirst
          rcases Prod.mk.inj hfirst with ⟨hfailure, hcompiler⟩
          cases hfailure
          exact Prod.ext rfl hcompiler

theorem look {k l : Compiler → Compile β}
    (h : ∀ c d, c.fold words = d.fold words → Agree words g (k c) (l d)) :
    Agree words g (get >>= k) (get >>= l) := by
  intro c d hcd
  exact h c d hcd c d hcd

theorem modify {change : Compiler → Compiler}
    (h : ∀ c, (change c).fold words = change (c.fold words)) :
    Agree words id (modify change) (modify change) := by
  intro c d hcd
  show (Except.ok (), (change c).fold words) = (Except.ok (), (change d).fold words)
  rw [h, h, hcd]

end Agree

variable {words}

theorem last_not_identifier (source : Source) : (Lexer.scan source).last.isIdentifier = false := by
  unfold Token.isIdentifier
  rw [Lexer.last_kind]

theorem scan_path (source : Source) : (Lexer.scan source).last.file = source.path := by
  rw [Lexer.scan_eq]
  rfl

theorem sameUpTo_path {a b : Source} (h : a.SameUpTo words b) :
    a.path = b.path := by
  have hfile := congrArg (fun scan => scan.last.file) h
  simp only [Scan.fold, Token.file_fold] at hfile
  rw [← scan_path a, ← scan_path b]
  exact hfile

theorem parse_agree {a b : Source} (h : a.SameUpTo words b) :
    Agree words (Stmt.foldList words) (parse a) (parse b) := by
  rintro ⟨options, diagnostics, nextId, included, scanned⟩
    ⟨options', diagnostics', nextId', included', scanned'⟩ hcd
  simp only [Compiler.fold, Compiler.mk.injEq] at hcd
  rcases hcd with ⟨rfl, rfl, rfl, rfl, hscanned⟩
  have hparsed : (parseProgram options.recovery nextId (Lexer.scan a)).fold words =
      (parseProgram options.recovery nextId (Lexer.scan b)).fold words := by
    rw [← parseProgram_fold _ _ _ (last_not_identifier a),
      ← parseProgram_fold _ _ _ (last_not_identifier b), h]
  have hresult := congrArg Parsed.result hparsed
  have hreports : (parseProgram options.recovery nextId (Lexer.scan a)).diagnostics =
      (parseProgram options.recovery nextId (Lexer.scan b)).diagnostics :=
    (Parsed.mk.inj hparsed).2.1
  have hnext : (parseProgram options.recovery nextId (Lexer.scan a)).nextId =
      (parseProgram options.recovery nextId (Lexer.scan b)).nextId :=
    (Parsed.mk.inj hparsed).2.2
  have hlexemes : (Lexer.scan a).diagnostics = (Lexer.scan b).diagnostics :=
    (Scan.mk.inj h).2.2
  have hall : (Lexer.scan a).all.map (Token.fold words) =
      (Lexer.scan b).all.map (Token.fold words) := by
    have htokens := congrArg Scan.all h
    simpa [Scan.all, Scan.fold] using htokens
  rw [parse_run, parse_run]
  dsimp only
  rw [hreports, hnext, hlexemes]
  simp only [Parsed.fold] at hresult
  cases hx : (parseProgram options.recovery nextId (Lexer.scan a)).result with
  | ok statements =>
      cases hy : (parseProgram options.recovery nextId (Lexer.scan b)).result with
      | error stop =>
          rw [hx, hy] at hresult
          cases hresult
      | ok statements' =>
          rw [hx, hy] at hresult
          dsimp only
          split
          · simp [folded, Compiler.fold, Compiler.report, hscanned, hall]
          · simp [folded, Compiler.fold, Compiler.report, hscanned, hall, Except.ok.inj hresult]
  | error stop =>
      cases hy : (parseProgram options.recovery nextId (Lexer.scan b)).result with
      | ok statements =>
          rw [hx, hy] at hresult
          cases hresult
      | error stop' =>
          rw [hx, hy] at hresult
          cases stop with
          | starved =>
              cases stop' with
              | starved => simp [folded, Compiler.fold, Compiler.report, hscanned, hall]
              | fault error => cases Except.error.inj hresult
          | fault error =>
              cases stop' with
              | starved => cases Except.error.inj hresult
              | fault error => simp [folded, Compiler.fold, Compiler.report, hscanned, hall]

def usedUnit? : Stmt → Option Token
  | .uses _ unit => some unit
  | _ => none

theorem usedUnit?_fold (words : Keyword → Bool) (s : Stmt) :
    usedUnit? (s.fold words) = usedUnit? s := by
  cases s with
  | ifThen condition thenBranch elseBranch =>
      rw [Stmt.fold_ifThen]
      rfl
  | classDecl decl =>
      rw [Stmt.fold_classDecl]
      rfl
  | function decl =>
      rw [Stmt.fold_function]
      rfl
  | _ => rfl

theorem expandWith_of_unit {expand : Token → Compile Expansion} {s : Stmt} {unit : Token}
    (h : usedUnit? s = some unit) (rest : List Stmt) :
    expandWith expand (s :: rest) = expand unit >>= fun here =>
      expandWith expand rest >>= fun others =>
        pure { statements := here.statements ++ others.statements
               missing := here.missing || others.missing } := by
  cases s with
  | uses keyword other =>
      cases h
      rfl
  | _ => cases h

theorem expandWith_of_none {expand : Token → Compile Expansion} {s : Stmt}
    (h : usedUnit? s = none) (rest : List Stmt) :
    expandWith expand (s :: rest) = expandWith expand rest >>= fun others =>
      pure { others with statements := s :: others.statements } := by
  cases s with
  | uses keyword unit => cases h
  | _ => rfl

theorem expandWith_agree {expand : Token → Compile Expansion}
    (hexpand : ∀ unit, Agree words (Expansion.fold words) (expand unit) (expand unit)) :
    ∀ list list', Stmt.foldList words list = Stmt.foldList words list' →
      Agree words (Expansion.fold words) (expandWith expand list) (expandWith expand list') := by
  intro list
  induction list with
  | nil =>
      intro list' hsame
      cases list' with
      | nil => exact Agree.pure rfl
      | cons s' rest' => cases hsame
  | cons s rest ih =>
      intro list' hsame
      cases list' with
      | nil => cases hsame
      | cons s' rest' =>
          rcases List.cons.inj hsame with ⟨hfirst, hrest⟩
          have hunit : usedUnit? s' = usedUnit? s := by
            rw [← usedUnit?_fold words s, hfirst, usedUnit?_fold]
          cases hused : usedUnit? s with
          | some unit =>
              rw [expandWith_of_unit hused, expandWith_of_unit (hunit.trans hused)]
              apply (hexpand unit).bind
              intro here here' hhere
              apply (ih rest' hrest).bind
              intro others others' hothers
              rcases Expansion.mk.inj hhere with ⟨hstatements, hmissing⟩
              rcases Expansion.mk.inj hothers with ⟨hstatements', hmissing'⟩
              apply Agree.pure
              simp [Expansion.fold, hstatements, hstatements', hmissing, hmissing']
          | none =>
              rw [expandWith_of_none hused, expandWith_of_none (hunit.trans hused)]
              apply (ih rest' hrest).bind
              intro others others' hothers
              rcases Expansion.mk.inj hothers with ⟨hstatements, hmissing⟩
              apply Agree.pure
              simp [Expansion.fold, Stmt.foldList, hfirst, hstatements, hmissing]

theorem expandUnit_agree (files : FileTree) (fuel : Nat) :
    ∀ including unit, Agree words (Expansion.fold words) (expandUnit files fuel including unit)
      (expandUnit files fuel including unit) := by
  induction fuel with
  | zero =>
      intro including unit
      exact Agree.throw _
  | succ fuel ih =>
      intro including unit
      apply Agree.look
      intro c d hcd
      have hincluded : c.included = d.included := (Compiler.mk.inj hcd).2.2.2.1
      rw [hincluded]
      split
      · exact Agree.pure rfl
      · apply Agree.bind
        · exact Agree.modify fun _ => rfl
        · intro _ _ _
          cases files.read (unitPath including unit) with
          | error failure =>
              apply Agree.bind
              · exact Agree.modify fun _ => rfl
              · intro _ _ _
                exact Agree.pure rfl
          | ok text =>
              apply (parse_agree rfl).bind
              intro statements statements' hsame
              exact expandWith_agree (ih (unitPath including unit)) statements statements' hsame

theorem parseAll_agree (files : FileTree) {a b : Source} (h : a.SameUpTo words b) :
    Agree words (Stmt.foldList words) (parseAll files a) (parseAll files b) := by
  unfold parseAll
  rw [sameUpTo_path h]
  apply Agree.bind
  · exact Agree.modify fun _ => rfl
  · intro _ _ _
    apply (parse_agree h).bind
    intro statements statements' hsame
    apply (expandWith_agree (expandUnit_agree files (files.size + 2) b.path) statements
      statements' hsame).bind
    intro expansion expansion' hexpansion
    rcases Expansion.mk.inj hexpansion with ⟨hstatements, hmissing⟩
    rw [hmissing]
    split
    · exact Agree.throw _
    · exact Agree.pure hstatements

theorem resolve_agree {statements statements' : List Stmt}
    (h : Stmt.foldList words statements = Stmt.foldList words statements') :
    Agree words id (resolve statements) (resolve statements') := by
  have hresolution : Resolution.program statements = Resolution.program statements' := by
    rw [← Resolution.program_fold words statements, h, Resolution.program_fold]
  unfold resolve
  rw [hresolution]
  apply Agree.bind
  · exact Agree.modify fun _ => rfl
  · intro _ _ _
    split
    · exact Agree.throw _
    · exact Agree.pure rfl

theorem checkTypes_agree {statements statements' : List Stmt}
    (h : Stmt.foldList words statements = Stmt.foldList words statements') :
    Agree words id (checkTypes statements) (checkTypes statements') := by
  have hreports : Typing.checkProgram statements = Typing.checkProgram statements' := by
    rw [← Typing.checkProgram_fold words statements, h, Typing.checkProgram_fold]
  unfold checkTypes
  rw [hreports]
  apply Agree.look
  intro c d hcd
  have hoptions : c.options = d.options := (Compiler.mk.inj hcd).1
  rw [hoptions]
  split
  · apply Agree.bind
    · exact Agree.modify fun _ => rfl
    · intro _ _ _
      split
      · exact Agree.throw _
      · exact Agree.pure rfl
  · exact Agree.pure rfl

theorem compile_agree (files : FileTree) {a b : Source} (h : a.SameUpTo words b) :
    Agree words (Compilation.fold words) (compile files a) (compile files b) := by
  apply (parseAll_agree files h).bind
  intro program program' hprogram
  apply (resolve_agree hprogram).bind
  intro locals locals' hlocals
  apply (checkTypes_agree hprogram).bind
  intro _ _ _
  apply Agree.pure
  simp only [Compilation.fold, hprogram]
  exact congrArg _ hlocals

end Compile

/-! ## Running -/

/-- What is shown of a source: the stage at which it failed, or how its run ended. -/
inductive Shown where
  | failed (failure : CompileFailure)
  | ok
  | exit (value : String)
  | error (message : String)
deriving DecidableEq

def shownEnd : EStateM.Result Signal Store Unit → Shown
  | .ok _ _ => .ok
  | .error (.exit value) s => .exit (s.describe value)
  | .error signal _ => .error signal.message

def endStore : EStateM.Result Signal Store Unit → Store
  | .ok _ s => s
  | .error _ s => s

/-- What is shown of a source, in the store behind it. -/
def Outcome.shown (s : Store) : Outcome → Shown
  | .failed failure => .failed failure
  | .ran (.ok _) => .ok
  | .ran (.error (.exit value)) => .exit (s.describe value)
  | .ran (.error signal) => .error signal.message

variable {words}

theorem Alike.shownEnd_eq {run folded : EStateM.Result Signal Store Unit}
    (h : Alike words id run folded) : shownEnd folded = shownEnd run := by
  cases h with
  | ok hvalue hstore => rfl
  | error hsignal hstore =>
      rw [hstore]
      have hmessage := Signal.Matches.message words hsignal
      cases hsignal with
      | exit value => exact congrArg Shown.exit (Store.describe_fold words _ value)
      | «break» => rfl
      | failed hfailure => exact congrArg Shown.error hmessage

theorem Alike.endStore_eq {run folded : EStateM.Result Signal Store Unit}
    (h : Alike words id run folded) : endStore folded = (endStore run).fold words := by
  cases h with
  | ok hvalue hstore => exact hstore
  | error hsignal hstore => exact hstore

theorem Machine.interpret_eq (m : Machine) (fuel : Nat) (program : List Stmt) :
    let run := Exec.stmts (Exec.callFn m.context fuel) fuel m.context program m.store
    (m.interpret fuel program).2 = { m with store := endStore run } ∧
      (Outcome.ran (m.interpret fuel program).1).shown (endStore run) = shownEnd run := by
  unfold interpret
  dsimp only
  cases Exec.stmts (Exec.callFn m.context fuel) fuel m.context program m.store with
  | ok _ s => exact ⟨rfl, rfl⟩
  | error signal s => cases signal <;> exact ⟨rfl, rfl⟩

/-- Machines that are the same once folded. -/
structure Machine.SameUpTo (words : Keyword → Bool) (m m' : Machine) : Prop where
  store : m.store.fold words = m'.store.fold words
  locals : m.locals = m'.locals
  host : m.host = m'.host

namespace RecordedSession

theorem Valid.allReach {r : RecordedSession} (h : r.Valid) : AllReach r.events := by
  intro cx id s hmem
  rcases h.sound with ⟨made, hsound⟩
  rcases List.append_of_mem hmem with ⟨later, earlier, hevents⟩
  have hall := hsound.events
  change AllJustified _ r.events at hall
  rw [hevents] at hall
  exact hall.split

end RecordedSession

/-- A run goes as that of the folded program in the folded store. -/
theorem Machine.run_alike (hthis : words .this = false) (m : Machine) (fuel : Nat)
    (program : List Stmt) (events : List Event)
    (hreach : AllReach (Trace.ended (Trace.program m fuel program ⟨m.store, events⟩)).events) :
    Alike words id (Exec.stmts (Exec.callFn m.context fuel) fuel m.context program m.store)
      (Exec.stmts (Exec.callFn m.context fuel) fuel m.context (Stmt.foldList words program)
        (m.store.fold words)) := by
  have halike := (Trace.program_mirrors hthis m fuel program ⟨m.store, events⟩).2 hreach
  rw [Trace.program_erases m fuel program] at halike
  exact halike

/-- Alike sources with the same files and fuel. -/
structure Input.SameUpTo (words : Keyword → Bool) (input input' : Input) : Prop where
  files : input.files = input'.files
  fuel : input.fuel = input'.fuel
  source : input.source.SameUpTo words input'.source

/-- Sessions that compile alike and, if `this` is spelled alike, have run alike. -/
structure Session.SameUpTo (words : Keyword → Bool) (session session' : Session) : Prop where
  compiler : session.compiler.fold words = session'.compiler.fold words
  machine : words .this = false → session.machine.SameUpTo words session'.machine

/-- Both sources are refused at the same stage, or both give the same program once folded. -/
theorem Compiler.compile_cases {c d : Compiler} {input input' : Input}
    (hcompiler : c.fold words = d.fold words) (h : input.SameUpTo words input') :
    (∃ failure c' d', c.clear.compile input.files input.source = (.error failure, c') ∧
      d.clear.compile input'.files input'.source = (.error failure, d') ∧
      c'.fold words = d'.fold words) ∨
    ∃ compilation compilation' c' d',
      c.clear.compile input.files input.source = (.ok compilation, c') ∧
      d.clear.compile input'.files input'.source = (.ok compilation', d') ∧
      compilation.fold words = compilation'.fold words ∧ c'.fold words = d'.fold words := by
  have hclear : c.clear.fold words = d.clear.fold words := by
    show (c.fold words).clear = (d.fold words).clear
    rw [hcompiler]
  have hagree := Compile.compile_agree input.files h.source c.clear d.clear hclear
  rw [← h.files]
  rw [compile_run, compile_run]
  cases hx : Compile.compile input.files input.source c.clear with
  | ok compilation c' =>
      cases hy : Compile.compile input.files input'.source d.clear with
      | ok compilation' d' =>
          rw [hx, hy] at hagree
          rcases Prod.mk.inj hagree with ⟨hcompilation, hfold⟩
          exact .inr ⟨_, _, _, _, rfl, rfl, Except.ok.inj hcompilation, hfold⟩
      | error failure d' =>
          rw [hx, hy] at hagree
          cases (Prod.mk.inj hagree).1
  | error failure c' =>
      cases hy : Compile.compile input.files input'.source d.clear with
      | ok compilation' d' =>
          rw [hx, hy] at hagree
          cases (Prod.mk.inj hagree).1
      | error failure' d' =>
          rw [hx, hy] at hagree
          rcases Prod.mk.inj hagree with ⟨hfailure, hfold⟩
          cases hfailure
          exact .inl ⟨_, _, _, rfl, rfl, hfold⟩

/-- Machines that are the same once folded run folded programs to the same end. -/
theorem Machine.interpret_sameUpTo (hthis : words .this = false) {m m' : Machine}
    (h : m.SameUpTo words m') {program program' : List Stmt}
    (hprogram : Stmt.foldList words program = Stmt.foldList words program') (fuel : Nat)
    {events events' : List Event}
    (hreach : AllReach (Trace.ended (Trace.program m fuel program ⟨m.store, events⟩)).events)
    (hreach' : AllReach
      (Trace.ended (Trace.program m' fuel program' ⟨m'.store, events'⟩)).events) :
    (m.interpret fuel program).2.SameUpTo words (m'.interpret fuel program').2 ∧
      (Outcome.ran (m'.interpret fuel program').1).shown (m'.interpret fuel program').2.store =
        (Outcome.ran (m.interpret fuel program).1).shown (m.interpret fuel program).2.store := by
  have hcontext : m'.context = m.context := by
    simp only [Machine.context, h.locals, h.host]
  have hrun := m.run_alike hthis fuel program events hreach
  have hrun' := m'.run_alike hthis fuel program' events' hreach'
  rcases m.interpret_eq fuel program with ⟨hmachine, hshown⟩
  rcases m'.interpret_eq fuel program' with ⟨hmachine', hshown'⟩
  -- both runs go as the one of the folded program
  rw [hcontext, ← hprogram, ← h.store] at hrun'
  rw [hcontext] at hmachine' hshown'
  rw [hmachine, hmachine']
  constructor
  · exact ⟨hrun.endStore_eq.symm.trans hrun'.endStore_eq, h.locals, h.host⟩
  · exact hshown'.trans ((hrun'.shownEnd_eq.symm.trans hrun.shownEnd_eq).trans hshown.symm)

namespace RecordedSession

variable {r r' : RecordedSession} {input input' : Input}

/-- What feeding a source does, by the outcome of compiling it. -/
theorem feed_of_failed {failure : CompileFailure} {c : Compiler}
    (h : r.session.compiler.clear.compile input.files input.source = (.error failure, c)) :
    (r.session.feed input.files input.fuel input.source) =
      (.failed failure, { compiler := c, machine := r.session.machine.clearOutput }) := by
  unfold Session.feed
  dsimp only
  rw [h]

theorem feed_of_compiled {compilation : Compilation} {c : Compiler}
    (h : r.session.compiler.clear.compile input.files input.source = (.ok compilation, c)) :
    let m := r.session.machine.clearOutput.addLocals compilation.locals
    let run := m.interpret input.fuel compilation.program
    r.session.feed input.files input.fuel input.source =
        (.ran run.1, { compiler := c, machine := run.2 }) ∧
      (r.feed input).events = (Trace.ended
        (Trace.program m input.fuel compilation.program ⟨m.store, r.events⟩)).events := by
  unfold Session.feed RecordedSession.feed
  dsimp only
  rw [h]
  exact ⟨rfl, rfl⟩

/-- Fed with alike sources, alike sessions show the same and stay alike. -/
theorem feed_sameUpTo (hr : r.Valid) (hr' : r'.Valid)
    (hsession : r.session.SameUpTo words r'.session) (hinput : input.SameUpTo words input') :
    let fed := r.session.feed input.files input.fuel input.source
    let fed' := r'.session.feed input'.files input'.fuel input'.source
    fed.2.SameUpTo words fed'.2 ∧
      (∀ failure, fed.1 = .failed failure ↔ fed'.1 = .failed failure) ∧
      (words .this = false →
        fed'.1.shown fed'.2.machine.store = fed.1.shown fed.2.machine.store) := by
  have hclear (hthis : words .this = false) :
      r.session.machine.clearOutput.SameUpTo words r'.session.machine.clearOutput := by
    have hmachine := hsession.machine hthis
    refine ⟨?_, hmachine.locals, hmachine.host⟩
    exact congrArg (fun s : Store => { s with output := "" }) hmachine.store
  rcases Compiler.compile_cases hsession.compiler hinput with
    ⟨failure, c, c', hx, hy, hfold⟩ | ⟨compilation, compilation', c, c', hx, hy, hsame, hfold⟩
  · rw [feed_of_failed hx, feed_of_failed hy]
    exact ⟨⟨hfold, hclear⟩, fun _ => Iff.rfl, fun _ => rfl⟩
  · rcases Compilation.mk.inj hsame with ⟨hprogram, hlocals⟩
    rcases feed_of_compiled hx with ⟨hfed, hevents⟩
    rcases feed_of_compiled hy with ⟨hfed', hevents'⟩
    have hreach := (hr.feed input).allReach
    have hreach' := (hr'.feed input').allReach
    rw [hevents] at hreach
    rw [hevents', ← hinput.fuel] at hreach'
    have hready (hthis : words .this = false) :
        (r.session.machine.clearOutput.addLocals compilation.locals).SameUpTo words
          (r'.session.machine.clearOutput.addLocals compilation'.locals) := by
      have hmachine := hclear hthis
      refine ⟨hmachine.store, ?_, hmachine.host⟩
      show _ ∪ compilation.locals = _ ∪ compilation'.locals
      rw [hmachine.locals, hlocals]
    have hruns (hthis : words .this = false) :=
      Machine.interpret_sameUpTo hthis (hready hthis) hprogram input.fuel hreach hreach'
    rw [hfed, hfed', ← hinput.fuel]
    refine ⟨⟨hfold, fun hthis => (hruns hthis).1⟩, ?_, fun hthis => (hruns hthis).2⟩
    intro failure
    constructor <;> intro hfailed <;> cases hfailed

theorem feedAll_sameUpTo {inputs inputs' : List Input}
    (hinputs : List.Forall₂ (Input.SameUpTo words) inputs inputs') :
    ∀ {r r' : RecordedSession}, r.Valid → r'.Valid → r.session.SameUpTo words r'.session →
      (r.feedAll inputs).session.SameUpTo words (r'.feedAll inputs').session := by
  induction hinputs with
  | nil =>
      intro r r' _ _ hsession
      exact hsession
  | @cons input input' rest rest' hinput _ ih =>
      intro r r' hr hr' hsession
      apply ih (hr.feed input) (hr'.feed input')
      rw [feed_session, feed_session]
      exact (feed_sameUpTo hr hr' hsession hinput).1

end RecordedSession

/-- In stores that are the same once folded, variables have the same texts. -/
theorem Store.described_eq {s s' : Store} (h : s.fold words = s'.fold words) (env : Env)
    (name : String) :
    (s'.find? env name).map s'.describe = (s.find? env name).map s.describe := by
  have hfolded (s : Store) : ((s.fold words).find? env name).map (s.fold words).describe =
      (s.find? env name).map s.describe := by
    have hdescribe : (s.fold words).describe ∘ Value.fold words = s.describe := by
      funext value
      exact s.describe_fold words value
    rw [find?_fold, Option.map_map, hdescribe]
  rw [← hfolded s', ← h, hfolded s]

/-- Whatever two sessions have been fed with, if all their sources have the same tokens up to the
letter case of the words, the next two are both accepted, or both refused at the same stage, with
the same reports.  Unless `this` is one of the words, their runs also end alike, print the same, and
leave global variables with the same texts. -/
theorem Session.feed_shows_same (words : Keyword → Bool) (options : CompileOptions) (host : Host)
    {inputs inputs' : List Input} {input input' : Input}
    (hinputs : List.Forall₂ (Input.SameUpTo words) inputs inputs')
    (hinput : input.SameUpTo words input') :
    let fed := ((start options host).feedAll inputs).feed input.files input.fuel input.source
    let fed' := ((start options host).feedAll inputs').feed input'.files input'.fuel input'.source
    fed.2.compiler.diagnostics = fed'.2.compiler.diagnostics ∧
      (∀ failure, fed.1 = .failed failure ↔ fed'.1 = .failed failure) ∧
      (words .this = false →
        fed'.1.shown fed'.2.machine.store = fed.1.shown fed.2.machine.store ∧
        fed'.2.machine.store.output = fed.2.machine.store.output ∧
        ∀ name, (fed'.2.machine.global? name).map fed'.2.machine.store.describe =
          (fed.2.machine.global? name).map fed.2.machine.store.describe) := by
  have hvalid := RecordedSession.valid_start options host
  have hstart : (start options host).SameUpTo words (start options host) :=
    ⟨rfl, fun _ => ⟨rfl, rfl, rfl⟩⟩
  have hbefore := RecordedSession.feedAll_sameUpTo hinputs hvalid hvalid hstart
  have hfed := RecordedSession.feed_sameUpTo (hvalid.feedAll inputs) (hvalid.feedAll inputs')
    hbefore hinput
  rw [RecordedSession.feedAll_session, RecordedSession.feedAll_session] at hfed
  rcases hfed with ⟨hsession, hfailed, hshown⟩
  refine ⟨(Compiler.mk.inj hsession.compiler).2.1, hfailed, fun hthis => ⟨hshown hthis, ?_, ?_⟩⟩
  · exact (congrArg Store.output (hsession.machine hthis).store).symm
  · intro name
    exact Store.described_eq (hsession.machine hthis).store Store.globals name

def spoken : Input :=
  ⟨.empty, 20, ⟨"REPL", "class A; begin M; begin print this; end end " ++
    "class B(A); begin Run; begin super.M(); end end"⟩⟩

def shouted : Input :=
  ⟨.empty, 20, ⟨"REPL", "CLASS A; BEGIN M; BEGIN PRINT this; END END " ++
    "CLASS B(A); BEGIN Run; BEGIN SUPER.M(); END END"⟩⟩

def calling : Input :=
  ⟨.empty, 20, ⟨"REPL", "B().Run();"⟩⟩

def otherThanThis (word : Keyword) : Bool :=
  word != .this

theorem Session.feed_shows_same_shouted :
    let first := start {} (.still 0)
    let fed := (first.feedAll [spoken]).feed calling.files calling.fuel calling.source
    let fed' := (first.feedAll [shouted]).feed calling.files calling.fuel calling.source
    spoken.source.SameUpTo otherThanThis shouted.source ∧ otherThanThis .this = false ∧
      fed.1.shown fed.2.machine.store = .ok ∧ fed'.1.shown fed'.2.machine.store = .ok ∧
      fed'.2.machine.store.output = "B instance\n" := by
  have hsource : spoken.source.SameUpTo otherThanThis shouted.source := by decide +kernel
  have hspoken : spoken.SameUpTo otherThanThis shouted := ⟨rfl, rfl, hsource⟩
  have hcalling : calling.SameUpTo otherThanThis calling := ⟨rfl, rfl, rfl⟩
  have hthis : otherThanThis .this = false := by decide
  have hsame := feed_shows_same otherThanThis {} (.still 0) (.cons hspoken .nil) hcalling
  have hrun :
      let fed := ((start {} (.still 0)).feedAll [spoken]).feed calling.files calling.fuel
        calling.source
      fed.1.shown fed.2.machine.store = .ok ∧ fed.2.machine.store.output = "B instance\n" := by
    decide +kernel
  dsimp only at hsame hrun ⊢
  rcases hsame.2.2 hthis with ⟨hshown, houtput, -⟩
  exact ⟨hsource, hthis, hrun.1, hshown.trans hrun.1, houtput.trans hrun.2⟩

end MiniPascal
