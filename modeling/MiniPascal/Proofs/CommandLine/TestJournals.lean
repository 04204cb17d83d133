import MiniPascal.CommandLine.Command

/-!
# Journals of test runs

What there is to test, and what comes of it, does not depend on whether the run stops at a failure.
A journal lists it all; a run that stops has the journal up to the first failure.  The exit code and
what is written follow from the journal, so that runs that stop and runs that do not agree on the
exit code, and what one of them shows is the beginning of what the other one shows.
-/

namespace MiniPascal
namespace CommandLine

/-! ## Events -/

/-- One thing that a run of tests shows. -/
inductive TestEvent where
  | heading (path : String)
  /-- What a program has printed. -/
  | output (text : String)
  | outcome (test : TestOutcome)
  /-- A file fails as a whole. -/
  | broken (report : String)
  /-- A path cannot be read, and the command gives up. -/
  | unreadable (message : String)
  | closing (text : String)

namespace TestEvent

@[simp] def line? : TestEvent → Option String
  | .heading path => some (path ++ "\n")
  | .outcome ⟨name, _, none⟩ => some (verdictLine name "PASS")
  | .outcome ⟨name, _, some _⟩ => some (verdictLine name "FAIL")
  | _ => none

/-- What is written apart from headings and lines about tests. -/
@[simp] def detail : TestEvent → String
  | .output text => text
  | .outcome ⟨_, _, some message⟩ => "    " ++ message ++ "\n"
  | .closing text => text
  | _ => ""

@[simp] def complaint : TestEvent → String
  | .broken report => report
  | .unreadable message => "error: " ++ message ++ "\n"
  | _ => ""

@[simp] def passes : TestEvent → Bool
  | .outcome test => test.failure.isNone
  | _ => false

/-- Whether a test, a file or the whole command has failed. -/
@[simp] def fails : TestEvent → Bool
  | .outcome test => test.failure.isSome
  | .broken _ => true
  | .unreadable _ => true
  | _ => false

def endsCommand : TestEvent → Bool
  | .unreadable _ => true
  | _ => false

def write (screen : Screen) (event : TestEvent) : Screen :=
  (screen.out (event.line?.getD "" ++ event.detail)).err event.complaint

end TestEvent

/-- The transcript of a run with a given journal. -/
def transcriptOf (journal : List TestEvent) : Transcript where
  code := if journal.any TestEvent.fails then Transcript.failureCode else 0
  screen := journal.foldl TestEvent.write {}

/-! ## Journals -/

def sourceEvents (format : ReportFormat) (filter : Option String) (files : FileTree)
    (resources : Resources) (source : Source) : List TestEvent :=
  let heading := TestEvent.heading (files.displayPath source.path)
  match (Compiler.start {}).compile files source with
  | (.error _, compiler) =>
      [heading, .broken (Report.diagnostics format files source compiler.diagnostics)]
  | (.ok compilation, _) =>
      let machine := (Machine.start (resources.host source.path)).addLocals compilation.locals
      let (result, ended) := machine.runTests resources.fuel filter compilation.program
      [heading, .output ended.store.output] ++
        match result with
        | .ok outcomes => outcomes.map .outcome
        | .error (.failed (.error error)) =>
            [.broken (Report.runtimeError format files source error)]
        | .error (.failed .starved) => [.broken ""]
        | .error _ => []

/-- What testing files in order shows, up to one that cannot be read. -/
def fileEvents (format : ReportFormat) (filter : Option String) (files : FileTree)
    (resources : Resources) : List String → List TestEvent
  | [] => []
  | path :: rest =>
      match files.read path with
      | .error fault => [.unreadable ("failed to read " ++ path ++ ": " ++ fault.message)]
      | .ok text =>
          sourceEvents format filter files resources { path, text } ++
            fileEvents format filter files resources rest

/-- The events up to the first failure, which is the last one of them. -/
def untilFailure : List TestEvent → List TestEvent
  | [] => []
  | event :: rest => if event.fails then [event] else event :: untilFailure rest

def shown (failFast : Bool) (events : List TestEvent) : List TestEvent :=
  if failFast then untilFailure events else events

def tallyOf (events : List TestEvent) : Tally where
  passed := events.countP TestEvent.passes
  failed := events.countP TestEvent.fails

/-- Events, with the summary unless the command gives up. -/
def summedUp (events : List TestEvent) : List TestEvent :=
  if events.any TestEvent.endsCommand then events
  else events ++ [.closing (summary (tallyOf events))]

/-- The files to test: those that the inputs stand for, or else the current directory. -/
def testPaths (files : FileTree) (inputs : List String) : Except String (List String) :=
  collectFiles files []
    (if inputs.isEmpty then [Path.render (.root :: files.current.map .normal)] else inputs)

def testJournal (args : TestArgs) (files : FileTree) (resources : Resources) : List TestEvent :=
  match testPaths files args.inputs with
  | .error message => [.unreadable message]
  | .ok [] => [.closing "no test files found\n"]
  | .ok paths =>
      summedUp (shown args.failFast
        (fileEvents args.reportFormat args.filter files resources paths))

/-! ## Stopping at a failure -/

theorem untilFailure_isPrefix (events : List TestEvent) : untilFailure events <+: events := by
  induction events with
  | nil => exact List.prefix_rfl
  | cons event rest ih =>
      unfold untilFailure
      split
      · exact List.prefix_append [event] rest
      · exact (List.prefix_cons_inj event).mpr ih

theorem any_fails_untilFailure (events : List TestEvent) :
    (untilFailure events).any TestEvent.fails = events.any TestEvent.fails := by
  induction events with
  | nil => rfl
  | cons event rest ih =>
      unfold untilFailure
      cases hfails : event.fails with
      | true => rw [if_pos rfl, List.any_cons, List.any_cons, hfails, Bool.true_or, Bool.true_or]
      | false => rw [if_neg Bool.false_ne_true, List.any_cons, List.any_cons, ih]

theorem shown_nil (failFast : Bool) : shown failFast [] = [] := by
  cases failFast <;> rfl

theorem shown_cons (failFast : Bool) (event : TestEvent) (rest : List TestEvent) :
    shown failFast (event :: rest) =
      if failFast && event.fails then [event] else event :: shown failFast rest := by
  cases failFast with
  | true => rfl
  | false => rfl

theorem shown_cons_of_not_fails (failFast : Bool) {event : TestEvent} (h : event.fails = false)
    (rest : List TestEvent) : shown failFast (event :: rest) = event :: shown failFast rest := by
  rw [shown_cons, h, Bool.and_false, if_neg Bool.false_ne_true]

/-- A run goes on behind events unless it stops at one of them. -/
theorem shown_append (failFast : Bool) (front back : List TestEvent) :
    shown failFast (front ++ back) =
      if failFast && front.any TestEvent.fails then shown failFast front
      else shown failFast front ++ shown failFast back := by
  induction front with
  | nil =>
      rw [List.nil_append, List.any_nil, Bool.and_false, if_neg Bool.false_ne_true, shown_nil]
      rfl
  | cons event rest ih =>
      rw [List.cons_append, shown_cons, shown_cons, ih, List.any_cons, Bool.and_or_distrib_left]
      cases failFast && event.fails with
      | true => rfl
      | false =>
          rw [Bool.false_or]
          cases failFast && rest.any TestEvent.fails with
          | true => rfl
          | false => rfl

theorem shown_isPrefix (failFast : Bool) (events : List TestEvent) :
    shown failFast events <+: events := by
  cases failFast with
  | true => exact untilFailure_isPrefix events
  | false => exact List.prefix_rfl

theorem any_fails_shown (failFast : Bool) (events : List TestEvent) :
    (shown failFast events).any TestEvent.fails = events.any TestEvent.fails := by
  cases failFast with
  | true => exact any_fails_untilFailure events
  | false => rfl

/-! ## Progress -/

def Progress.record (failFast : Bool) (progress : Progress) (event : TestEvent) : Progress where
  screen := TestEvent.write progress.screen event
  tally :=
    { passed := progress.tally.passed + if event.passes then 1 else 0
      failed := progress.tally.failed + if event.fails then 1 else 0 }
  stopped := if event.fails then failFast else progress.stopped

section Progress

variable {failFast : Bool}

theorem record_heading (progress : Progress) (path : String) :
    progress.record failFast (.heading path) = progress.out (path ++ "\n") := by
  simp [Progress.record, Progress.out, TestEvent.write, Screen.out, Screen.err]

theorem record_output (progress : Progress) (text : String) :
    progress.record failFast (.output text) = progress.out text := by
  simp [Progress.record, Progress.out, TestEvent.write, Screen.out, Screen.err]

theorem record_broken (progress : Progress) (report : String) :
    progress.record failFast (.broken report) = (progress.err report).fail failFast := by
  simp [Progress.record, Progress.err, Progress.fail, TestEvent.write, Screen.out, Screen.err]

theorem record_passed (progress : Progress) (name : String) (span : Span) :
    progress.record failFast (.outcome ⟨name, span, none⟩) =
      (progress.out (verdictLine name "PASS")).pass := by
  simp [Progress.record, Progress.out, Progress.pass, TestEvent.write, Screen.out, Screen.err]

theorem record_failed (progress : Progress) (name : String) (span : Span) (message : String) :
    progress.record failFast (.outcome ⟨name, span, some message⟩) =
      (progress.out (verdictLine name "FAIL" ++ "    " ++ message ++ "\n")).fail failFast := by
  simp [Progress.record, Progress.out, Progress.fail, TestEvent.write, Screen.out, Screen.err,
    String.append_assoc]

theorem showOutcomes_eq (outcomes : List TestOutcome) : ∀ progress : Progress,
    showOutcomes failFast progress outcomes =
      (shown failFast (outcomes.map .outcome)).foldl (Progress.record failFast) progress := by
  induction outcomes with
  | nil =>
      intro progress
      rw [List.map_nil, shown_nil]
      rfl
  | cons outcome rest ih =>
      intro progress
      obtain ⟨name, span, failure⟩ := outcome
      rw [List.map_cons, showOutcomes]
      cases failure with
      | none =>
          rw [shown_cons_of_not_fails failFast rfl, List.foldl_cons, record_passed]
          exact ih _
      | some message =>
          rw [shown_cons]
          cases failFast with
          | true =>
              show _ = Progress.record true progress _
              rw [record_failed]
              rfl
          | false =>
              show _ = (shown false _).foldl _ (Progress.record false progress _)
              rw [record_failed]
              exact ih _

theorem foldl_shown_broken (progress : Progress) (report : String) :
    (shown failFast [.broken report]).foldl (Progress.record failFast) progress =
      (progress.err report).fail failFast := by
  rw [shown_cons, shown_nil, ite_self, List.foldl_cons, List.foldl_nil, record_broken]

theorem testSource_eq (args : TestArgs) (files : FileTree) (resources : Resources)
    (source : Source) (progress : Progress) :
    testSource args files resources source progress =
      (shown args.failFast
        (sourceEvents args.reportFormat args.filter files resources source)).foldl
          (Progress.record args.failFast) progress := by
  unfold testSource sourceEvents
  dsimp only
  cases (Compiler.start {}).compile files source with
  | mk result compiler =>
      cases result with
      | error failure =>
          dsimp only
          rw [shown_cons_of_not_fails _ rfl, List.foldl_cons, record_heading, foldl_shown_broken]
      | ok compilation =>
          dsimp only
          rw [List.cons_append, List.cons_append, List.nil_append, shown_cons_of_not_fails _ rfl,
            shown_cons_of_not_fails _ rfl, List.foldl_cons, List.foldl_cons, record_heading,
            record_output]
          generalize progress.out (files.displayPath source.path ++ "\n") = headed
          cases ((Machine.start (resources.host source.path)).addLocals compilation.locals).runTests
              resources.fuel args.filter compilation.program with
          | mk result ended =>
              cases result with
              | ok outcomes => exact showOutcomes_eq outcomes _
              | error signal =>
                  cases signal with
                  | «break» =>
                      rw [shown_nil]
                      rfl
                  | exit value =>
                      rw [shown_nil]
                      rfl
                  | failed failure =>
                      cases failure with
                      | error error => exact (foldl_shown_broken _ _).symm
                      | starved =>
                          rw [foldl_shown_broken]
                          simp [Progress.err, Screen.err]

theorem stopped_foldl (events : List TestEvent) : ∀ progress : Progress,
    (events.foldl (Progress.record failFast) progress).stopped =
      if events.any TestEvent.fails then failFast else progress.stopped := by
  induction events with
  | nil =>
      intro progress
      rfl
  | cons event rest ih =>
      intro progress
      rw [List.foldl_cons, ih, List.any_cons, Progress.record]
      cases event.fails with
      | true => cases rest.any TestEvent.fails <;> rfl
      | false => rfl

/-- A run stops at events if they have a failure and it is to stop at one. -/
theorem stopped_foldl_shown (failFast : Bool) {progress : Progress}
    (h : progress.stopped = false) (events : List TestEvent) :
    ((shown failFast events).foldl (Progress.record failFast) progress).stopped =
      (failFast && events.any TestEvent.fails) := by
  rw [stopped_foldl, any_fails_shown, h]
  cases events.any TestEvent.fails with
  | true => exact (Bool.and_true failFast).symm
  | false => exact (Bool.and_false failFast).symm

theorem screen_foldl (events : List TestEvent) : ∀ progress : Progress,
    (events.foldl (Progress.record failFast) progress).screen =
      events.foldl TestEvent.write progress.screen := by
  induction events with
  | nil =>
      intro progress
      rfl
  | cons event rest ih =>
      intro progress
      rw [List.foldl_cons, ih, List.foldl_cons]
      rfl

theorem tally_foldl (events : List TestEvent) : ∀ progress : Progress,
    (events.foldl (Progress.record failFast) progress).tally =
      { passed := progress.tally.passed + events.countP TestEvent.passes
        failed := progress.tally.failed + events.countP TestEvent.fails } := by
  induction events with
  | nil =>
      intro progress
      rfl
  | cons event rest ih =>
      intro progress
      rw [List.foldl_cons, ih, List.countP_cons, List.countP_cons, Progress.record,
        Nat.add_comm (rest.countP TestEvent.passes), Nat.add_comm (rest.countP TestEvent.fails),
        ← Nat.add_assoc, ← Nat.add_assoc]

end Progress

/-! ## Files -/

/-- Testing a source does not make the command give up. -/
theorem any_endsCommand_sourceEvents (format : ReportFormat) (filter : Option String)
    (files : FileTree) (resources : Resources) (source : Source) :
    (sourceEvents format filter files resources source).any TestEvent.endsCommand = false := by
  unfold sourceEvents
  dsimp only
  cases (Compiler.start {}).compile files source with
  | mk result compiler =>
      cases result with
      | error failure => rfl
      | ok compilation =>
          dsimp only
          generalize ((Machine.start (resources.host source.path)).addLocals
            compilation.locals).runTests resources.fuel filter compilation.program = run
          rcases run with ⟨result, ended⟩
          rw [List.any_append]
          cases result with
          | ok outcomes =>
              have hnone : (outcomes.map TestEvent.outcome).any TestEvent.endsCommand = false := by
                rw [List.any_map, List.any_eq_false]
                intro outcome _
                exact Bool.false_ne_true
              rw [hnone]
              rfl
          | error signal =>
              cases signal with
              | failed failure => cases failure <;> rfl
              | _ => rfl

theorem any_fails_of_endsCommand {events : List TestEvent}
    (h : events.any TestEvent.endsCommand = true) : events.any TestEvent.fails = true := by
  obtain ⟨event, hevent, hends⟩ := List.any_eq_true.mp h
  apply List.any_eq_true.mpr
  exists event
  constructor
  · exact hevent
  · cases event with
    | unreadable message => rfl
    | _ => cases hends

theorem any_endsCommand_shown (failFast : Bool) {events : List TestEvent}
    (h : events.any TestEvent.endsCommand = false) :
    (shown failFast events).any TestEvent.endsCommand = false := by
  rw [List.any_eq_false] at *
  intro event hevent
  exact h event ((shown_isPrefix failFast events).subset hevent)

theorem write_unreadable (screen : Screen) (message : String) :
    TestEvent.write screen (.unreadable message) =
      (Transcript.failure screen message).screen := by
  simp [TestEvent.write, Transcript.failure, Screen.out]

/-- Testing files is to write and count the events that are shown, up to one that makes the command
give up. -/
theorem testFiles_eq (args : TestArgs) (files : FileTree) (resources : Resources)
    (paths : List String) : ∀ progress : Progress, progress.stopped = false →
      let events := shown args.failFast
        (fileEvents args.reportFormat args.filter files resources paths)
      let ended := events.foldl (Progress.record args.failFast) progress
      testFiles args files resources progress paths =
        if events.any TestEvent.endsCommand then
          .error { code := Transcript.failureCode, screen := ended.screen }
        else .ok ended := by
  induction paths with
  | nil =>
      intro progress _
      dsimp only
      rw [fileEvents, shown_nil]
      rfl
  | cons path rest ih =>
      intro progress hstopped
      dsimp only
      rw [testFiles, fileEvents]
      cases files.read path with
      | error fault =>
          dsimp only
          rw [shown_cons, shown_nil, ite_self, List.foldl_cons, List.foldl_nil, Progress.record,
            write_unreadable]
          rfl
      | ok text =>
          dsimp only
          have hsource := any_endsCommand_sourceEvents args.reportFormat args.filter files
            resources { path, text }
          rw [testSource_eq, stopped_foldl_shown _ hstopped, shown_append]
          generalize sourceEvents args.reportFormat args.filter files resources { path, text } =
            events at hsource
          have hstops := stopped_foldl_shown args.failFast hstopped events
          have hgoesOn := any_endsCommand_shown args.failFast hsource
          cases hstop : args.failFast && events.any TestEvent.fails with
          | true =>
              rw [if_pos rfl, if_pos rfl, hgoesOn]
              rfl
          | false =>
              rw [hstop] at hstops
              rw [if_neg Bool.false_ne_true, if_neg Bool.false_ne_true, ih _ hstops,
                List.any_append, hgoesOn, Bool.false_or, List.foldl_append]

/-! ## Commands -/

theorem write_closing (screen : Screen) (text : String) :
    TestEvent.write screen (.closing text) = screen.out text := by
  simp [TestEvent.write, Screen.out, Screen.err]

theorem foldl_summedUp {events : List TestEvent}
    (h : events.any TestEvent.endsCommand = false) :
    (summedUp events).foldl TestEvent.write {} =
      (events.foldl TestEvent.write {}).out (summary (tallyOf events)) := by
  rw [summedUp, h, if_neg Bool.false_ne_true, List.foldl_append]
  exact write_closing _ _

theorem any_fails_summedUp (events : List TestEvent) :
    (summedUp events).any TestEvent.fails = events.any TestEvent.fails := by
  unfold summedUp
  cases events.any TestEvent.endsCommand with
  | true => rfl
  | false =>
      rw [if_neg Bool.false_ne_true, List.any_append]
      exact Bool.or_false _

theorem tally_foldl_start (failFast : Bool) (events : List TestEvent) :
    (events.foldl (Progress.record failFast) {}).tally = tallyOf events := by
  rw [tally_foldl, Nat.zero_add, Nat.zero_add]
  rfl

theorem code_tallyOf (events : List TestEvent) :
    (if (tallyOf events).failed = 0 then 0 else Transcript.failureCode) =
      if events.any TestEvent.fails then Transcript.failureCode else 0 := by
  cases hfails : events.any TestEvent.fails with
  | true =>
      obtain ⟨event, hevent, hfailed⟩ := List.any_eq_true.mp hfails
      have hpositive : 0 < (tallyOf events).failed :=
        List.countP_pos_iff.mpr ⟨event, hevent, hfailed⟩
      rw [if_pos rfl, if_neg (Nat.ne_of_gt hpositive)]
  | false =>
      have hzero : (tallyOf events).failed = 0 :=
        List.countP_eq_zero.mpr (List.any_eq_false.mp hfails)
      rw [if_neg Bool.false_ne_true, if_pos hzero]

/-- A run of tests shows its journal. -/
theorem runTests_eq (args : TestArgs) (files : FileTree) (resources : Resources) :
    runTests args files resources = transcriptOf (testJournal args files resources) := by
  unfold runTests testJournal testPaths
  dsimp only
  cases collectFiles files []
      (if args.inputs.isEmpty then [Path.render (.root :: files.current.map .normal)]
        else args.inputs) with
  | error message =>
      dsimp only
      rw [transcriptOf, List.foldl_cons, List.foldl_nil, write_unreadable]
      rfl
  | ok paths =>
      cases paths with
      | nil =>
          dsimp only
          rw [transcriptOf, List.foldl_cons, List.foldl_nil, write_closing]
          rfl
      | cons path rest =>
          dsimp only
          rw [testFiles_eq args files resources (path :: rest) {} rfl]
          generalize shown args.failFast (fileEvents args.reportFormat args.filter files resources
            (path :: rest)) = events
          rw [transcriptOf, any_fails_summedUp]
          cases hends : events.any TestEvent.endsCommand with
          | true =>
              rw [if_pos rfl, any_fails_of_endsCommand hends, if_pos rfl, summedUp, hends,
                if_pos rfl, screen_foldl]
          | false =>
              rw [if_neg Bool.false_ne_true, foldl_summedUp hends]
              dsimp only
              rw [screen_foldl, tally_foldl_start, code_tallyOf]

/-- The headings and the lines about tests, in order. -/
def testLines (journal : List TestEvent) : List String :=
  journal.filterMap TestEvent.line?

theorem testLines_summedUp (events : List TestEvent) :
    testLines (summedUp events) = testLines events := by
  unfold summedUp
  cases events.any TestEvent.endsCommand with
  | true => rfl
  | false =>
      rw [if_neg Bool.false_ne_true, testLines, List.filterMap_append]
      exact List.append_nil _

/-! ## Stopping and going on -/

/-- Journals of runs that stop and of runs that do not come from the same events, or there is
nothing to test. -/
theorem testJournal_eq_or (args : TestArgs) (files : FileTree) (resources : Resources) :
    (∃ journal, ∀ failFast, testJournal { args with failFast } files resources = journal) ∨
    (∃ events, ∀ failFast,
      testJournal { args with failFast } files resources = summedUp (shown failFast events)) := by
  unfold testJournal
  dsimp only
  cases testPaths files args.inputs with
  | error message => exact .inl ⟨_, fun _ => rfl⟩
  | ok paths =>
      cases paths with
      | nil => exact .inl ⟨_, fun _ => rfl⟩
      | cons path rest =>
          exact .inr ⟨fileEvents args.reportFormat args.filter files resources (path :: rest),
            fun _ => rfl⟩

theorem any_fails_testJournal (args : TestArgs) (files : FileTree) (resources : Resources) :
    (testJournal { args with failFast := true } files resources).any TestEvent.fails =
      (testJournal { args with failFast := false } files resources).any TestEvent.fails := by
  rcases testJournal_eq_or args files resources with ⟨journal, hjournal⟩ | ⟨events, hevents⟩
  · rw [hjournal, hjournal]
  · rw [hevents, hevents, any_fails_summedUp, any_fails_summedUp, any_fails_shown, any_fails_shown]

theorem testLines_testJournal_isPrefix (args : TestArgs) (files : FileTree)
    (resources : Resources) :
    testLines (testJournal { args with failFast := true } files resources) <+:
      testLines (testJournal { args with failFast := false } files resources) := by
  rcases testJournal_eq_or args files resources with ⟨journal, hjournal⟩ | ⟨events, hevents⟩
  · simp only [hjournal, List.prefix_rfl]
  · rw [hevents, hevents, testLines_summedUp, testLines_summedUp]
    exact (untilFailure_isPrefix events).filterMap TestEvent.line?

theorem execute_test {list : List String} {args : TestArgs}
    (h : Args.readTest list = .ok args) (files : FileTree) (input : List (Option String))
    (resources : Resources) : execute ("test" :: list) files input resources =
      transcriptOf (testJournal args files resources) := by
  have hread : Command.read ("test" :: list) = .ok (.test args) := by
    show (do return Command.test (← Args.readTest list)) = _
    rw [h]
    rfl
  rw [execute, hread]
  exact runTests_eq args files resources

/-- Two command lines that say the same, but that one of them asks to stop at the first failure,
end with the same exit code.  Both show their journals, and the headings of files and the lines
about tests in the journal of the one that stops are the first ones of the other journal.  A program
that runs out of fuel is one that fails, so that nothing is assumed of the programs. -/
theorem stopping_shows_beginning {stopping going : List String} {args : TestArgs}
    (hstopping : Args.readTest stopping = .ok { args with failFast := true })
    (hgoing : Args.readTest going = .ok { args with failFast := false }) (files : FileTree)
    (input : List (Option String)) (resources : Resources) :
    let journal (failFast : Bool) := testJournal { args with failFast } files resources
    execute ("test" :: stopping) files input resources = transcriptOf (journal true) ∧
    execute ("test" :: going) files input resources = transcriptOf (journal false) ∧
    (execute ("test" :: stopping) files input resources).code =
      (execute ("test" :: going) files input resources).code ∧
    testLines (journal true) <+: testLines (journal false) := by
  intro journal
  have hstops := execute_test hstopping files input resources
  have hgoes := execute_test hgoing files input resources
  have hcode : (transcriptOf (journal true)).code = (transcriptOf (journal false)).code := by
    rw [transcriptOf, transcriptOf, any_fails_testJournal]
  constructor
  · exact hstops
  constructor
  · exact hgoes
  constructor
  · rw [hstops, hgoes]
    exact hcode
  · exact testLines_testJournal_isPrefix args files resources

/-- Two files; in the first one a test fails and the next one does not. -/
def suites : FileTree :=
  .ofFiles [] [
    ("first.pas", .text "procedure TestA; begin raise 'no'; end procedure TestB; begin end"),
    ("second.pas", .text "procedure TestC; begin end")]

deriving instance DecidableEq for TestArgs

theorem eq_ok_of_toOption {result : Except ε α} {value : α} (h : result.toOption = some value) :
    result = .ok value := by
  cases result with
  | error reason => cases h
  | ok other => exact congrArg Except.ok (Option.some.inj h)

/-- The run that stops shows two lines, and the other one all five. -/
theorem stopping_shows_beginning_suites :
    let going := ["second.pas", "first.pas"]
    let stopping := ["second.pas", "--fail-fast", "first.pas"]
    let args : TestArgs := { inputs := ["second.pas", "first.pas"] }
    let resources : Resources := { now := 0, fuel := 5 }
    let journal (failFast : Bool) := testJournal { args with failFast } suites resources
    Args.readTest stopping = .ok { args with failFast := true } ∧
    Args.readTest going = .ok { args with failFast := false } ∧
    (execute ("test" :: stopping) suites [] resources).code =
      (execute ("test" :: going) suites [] resources).code ∧
    testLines (journal true) <+: testLines (journal false) ∧
    testLines (journal true) = ["first.pas\n", verdictLine "TestA" "FAIL"] ∧
    (testLines (journal false)).length = 5 := by
  intro going stopping args resources journal
  have hstopping : Args.readTest stopping = .ok { args with failFast := true } := by
    apply eq_ok_of_toOption
    decide +kernel
  have hgoing : Args.readTest going = .ok { args with failFast := false } := by
    apply eq_ok_of_toOption
    decide +kernel
  have hshows := stopping_shows_beginning hstopping hgoing suites [] resources
  have hfirst : testLines (journal true) = ["first.pas\n", verdictLine "TestA" "FAIL"] := by
    decide +kernel
  have hall : (testLines (journal false)).length = 5 := by
    decide +kernel
  exact ⟨hstopping, hgoing, hshows.2.2.1, hshows.2.2.2, hfirst, hall⟩

end CommandLine
end MiniPascal
