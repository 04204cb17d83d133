import MiniPascal.Proofs.Machine.JournaledMachine
import MiniPascal.Proofs.Machine.Signatures
import MiniPascal.Proofs.Machine.VouchedRuns
import MiniPascal.Proofs.Scope.Lookups
import MiniPascal.Proofs.Session.Recording

/-!
# Courses of jobs

A session in which sources are compiled one after the other, and each program is run or its tests
are; with the journal of all that it runs.  Without the journal a course is what the compiler and
the machine do on their own; with it, every entry is vouched by the references of the programs
compiled so far, whichever source the code that runs has come from.
-/

namespace MiniPascal

/-! ## Jobs -/

/-- What a program is compiled for. -/
inductive Aim where
  | run
  | test (filter : Option String)

/-- A source to compile and to run or to test. -/
structure Job where
  input : Input
  aim : Aim

/-- What the machine does once the program of a job is compiled. -/
def Job.task (job : Job) (statements : List Stmt) : Task :=
  match job.aim with
  | .run => .interpret job.input.fuel statements
  | .test filter => .runTests job.input.fuel filter statements

theorem JournaledMachine.locals_interpret (r : JournaledMachine) (fuel : Nat)
    (statements : List Stmt) :
    (r.interpret fuel statements).2.machine.locals = r.machine.locals := by
  unfold interpret
  split <;> rfl

/-- Running a program or its tests leaves the distances of names alone. -/
theorem Job.locals_perform (job : Job) (r : JournaledMachine) (statements : List Stmt) :
    (r.perform (job.task statements)).machine.locals = r.machine.locals := by
  have hinterpret := r.locals_interpret job.input.fuel statements
  unfold Job.task
  cases job.aim with
  | run => exact hinterpret
  | test filter =>
      show (r.runTests job.input.fuel filter statements).machine.locals = _
      unfold JournaledMachine.runTests
      rcases hrun : r.interpret job.input.fuel statements with ⟨result, r'⟩
      rw [hrun] at hinterpret
      cases result with
      | error signal => exact hinterpret
      | ok _ =>
          refine List.foldlRecOn
            (motive := fun r'' : JournaledMachine => r''.machine.locals = r.machine.locals) _ _
            hinterpret fun r'' h'' name _ => ?_
          unfold JournaledMachine.runTest
          split
          · exact h''
          · exact h''

namespace Session

/-- Compiles the source of a job and, if that succeeds, runs the program or its tests. -/
def work (session : Session) (job : Job) : Session :=
  let machine := session.machine.clearOutput
  match session.compiler.clear.compile job.input.files job.input.source with
  | (.error _, compiler) => { compiler, machine }
  | (.ok compilation, compiler) =>
      { compiler
        machine := (machine.addLocals compilation.locals).perform (job.task compilation.program) }

def workAll (session : Session) (jobs : List Job) : Session :=
  jobs.foldl work session

/-- To run a source is to feed a session with it. -/
theorem work_run (session : Session) (input : Input) :
    session.work ⟨input, .run⟩ = (session.feed input.files input.fuel input.source).2 := by
  unfold work feed
  dsimp only
  rcases session.compiler.clear.compile input.files input.source with ⟨result, compiler⟩
  cases result with
  | error failure => rfl
  | ok compilation => rfl

end Session

/-- A session with the journal of its runs and the programs that it has compiled, the latest
first. -/
structure Course where
  compiler : Compiler
  runs : JournaledMachine
  compiled : List Compilation

namespace Course

def start (options : CompileOptions) (host : Host) : Course where
  compiler := .start options
  runs := .start host
  compiled := []

def work (c : Course) (job : Job) : Course :=
  let runs := c.runs.perform .clearOutput
  match c.compiler.clear.compile job.input.files job.input.source with
  | (.error _, compiler) => { c with compiler, runs }
  | (.ok compilation, compiler) =>
      { compiler
        runs := (runs.perform (.addLocals compilation.locals)).perform
          (job.task compilation.program)
        compiled := compilation :: c.compiled }

def workAll (c : Course) (jobs : List Job) : Course :=
  jobs.foldl work c

def session (c : Course) : Session where
  compiler := c.compiler
  machine := c.runs.machine

/-- The references of all programs so far. -/
def Knows (c : Course) (ref : Reference) : Prop :=
  ∃ compilation ∈ c.compiled, ref ∈ Stmt.listReferences [] compilation.program

def statements (c : Course) : List Stmt :=
  c.compiled.reverse.flatMap Compilation.program

/-- A node of a program so far assigns to a local variable in the first value of that variable. -/
def AssignsOwn (c : Course) (id : NodeId) : Prop :=
  ∃ compilation ∈ c.compiled, Stmt.AssignsOwn compilation.program id

/-! ## The course without its journal -/

theorem work_induction {P : JournaledMachine → Prop}
    (hperform : ∀ r task, P r → P (r.perform task)) {c : Course} (h : P c.runs) (job : Job) :
    P (c.work job).runs := by
  have hcleared := hperform _ .clearOutput h
  unfold work
  dsimp only
  split
  · exact hcleared
  · next compilation compiler _ =>
      exact hperform _ _ (hperform _ (.addLocals compilation.locals) hcleared)

theorem workAll_induction {P : JournaledMachine → Prop}
    (hperform : ∀ r task, P r → P (r.perform task)) {c : Course} (h : P c.runs)
    (jobs : List Job) : P (c.workAll jobs).runs := by
  induction jobs generalizing c with
  | nil => exact h
  | cons job rest ih => exact ih (work_induction hperform h job)

theorem work_told {c : Course} (h : c.runs.Told) (job : Job) : (c.work job).runs.Told :=
  work_induction (fun _ task htold => htold.perform task) h job

theorem work_session {c : Course} (h : c.runs.Told) (job : Job) :
    (c.work job).session = c.session.work job := by
  unfold work Session.work session
  dsimp only
  split
  · rfl
  · next compilation compiler _ =>
      have henv := ((h.perform .clearOutput).perform (.addLocals compilation.locals)).env
      exact congrArg _ (JournaledMachine.perform_machine _ henv _)

theorem workAll_told {c : Course} (h : c.runs.Told) (jobs : List Job) :
    (c.workAll jobs).runs.Told :=
  workAll_induction (fun _ task htold => htold.perform task) h jobs

theorem workAll_session {c : Course} (h : c.runs.Told) (jobs : List Job) :
    (c.workAll jobs).session = c.session.workAll jobs := by
  induction jobs generalizing c with
  | nil => rfl
  | cons job rest ih =>
      have hrest := ih (work_told h job)
      rw [work_session h] at hrest
      exact hrest

end Course

/-! ## Machines with vouched journals -/

/-- Between tasks, a machine whose code is known is in a sound world, and its entries are
vouched. -/
structure JournaledMachine.Vouched (known : Reference → Prop) (own : NodeId → Prop)
    (tops : List Stmt) (r : JournaledMachine) : Prop where
  sound : ∃ w : World, w.store = r.machine.store ∧ Sound known w
  distances : Scoped known own r.machine.locals
  env : r.env = Store.globals
  entries : Entry.AllVouched known own tops r.entries

namespace JournaledMachine.Vouched

variable {known : Reference → Prop} {own : NodeId → Prop} {tops later : List Stmt}
  {r : JournaledMachine}

theorem run {F : World → ε → Prop} {Q : World → α → Prop} {x : Journaling ε α}
    (h : r.Vouched known own tops)
    (hx : ∀ w : World, w.store = r.machine.store → Sound known w →
      Vouches known own F x w Store.globals later Q) :
    (r.withJournal (Journal.ended (x r.journal))).Vouched known own (tops ++ later) := by
  rcases h.sound with ⟨w, hstore, hsound⟩
  have hrun := hx w hstore hsound r.entries
  have hjournal : w.journal Store.globals r.entries = r.journal := by
    unfold World.journal journal
    rw [hstore, h.env]
  rw [hjournal] at hrun
  cases hended : x r.journal with
  | ok value j =>
      rw [hended] at hrun
      rcases hrun with ⟨w', fresh, rfl, -, hsound', hall, -⟩
      exact ⟨⟨w', rfl, hsound'⟩, h.distances, rfl, h.entries.append hall⟩
  | error e j =>
      rw [hended] at hrun
      rcases hrun with ⟨w', fresh, rfl, -, hsound', hall, -⟩
      exact ⟨⟨w', rfl, hsound'⟩, h.distances, rfl, h.entries.append hall⟩

theorem interpret (h : r.Vouched known own tops) (fuel : Nat) {statements : List Stmt}
    (hstatements : Knows known [] statements) :
    (r.interpret fuel statements).2.Vouched known own (tops ++ Place.tops [] statements) := by
  have hrun := h.run (x := Journal.program r.machine fuel statements) fun w _ hsound =>
    program_vouches h.distances fuel hsound hstatements
  unfold JournaledMachine.interpret
  cases hended : Journal.program r.machine fuel statements r.journal with
  | ok _ j =>
      rw [hended] at hrun
      exact hrun
  | error signal j =>
      rw [hended] at hrun
      exact hrun

theorem runTest (h : r.Vouched known own tops) (fuel : Nat) (name : Token) :
    (JournaledMachine.runTest fuel r name).Vouched known own tops := by
  unfold JournaledMachine.runTest
  cases htest : r.machine.testFunction? name.lexeme with
  | none => exact h
  | some test =>
      have hcall (w : World) (hstore : w.store = r.machine.store) (hsound : Sound known w) :
          Vouches known own (FailureOk known) (Journal.callFn r.machine.setting fuel test []) w
            Store.globals [] (ValueOk known) := by
        unfold Machine.testFunction? Machine.global? at htest
        rw [← hstore] at htest
        split at htest
        · next f hfound =>
            exact callFn_vouches h.distances fuel w Store.globals test [] hsound
              (hsound.findOverload (hsound.find hfound) htest) (List.forall_mem_nil _)
              (Store.takes_of_findOverload htest).arity
        · cases htest
      have hrun := h.run hcall
      rw [List.append_nil] at hrun
      exact hrun

theorem perform (h : r.Vouched known own tops) (job : Job) {statements : List Stmt}
    (hstatements : Knows known [] statements) :
    (r.perform (job.task statements)).Vouched known own (tops ++ Place.tops [] statements) := by
  have hinterpret := h.interpret job.input.fuel hstatements
  unfold Job.task
  cases job.aim with
  | run => exact hinterpret
  | test filter =>
      show (r.runTests job.input.fuel filter statements).Vouched known own _
      unfold runTests
      rcases hrun : r.interpret job.input.fuel statements with ⟨result, r'⟩
      rw [hrun] at hinterpret
      cases result with
      | error signal => exact hinterpret
      | ok _ => exact List.foldlRecOn _ _ hinterpret fun r'' h'' name _ => h''.runTest _ name

theorem clearOutput (h : r.Vouched known own tops) :
    (r.perform .clearOutput).Vouched known own tops := by
  rcases h.sound with ⟨w, hstore, hsound⟩
  refine ⟨⟨w.withStore { w.store with output := "" }, ?_, ?_⟩, h.distances, h.env, h.entries⟩
  · show { w.store with output := "" } = { r.machine.store with output := "" }
    rw [hstore]
  · exact hsound.counted rfl rfl rfl rfl rfl

theorem addLocals {others : Reference → Prop} {otherOwn : NodeId → Prop} {locals : Locals}
    (h : r.Vouched known own tops) (hmore : ∀ ref, known ref → others ref)
    (hown : ∀ id, own id → otherOwn id)
    (hscoped : Scoped others otherOwn (r.machine.locals ∪ locals)) :
    (r.perform (.addLocals locals)).Vouched others otherOwn tops := by
  rcases h.sound with ⟨w, hstore, hsound⟩
  exact ⟨⟨w, hstore, hsound.mono hmore⟩, hscoped, h.env, h.entries.mono hmore hown⟩

end JournaledMachine.Vouched

/-! ## Vouched courses -/

theorem scoped_union {known new : Reference → Prop} {own newOwn : NodeId → Prop} {locals : Locals}
    {first limit : NodeId} {program : List Stmt} (h : Scoped known own locals)
    (hknown : ∀ r, known r → r.mention.id < first)
    (hlocals : ∀ (id : NodeId) d, locals[id]? = some d → id < first)
    (hprogram : Stmt.NumberedProgram Declarable first program limit)
    (hok : Diagnostic.anyError (Resolution.program program).diagnostics = false)
    (hnew : ∀ r, new r → known r ∨ r ∈ Stmt.listReferences [] program)
    (hown : ∀ id, own id → newOwn id) (hnewOwn : ∀ id, Stmt.AssignsOwn program id → newOwn id) :
    Scoped new newOwn (locals ∪ (Resolution.program program).locals) where
  toResolved := RecordedSession.resolved_union h.toResolved hknown hlocals hprogram hok hnew
  scope r hr d hlocal := by
    rcases hnew r hr with hold | hin
    · rw [RecordedSession.local_of_known hknown hprogram hold] at hlocal
      exact h.scope r hold d hlocal
    · rw [RecordedSession.local_of_new hlocals hprogram hin] at hlocal
      exact Resolution.scope_of_local hprogram hin hlocal
  assigned r hr huse d hlocal := by
    rcases hnew r hr with hold | hin
    · rw [RecordedSession.local_of_known hknown hprogram hold] at hlocal
      exact (h.assigned r hold huse d hlocal).imp_left (hown _)
    · rw [RecordedSession.local_of_new hlocals hprogram hin] at hlocal
      exact (Resolution.distance?_of_written hprogram hok hin huse hlocal).imp_left (hnewOwn _)

namespace Course

/-- What holds between jobs. -/
structure Valid (c : Course) : Prop where
  vouched : c.runs.Vouched c.Knows c.AssignsOwn (Place.tops [] c.statements)
  numbers : ∀ ref, c.Knows ref → ref.mention.id < c.compiler.nextId
  locals : ∀ (id : NodeId) d, c.runs.machine.locals[id]? = some d → id < c.compiler.nextId

theorem valid_start (options : CompileOptions) (host : Host) : (start options host).Valid := by
  have hnone (ref : Reference) : ¬(start options host).Knows ref := by
    rintro ⟨compilation, hcompiled, -⟩
    cases hcompiled
  have hempty (id : NodeId) (d : Nat) : (start options host).runs.machine.locals[id]? ≠ some d := by
    intro hlocal
    cases hlocal
  refine ⟨⟨⟨_, rfl, sound_initial⟩, ?_, rfl, .nil⟩, ?_, ?_⟩
  · refine ⟨⟨?_, ?_, ?_, ?_, ?_⟩, ?_, ?_⟩
    all_goals exact fun ref href => absurd href (hnone ref)
  · exact fun ref href => absurd href (hnone ref)
  · exact fun id d hlocal => absurd hlocal (hempty id d)

theorem Valid.compiled {c : Course} (h : c.Valid) (job : Job) {compilation : Compilation}
    {compiler : Compiler} (hle : c.compiler.nextId ≤ compiler.nextId)
    (hprogram : Stmt.NumberedProgram Declarable c.compiler.nextId compilation.program
      compiler.nextId)
    (hok : Diagnostic.anyError (Resolution.program compilation.program).diagnostics = false)
    (hlocals : compilation.locals = (Resolution.program compilation.program).locals) :
    Valid
      { compiler
        runs := ((c.runs.perform .clearOutput).perform (.addLocals compilation.locals)).perform
          (job.task compilation.program)
        compiled := compilation :: c.compiled } := by
  have hkept := job.locals_perform
    ((c.runs.perform .clearOutput).perform (.addLocals compilation.locals)) compilation.program
  generalize hruns : ((c.runs.perform .clearOutput).perform
    (.addLocals compilation.locals)).perform (job.task compilation.program) = runs at hkept ⊢
  have hmore (ref : Reference) (href : c.Knows ref) :
      Knows ⟨compiler, runs, compilation :: c.compiled⟩ ref := by
    rcases href with ⟨other, hother, href⟩
    exact ⟨other, List.mem_cons_of_mem _ hother, href⟩
  have hnew (ref : Reference) (href : Knows ⟨compiler, runs, compilation :: c.compiled⟩ ref) :
      c.Knows ref ∨ ref ∈ Stmt.listReferences [] compilation.program := by
    rcases href with ⟨other, hother, href⟩
    rcases List.mem_cons.mp hother with rfl | hother
    · exact .inr href
    · exact .inl ⟨other, hother, href⟩
  have hown (id : NodeId) (hid : c.AssignsOwn id) :
      AssignsOwn ⟨compiler, runs, compilation :: c.compiled⟩ id := by
    rcases hid with ⟨other, hother, hid⟩
    exact ⟨other, List.mem_cons_of_mem _ hother, hid⟩
  have hscoped := scoped_union h.vouched.distances h.numbers h.locals hprogram hok hnew hown
    fun id hid => ⟨compilation, List.mem_cons_self, hid⟩
  rw [← hlocals] at hscoped
  have hvouched := (h.vouched.clearOutput.addLocals hmore hown hscoped).perform job
    ⟨hprogram.tidy, fun ref href => ⟨compilation, List.mem_cons_self, href⟩⟩
  rw [hruns] at hvouched
  have hstatements : statements ⟨compiler, runs, compilation :: c.compiled⟩ =
      c.statements ++ compilation.program := by
    simp [statements]
  refine ⟨?_, RecordedSession.numbers_union h.numbers hle hprogram hnew, ?_⟩
  · rw [hstatements, Place.tops_append]
    exact hvouched
  · intro id d hlocal
    dsimp only at hlocal
    rw [hkept] at hlocal
    change (c.runs.machine.locals ∪ compilation.locals)[id]? = some d at hlocal
    rw [hlocals] at hlocal
    exact RecordedSession.locals_union h.locals hle hprogram id d hlocal

theorem Valid.work {c : Course} (h : c.Valid) (job : Job) : (c.work job).Valid := by
  have hcompile := Compile.compile_numbers job.input.files job.input.source c.compiler.clear
  unfold Course.work
  rw [Compiler.compile_run]
  dsimp only
  cases hrun : Compile.compile job.input.files job.input.source c.compiler.clear with
  | error failure compiler =>
      rw [hrun] at hcompile
      refine ⟨h.vouched.clearOutput, ?_, ?_⟩
      · exact fun ref href => Nat.lt_of_lt_of_le (h.numbers ref href) hcompile
      · exact fun id d hlocal => Nat.lt_of_lt_of_le (h.locals id d hlocal) hcompile
  | ok compilation compiler =>
      rw [hrun] at hcompile
      rcases hcompile with ⟨hle, hprogram, hok, hlocals⟩
      exact h.compiled job hle hprogram hok hlocals

theorem Valid.workAll {c : Course} (h : c.Valid) (jobs : List Job) : (c.workAll jobs).Valid := by
  induction jobs generalizing c with
  | nil => exact h
  | cons job rest ih => exact ih (h.work job)

end Course

end MiniPascal
