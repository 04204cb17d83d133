import MiniPascal.Proofs.Machine.Erasure
import MiniPascal.Proofs.Machine.StatementSoundness
import MiniPascal.Proofs.Session.Compilation
import MiniPascal.Session

/-!
# Recorded sessions

A session with the record of all its runs.  Without the record it is the session itself; with it,
every event is justified by the references of the programs compiled so far, whichever source the
code that runs has come from.
-/

namespace MiniPascal

/-- A source with the files around it and the fuel to run it. -/
structure Input where
  files : FileTree
  fuel : Nat
  source : Source

def Session.feedAll (session : Session) (inputs : List Input) : Session :=
  inputs.foldl (fun session input =>
    (session.feed input.files input.fuel input.source).2) session

/-- A session with the programs it has compiled and the record of their runs. -/
structure RecordedSession where
  session : Session
  compiled : List Compilation
  events : List Event

namespace RecordedSession

def start (options : CompileOptions) (host : Host) : RecordedSession where
  session := .start options host
  compiled := []
  events := []

/-- Compiles a source and, if that succeeds, runs it with a record. -/
def feed (r : RecordedSession) (input : Input) : RecordedSession :=
  let machine := r.session.machine.clearOutput
  match r.session.compiler.clear.compile input.files input.source with
  | (.error _, compiler) => { r with session := { compiler, machine } }
  | (.ok compilation, compiler) =>
      let machine := machine.addLocals compilation.locals
      let ended := Trace.ended
        (Trace.program machine input.fuel compilation.program ⟨machine.store, r.events⟩)
      { session := { compiler, machine := { machine with store := ended.store } }
        compiled := compilation :: r.compiled
        events := ended.events }

def feedAll (r : RecordedSession) (inputs : List Input) : RecordedSession :=
  inputs.foldl feed r

/-- The references of all programs so far. -/
def Knows (r : RecordedSession) (ref : Reference) : Prop :=
  ∃ compilation ∈ r.compiled, ref ∈ Stmt.listReferences [] compilation.program

/-! ## The session without its record -/

theorem feed_session (r : RecordedSession) (input : Input) :
    (r.feed input).session = (r.session.feed input.files input.fuel input.source).2 := by
  unfold feed Session.feed
  dsimp only
  cases hcompile : r.session.compiler.clear.compile input.files input.source with
  | mk result compiler =>
      cases result with
      | error failure => rfl
      | ok compilation =>
          dsimp only
          unfold Trace.ended
          have herases := Trace.program_erases
            (r.session.machine.clearOutput.addLocals compilation.locals) input.fuel
            compilation.program
            ⟨(r.session.machine.clearOutput.addLocals compilation.locals).store, r.events⟩
          unfold Machine.interpret
          rw [← herases]
          cases Trace.program (r.session.machine.clearOutput.addLocals compilation.locals)
              input.fuel compilation.program _ with
          | ok value t => rfl
          | error signal t => rfl

theorem feedAll_session (inputs : List Input) :
    ∀ r : RecordedSession, (r.feedAll inputs).session = r.session.feedAll inputs := by
  induction inputs with
  | nil =>
      intro r
      rfl
  | cons input rest ih =>
      intro r
      have hrest := ih (r.feed input)
      rw [feed_session] at hrest
      exact hrest

end RecordedSession

/-! ## The first world -/

theorem declarable_builtin (op : Builtin) : Declarable op.name := by
  cases op <;> constructor <;> decide

theorem sound_bindBuiltins (list : List Builtin) :
    ∀ {w : World}, Sound known w →
      Sound known (w.withStore (list.foldl Store.bindBuiltin w.store)) := by
  induction list with
  | nil =>
      intro w h
      exact h
  | cons op rest ih =>
      intro w h
      have hcounted : Sound known (w.withStore (w.store.newNative (.builtin op)).2) :=
        h.counted rfl rfl rfl rfl rfl
      have hbound : Sound known ((w.withStore (w.store.newNative (.builtin op)).2).bindIn
          Store.globalFrame op.name (.native (w.store.newNative (.builtin op)).1)) :=
        hcounted.bindIn (declarable_builtin op) trivial
      exact ih hbound

theorem Store.find?_firstFrame (frame : FrameId) (name : String) :
    ((Store.empty.newFrame ∅).2.frame frame).find? name = none := by
  rw [Store.frame_newFrame]
  split
  · rfl
  · rw [show Store.empty.frame frame = ∅ from rfl]
    rfl

/-- Nothing is known of the first world, and nothing has to be. -/
theorem sound_initial : Sound known ⟨.initial, [], fun _ => .plain⟩ := by
  have hfirst : Sound known ⟨(Store.empty.newFrame ∅).2, [], fun _ => .plain⟩ := by
    refine ⟨?_, ?_, ?_, ?_, ?_, ?_, ?_, ?_, trivial, trivial⟩
    · intro id hid
      exact absurd hid (Nat.not_lt_zero id)
    · intro frame name value hvalue
      rw [Store.find?_firstFrame] at hvalue
      cases hvalue
    · intro self name value hvalue
      cases hvalue
    · intro id value hvalue
      exact absurd hvalue (by simp [Store.newFrame, Store.empty, Store.sequence])
    · intro id entry hentry
      cases hentry
    · intro region outer frame hentered
      cases hentered
    · exact Nat.zero_lt_one
    · intro name _
      exact Store.find?_firstFrame _ name
  have hall := sound_bindBuiltins Builtin.all hfirst
  unfold World.withStore at hall
  rw [← Store.initial] at hall
  exact hall

/-! ## Justified records -/

namespace RecordedSession

/-- What holds between sources. -/
structure Valid (r : RecordedSession) : Prop where
  sound : ∃ made, Sound r.Knows ⟨r.session.machine.store, r.events, made⟩
  resolved : Resolved r.Knows r.session.machine.locals
  coherent : ∀ v w, r.Knows v → r.Knows w → v.Coherent Declarable w
  numbers : ∀ ref, r.Knows ref → ref.mention.id < r.session.compiler.nextId
  locals : ∀ (id : NodeId) d, r.session.machine.locals[id]? = some d →
    id < r.session.compiler.nextId

theorem valid_start (options : CompileOptions) (host : Host) : (start options host).Valid := by
  have hnone (ref : Reference) : ¬(start options host).Knows ref := by
    rintro ⟨compilation, hcompiled, -⟩
    cases hcompiled
  refine ⟨⟨_, sound_initial⟩, ⟨?_, ?_, ?_, ?_, ?_⟩, ?_, ?_, ?_⟩
  · intro ref href
    exact absurd href (hnone ref)
  · intro ref href
    exact absurd href (hnone ref)
  · intro ref href
    exact absurd href (hnone ref)
  · intro ref href
    exact absurd href (hnone ref)
  · intro ref href
    exact absurd href (hnone ref)
  · intro ref _ href
    exact absurd href (hnone ref)
  · intro ref href
    exact absurd href (hnone ref)
  · intro id d hlocal
    cases hlocal

section Unions

variable {known new : Reference → Prop} {locals : Locals} {first limit : NodeId}
  {program : List Stmt} {r : Reference}

/-- A new program has numbers of its own: it leaves the distances of old references alone. -/
theorem local_of_known (hknown : ∀ r, known r → r.mention.id < first)
    (hprogram : Stmt.NumberedProgram Declarable first program limit) (hr : known r) :
    (locals ∪ (Resolution.program program).locals)[r.mention.id]? = locals[r.mention.id]? := by
  have hnone : (Resolution.program program).locals[r.mention.id]? = none := by
    apply Option.eq_none_iff_forall_ne_some.mpr
    intro d hd
    have hbounds := Resolution.bounds_of_local hprogram hd
    exact absurd (hknown r hr) (Nat.not_lt.mpr hbounds.1)
  rw [Std.TreeMap.getElem?_union, hnone, Option.none_or]

/-- Old distances do not get in the way of a new program. -/
theorem local_of_new (hlocals : ∀ (id : NodeId) d, locals[id]? = some d → id < first)
    (hprogram : Stmt.NumberedProgram Declarable first program limit)
    (hr : r ∈ Stmt.listReferences [] program) :
    (locals ∪ (Resolution.program program).locals)[r.mention.id]? =
      (Resolution.program program).locals[r.mention.id]? := by
  have hnone : locals[r.mention.id]? = none := by
    apply Option.eq_none_iff_forall_ne_some.mpr
    intro d hd
    have hbounds := hprogram.settled.bounds [] r hr
    exact absurd (hlocals _ d hd) (Nat.not_lt.mpr hbounds.1)
  rw [Std.TreeMap.getElem?_union, hnone, Option.or_none]

theorem numbers_union (hknown : ∀ r, known r → r.mention.id < first) (hle : first ≤ limit)
    (hprogram : Stmt.NumberedProgram Declarable first program limit)
    (hnew : ∀ r, new r → known r ∨ r ∈ Stmt.listReferences [] program) (r : Reference)
    (hr : new r) : r.mention.id < limit := by
  rcases hnew r hr with hold | hin
  · exact Nat.lt_of_lt_of_le (hknown r hold) hle
  · exact (hprogram.settled.bounds [] r hin).2

theorem locals_union (hlocals : ∀ (id : NodeId) d, locals[id]? = some d → id < first)
    (hle : first ≤ limit) (hprogram : Stmt.NumberedProgram Declarable first program limit)
    (id : NodeId) (d : Nat)
    (hlocal : (locals ∪ (Resolution.program program).locals)[id]? = some d) : id < limit := by
  rw [Std.TreeMap.getElem?_union] at hlocal
  rcases Option.or_eq_some_iff.mp hlocal with hd | ⟨-, hd⟩
  · exact (Resolution.bounds_of_local hprogram hd).2
  · exact Nat.lt_of_lt_of_le (hlocals id d hd) hle

theorem resolved_union (h : Resolved known locals)
    (hknown : ∀ r, known r → r.mention.id < first)
    (hlocals : ∀ (id : NodeId) d, locals[id]? = some d → id < first)
    (hprogram : Stmt.NumberedProgram Declarable first program limit)
    (hok : Diagnostic.anyError (Resolution.program program).diagnostics = false)
    (hnew : ∀ r, new r → known r ∨ r ∈ Stmt.listReferences [] program) :
    Resolved new (locals ∪ (Resolution.program program).locals) := by
  have hpending := Resolution.pending_of_accepted hprogram hok
  refine ⟨?_, ?_, ?_, ?_, ?_⟩
  · intro r hr
    rcases hnew r hr with hold | hin
    · exact h.written r hold
    · exact hprogram.settled.written [] r hin
  · intro r hr
    rcases hnew r hr with hold | hin
    · exact h.pending r hold
    · exact hpending r hin
  · intro r hr hfixed d hlocal
    rcases hnew r hr with hold | hin
    · rw [local_of_known hknown hprogram hold] at hlocal
      exact h.distance r hold hfixed d hlocal
    · rw [local_of_new hlocals hprogram hin] at hlocal
      exact Resolution.distance?_of_accepted hprogram hok hin hfixed hlocal
  · intro r hr huse
    rcases hnew r hr with hold | hin
    · rw [local_of_known hknown hprogram hold]
      exact h.recorded r hold huse
    · rw [local_of_new hlocals hprogram hin]
      exact Resolution.local_eq_distance? hprogram hok hin huse
  · intro r hr huse hname
    rcases hnew r hr with hold | hin
    · rw [local_of_known hknown hprogram hold]
      exact h.derived r hold huse hname
    · rw [local_of_new hlocals hprogram hin]
      exact Resolution.derived_of_accepted hprogram hok hin huse hname

end Unions

/-- References that share a number come from one program. -/
theorem coherent_union {known new : Reference → Prop} {first limit : NodeId}
    {program : List Stmt} (h : ∀ v w, known v → known w → v.Coherent Declarable w)
    (hknown : ∀ r, known r → r.mention.id < first)
    (hprogram : Stmt.NumberedProgram Declarable first program limit)
    (hok : Diagnostic.anyError (Resolution.program program).diagnostics = false)
    (hnew : ∀ r, new r → known r ∨ r ∈ Stmt.listReferences [] program) (v w : Reference)
    (hv : new v) (hw : new w) : v.Coherent Declarable w := by
  have happart (old fresh : Reference) (hold : known old)
      (hin : fresh ∈ Stmt.listReferences [] program) : old.mention.id ≠ fresh.mention.id := by
    have hbounds := hprogram.settled.bounds [] fresh hin
    exact Nat.ne_of_lt (Nat.lt_of_lt_of_le (hknown old hold) hbounds.1)
  rcases hnew v hv with hv | hv
  · rcases hnew w hw with hw | hw
    · exact h v w hv hw
    · intro _ hid
      exact absurd hid (happart v w hv hw)
  · rcases hnew w hw with hw | hw
    · intro _ hid
      exact absurd hid.symm (happart w v hw hv)
    · exact hprogram.settled.coherent [] (Resolution.pending_of_accepted hprogram hok) v hv w hw

theorem Valid.feed {r : RecordedSession} (h : r.Valid) (input : Input) :
    (r.feed input).Valid := by
  have hcompile := Compile.compile_numbers input.files input.source r.session.compiler.clear
  rcases h.sound with ⟨made, hsound⟩
  have hcleared : Sound r.Knows ⟨r.session.machine.clearOutput.store, r.events, made⟩ :=
    hsound.counted rfl rfl rfl rfl rfl
  unfold RecordedSession.feed
  rw [Compiler.compile_run]
  dsimp only
  cases hrun : Compile.compile input.files input.source r.session.compiler.clear with
  | error failure compiler =>
      rw [hrun] at hcompile
      refine ⟨⟨made, hcleared⟩, h.resolved, h.coherent, ?_, ?_⟩
      · intro ref href
        exact Nat.lt_of_lt_of_le (h.numbers ref href) hcompile
      · intro id d hlocal
        exact Nat.lt_of_lt_of_le (h.locals id d hlocal) hcompile
  | ok compilation compiler =>
      rw [hrun] at hcompile
      rcases hcompile with ⟨hle, hprogram, hok, hlocals⟩
      have hmore (ref : Reference) (href : r.Knows ref) :
          ∃ other ∈ compilation :: r.compiled, ref ∈ Stmt.listReferences [] other.program := by
        rcases href with ⟨other, hother, href⟩
        exact ⟨other, List.mem_cons_of_mem _ hother, href⟩
      have hnew (ref : Reference)
          (href : ∃ other ∈ compilation :: r.compiled,
            ref ∈ Stmt.listReferences [] other.program) :
          r.Knows ref ∨ ref ∈ Stmt.listReferences [] compilation.program := by
        rcases href with ⟨other, hother, href⟩
        rcases List.mem_cons.mp hother with rfl | hother
        · exact .inr href
        · exact .inl ⟨other, hother, href⟩
      have hresolved := resolved_union h.resolved h.numbers h.locals hprogram hok hnew
      rw [← hlocals] at hresolved
      have hkeeps := program_keeps
        (m := r.session.machine.clearOutput.addLocals compilation.locals) hresolved input.fuel
        (hcleared.mono hmore) ⟨hprogram.tidy, fun ref href =>
          ⟨compilation, List.mem_cons_self, href⟩⟩
      have hcoherent := coherent_union h.coherent h.numbers hprogram hok hnew
      refine ⟨hkeeps.ended, hresolved, hcoherent, numbers_union h.numbers hle hprogram hnew, ?_⟩
      intro id d hlocal
      change (r.session.machine.locals ∪ compilation.locals)[id]? = some d at hlocal
      rw [hlocals] at hlocal
      exact locals_union h.locals hle hprogram id d hlocal

theorem Valid.feedAll {r : RecordedSession} (h : r.Valid) (inputs : List Input) :
    (r.feedAll inputs).Valid := by
  induction inputs generalizing r with
  | nil => exact h
  | cons input rest ih => exact ih (h.feed input)

/-! ## Names and frames -/

/-- Whatever a session is fed with, a variable or superclass that has a distance is read from the
frame at this distance.  The frame has the name, and was made for the nearest scope around the
reference that declares the name in front of it. -/
theorem reads_declaring_frame (options : CompileOptions) (host : Host) (inputs : List Input) :
    let r := (start options host).feedAll inputs
    r.session = (Session.start options host).feedAll inputs ∧
      ∀ later cx id name s earlier d, r.events = later ++ .read cx id name s :: earlier →
        cx.locals[id]? = some d →
        ∃ compilation ∈ r.compiled, ∃ ref ∈ Stmt.listReferences [] compilation.program,
          ref.mention = ⟨id, name, .read⟩ ∧ ref.distance? = some d ∧
          ∃ scope frame, ref.place[d]? = some scope ∧ cx.env[d]? = some frame ∧
            .entered scope.region (cx.env.drop (d + 1)) frame ∈ earlier ∧
            (s.findAt? cx.env d name).isSome := by
  refine ⟨feedAll_session inputs _, ?_⟩
  intro later cx id name s earlier d hevents hlocal
  rcases ((valid_start options host).feedAll inputs).sound with ⟨made, hsound⟩
  have hall := hsound.events
  change AllJustified _ ((start options host).feedAll inputs).events at hall
  rw [hevents] at hall
  rcases hall.split d hlocal with ⟨ref, ⟨compilation, hcompiled, href⟩, hread⟩
  exact ⟨compilation, hcompiled, ref, href, hread⟩

/-- A function is left with a variable of the call it was made in, and called on the next line. -/
def laterCall : List Input :=
  [⟨.empty, 20, ⟨"REPL",
    "function Counter(First : Integer); begin " ++
    "function Next; begin exit First + 1; end " ++
    "exit Next; end " ++
    "var C := Counter(1);"⟩⟩,
    ⟨.empty, 20, ⟨"REPL", "print C();"⟩⟩]

/-- The distance at which an event reads a name. -/
def readDistance? : Event → Option Nat
  | .read cx id _ _ => cx.locals[id]?
  | _ => none

theorem reads_declaring_frame_later :
    let r := (start {} (.still 0)).feedAll laterCall
    ∃ cx id name s earlier, r.events = .read cx id name s :: earlier ∧
      cx.locals[id]? = some 1 ∧
      ∃ compilation ∈ r.compiled, ∃ ref ∈ Stmt.listReferences [] compilation.program,
        ref.mention = ⟨id, name, .read⟩ ∧ ref.distance? = some 1 ∧
        ∃ scope frame, ref.place[1]? = some scope ∧ cx.env[1]? = some frame ∧
          .entered scope.region (cx.env.drop 2) frame ∈ earlier ∧
          (s.findAt? cx.env 1 name).isSome := by
  have hhead :
      ((start {} (.still 0)).feedAll laterCall).events.head?.bind readDistance? = some 1 := by
    decide +kernel
  cases hevents : ((start {} (.still 0)).feedAll laterCall).events with
  | nil =>
      rw [hevents] at hhead
      cases hhead
  | cons event earlier =>
      rw [hevents] at hhead
      cases event with
      | read cx id name s =>
          exact ⟨cx, id, name, s, earlier, hevents, hhead,
            (reads_declaring_frame {} (.still 0) laterCall).2 [] cx id name s earlier 1 hevents
              hhead⟩
      | _ => cases hhead

end RecordedSession

end MiniPascal
