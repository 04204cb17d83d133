import MiniPascal.Proofs.Machine.Erasure
import MiniPascal.Proofs.Machine.StatementHistory
import MiniPascal.Session

/-!
# Subtypes and ancestors

A machine runs programs and tests one after the other, with a record of all of them.  At each moment
the classes of all instances are declared, with their ancestors.  The names above the name of a
class in the table of parents are those of its proper ancestors, as long as no other class has taken
the name of one of them and extends a class of another name.
-/

namespace MiniPascal

/-! ## Tasks -/

/-- What a machine can be asked to do. -/
inductive Task where
  | addLocals (locals : Locals)
  | clearOutput
  | interpret (fuel : Nat) (statements : List Stmt)
  | runTests (fuel : Nat) (filter : Option String) (statements : List Stmt)

namespace Machine

def perform (m : Machine) : Task → Machine
  | .addLocals locals => m.addLocals locals
  | .clearOutput => m.clearOutput
  | .interpret fuel statements => (m.interpret fuel statements).2
  | .runTests fuel filter statements => (m.runTests fuel filter statements).2

def performAll (m : Machine) (tasks : List Task) : Machine :=
  tasks.foldl perform m

end Machine

theorem Session.exists_performAll_of_feed (session : Session) (files : FileTree) (fuel : Nat)
    (source : Source) : ∃ tasks,
      (session.feed files fuel source).2.machine = session.machine.performAll tasks := by
  unfold Session.feed
  dsimp only
  split
  · exact ⟨[.clearOutput], rfl⟩
  · next compilation compiler _ =>
      exact ⟨[.clearOutput, .addLocals compilation.locals, .interpret fuel compilation.program], rfl⟩

/-! ## Recorded tasks -/

/-- A machine with the record of all its runs. -/
structure RecordedMachine where
  machine : Machine
  events : List Event

namespace RecordedMachine

def start (host : Host) : RecordedMachine where
  machine := .start host
  events := []

def traced (r : RecordedMachine) : Traced where
  store := r.machine.store
  events := r.events

/-- The machine with another store and its record. -/
def withTraced (r : RecordedMachine) (t : Traced) : RecordedMachine where
  machine := { r.machine with store := t.store }
  events := t.events

def interpret (r : RecordedMachine) (fuel : Nat) (statements : List Stmt) :
    Except Signal Unit × RecordedMachine :=
  match Trace.program r.machine fuel statements r.traced with
  | .ok _ t => (.ok (), r.withTraced t)
  | .error signal t => (.error signal, r.withTraced t)

def runTest (fuel : Nat) (r : RecordedMachine) (name : Token) : RecordedMachine :=
  match r.machine.testFunction? name.lexeme with
  | none => r
  | some test =>
      r.withTraced (Trace.ended (Trace.callFn r.machine.context fuel test [] r.traced))

def runTests (r : RecordedMachine) (fuel : Nat) (filter : Option String)
    (statements : List Stmt) : RecordedMachine :=
  match r.interpret fuel statements with
  | (.error _, r) => r
  | (.ok _, r) => (Machine.testNames filter [] statements).foldl (runTest fuel) r

def perform (r : RecordedMachine) : Task → RecordedMachine
  | .addLocals locals => { r with machine := r.machine.addLocals locals }
  | .clearOutput => { r with machine := r.machine.clearOutput }
  | .interpret fuel statements => (r.interpret fuel statements).2
  | .runTests fuel filter statements => r.runTests fuel filter statements

def performAll (r : RecordedMachine) (tasks : List Task) : RecordedMachine :=
  tasks.foldl perform r

/-- The present moment, and all those that were recorded. -/
def moments (r : RecordedMachine) : List Moment :=
  ⟨r.machine.store, []⟩ :: r.events.flatMap Event.moments

/-! ## The machine without its record -/

theorem interpret_machine (r : RecordedMachine) (fuel : Nat) (statements : List Stmt) :
    r.machine.interpret fuel statements =
      ((r.interpret fuel statements).1, (r.interpret fuel statements).2.machine) := by
  have herases := Trace.program_erases r.machine fuel statements r.traced
  unfold Machine.interpret interpret
  rw [show r.machine.store = r.traced.store from rfl, ← herases]
  cases Trace.program r.machine fuel statements r.traced with
  | ok _ t => rfl
  | error signal t => rfl

theorem runTest_machine (r : RecordedMachine) (fuel : Nat) (name : Token) :
    (r.machine.runTest fuel name).2 = (runTest fuel r name).machine := by
  unfold Machine.runTest runTest
  cases r.machine.testFunction? name.lexeme with
  | none => rfl
  | some test =>
      have herases := Trace.callFn_erases r.machine.context fuel test [] r.traced
      dsimp only
      rw [show r.machine.store = r.traced.store from rfl, ← herases]
      cases Trace.callFn r.machine.context fuel test [] r.traced with
      | ok _ t => rfl
      | error failure t => rfl

theorem runEach_machine (fuel : Nat) (names : List Token) (r : RecordedMachine) :
    (Machine.runEach fuel r.machine names).2 = (names.foldl (runTest fuel) r).machine := by
  induction names generalizing r with
  | nil => rfl
  | cons name rest ih =>
      rw [List.foldl_cons, ← ih, ← runTest_machine]
      rfl

theorem perform_machine (r : RecordedMachine) (task : Task) :
    (r.perform task).machine = r.machine.perform task := by
  cases task with
  | addLocals locals => rfl
  | clearOutput => rfl
  | interpret fuel statements =>
      show _ = (r.machine.interpret fuel statements).2
      rw [interpret_machine]
      rfl
  | runTests fuel filter statements =>
      show (r.runTests fuel filter statements).machine =
        (r.machine.runTests fuel filter statements).2
      unfold Machine.runTests runTests
      rw [interpret_machine]
      rcases r.interpret fuel statements with ⟨result, r'⟩
      cases result with
      | error signal => rfl
      | ok _ => exact (runEach_machine fuel _ r').symm

theorem performAll_machine (r : RecordedMachine) (tasks : List Task) :
    (r.performAll tasks).machine = r.machine.performAll tasks := by
  induction tasks generalizing r with
  | nil => rfl
  | cons task rest ih =>
      have hrest := ih (r.perform task)
      rw [perform_machine] at hrest
      exact hrest

/-! ## Moments of a machine -/

/-- The store and all recorded moments were reached with classes declared. -/
def Reached (r : RecordedMachine) : Prop :=
  ∃ history, r.traced.Reached history

namespace Reached

variable {r : RecordedMachine}

theorem start (host : Host) : (RecordedMachine.start host).Reached :=
  ⟨[], .initial, List.forall_mem_nil _⟩

theorem interpret (h : r.Reached) (fuel : Nat) (statements : List Stmt) :
    (r.interpret fuel statements).2.Reached := by
  rcases h with ⟨history, h⟩
  have hended := (Trace.program_leads r.machine fuel statements h).ended
  unfold RecordedMachine.interpret
  cases hrun : Trace.program r.machine fuel statements r.traced with
  | ok _ t =>
      rw [hrun] at hended
      rcases hended with ⟨later, -, ht⟩
      exact ⟨later, ht⟩
  | error signal t =>
      rw [hrun] at hended
      rcases hended with ⟨later, -, ht⟩
      exact ⟨later, ht⟩

theorem runTest (h : r.Reached) (fuel : Nat) (name : Token) :
    (RecordedMachine.runTest fuel r name).Reached := by
  unfold RecordedMachine.runTest
  split
  · exact h
  · next test _ =>
      rcases h with ⟨history, h⟩
      rcases (Trace.callFn_leads r.machine.context fuel test [] history r.traced h
        (List.forall_mem_nil _)).ended with ⟨later, -, ht⟩
      exact ⟨later, ht⟩

theorem perform (h : r.Reached) (task : Task) : (r.perform task).Reached := by
  cases task with
  | addLocals locals => exact h
  | clearOutput =>
      rcases h with ⟨history, h⟩
      exact ⟨history, h.store.counted rfl rfl rfl rfl rfl rfl, h.moments⟩
  | interpret fuel statements => exact h.interpret fuel statements
  | runTests fuel filter statements =>
      have hbefore := h.interpret fuel statements
      show (r.runTests fuel filter statements).Reached
      unfold RecordedMachine.runTests
      rcases hrun : r.interpret fuel statements with ⟨result, r'⟩
      rw [hrun] at hbefore
      cases result with
      | error signal => exact hbefore
      | ok _ =>
          exact List.foldlRecOn _ _ hbefore fun r' h' name _ => h'.runTest fuel name

theorem performAll (h : r.Reached) (tasks : List Task) : (r.performAll tasks).Reached :=
  List.foldlRecOn _ _ h fun _ h' task _ => h'.perform task

theorem moment (h : r.Reached) {moment : Moment} (hmoment : moment ∈ r.moments) :
    ∃ history, moment.Reached history := by
  rcases h with ⟨history, h⟩
  rcases List.mem_cons.mp hmoment with rfl | hmoment
  · exact h.moment _ List.mem_cons_self
  · rcases List.mem_flatMap.mp hmoment with ⟨event, hevent, hmoment⟩
    exact h.moments event hevent moment hmoment

end Reached

end RecordedMachine

/-- A value that a store holds or that is at hand. -/
def Moment.Live (moment : Moment) (value : Value) : Prop :=
  moment.store.Holds value ∨ value ∈ moment.atHand

theorem Moment.Reached.within {history : List Class} {moment : Moment}
    (h : moment.Reached history) {value : Value} (hvalue : moment.Live value) :
    value.Within history := by
  rcases hvalue with hheld | hhand
  · exact h.store.within hheld
  · exact h.atHand value hhand

namespace RecordedMachine

/-- Whatever a machine runs, at each moment the class of a live instance is declared, and so are its
ancestors.  As long as the class declared last under the name of each of them has a parent of the
same name, and the one declared last under the name `Any` has none, the names other than `Any` that
are supertypes of the class are those of its proper ancestors, in any letter case. -/
theorem supertypes_are_ancestors (host : Host) (tasks : List Task) :
    let r := (start host).performAll tasks
    r.machine = (Machine.start host).performAll tasks ∧
      ∀ moment ∈ r.moments, (∃ history, moment.Reached history) ∧
        ∀ history, moment.Reached history → ∀ self, moment.Live (.object self) →
          (∀ ancestor ∈ self.cls.ancestry, ancestor ∈ history) ∧
            (Class.AnyOnTop history → (∀ ancestor ∈ self.cls.ancestry, ancestor.Current history) →
              ∀ typeName, Text.sameName typeName anyType = false →
                (isSubtype moment.store.parents typeName self.cls.name = true ↔
                  ∃ ancestor ∈ self.cls.ancestry.tail,
                    Text.sameName typeName ancestor.name = true)) := by
  refine ⟨performAll_machine _ tasks, fun moment hmoment => ⟨?_, ?_⟩⟩
  · exact ((Reached.start host).performAll tasks).moment hmoment
  · intro history hreached self hself
    refine ⟨hreached.store.ancestors (hreached.within hself), ?_⟩
    intro htop hcurrent typeName hany
    exact hreached.store.isSubtype_iff htop hany self.cls hcurrent

/-- The instance that something is called with last. -/
def lastArgument? (r : RecordedMachine) : Option (Moment × Instance) :=
  match r.events with
  | .called _ _ _ target [.object self] after :: _ => some (⟨after, [target, .object self]⟩, self)
  | _ => none

theorem live_of_lastArgument? {r : RecordedMachine} {moment : Moment} {self : Instance}
    (h : r.lastArgument? = some (moment, self)) :
    moment ∈ r.moments ∧ moment.Live (.object self) := by
  unfold lastArgument? at h
  split at h
  · next hevents =>
      cases h
      refine ⟨List.mem_cons_of_mem _ ?_, .inr (List.mem_cons_of_mem _ List.mem_cons_self)⟩
      rw [hevents]
      exact List.mem_cons_of_mem _ List.mem_cons_self
  · cases h

/-- A class, and the class that it extends with the number of the reference to it. -/
def exampleClass (name : String) (parent : Option (NodeId × String)) : Stmt :=
  let token (name : String) : Token := ⟨.identifier, name, .start, ""⟩
  .classDecl ⟨token name, parent.map fun entry => ⟨entry.1, token entry.2⟩, [], [], []⟩

/-- An instance of `B` is passed to a function. -/
def exampleCall : Stmt :=
  let token (name : String) : Token := ⟨.identifier, name, .start, ""⟩
  .expression (.call (.variable 2 (token "Str")) (token ")")
    [.call (.variable 3 (token "B")) (token ")") []])

/-- `B` extends `A`. -/
def extended : List Task :=
  [.interpret 9 [exampleClass "A" none, exampleClass "C" none, exampleClass "B" (some (0, "A")),
    exampleCall]]

/-- Then another `B`, in a block, extends `C`. -/
def shadowed : List Task :=
  extended ++ [.interpret 9 [.block [exampleClass "B" (some (1, "C"))], exampleCall]]

/-- A class `B` extends `A`, and `a` is a supertype of it.  Once another `B` extends another class,
`A` is none any more, although it is still the parent of the class of the same instance. -/
theorem supertypes_are_ancestors_shadowed :
    (∃ moment ∈ ((start (.still 0)).performAll extended).moments, ∃ self,
      moment.Live (.object self) ∧ isSubtype moment.store.parents "a" self.cls.name = true) ∧
    ∃ moment ∈ ((start (.still 0)).performAll shadowed).moments, ∃ self,
      moment.Live (.object self) ∧ isSubtype moment.store.parents "A" self.cls.name = false ∧
        ∃ ancestor ∈ self.cls.ancestry.tail, Text.sameName "A" ancestor.name = true := by
  have hextended : (((start (.still 0)).performAll extended).lastArgument?.map fun last =>
      (last.2.cls.ancestry.all fun cls =>
          decide (last.1.store.parents.find? cls.name = some cls.parentName),
        last.2.cls.ancestry.tail.map Class.name, last.1.store.parents.find? anyType)) =
      some (true, ["A"], none) := by decide +kernel
  have hshadowed : (((start (.still 0)).performAll shadowed).lastArgument?.map fun last =>
      (isSubtype last.1.store.parents "A" last.2.cls.name,
        last.2.cls.ancestry.tail.map Class.name)) = some (false, ["A"]) := by decide +kernel
  have hancestor {self : Instance} (h : self.cls.ancestry.tail.map Class.name = ["A"])
      {typeName : String} (hname : Text.sameName typeName "A" = true) :
      ∃ ancestor ∈ self.cls.ancestry.tail, Text.sameName typeName ancestor.name = true := by
    have hmem : "A" ∈ self.cls.ancestry.tail.map Class.name := by rw [h]; exact List.mem_cons_self
    rcases List.mem_map.mp hmem with ⟨ancestor, hancestor, hsame⟩
    exact ⟨ancestor, hancestor, hsame ▸ hname⟩
  constructor
  · rcases Option.map_eq_some_iff.mp hextended with ⟨⟨moment, self⟩, hlast, hfacts⟩
    rcases Prod.mk.inj hfacts with ⟨hparents, hfacts⟩
    rcases Prod.mk.inj hfacts with ⟨hnames, hany⟩
    rcases live_of_lastArgument? hlast with ⟨hmoment, hlive⟩
    rcases (supertypes_are_ancestors (.still 0) extended).2 moment hmoment with
      ⟨⟨history, hreached⟩, hall⟩
    have htop : Class.AnyOnTop history := by
      intro last hlast
      rw [hreached.store.parents, hlast] at hany
      cases hany
    have hcurrent : ∀ ancestor ∈ self.cls.ancestry, ancestor.Current history :=
      fun ancestor hancestor => hreached.store.current_iff.mpr
        (of_decide_eq_true (List.all_eq_true.mp hparents ancestor hancestor))
    refine ⟨moment, hmoment, self, hlive, ?_⟩
    exact ((hall history hreached self hlive).2 htop hcurrent "a" (by decide)).mpr
      (hancestor hnames (by decide))
  · rcases Option.map_eq_some_iff.mp hshadowed with ⟨⟨moment, self⟩, hlast, hfacts⟩
    rcases Prod.mk.inj hfacts with ⟨hsubtype, hnames⟩
    rcases live_of_lastArgument? hlast with ⟨hmoment, hlive⟩
    exact ⟨moment, hmoment, self, hlive, hsubtype, hancestor hnames (by decide)⟩

end RecordedMachine

end MiniPascal
