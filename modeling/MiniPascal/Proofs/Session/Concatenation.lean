import MiniPascal.Proofs.Machine.Rerun
import MiniPascal.Proofs.Scope.Sequencing
import MiniPascal.Proofs.Session.Recording

/-!
# Sources fed one by one and all at once

The programs that a session compiles and runs one after the other have numbers of their own.  Put
one behind the other, they are resolved to the distances of all of them, and one run of the whole
on a new machine does what the session did.
-/

namespace MiniPascal

namespace Stmt

/-- The numbers of the references of a program. -/
def numbers (program : List Stmt) : List NodeId :=
  (listReferences [] program).map fun r => r.mention.id

theorem numbers_append (xs ys : List Stmt) : numbers (xs ++ ys) = numbers xs ++ numbers ys := by
  rw [numbers, Compile.listReferences_append_nil, List.map_append]
  rfl

theorem NumberedProgram.append {first middle limit : NodeId} {xs ys : List Stmt}
    (hxs : NumberedProgram Declarable first xs middle)
    (hys : NumberedProgram Declarable middle ys limit) :
    NumberedProgram Declarable first (xs ++ ys) limit := by
  refine ⟨tidyList_append hxs.tidy hys.tidy, ?_⟩
  simpa only [Compile.listReferences_append_nil, Compile.listVariables_append_nil] using
    hxs.settled.append hys.settled

theorem NumberedProgram.bounds {first limit id : NodeId} {xs : List Stmt}
    (h : NumberedProgram Declarable first xs limit) (hid : id ∈ numbers xs) :
    first ≤ id ∧ id < limit := by
  rcases List.mem_map.mp hid with ⟨r, hr, rfl⟩
  exact h.settled.bounds [] r hr

end Stmt

namespace Compilation

/-- The statements of programs, one program behind the other. -/
def joined (compilations : List Compilation) : List Stmt :=
  compilations.flatMap program

def allLocals (compilations : List Compilation) : Locals :=
  compilations.foldl (fun locals compilation => locals ∪ compilation.locals) ∅

theorem joined_append (xs ys : List Compilation) : joined (xs ++ ys) = joined xs ++ joined ys :=
  List.flatMap_append

theorem mem_numbers_joined {compilation : Compilation} {id : NodeId} :
    ∀ {compilations : List Compilation}, compilation ∈ compilations →
      id ∈ Stmt.numbers compilation.program → id ∈ Stmt.numbers (joined compilations)
  | first :: rest, hmem, hid => by
      rw [joined, List.flatMap_cons, Stmt.numbers_append, List.mem_append]
      rcases List.mem_cons.mp hmem with rfl | hmem
      · exact .inl hid
      · exact .inr (mem_numbers_joined hmem hid)

theorem getElem?_foldl_union (id : NodeId) : ∀ (compilations : List Compilation) (base : Locals),
    (compilations.foldl (fun locals compilation => locals ∪ compilation.locals) base)[id]? =
      ((allLocals compilations)[id]?).or base[id]?
  | [], base => by
      show base[id]? = ((∅ : Locals)[id]?).or base[id]?
      rw [Std.TreeMap.getElem?_emptyc, Option.none_or]
  | compilation :: rest, base => by
      rw [allLocals, List.foldl_cons, List.foldl_cons, getElem?_foldl_union id rest,
        getElem?_foldl_union id rest, Std.TreeMap.getElem?_union, Std.TreeMap.getElem?_union,
        Std.TreeMap.getElem?_emptyc, Option.or_none, Option.or_assoc]

theorem getElem?_allLocals_append (xs ys : List Compilation) (id : NodeId) :
    (allLocals (xs ++ ys))[id]? = ((allLocals ys)[id]?).or (allLocals xs)[id]? := by
  rw [allLocals, List.foldl_append]
  exact getElem?_foldl_union id ys (allLocals xs)

end Compilation

open Compilation

namespace Session

/-- Compiles a source and runs the program if there is one.  There is no session behind a run that
does not end normally. -/
def run? (session : Session) (input : Input) : Option (List Compilation × Session) :=
  match session.compiler.compile input.files input.source with
  | (.error _, compiler) => some ([], { session with compiler })
  | (.ok compilation, compiler) =>
      match (session.machine.addLocals compilation.locals).interpret input.fuel
          compilation.program with
      | (.ok _, machine) => some ([compilation], { compiler, machine })
      | (.error _, _) => none

/-- Compiles and runs sources one after the other. -/
def runAll? : Session → List Input → Option (List Compilation × Session)
  | session, [] => some ([], session)
  | session, input :: rest => do
      let (first, next) ← session.run? input
      let (others, last) ← next.runAll? rest
      return (first ++ others, last)

theorem within_of_le {first limit : NodeId} (hle : first ≤ limit) (decl : Function)
    (h : decl.Within (· < first)) : decl.Within (· < limit) :=
  h.imp fun _ hid => Nat.lt_of_lt_of_le hid hle

/-- The programs that take a session from one state to another. -/
structure Advances (session : Session) (compilations : List Compilation) (session' : Session)
    (fuel : Nat) : Prop where
  numbered : Stmt.NumberedProgram Declarable session.compiler.nextId (joined compilations)
    session'.compiler.nextId
  disjoint : compilations.Pairwise fun a b =>
    (Stmt.numbers a.program).Disjoint (Stmt.numbers b.program)
  accepted : Diagnostic.anyError (Resolution.program (joined compilations)).diagnostics = false
  resolved : ∀ id : NodeId, (Resolution.program (joined compilations)).locals[id]? =
    (allLocals compilations)[id]?
  locals : ∀ id : NodeId, session'.machine.locals[id]? =
    ((allLocals compilations)[id]?).or session.machine.locals[id]?
  /-- A run of the whole needs distances that agree with those of the session in the end. -/
  again : session.machine.store.Carries (FunctionDecl.Within (· < session.compiler.nextId)) →
    session'.machine.store.Carries (FunctionDecl.Within (· < session'.compiler.nextId)) ∧
      ∀ locals : Locals,
        (∀ id < session'.compiler.nextId, locals[id]? = session'.machine.locals[id]?) →
          ∀ fuel', fuel ≤ fuel' →
            Machine.interpret { session.machine with locals } fuel' (joined compilations) =
              (.ok (), { session'.machine with locals })

namespace Advances

variable {fuel : Nat}

theorem more {session session' : Session} {compilations : List Compilation} {fuel' : Nat}
    (h : Advances session compilations session' fuel) (hfuel : fuel ≤ fuel') :
    Advances session compilations session' fuel' := by
  refine ⟨h.numbered, h.disjoint, h.accepted, h.resolved, h.locals, fun hstore => ?_⟩
  refine ⟨(h.again hstore).1, fun locals hlocals fuel'' hle => ?_⟩
  exact (h.again hstore).2 locals hlocals fuel'' (Nat.le_trans hfuel hle)

/-- A compiler that has moved on, with nothing compiled. -/
theorem skip {session : Session} {compiler : Compiler}
    (hle : session.compiler.nextId ≤ compiler.nextId) :
    Advances session [] { session with compiler } fuel := by
  refine ⟨⟨trivial, Aligned.of_nil hle fun _ => rfl⟩, .nil, rfl, fun _ => rfl, fun id => ?_,
    fun hstore => ⟨?_, fun locals _ fuel' _ => rfl⟩⟩
  · rw [show (allLocals [])[id]? = none from Std.TreeMap.getElem?_emptyc, Option.none_or]
  · exact hstore.imp (within_of_le hle)

/-- Distances are recorded for the numbers of the programs only. -/
theorem allLocals_none {session session' : Session} {compilations : List Compilation}
    (h : Advances session compilations session' fuel) {id : NodeId}
    (hid : id < session.compiler.nextId) : (allLocals compilations)[id]? = none := by
  rw [← h.resolved id]
  refine Option.eq_none_iff_forall_ne_some.mpr fun d hd => ?_
  exact absurd hid (Nat.not_lt.mpr (Resolution.bounds_of_local h.numbered hd).1)

theorem trans {first second third : Session} {xs ys : List Compilation}
    (hxs : Advances first xs second fuel) (hys : Advances second ys third fuel) :
    Advances first (xs ++ ys) third fuel := by
  have hover := Resolution.program_append hxs.numbered (joined ys)
  refine ⟨?_, ?_, ?_, fun id => ?_, fun id => ?_, fun hstore => ?_⟩
  · rw [joined_append]
    exact hxs.numbered.append hys.numbered
  · refine List.pairwise_append.mpr ⟨hxs.disjoint, hys.disjoint, ?_⟩
    intro a ha b hb id hida hidb
    have hfirst := hxs.numbered.bounds (mem_numbers_joined ha hida)
    have hsecond := hys.numbered.bounds (mem_numbers_joined hb hidb)
    exact absurd hfirst.2 (Nat.not_lt.mpr hsecond.1)
  · rw [joined_append, hover.diagnostics, Diagnostic.anyError, List.any_append,
      Bool.or_eq_false_iff]
    exact ⟨hxs.accepted, hys.accepted⟩
  · rw [joined_append, hover.locals id, hxs.resolved id, hys.resolved id,
      getElem?_allLocals_append]
  · rw [hys.locals id, hxs.locals id, getElem?_allLocals_append, Option.or_assoc]
  · rcases hxs.again hstore with ⟨hstore₁, hrun₁⟩
    rcases hys.again hstore₁ with ⟨hstore₂, hrun₂⟩
    refine ⟨hstore₂, fun locals hlocals fuel' hfuel => ?_⟩
    have hkept : ∀ id < second.compiler.nextId, locals[id]? = second.machine.locals[id]? := by
      intro id hid
      rw [hlocals id (Nat.lt_of_lt_of_le hid hys.numbered.settled.le), hys.locals id,
        hys.allLocals_none hid, Option.none_or]
    rw [joined_append, Machine.interpret_append (hrun₁ locals hkept fuel' hfuel)]
    exact hrun₂ locals hlocals fuel' hfuel

end Advances

theorem run?_advances {session session' : Session} {input : Input}
    {compilations : List Compilation} (h : session.run? input = some (compilations, session')) :
    Advances session compilations session' input.fuel := by
  have hnumbers := Compile.compile_numbers input.files input.source session.compiler
  unfold run? at h
  rw [Compiler.compile_run] at h
  cases hcompile : Compile.compile input.files input.source session.compiler with
  | error failure compiler =>
      rw [hcompile] at h hnumbers
      cases h
      exact .skip hnumbers
  | ok compilation compiler =>
      rw [hcompile] at h hnumbers
      rcases hnumbers with ⟨hle, hprogram, haccepted, hlocals⟩
      dsimp only at h
      split at h
      · next machine hrun =>
          cases h
          have hjoined : joined [compilation] = compilation.program := List.append_nil _
          have hall (id : NodeId) : (allLocals [compilation])[id]? = compilation.locals[id]? := by
            show ((∅ : Locals) ∪ compilation.locals)[id]? = _
            rw [Std.TreeMap.getElem?_union, Std.TreeMap.getElem?_emptyc, Option.or_none]
          have hmachine := (Machine.interpret_ok_iff.mp hrun).1
          refine ⟨?_, List.pairwise_singleton _ _, ?_, fun id => ?_, fun id => ?_,
            fun hstore => ?_⟩
          · rw [hjoined]
            exact hprogram
          · rw [hjoined]
            exact haccepted
          · rw [hjoined, hall id, hlocals]
          · rw [hmachine, hall id]
            exact Std.TreeMap.getElem?_union
          · rw [hjoined]
            rcases Machine.interpret_again hrun
              (fun r hr => (hprogram.settled.bounds [] r hr).2)
              (hstore.imp (within_of_le hle)) with ⟨hstore', hagain⟩
            refine ⟨hstore', fun locals hagree fuel' hfuel => hagain locals ?_ fuel' hfuel⟩
            intro id hid
            rw [hagree id hid, hmachine]
      · cases h

theorem runAll?_advances {fuel : Nat} : ∀ {inputs : List Input} {session session' : Session}
    {compilations : List Compilation}, (∀ input ∈ inputs, input.fuel ≤ fuel) →
    session.runAll? inputs = some (compilations, session') →
      Advances session compilations session' fuel
  | [], session, _, _, _, h => by
      cases h
      exact .skip (Nat.le_refl session.compiler.nextId)
  | input :: rest, session, session', compilations, hfuel, h => by
      rcases List.forall_mem_cons.mp hfuel with ⟨hfirst, hrest⟩
      rcases Option.bind_eq_some_iff.mp h with ⟨⟨first, next⟩, hrun, h⟩
      rcases Option.bind_eq_some_iff.mp h with ⟨⟨others, last⟩, hruns, h⟩
      cases h
      exact ((run?_advances hrun).more hfirst).trans (runAll?_advances hrest hruns)

/-! ## Whole sessions -/

/-- Sources are compiled one after the other, those that compile are run, and all runs end normally.
Then no two programs share a number; put one behind the other they are accepted, with the distances
of all of them; and one run of the whole on a new machine with these distances, whose host gives the
same answers in the same order, ends normally with the same store, and so with the same output and
global variables, and after as many calls of the host. -/
theorem run_concatenated (options : CompileOptions) (host : Host) (inputs : List Input)
    (compilations : List Compilation) (session : Session)
    (h : (start options host).runAll? inputs = some (compilations, session)) :
    compilations.Pairwise (fun a b =>
        (Stmt.numbers a.program).Disjoint (Stmt.numbers b.program)) ∧
      Diagnostic.anyError (Resolution.program (joined compilations)).diagnostics = false ∧
      (∀ id : NodeId, (Resolution.program (joined compilations)).locals[id]? =
        (allLocals compilations)[id]?) ∧
      ∀ fuel, (∀ input ∈ inputs, input.fuel ≤ fuel) →
        ∃ machine, ((Machine.start host).addLocals (allLocals compilations)).interpret fuel
            (joined compilations) = (.ok (), machine) ∧
          machine.store = session.machine.store := by
  have hadvances (fuel : Nat) (hfuel : ∀ input ∈ inputs, input.fuel ≤ fuel) :
      Advances (start options host) compilations session fuel := runAll?_advances hfuel h
  have hsome := hadvances ((inputs.map Input.fuel).max?.getD 0) fun input hinput =>
    List.le_max?_getD_of_mem (List.mem_map_of_mem hinput)
  refine ⟨hsome.disjoint, hsome.accepted, hsome.resolved, fun fuel hfuel => ?_⟩
  have hrun := ((hadvances fuel hfuel).again Store.carries_initial).2 (∅ ∪ allLocals compilations)
    (fun id _ => ?_) fuel (Nat.le_refl fuel)
  · exact ⟨_, hrun, rfl⟩
  · rw [hsome.locals id, Std.TreeMap.getElem?_union]
    rfl

/-- A function from the first line is called on the third; the second line has a syntax fault. -/
def interrupted : List Input :=
  [⟨.empty, 20, ⟨"REPL",
    "function Counter(First : Integer); begin " ++
    "function Next; begin First := First + 1; exit First; end " ++
    "exit Next; end " ++
    "var C := Counter(1); var Started := clock();"⟩⟩,
    ⟨.empty, 20, ⟨"REPL", "print C() + ;"⟩⟩,
    ⟨.empty, 20, ⟨"REPL",
    "begin var D := C; print C(); print D(); end var Ended := clock();"⟩⟩]

/-- The clock goes on by a second from call to call. -/
def ticking : Host :=
  { Host.still 0 with clock := Float.ofNat }

/-- The first call and the last one are for the time, and those between them print. -/
theorem run_concatenated_interrupted :
    ∃ compilations session,
      (start { checkTypes := false } ticking).runAll? interrupted = some (compilations, session) ∧
      compilations.length = 2 ∧ session.machine.store.output = "2\n3\n" ∧
      session.machine.store.hostCalls = 4 ∧
      ∃ machine, ((Machine.start ticking).addLocals (allLocals compilations)).interpret 20
          (joined compilations) = (.ok (), machine) ∧
        machine.store = session.machine.store := by
  have hrun : ((start { checkTypes := false } ticking).runAll? interrupted).map (fun result =>
      (result.1.length, result.2.machine.store.output, result.2.machine.store.hostCalls)) =
        some (2, "2\n3\n", 4) := by
    decide +kernel
  rcases Option.map_eq_some_iff.mp hrun with ⟨⟨compilations, session⟩, hsession, hsame⟩
  rcases Prod.mk.inj hsame with ⟨hlength, hsame⟩
  rcases Prod.mk.inj hsame with ⟨houtput, hcalls⟩
  have hfuel : ∀ input ∈ interrupted, input.fuel ≤ 20 := by simp [interrupted]
  exact ⟨compilations, session, hsession, hlength, houtput, hcalls,
    (run_concatenated _ ticking interrupted compilations session hsession).2.2.2 20 hfuel⟩

end Session

end MiniPascal
