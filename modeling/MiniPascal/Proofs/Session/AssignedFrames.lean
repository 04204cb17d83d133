import MiniPascal.Proofs.Session.Courses

/-!
# Frames of assignments

An assignment to a name with a distance binds the name in the frame at that distance, whether or not
the frame has the name.  In compiled programs the frame has it, so no name comes into a frame but by
a declaration.  The exception are assignments to a local variable in its own first value: the
resolver declares the variable before it comes to the first value, and the machine does so after.
-/

namespace MiniPascal

/-- An assignment to a name with a distance, in a frame that there is. -/
theorem Eval.assign_at {cx : Context} {id : NodeId} {d : Nat} {frame : FrameId}
    (hlocal : cx.locals[id]? = some d) (hframe : cx.env[d]? = some frame) (name : Token)
    (value : Value) (s : Store) :
    Eval.assign cx id name value s = .ok value (s.bindIn frame name.lexeme value) := by
  have htarget : Eval.targetFrame? cx id name.lexeme s = .ok (some frame) s := by
    unfold Eval.targetFrame?
    rw [hlocal]
    show EStateM.Result.ok (Store.frameAt? cx.env d) s = _
    rw [Store.frameAt?, List.head?_drop, hframe]
  unfold Eval.assign
  rw [bind_of_ok htarget]
  rfl

theorem Store.sameNames_bindIn {s : Store} {frame : FrameId} {name : String}
    (h : ((s.frame frame).find? name).isSome) (value : Value) :
    s.SameNames (s.bindIn frame name value) := by
  intro other _ key
  rw [find?_bindIn]
  split
  · next hsame =>
      rw [hsame.1.1, hsame.2, h]
      rfl
  · rfl

namespace Entry

/-- A frame has the name of an assignment, before the assigned value is evaluated and after.  Then
the assignment does nothing but bind this name to the value in this frame, and frames keep the names
that they have. -/
structure Rebinds (e : Entry) (earlier : List Entry) (frame : FrameId) (name : String)
    (x : Expr) : Prop where
  bound : ((e.before.store.frame frame).find? name).isSome
  rebound : ∀ result, e.ending = .value result → ∃ between,
    e.FirstValue earlier (some x) result between ∧ ((between.frame frame).find? name).isSome ∧
      e.after.store = between.bindIn frame name result ∧ between.SameNames e.after.store

theorem Stores.rebinds {e : Entry} {earlier : List Entry} {id : NodeId} {name : Token} {x : Expr}
    {d : Nat} {frame : FrameId} (h : e.Stores earlier)
    (hactivity : e.activity = .expression (.assign id name x))
    (hlocal : e.before.cx.locals[id]? = some d) (hframe : e.before.cx.env[d]? = some frame)
    (hbound : ((e.before.store.frame frame).find? name.lexeme).isSome) :
    e.Rebinds earlier frame name.lexeme x := by
  refine ⟨hbound, fun result hending => ?_⟩
  rcases h id name x result hactivity hending with ⟨between, hvalue, hgrows, hassign⟩
  rw [Eval.assign_at hlocal hframe] at hassign
  have hafter : between.bindIn frame name.lexeme result = e.after.store :=
    (EStateM.Result.ok.inj hassign).2
  have hstill := hgrows frame name.lexeme hbound
  refine ⟨between, hvalue, hstill, hafter.symm, ?_⟩
  rw [← hafter]
  exact Store.sameNames_bindIn hstill result

end Entry

namespace Course

/-- Whatever is compiled and run or tested: if the name of an assignment has a distance, the frame
at this distance has the name already, and the assignment binds it anew there and creates no name,
unless it assigns to a local variable in the first value of that variable. -/
theorem assignments_rebind (options : CompileOptions) (host : Host) (jobs : List Job) :
    let c := (start options host).workAll jobs
    c.session = (Session.start options host).workAll jobs ∧
      ∀ later e earlier id name x d, c.runs.entries = later ++ e :: earlier →
        e.activity = .expression (.assign id name x) → e.before.cx.locals[id]? = some d →
          c.AssignsOwn id ∨ ∃ frame, e.before.cx.env[d]? = some frame ∧
            e.Rebinds earlier frame name.lexeme x := by
  intro c
  have htold : c.runs.Told := workAll_told (.start host) jobs
  have hvalid : c.Valid := (valid_start options host).workAll jobs
  refine ⟨workAll_session (.start host) jobs, ?_⟩
  intro later e earlier id name x d hentries hactivity hlocal
  have hvouched := hvalid.vouched.entries.vouched e (by rw [hentries]; simp)
  unfold Entry.Vouched at hvouched
  rw [hactivity] at hvouched
  refine hvouched.2.2.imp_right fun hfinds => ?_
  rcases hfinds d hlocal with ⟨frame, hframe, hbound⟩
  have hfine := htold.fine
  rw [hentries] at hfine
  exact ⟨frame, hframe, hfine.split.stored.rebinds hactivity hlocal hframe hbound⟩

/-- A function counts its calls in a variable of the call that made it. -/
def keptCount : List Job :=
  [⟨⟨.empty, 20, ⟨"main.pas",
    "function Make : Any; begin var N := 0; " ++
    "procedure Next; begin N := N + 1; end exit Next; end var F := Make(); F();"⟩⟩, .run⟩]

/-- Whether an entry is that of an assignment at a distance that has come to a value. -/
def assignsAt (d : Nat) (e : Entry) : Bool :=
  match e.activity, e.ending with
  | .expression (.assign id _ _), .value _ => e.before.cx.locals[id]? == some d
  | _, _ => false

/-- Whether no first value of a variable assigns to a name. -/
def assignsNoFirst (compilation : Compilation) : Bool :=
  (Stmt.listVariables [] compilation.program).all fun var =>
    (Stmt.optionalMentions var.decl.initial).all fun m => m.use != .write

theorem not_assignsOwn_of_assignsNoFirst {c : Course} {id : NodeId}
    (h : c.compiled.all assignsNoFirst = true) : ¬c.AssignsOwn id := by
  rintro ⟨compilation, hcompiled, var, hvar, m, -, hown⟩
  have hvariables := List.all_eq_true.mp h compilation hcompiled
  have hmentions := List.all_eq_true.mp (List.all_eq_true.mp hvariables var hvar) m hown.mem
  rw [hown.write] at hmentions
  cases hmentions

theorem exists_of_assignsAt {entries : List Entry} {d : Nat}
    (h : entries.any (assignsAt d) = true) :
    ∃ later e earlier id name x result, entries = later ++ e :: earlier ∧
      e.activity = .expression (.assign id name x) ∧ e.before.cx.locals[id]? = some d ∧
      e.ending = .value result := by
  rcases List.any_eq_true.mp h with ⟨e, he, hcheck⟩
  rcases List.append_of_mem he with ⟨later, earlier, hentries⟩
  unfold assignsAt at hcheck
  split at hcheck
  · next id name x result hactivity hending =>
      exact ⟨later, e, earlier, id, name, x, result, hentries, hactivity, beq_iff_eq.mp hcheck,
        hending⟩
  · cases hcheck

theorem assignments_rebind_keptCount :
    let c := (start {} (.still 0)).workAll keptCount
    ∃ later e earlier id name x result frame, c.runs.entries = later ++ e :: earlier ∧
      e.activity = .expression (.assign id name x) ∧ e.before.cx.locals[id]? = some 1 ∧
      e.ending = .value result ∧ ¬c.AssignsOwn id ∧ e.before.cx.env[1]? = some frame ∧
      e.Rebinds earlier frame name.lexeme x := by
  have hrebinds := (assignments_rebind {} (.still 0) keptCount).2
  have hchecked : let c := (start {} (.still 0)).workAll keptCount
      c.compiled.all assignsNoFirst = true ∧ c.runs.entries.any (assignsAt 1) = true := by
    decide +kernel
  generalize (start {} (.still 0)).workAll keptCount = c at *
  rcases hchecked with ⟨hplain, hfound⟩
  rcases exists_of_assignsAt hfound with
    ⟨later, e, earlier, id, name, x, result, hentries, hactivity, hlocal, hending⟩
  have hown : ¬c.AssignsOwn id := not_assignsOwn_of_assignsNoFirst hplain
  rcases (hrebinds later e earlier id name x 1 hentries hactivity hlocal).resolve_left hown with
    ⟨frame, hframe, hrebind⟩
  exact ⟨later, e, earlier, id, name, x, result, frame, hentries, hactivity, hlocal, hending, hown,
    hframe, hrebind⟩

/-- The first value of a variable assigns to its own name, which an outer variable has too. -/
def ownAssignment : List Job :=
  [⟨⟨.empty, 20, ⟨"main.pas",
    "var X := 'outer'; begin var X := (X := 'inner'); print X; end print X;"⟩⟩, .run⟩]

/-- Whether an entry is that of an assignment that brings its name into the frame at its
distance. -/
def bringsName (e : Entry) : Bool :=
  match e.activity with
  | .expression (.assign id name _) =>
      match e.before.cx.locals[id]? with
      | some d =>
          match e.before.cx.env[d]? with
          | some frame =>
              ((e.before.store.frame frame).find? name.lexeme).isNone &&
                ((e.after.store.frame frame).find? name.lexeme).isSome
          | none => false
      | none => false
  | _ => false

/-- The assignment creates the variable that it is the first value of. -/
theorem own_assignment_creates :
    let c := (start {} (.still 0)).workAll ownAssignment
    ∃ e ∈ c.runs.entries, ∃ id name x d frame,
      e.activity = .expression (.assign id name x) ∧ e.before.cx.locals[id]? = some d ∧
      e.before.cx.env[d]? = some frame ∧ (e.before.store.frame frame).find? name.lexeme = none ∧
      ((e.after.store.frame frame).find? name.lexeme).isSome := by
  have hfound :
      ((start {} (.still 0)).workAll ownAssignment).runs.entries.any bringsName = true := by
    decide +kernel
  generalize (start {} (.still 0)).workAll ownAssignment = c at *
  rcases List.any_eq_true.mp hfound with ⟨e, he, hcheck⟩
  unfold bringsName at hcheck
  split at hcheck
  · next id name x hactivity =>
      split at hcheck
      · next d hlocal =>
          split at hcheck
          · next frame hframe =>
              rw [Bool.and_eq_true_iff, Option.isNone_iff_eq_none] at hcheck
              exact ⟨e, he, id, name, x, d, frame, hactivity, hlocal, hframe, hcheck.1, hcheck.2⟩
          · cases hcheck
      · cases hcheck
  · cases hcheck

end Course

end MiniPascal
