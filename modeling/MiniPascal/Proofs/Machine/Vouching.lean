import MiniPascal.Proofs.Machine.Chronicle
import MiniPascal.Proofs.Machine.Erasure
import MiniPascal.Proofs.Machine.StatementSoundness

/-!
# Entries of compiled programs

What the resolver promises of the entries of a journal: an assignment has the number of a reference
that writes its name, and no distance that leads astray, and but for some nodes the name is bound at
its distance; where a method of the superclass is looked up, the class and the instance are at their
distances; the declarations at top level are executed in the order in which they are written; and
each activity begins in a sound world, at the place of its code.
The judgement `Vouches` says this of a computation that is run in a sound world; it composes along
`>>=`, and takes over from `Keeps` whatever the evaluator does without entries.
-/

namespace MiniPascal

/-! ## Where activities begin -/

/-- A place for statements: not around a method, nor around all methods of a class. -/
def Place.Inner : Place → Prop
  | [] => True
  | scope :: _ => scope.region.isParent = false ∧ scope.region.isReceiver = false

theorem Place.Inner.open {p : Place} (h : p.Inner) : p.Open := by
  cases p with
  | nil => trivial
  | cons scope outer => exact h.1

theorem Place.Inner.declare {p : Place} {names : List String} (h : p.Inner) :
    (p.declare names).Inner := by
  cases p with
  | nil => exact h
  | cons scope outer => exact h

/-- The environment fits the place at which the code of an activity stands. -/
def Activity.Placed (known : Reference → Prop) (w : World) (env : Env) : Activity → Prop
  | .expression e => ∃ p, Fits w.events w.store p env ∧ Mentioned known p e.mentions
  | .statement s => ∃ p, Fits w.events w.store p env ∧ p.Inner ∧ s.Tidy Declarable
  | .call _ _ => True

/-- An activity begins in a sound world, at the place of its code. -/
structure Activity.Begins (known : Reference → Prop) (w : World) (cx : Context)
    (activity : Activity) : Prop where
  sound : Sound known w
  resolved : Resolved known cx.locals
  placed : activity.Placed known w cx.env

/-! ## Entries -/

namespace Entry

/-- The activity of an entry began in a sound world. -/
def Begun (e : Entry) : Prop :=
  ∃ known w, w.store = e.before.store ∧ e.activity.Begins known w e.before.cx

/-- A method of the superclass has been looked up: the class was at the distance of the number and
the instance one frame nearer, so the method has been bound to the instance, or there is none. -/
def LooksUpSuper (e : Entry) (id : NodeId) (method : Token) : Prop :=
  ∃ nearer superclass self, e.before.cx.locals[id]? = some (nearer + 1) ∧
    e.before.store.findAt? e.before.cx.env (nearer + 1) "super" = some (.class superclass) ∧
    e.before.store.findAt? e.before.cx.env nearer "this" = some (.object self) ∧
    e.ending =
      match superclass.findMethod method.lexeme with
      | some found => .value (.function (e.before.store.bindMethod found self).1)
      | none => .stopped (.failed (.error ⟨method, .undefinedProperty method.lexeme, none⟩))

/-- If a node has a distance, the frame at this distance has the name. -/
def FindsBound (e : Entry) (id : NodeId) (name : String) : Prop :=
  ∀ d, e.before.cx.locals[id]? = some d → ∃ frame, e.before.cx.env[d]? = some frame ∧
    ((e.before.store.frame frame).find? name).isSome

/-- What the resolver promises of an entry.  The nodes in `own` need not find their names. -/
def Vouched (known : Reference → Prop) (own : NodeId → Prop) (e : Entry) : Prop :=
  match e.activity with
  | .expression (.assign id name _) =>
      (∃ r, known r ∧ r.mention = ⟨id, name.lexeme, .write⟩) ∧ e.Quiet ∧
        (own id ∨ e.FindsBound id name.lexeme)
  | .expression (.super id _ method) => e.LooksUpSuper id method
  | _ => True

theorem Vouched.quiet {known : Reference → Prop} {own : NodeId → Prop} {e : Entry}
    (h : e.Vouched known own) : e.Quiet := by
  rcases e with ⟨activity, before, after, ending⟩
  cases activity with
  | expression x =>
      cases x with
      | assign id name value => exact h.2.1
      | _ => trivial
  | _ => trivial

theorem Vouched.mono {known others : Reference → Prop} {own otherOwn : NodeId → Prop}
    (hmore : ∀ r, known r → others r) (hown : ∀ id, own id → otherOwn id) {e : Entry}
    (h : e.Vouched known own) : e.Vouched others otherOwn := by
  rcases e with ⟨activity, before, after, ending⟩
  cases activity with
  | expression x =>
      cases x with
      | assign id name value =>
          rcases h with ⟨⟨r, hr, hmention⟩, hquiet, hbound⟩
          exact ⟨⟨r, hmore r hr, hmention⟩, hquiet, hbound.imp_left (hown id)⟩
      | _ => exact h
  | _ => exact h

/-- The statement of an entry, if it declares names at top level. -/
def topDeclaration? (e : Entry) : Option Stmt :=
  match e.activity with
  | .statement s =>
      if e.before.cx.env.head? = some Store.globalFrame ∧ s.declared ≠ [] then some s else none
  | _ => none

/-- All entries are vouched and were begun in sound worlds, and the declarations at top level are
some of `tops`, in order. -/
structure AllVouched (known : Reference → Prop) (own : NodeId → Prop) (tops : List Stmt)
    (entries : List Entry) : Prop where
  vouched : ∀ e ∈ entries, e.Vouched known own
  begun : ∀ e ∈ entries, e.Begun
  tops : (entries.filterMap topDeclaration?).Sublist tops.reverse

namespace AllVouched

variable {known : Reference → Prop} {own : NodeId → Prop} {tops later : List Stmt}
  {earlier fresh : List Entry}

theorem nil : AllVouched known own tops [] :=
  ⟨List.forall_mem_nil _, List.forall_mem_nil _, List.nil_sublist _⟩

theorem append (h : AllVouched known own tops earlier) (h' : AllVouched known own later fresh) :
    AllVouched known own (tops ++ later) (fresh ++ earlier) where
  vouched := List.forall_mem_append.mpr ⟨h'.vouched, h.vouched⟩
  begun := List.forall_mem_append.mpr ⟨h'.begun, h.begun⟩
  tops := by
    rw [List.filterMap_append, List.reverse_append]
    exact h'.tops.append h.tops

theorem widen (h : AllVouched known own tops earlier) :
    AllVouched known own (tops ++ later) earlier := by
  have hall : AllVouched known own (tops ++ later) ([] ++ earlier) := h.append nil
  rwa [List.nil_append] at hall

theorem mono {others : Reference → Prop} {otherOwn : NodeId → Prop}
    (hmore : ∀ r, known r → others r) (hown : ∀ id, own id → otherOwn id)
    (h : AllVouched known own tops earlier) : AllVouched others otherOwn tops earlier :=
  ⟨fun e he => (h.vouched e he).mono hmore hown, h.begun, h.tops⟩

/-- An entry behind others that declare nothing at top level. -/
theorem cons {e : Entry} (h : AllVouched known own [] earlier) (he : e.Vouched known own)
    (hbegun : e.Begun) (htop : ∀ s, e.topDeclaration? = some s → tops = [s]) :
    AllVouched known own tops (e :: earlier) := by
  have hnone : earlier.filterMap topDeclaration? = [] := List.sublist_nil.mp h.tops
  refine ⟨List.forall_mem_cons.mpr ⟨he, h.vouched⟩, List.forall_mem_cons.mpr ⟨hbegun, h.begun⟩, ?_⟩
  cases hfound : e.topDeclaration? with
  | none =>
      rw [List.filterMap_cons_none hfound, hnone]
      exact List.nil_sublist _
  | some s =>
      rw [List.filterMap_cons_some hfound, hnone, htop s hfound]
      exact List.Sublist.refl _

end AllVouched

end Entry

namespace Place

/-- The statements at a place that declare names at top level. -/
def tops (p : Place) (list : List Stmt) : List Stmt :=
  if p = [] then list.filter fun s => s.declared ≠ [] else []

variable {p : Place}

theorem tops_append (xs ys : List Stmt) : p.tops (xs ++ ys) = p.tops xs ++ p.tops ys := by
  unfold tops
  split
  · exact List.filter_append ..
  · rfl

theorem tops_cons (s : Stmt) (rest : List Stmt) :
    p.tops (s :: rest) = p.tops [s] ++ (p.declare s.declared).tops rest := by
  have hplace : (p.declare s.declared).tops rest = p.tops rest := by
    cases p <;> rfl
  rw [hplace, ← tops_append]
  rfl

theorem tops_of_plain {s : Stmt} (h : s.declared = []) : p.tops [s] = [] := by
  cases p with
  | nil => simp [tops, h]
  | cons scope outer => rfl

end Place

/-! ## The judgement -/

/-- The journal of a run that has got to a world. -/
def World.journal (w : World) (env : Env) (entries : List Entry) : Journal where
  store := w.store
  env := env
  entries := entries

section Judgement

variable (known : Reference → Prop) (own : NodeId → Prop)

/-- A run from `w` in the environment `env` has led to a sound world that extends `w`, and its
entries are vouched; the result satisfies `Q` there, or the error `F`. -/
def Arrives (F : World → ε → Prop) (w : World) (env : Env) (entries : List Entry)
    (tops : List Stmt) (Q : World → α → Prop) : EStateM.Result ε Journal α → Prop
  | .ok value j => ∃ w' fresh, w'.journal env (fresh ++ entries) = j ∧ w.Extends w' ∧
      Sound known w' ∧ Entry.AllVouched known own tops fresh ∧ Q w' value
  | .error e j => ∃ w' fresh, w'.journal env (fresh ++ entries) = j ∧ w.Extends w' ∧
      Sound known w' ∧ Entry.AllVouched known own tops fresh ∧ F w' e

/-- Run from `w` in the environment `env`, the computation leads to a sound world with vouched
entries. -/
def Vouches (F : World → ε → Prop) (x : Journaling ε α) (w : World) (env : Env)
    (tops : List Stmt) (Q : World → α → Prop) : Prop :=
  ∀ entries, Arrives known own F w env entries tops Q (x (w.journal env entries))

end Judgement

theorem Arrives.after {known : Reference → Prop} {own : NodeId → Prop} {F : World → ε → Prop}
    {w w' : World} {env : Env} {entries fresh : List Entry} {tops later : List Stmt}
    {Q : World → α → Prop} {result : EStateM.Result ε Journal α}
    (h : Arrives known own F w' env (fresh ++ entries) later Q result) (hextends : w.Extends w')
    (hall : Entry.AllVouched known own tops fresh) :
    Arrives known own F w env entries (tops ++ later) Q result := by
  cases result with
  | ok value j =>
      rcases h with ⟨w'', fresh', hj, hextends', hsound, hall', hQ⟩
      rw [← List.append_assoc] at hj
      exact ⟨w'', fresh' ++ fresh, hj, hextends.trans hextends', hsound, hall.append hall', hQ⟩
  | error e j =>
      rcases h with ⟨w'', fresh', hj, hextends', hsound, hall', hF⟩
      rw [← List.append_assoc] at hj
      exact ⟨w'', fresh' ++ fresh, hj, hextends.trans hextends', hsound, hall.append hall', hF⟩

namespace Vouches

variable {known : Reference → Prop} {own : NodeId → Prop} {F : World → ε → Prop} {st : Setting}
  {w : World} {env : Env} {tops : List Stmt}

theorem of_ok {x : Journaling ε α} {Q : World → α → Prop} {value : α} (h : Sound known w)
    (hrun : ∀ entries, x (w.journal env entries) = .ok value (w.journal env entries))
    (hQ : Q w value) : Vouches known own F x w env tops Q := by
  intro entries
  rw [hrun]
  exact ⟨w, [], rfl, .refl w, h, .nil, hQ⟩

theorem pure {Q : World → α → Prop} {value : α} (h : Sound known w) (hQ : Q w value) :
    Vouches known own F (Pure.pure value) w env tops Q :=
  of_ok h (fun _ => rfl) hQ

theorem throw {Q : World → α → Prop} {e : ε} (h : Sound known w) (hF : F w e) :
    Vouches known own F (MonadExcept.throw e : Journaling ε α) w env tops Q :=
  fun _ => ⟨w, [], rfl, .refl w, h, .nil, hF⟩

theorem here {x : Tracing ε α} {y : Context → EStateM ε Store α} {Q : World → α → Prop}
    (hx : Keeps known F x w Q) (hsame : Trace.Erases x (y (st.inside env))) :
    Vouches known own F (Journal.here st y) w env tops Q := by
  intro entries
  have herases := hsame w.trace
  change _ = y (st.inside env) w.store at herases
  unfold Keeps at hx
  cases hrun : x w.trace with
  | ok value t =>
      rw [hrun] at hx herases
      rw [Journal.here_of_ok herases.symm]
      rcases hx with ⟨w', rfl, hextends, hsound, hQ⟩
      exact ⟨w', [], rfl, hextends, hsound, .nil, hQ⟩
  | error e t =>
      rw [hrun] at hx herases
      rw [Journal.here_of_error herases.symm]
      rcases hx with ⟨w', rfl, hextends, hsound, hF⟩
      exact ⟨w', [], rfl, hextends, hsound, .nil, hF⟩

/-- A computation of the evaluator that makes no frame and looks up no name. -/
theorem kept {y : Context → EStateM ε Store α} {Q : World → α → Prop}
    (hy : Keeps known F (Trace.keep (y (st.inside env))) w Q) :
    Vouches known own F (Journal.here st y) w env tops Q :=
  here hy (.keep _)

theorem looked {q : Context → Store → α} {Q : World → α → Prop} (h : Sound known w)
    (hQ : Q w (q (st.inside env) w.store)) : Vouches known own F (Journal.look st q) w env tops Q :=
  of_ok h (fun _ => rfl) hQ

theorem look {q : Context → Store → α} {f : α → Journaling ε β} {Q : World → β → Prop}
    (hf : Vouches known own F (f (q (st.inside env) w.store)) w env tops Q) :
    Vouches known own F (Journal.look st q >>= f) w env tops Q :=
  hf

theorem seq {later : List Stmt} {x : Journaling ε α} {f : α → Journaling ε β}
    {Q : World → α → Prop} {R : World → β → Prop} (hx : Vouches known own F x w env tops Q)
    (hf : ∀ w' value, w.Extends w' → Sound known w' → Q w' value →
      Vouches known own F (f value) w' env later R) :
    Vouches known own F (x >>= f) w env (tops ++ later) R := by
  intro entries
  have hfirst := hx entries
  cases hrun : x (w.journal env entries) with
  | error e j =>
      rw [hrun] at hfirst
      rw [bind_of_error hrun]
      rcases hfirst with ⟨w', fresh, hj, hextends, hsound, hall, hF⟩
      exact ⟨w', fresh, hj, hextends, hsound, hall.widen, hF⟩
  | ok value j =>
      rw [hrun] at hfirst
      rw [bind_of_ok hrun]
      rcases hfirst with ⟨w', fresh, rfl, hextends, hsound, hall, hQ⟩
      exact (hf w' value hextends hsound hQ (fresh ++ entries)).after hextends hall

theorem bind {x : Journaling ε α} {f : α → Journaling ε β} {Q : World → α → Prop}
    {R : World → β → Prop} (hx : Vouches known own F x w env [] Q)
    (hf : ∀ w' value, w.Extends w' → Sound known w' → Q w' value →
      Vouches known own F (f value) w' env tops R) : Vouches known own F (x >>= f) w env tops R :=
  hx.seq hf

theorem imp {x : Journaling ε α} {Q R : World → α → Prop} (hx : Vouches known own F x w env tops Q)
    (h : ∀ w' value, w.Extends w' → Sound known w' → Q w' value → R w' value) :
    Vouches known own F x w env tops R := by
  intro entries
  have hrun := hx entries
  cases hx : x (w.journal env entries) with
  | ok value j =>
      rw [hx] at hrun
      rcases hrun with ⟨w', fresh, hj, hextends, hsound, hall, hQ⟩
      exact ⟨w', fresh, hj, hextends, hsound, hall, h w' _ hextends hsound hQ⟩
  | error e j =>
      rw [hx] at hrun
      exact hrun

theorem discard {x : Journaling ε α} {Q : World → α → Prop}
    (hx : Vouches known own F x w env [] Q) :
    Vouches known own F (Functor.discard x : Journaling ε PUnit) w env tops fun _ _ => True := by
  show Vouches known own F (x >>= fun _ => Pure.pure PUnit.unit) w env tops _
  exact hx.bind fun _ _ _ hsound _ => Vouches.pure hsound trivial

theorem within {inner : Env} {x : Journaling ε α} {Q : World → α → Prop}
    (hx : Vouches known own F x w inner tops Q) :
    Vouches known own F (Journal.within inner x) w env tops Q := by
  intro entries
  have hrun := hx entries
  unfold Journal.within
  cases hx : x (w.journal inner entries) with
  | ok value j =>
      rw [hx] at hrun
      rw [show x { w.journal env entries with env := inner } = .ok value j from hx]
      rcases hrun with ⟨w', fresh, rfl, hrest⟩
      exact ⟨w', fresh, rfl, hrest⟩
  | error e j =>
      rw [hx] at hrun
      rw [show x { w.journal env entries with env := inner } = .error e j from hx]
      rcases hrun with ⟨w', fresh, rfl, hrest⟩
      exact ⟨w', fresh, rfl, hrest⟩

theorem noting {activity : Activity} {ending : α → Ending} {signal : ε → Signal}
    {x : Journaling ε α} {Q : World → α → Prop} (hx : Vouches known own F x w env [] Q)
    (hbegins : activity.Begins known w (st.inside env))
    (hvouched : ∀ entries,
      (Journal.entryOf st activity ending signal x (w.journal env entries)).Vouched known own)
    (htop : ∀ s, activity = .statement s → env.head? = some Store.globalFrame →
      s.declared ≠ [] → tops = [s]) :
    Vouches known own F (Journal.noting st activity ending signal x) w env tops Q := by
  have htop' (after : Point) (how : Ending) (s : Stmt)
      (hs : Entry.topDeclaration? ⟨activity, ⟨st.inside env, w.store⟩, after, how⟩ = some s) :
      tops = [s] := by
    unfold Entry.topDeclaration? at hs
    split at hs
    · next s' hactivity =>
        split at hs
        · next hplace =>
            cases hs
            exact htop s hactivity hplace.1 hplace.2
        · cases hs
    · cases hs
  have hbegun (after : Point) (how : Ending) :
      Entry.Begun ⟨activity, ⟨st.inside env, w.store⟩, after, how⟩ :=
    ⟨known, w, rfl, hbegins⟩
  intro entries
  have hrun := hx entries
  have hown := hvouched entries
  unfold Journal.noting
  unfold Journal.entryOf at hown
  cases hx : x (w.journal env entries) with
  | ok value j =>
      rw [hx] at hrun hown
      rcases hrun with ⟨w', fresh, rfl, hextends, hsound, hall, hQ⟩
      exact ⟨w', _ :: fresh, rfl, hextends, hsound, hall.cons hown (hbegun _ _) (htop' _ _),
        hQ⟩
  | error e j =>
      rw [hx] at hrun hown
      rcases hrun with ⟨w', fresh, rfl, hextends, hsound, hall, hF⟩
      exact ⟨w', _ :: fresh, rfl, hextends, hsound, hall.cons hown (hbegun _ _) (htop' _ _),
        hF⟩

theorem expression {e : Expr} {x : Journaling Failure Value} {F : World → Failure → Prop}
    {Q : World → Value → Prop} (hx : Vouches known own F x w env [] Q)
    (hbegins : (Activity.expression e).Begins known w (st.inside env))
    (hvouched : ∀ entries, Entry.Vouched known own
      (Journal.entryOf st (.expression e) .value .failed x (w.journal env entries))) :
    Vouches known own F (Journal.evaluating st (.expression e) x) w env [] Q :=
  hx.noting hbegins hvouched fun _ h => by cases h

theorem called {f : Fn} {arguments : List Value} {x : Journaling Failure Value}
    {F : World → Failure → Prop} {Q : World → Value → Prop}
    (hx : Vouches known own F x w env [] Q) (h : Sound known w)
    (hresolved : Resolved known st.locals) :
    Vouches known own F (Journal.evaluating st (.call f arguments) x) w env [] Q :=
  hx.noting ⟨h, hresolved, trivial⟩ (fun _ => trivial) fun _ h => by cases h

theorem executing {s : Stmt} {x : Journaling Signal Unit} {F : World → Signal → Prop}
    {Q : World → Unit → Prop} (hx : Vouches known own F x w env [] Q)
    (hbegins : (Activity.statement s).Begins known w (st.inside env))
    (htop : env.head? = some Store.globalFrame → s.declared ≠ [] → tops = [s]) :
    Vouches known own F (Journal.executing st s x) w env tops Q := by
  refine hx.noting hbegins (fun _ => trivial) ?_
  rintro _ ⟨rfl⟩
  exact htop

/-! ## Control -/

theorem ofEval {x : Journaling Failure α} {Q : World → α → Prop}
    (hx : Vouches known own (FailureOk known) x w env tops Q) :
    Vouches known own (SignalOk known) (Journal.ofEval x) w env tops Q := by
  intro entries
  have hrun := hx entries
  unfold Journal.ofEval
  cases hx : x (w.journal env entries) with
  | ok value j =>
      rw [hx] at hrun
      exact hrun
  | error failure j =>
      rw [hx] at hrun
      exact hrun

theorem resultOf {body : Journaling Signal Unit} {Q : World → Unit → Prop}
    (hbody : Vouches known own (SignalOk known) body w env tops Q) :
    Vouches known own (FailureOk known) (Journal.resultOf body) w env tops (ValueOk known) := by
  intro entries
  have hrun := hbody entries
  unfold Journal.resultOf
  cases hx : body (w.journal env entries) with
  | ok _ j =>
      rw [hx] at hrun
      rcases hrun with ⟨w', fresh, hj, hextends, hsound, hall, -⟩
      exact ⟨w', fresh, hj, hextends, hsound, hall, trivial⟩
  | error signal j =>
      rw [hx] at hrun
      cases signal with
      | «break» =>
          rcases hrun with ⟨w', fresh, hj, hextends, hsound, hall, -⟩
          exact ⟨w', fresh, hj, hextends, hsound, hall, trivial⟩
      | exit value => exact hrun
      | failed failure => exact hrun

theorem catchError {body : Journaling Signal Unit}
    {handle : RuntimeError → Journaling Signal Unit} {Q : World → Unit → Prop}
    (hbody : Vouches known own (SignalOk known) body w env [] Q)
    (hhandle : ∀ w' error, w.Extends w' → Sound known w' → FailureOk known w' (.error error) →
      Vouches known own (SignalOk known) (handle error) w' env [] Q) :
    Vouches known own (SignalOk known) (Journal.catchError body handle) w env [] Q := by
  intro entries
  have hrun := hbody entries
  unfold Journal.catchError
  cases hx : body (w.journal env entries) with
  | ok _ j =>
      rw [hx] at hrun
      exact hrun
  | error signal j =>
      rw [hx] at hrun
      cases signal with
      | failed failure =>
          cases failure with
          | error error =>
              rcases hrun with ⟨w', fresh, rfl, hextends, hsound, hall, hfailure⟩
              exact (hhandle w' error hextends hsound hfailure _).after hextends hall
          | starved => exact hrun
      | _ => exact hrun

theorem repeatWhile {condition : Journaling Failure Value} {body : Journaling Signal Unit}
    {P : World → Prop} (hP : ∀ w w', w.Extends w' → P w → P w')
    (hcondition : ∀ w, Sound known w → P w →
      Vouches known own (FailureOk known) condition w env [] (ValueOk known))
    (hbody : ∀ w, Sound known w → P w →
      Vouches known own (SignalOk known) body w env [] fun w' _ => P w') :
    ∀ (fuel : Nat) (w : World), Sound known w → P w →
      Vouches known own (SignalOk known) (Journal.repeatWhile condition body fuel) w env []
        fun w' _ => P w' := by
  intro fuel
  induction fuel with
  | zero => exact fun w h _ _ => ⟨w, [], rfl, .refl w, h, .nil, trivial⟩
  | succ fuel ih =>
      intro w h hw entries
      have htest := hcondition w h hw entries
      unfold Journal.repeatWhile
      cases hc : condition (w.journal env entries) with
      | error failure j =>
          rw [hc] at htest
          exact htest
      | ok value j =>
          rw [hc] at htest
          rcases htest with ⟨w₁, fresh, rfl, hx₁, hsound₁, hall₁, -⟩
          have hw₁ := hP w w₁ hx₁ hw
          dsimp only
          cases value.isTruthy with
          | false => exact ⟨w₁, fresh, rfl, hx₁, hsound₁, hall₁, hw₁⟩
          | true =>
              rw [if_pos rfl]
              refine Arrives.after ?_ hx₁ hall₁
              have hround := hbody w₁ hsound₁ hw₁ (fresh ++ entries)
              cases hb : body (w₁.journal env (fresh ++ entries)) with
              | ok _ j =>
                  rw [hb] at hround
                  rcases hround with ⟨w₂, fresh₂, rfl, hx₂, hsound₂, hall₂, hw₂⟩
                  exact (ih w₂ hsound₂ hw₂ _).after hx₂ hall₂
              | error signal j =>
                  rw [hb] at hround
                  cases signal with
                  | «break» =>
                      rcases hround with ⟨w₂, fresh₂, rfl, hx₂, hsound₂, hall₂, -⟩
                      exact ⟨w₂, fresh₂, rfl, hx₂, hsound₂, hall₂, hP w₁ w₂ hx₂ hw₁⟩
                  | exit value => exact hround
                  | failed failure => exact hround

end Vouches

end MiniPascal
