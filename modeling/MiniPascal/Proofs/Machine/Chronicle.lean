import MiniPascal.Proofs.Machine.Bindings
import MiniPascal.Proofs.Machine.Pointer

/-!
# What the entries of a journal tell

Between one entry and the next, frames change in no way but the one that the later entry tells of:
an assignment rebinds its name, and a declaration adds its names to the frame it stands in, or an
overload to the function that it finds there.  So what becomes of a frame and of a function during
a run can be read off the entries.  The judgement `Proceeds` says this of
a computation; it composes along `>>=`, and every evaluation and execution has it, whatever the
distances of names are.
-/

namespace MiniPascal

/-! ## Entries -/

namespace Stmt

/-- Whether a statement has a scope of its own. -/
def opensScope : Stmt → Bool
  | .block _ | .try _ _ _ _ => true
  | _ => false

end Stmt

/-- Whether an activity has a scope of its own. -/
def Activity.opensScope : Activity → Bool
  | .statement s => s.opensScope
  | .call _ _ => true
  | .expression _ => false

/-- Whether an activity binds a name to a function, a class or the value of an expression. -/
def Activity.binds : Activity → Bool
  | .statement (.var _) | .statement (.function _) | .statement (.classDecl _)
  | .expression (.assign _ _ _) => true
  | _ => false

theorem Activity.binds_of_opensScope {activity : Activity} (h : activity.opensScope = true) :
    activity.binds = false := by
  cases activity with
  | statement s => cases s <;> first | rfl | cases h
  | call f arguments => rfl
  | expression x => cases h

/-- Old frames have the same names in both stores. -/
def Store.SameNames (s s' : Store) : Prop :=
  ∀ frame, frame < s.frames.size → ∀ name,
    ((s'.frame frame).find? name).isSome = ((s.frame frame).find? name).isSome

namespace Entry

/-- A value has been assigned to a name. -/
def Assigns (e : Entry) (name : String) : Prop :=
  ∃ id token value result, e.activity = .expression (.assign id token value) ∧
    token.lexeme = name ∧ e.ending = .value result

/-- A name may have come into a frame that did not have it. -/
def Introduces (e : Entry) (frame : FrameId) (name : String) : Prop :=
  (e.before.store.frame frame).find? name = none ∧
    match e.activity with
    | .statement s => e.before.cx.env.head? = some frame ∧ name ∈ s.declared
    | .expression (.assign id token _) => e.before.cx.Introduces id token.lexeme frame name
    | _ => False

/-- An assignment has no distance that leads to a frame without the name, but for the innermost
one. -/
def Quiet (e : Entry) : Prop :=
  match e.activity with
  | .expression (.assign id token _) => ∀ d frame, e.before.cx.locals[id]? = some d →
      e.before.cx.env[d]? = some frame →
        d = 0 ∨ ((e.before.store.frame frame).find? token.lexeme).isSome
  | _ => True

/-- A quiet entry brings names into the innermost frame only. -/
theorem Quiet.head {e : Entry} {frame : FrameId} {name : String} (h : e.Quiet)
    (hnew : e.Introduces frame name) : e.before.cx.env.head? = some frame := by
  rcases e with ⟨activity, before, after, ending⟩
  rcases hnew with ⟨hnone, hnew⟩
  cases activity with
  | statement s => exact hnew.1
  | call f arguments => exact hnew.elim
  | expression x =>
      cases x with
      | assign id token value =>
          rcases hnew with ⟨rfl, d, hdistance, hframe⟩
          rcases h d frame hdistance hframe with rfl | hbound
          · rw [List.head?_eq_getElem?]
            exact hframe
          · dsimp only at hnone
            rw [hnone] at hbound
            cases hbound
      | _ => exact hnew.elim

/-- The first value of a variable has come to `value`, in the store `between`; the entry of its
evaluation, if there was one, is among the earlier ones. -/
def FirstValue (e : Entry) (earlier : List Entry) (initial : Option Expr) (value : Value)
    (between : Store) : Prop :=
  match initial with
  | none => value = .nil
  | some x => ∃ first ∈ earlier, first.activity = .expression x ∧ first.before = e.before ∧
      first.after.store = between ∧ first.ending = .value value

theorem FirstValue.mono {e : Entry} {earlier more : List Entry} {initial : Option Expr}
    {value : Value} {between : Store} (h : e.FirstValue earlier initial value between) :
    e.FirstValue (earlier ++ more) initial value between := by
  cases initial with
  | none => exact h
  | some x =>
      rcases h with ⟨first, hfirst, hrest⟩
      exact ⟨first, List.mem_append_left _ hfirst, hrest⟩

/-- A variable has been declared with its first value. -/
def Initializes (e : Entry) (earlier : List Entry) : Prop :=
  ∀ decl, e.activity = .statement (.var decl) → e.ending = .done →
    ∃ value between, between.define? e.before.cx.env decl.name.lexeme value = some e.after.store ∧
      e.FirstValue earlier decl.initial value between

/-- A value has been evaluated, in a store with all names from before, and then assigned. -/
def Stores (e : Entry) (earlier : List Entry) : Prop :=
  ∀ id name x result, e.activity = .expression (.assign id name x) → e.ending = .value result →
    ∃ between, e.FirstValue earlier (some x) result between ∧ e.before.store.Grows between ∧
      Eval.assign e.before.cx id name result between = .ok result e.after.store

/-- A declaration has found a function under its name, and made an overload of it. -/
def AddsTo (e : Entry) (earlier : List Entry) (f : Fn) : Prop :=
  e.ending = .done ∧ ∃ existing : Fn, existing.id = f.id ∧
    match e.activity with
    | .statement (.function decl) =>
        e.before.store.findHere? e.before.cx.env decl.name.lexeme = some (.function existing)
    | .statement (.var decl) => ∃ added between,
        e.FirstValue earlier decl.initial (.function added) between ∧
          between.findHere? e.before.cx.env decl.name.lexeme = some (.function existing)
    | _ => False

theorem AddsTo.mono {e : Entry} {earlier more : List Entry} {f : Fn} (h : e.AddsTo earlier f) :
    e.AddsTo (earlier ++ more) f := by
  rcases e with ⟨activity, before, after, ending⟩
  rcases h with ⟨hdone, existing, hsame, h⟩
  refine ⟨hdone, existing, hsame, ?_⟩
  cases activity with
  | statement s =>
      cases s with
      | function decl => exact h
      | var decl =>
          rcases h with ⟨added, between, hvalue, hfind⟩
          exact ⟨added, between, hvalue.mono, hfind⟩
      | _ => exact h.elim
  | _ => exact h.elim

/-- What becomes of functions between a store and the one behind an entry. -/
structure Accounted (e : Entry) (earlier : List Entry) (s : Store) : Prop where
  functions : s.overloads.size ≤ e.after.store.overloads.size
  overloads : ∀ f : Fn, f.id < s.overloads.size → ¬e.AddsTo earlier f →
    e.after.store.overloadsOf f = s.overloadsOf f
  declared : ∀ decl, e.activity = .statement (.function decl) → e.ending = .done →
    s = e.before.store ∧ Exec.defineFunction e.before.cx.env decl s = .ok () e.after.store
  classes : ∀ decl, e.activity = .statement (.classDecl decl) → e.ending = .done →
    s = e.before.store ∧ Exec.defineClass e.before.cx decl s = .ok () e.after.store

namespace Accounted

variable {e : Entry} {earlier more : List Entry} {s : Store}

theorem mono (h : e.Accounted earlier s) : e.Accounted (earlier ++ more) s where
  functions := h.functions
  overloads f hf hnot := h.overloads f hf fun hadds => hnot hadds.mono
  declared := h.declared
  classes := h.classes

/-- An entry that is not of a function or a class that has been declared. -/
theorem of_settles (h : s.Settles e.after.store)
    (hother : ∀ s, e.activity = .statement s → e.ending = .done → e.activity.binds = false) :
    e.Accounted earlier s where
  functions := h.functions
  overloads f hf _ := h.overloads f hf
  declared decl hactivity hdone := by
    have hplain := hother _ hactivity hdone
    rw [hactivity] at hplain
    cases hplain
  classes decl hactivity hdone := by
    have hplain := hother _ hactivity hdone
    rw [hactivity] at hplain
    cases hplain

theorem of_var {decl : VarDecl} {value : Value} (hactivity : e.activity = .statement (.var decl))
    (hdone : e.ending = .done) (hvalue : e.FirstValue earlier decl.initial value s)
    (hdefine : s.define? e.before.cx.env decl.name.lexeme value = some e.after.store) :
    e.Accounted earlier s where
  functions := Nat.le_of_eq (Exec.functions_define? hdefine).symm
  overloads f _ hnot := by
    refine Exec.overloadsOf_define? hdefine ?_
    rintro existing added hfind rfl hsame
    refine hnot ⟨hdone, existing, hsame, ?_⟩
    rw [hactivity]
    exact ⟨added, s, hvalue, hfind⟩
  declared decl' hactivity' := by
    rw [hactivity] at hactivity'
    cases hactivity'
  classes decl' hactivity' := by
    rw [hactivity] at hactivity'
    cases hactivity'

theorem of_function {decl : Function} (hactivity : e.activity = .statement (.function decl))
    (hdone : e.ending = .done)
    (hrun : Exec.defineFunction e.before.cx.env decl e.before.store = .ok () e.after.store) :
    e.Accounted earlier e.before.store := by
  have hnew : e.before.store.Settles (e.before.store.newFn decl e.before.cx.env false).2 :=
    .newFn _ _ _ _
  have hdefine : (e.before.store.newFn decl e.before.cx.env false).2.define? e.before.cx.env
      decl.name.lexeme (.function (e.before.store.newFn decl e.before.cx.env false).1) =
        some e.after.store :=
    Exec.define_ok hrun
  refine ⟨?_, ?_, ?_, ?_⟩
  · rw [Exec.functions_define? hdefine]
    exact hnew.functions
  · intro f hf hnot
    rw [← hnew.overloads f hf]
    refine Exec.overloadsOf_define? hdefine ?_
    intro existing _ hfind _ hsame
    refine hnot ⟨hdone, existing, hsame, ?_⟩
    rw [hactivity]
    exact hfind
  · intro decl' hactivity' _
    rw [hactivity] at hactivity'
    cases hactivity'
    exact ⟨rfl, hrun⟩
  · intro decl' hactivity'
    rw [hactivity] at hactivity'
    cases hactivity'

theorem of_class {decl : ClassDecl Stmt} (hactivity : e.activity = .statement (.classDecl decl))
    (hsettles : e.before.store.Settles e.after.store)
    (hrun : Exec.defineClass e.before.cx decl e.before.store = .ok () e.after.store) :
    e.Accounted earlier e.before.store where
  functions := hsettles.functions
  overloads f hf _ := hsettles.overloads f hf
  declared decl' hactivity' := by
    rw [hactivity] at hactivity'
    cases hactivity'
  classes decl' hactivity' _ := by
    rw [hactivity] at hactivity'
    cases hactivity'
    exact ⟨rfl, hrun⟩

end Accounted

/-- What an entry and the earlier ones tell. -/
structure Fine (e : Entry) (earlier : List Entry) : Prop where
  confined : e.activity.opensScope = true → (∀ inner ∈ earlier, inner.Quiet) →
    e.before.store.SameNames e.after.store
  initialized : e.Initializes earlier
  stored : e.Stores earlier

theorem Fine.mono {e : Entry} {earlier more : List Entry} (h : e.Fine earlier) :
    e.Fine (earlier ++ more) where
  confined hscope hquiet :=
    h.confined hscope fun inner hinner => hquiet inner (List.mem_append_left _ hinner)
  initialized decl hactivity hending := by
    rcases h.initialized decl hactivity hending with ⟨value, between, hdefine, hvalue⟩
    exact ⟨value, between, hdefine, hvalue.mono⟩
  stored id name x result hactivity hending := by
    rcases h.stored id name x result hactivity hending with ⟨between, hvalue, hrest⟩
    exact ⟨between, hvalue.mono, hrest⟩

theorem Fine.of_statement {e : Entry} {earlier : List Entry} {s : Stmt}
    (hactivity : e.activity = .statement s) (hscope : s.opensScope = false)
    (h : e.Initializes earlier) : e.Fine earlier where
  confined hopens := by
    rw [hactivity, Activity.opensScope, hscope] at hopens
    cases hopens
  initialized := h
  stored id name x result hassign := by
    rw [hactivity] at hassign
    cases hassign

theorem Fine.of_expression {e : Entry} {earlier : List Entry} {x : Expr}
    (hactivity : e.activity = .expression x) (h : e.Stores earlier) : e.Fine earlier where
  confined hopens := by
    rw [hactivity] at hopens
    cases hopens
  initialized decl hvar := by
    rw [hactivity] at hvar
    cases hvar
  stored := h

theorem Fine.of_plain {e : Entry} {earlier : List Entry} (hscope : e.activity.opensScope = false)
    (hplain : e.activity.binds = false) : e.Fine earlier where
  confined hopens := by
    rw [hscope] at hopens
    cases hopens
  initialized decl hactivity := by
    rw [hactivity] at hplain
    cases hplain
  stored id name x result hactivity := by
    rw [hactivity] at hplain
    cases hplain

end Entry

/-- Every entry is fine with those before it. -/
def Entry.AllFine : List Entry → Prop
  | [] => True
  | e :: earlier => e.Fine earlier ∧ AllFine earlier

namespace Entry.AllFine

theorem append {later earlier : List Entry} (h : AllFine earlier) (h' : AllFine later) :
    AllFine (later ++ earlier) := by
  induction later with
  | nil => exact h
  | cons e rest ih => exact ⟨h'.1.mono, ih h'.2⟩

theorem split {e : Entry} {later earlier : List Entry} (h : AllFine (later ++ e :: earlier)) :
    e.Fine earlier := by
  induction later with
  | nil => exact h.1
  | cons _ rest ih => exact ih h.2

end Entry.AllFine

/-! ## Ways from store to store -/

/-- What entries together tell of bindings and names. -/
abbrev Store.BecomesBy (s : Store) (entries : List Entry) (s' : Store) : Prop :=
  s.Becomes (fun name => ∃ e ∈ entries, e.Assigns name)
    (fun frame name => ∃ e ∈ entries, e.Introduces frame name) s'

theorem Store.BecomesBy.entry {s s' : Store} {entries : List Entry} {e : Entry}
    (h : s.BecomesBy entries s')
    (hbecomes : s'.Becomes e.Assigns e.Introduces e.after.store) :
    s.BecomesBy (e :: entries) e.after.store := by
  refine (h.imp ?_ ?_).trans (hbecomes.imp ?_ ?_)
  · exact fun name ⟨e, he, hname⟩ => ⟨e, List.mem_cons_of_mem _ he, hname⟩
  · exact fun frame name ⟨e, he, hname⟩ => ⟨e, List.mem_cons_of_mem _ he, hname⟩
  · exact fun name hname => ⟨_, List.mem_cons_self, hname⟩
  · exact fun frame name hname => ⟨_, List.mem_cons_self, hname⟩

/-- A store becomes another one in the ways that the entries, the latest first, tell. -/
inductive Passes (s : Store) : List Entry → Store → Prop
  | start : Passes s [] s
  | idle {entries : List Entry} {s' s'' : Store} (h : Passes s entries s') (hlasts : s'.Lasts s'') :
      Passes s entries s''
  | entry {entries : List Entry} {s' : Store} {e : Entry} (h : Passes s entries s')
      (hbecomes : s'.Becomes e.Assigns e.Introduces e.after.store)
      (haccounted : e.Accounted entries s') : Passes s (e :: entries) e.after.store

namespace Passes

variable {s s' s'' : Store} {entries later earlier : List Entry}

theorem trans (h : Passes s earlier s') (h' : Passes s' later s'') :
    Passes s (later ++ earlier) s'' := by
  induction h' with
  | start => exact h
  | idle _ hlasts ih => exact ih.idle hlasts
  | entry _ hbecomes haccounted ih => exact ih.entry hbecomes haccounted.mono

theorem becomes (h : Passes s entries s') : s.BecomesBy entries s' := by
  induction h with
  | start => exact .refl s
  | idle _ hlasts ih => exact ih.trans hlasts.becomes
  | entry h hbecomes _ ih => exact ih.entry hbecomes

/-- The last entry has been made in the store that the run had come to by then. -/
theorem last {e : Entry} (h : Passes s (e :: earlier) s') :
    ∃ before, Passes s earlier before ∧ before.Becomes e.Assigns e.Introduces e.after.store ∧
      e.Accounted earlier before ∧ e.after.store.Lasts s' := by
  generalize hentries : e :: earlier = entries at h
  induction h with
  | start => cases hentries
  | idle _ hlasts ih =>
      rcases ih hentries with ⟨before, hbefore, hbecomes, haccounted, hidle⟩
      exact ⟨before, hbefore, hbecomes, haccounted, hidle.trans hlasts⟩
  | entry h hbecomes haccounted _ =>
      cases hentries
      exact ⟨_, h, hbecomes, haccounted, .refl _⟩

/-- On the way to a store the run passed the store behind each entry. -/
theorem split {e : Entry} (h : Passes s (later ++ e :: earlier) s') :
    Passes s (e :: earlier) e.after.store ∧ e.after.store.BecomesBy later s' := by
  generalize hentries : later ++ e :: earlier = entries at h
  induction h generalizing later with
  | start => simp at hentries
  | idle _ hlasts ih =>
      rcases ih hentries with ⟨hbefore, hafter⟩
      exact ⟨hbefore, hafter.trans hlasts.becomes⟩
  | entry h hbecomes haccounted ih =>
      cases later with
      | nil =>
          cases hentries
          exact ⟨.entry h hbecomes haccounted, .refl _⟩
      | cons first rest =>
          cases hentries
          rcases ih rfl with ⟨hbefore, hafter⟩
          exact ⟨hbefore, hafter.entry hbecomes⟩

end Passes

/-! ## Computations -/

namespace Journal

/-- A journal goes on to another one, with further entries.  Each ended in the context in which it
was begun, with an environment that satisfies `own` or has a new innermost frame. -/
structure Onward (own : Env → Prop) (j : Journal) (fresh : List Entry) (j' : Journal) : Prop where
  env : j'.env = j.env
  entries : j'.entries = fresh ++ j.entries
  passes : Passes j.store fresh j'.store
  fine : Entry.AllFine fresh
  returned : ∀ e ∈ fresh, e.after.cx = e.before.cx
  places : ∀ e ∈ fresh, own e.before.cx.env ∨
    ∀ frame, e.before.cx.env.head? = some frame → j.store.frames.size ≤ frame

namespace Onward

variable {own : Env → Prop} {j j' j'' : Journal} {fresh later : List Entry}

theorem refl (j : Journal) : Onward own j [] j where
  env := rfl
  entries := rfl
  passes := .start
  fine := trivial
  returned e he := by cases he
  places e he := by cases he

theorem trans (h : Onward own j fresh j') (h' : Onward own j' later j'') :
    Onward own j (later ++ fresh) j'' where
  env := h'.env.trans h.env
  entries := by rw [h'.entries, h.entries, List.append_assoc]
  passes := h.passes.trans h'.passes
  fine := h.fine.append h'.fine
  returned e he := (List.mem_append.mp he).elim (h'.returned e) (h.returned e)
  places e he := by
    rcases List.mem_append.mp he with he | he
    · exact (h'.places e he).imp_right fun hnew frame hframe =>
        Nat.le_trans h.passes.becomes.frames (hnew frame hframe)
    · exact h.places e he

theorem lasts (h : Onward own j fresh j') {s : Store} (hlasts : j'.store.Lasts s) :
    Onward own j fresh { j' with store := s } where
  env := h.env
  entries := h.entries
  passes := h.passes.idle hlasts
  fine := h.fine
  returned := h.returned
  places := h.places

theorem imp {own' : Env → Prop} (h : Onward own j fresh j') (hown : ∀ env, own env → own' env) :
    Onward own' j fresh j' where
  env := h.env
  entries := h.entries
  passes := h.passes
  fine := h.fine
  returned := h.returned
  places e he := (h.places e he).imp_left (hown _)

theorem within {env : Env} (h : Onward own { j with env } fresh j') :
    Onward own j fresh { j' with env := j.env } where
  env := rfl
  entries := h.entries
  passes := h.passes
  fine := h.fine
  returned := h.returned
  places := h.places

/-- If all entries are quiet and none was begun in an environment from before, old frames have the
names that they had. -/
theorem sameNames (h : Onward (fun _ => False) j fresh j') (hquiet : ∀ e ∈ fresh, e.Quiet) :
    j.store.SameNames j'.store := by
  intro frame hframe name
  have hbecomes := h.passes.becomes
  cases hbefore : (j.store.frame frame).find? name with
  | some value => exact hbecomes.bound frame name (by rw [hbefore]; rfl)
  | none =>
      rw [Option.isSome_none, Bool.eq_false_iff]
      intro hafter
      rcases hbecomes.names frame hframe name hbefore hafter with ⟨e, he, hnew⟩
      rcases h.places e he with hnever | hplace
      · exact hnever
      · exact Nat.not_le.mpr hframe (hplace frame ((hquiet e he).head hnew))

end Onward

/-- However it ends, the computation goes on from the journal that it is run with; each entry was
begun in an environment that `own` says to belong to the current one, or in one with a new innermost
frame. -/
def Proceeds (own : Env → Env → Prop) (x : Journaling ε α) : Prop :=
  ∀ j, ∃ fresh, Onward (own j.env) j fresh (ended (x j))

/-- Entries in the current environment. -/
abbrev Local : Env → Env → Prop :=
  fun current env => env = current

/-- No entries but in new frames. -/
abbrev Secluded : Env → Env → Prop :=
  fun _ _ => False

namespace Proceeds

variable {own : Env → Env → Prop} {st : Setting}

theorem pure (value : α) : Proceeds own (Pure.pure value : Journaling ε α) :=
  fun j => ⟨[], .refl j⟩

theorem throw (e : ε) : Proceeds own (MonadExcept.throw e : Journaling ε α) :=
  fun j => ⟨[], .refl j⟩

theorem look (f : Context → Store → α) : Proceeds own (Journal.look st f : Journaling ε α) :=
  fun j => ⟨[], .refl j⟩

theorem ended_here (y : Context → EStateM ε Store α) (j : Journal) :
    ended (Journal.here st y j) =
      { j with store := Store.behind (y (st.inside j.env) j.store) } := by
  unfold Journal.here
  cases y (st.inside j.env) j.store <;> rfl

theorem here {y : Context → EStateM ε Store α} (hy : ∀ cx, Steady (y cx)) :
    Proceeds own (Journal.here st y) := by
  intro j
  rw [ended_here]
  exact ⟨[], (Onward.refl j).lasts (hy _ _)⟩

theorem bind {x : Journaling ε α} {f : α → Journaling ε β} (hx : Proceeds own x)
    (hf : ∀ value, Proceeds own (f value)) : Proceeds own (x >>= f) := by
  intro j
  rcases hx j with ⟨fresh, hfirst⟩
  cases hrun : x j with
  | ok value j' =>
      rw [hrun] at hfirst
      rw [bind_of_ok hrun]
      rcases hf value j' with ⟨later, hsecond⟩
      change Onward _ j fresh j' at hfirst
      rw [hfirst.env] at hsecond
      exact ⟨_, hfirst.trans hsecond⟩
  | error e j' =>
      rw [hrun] at hfirst
      rw [bind_of_error hrun]
      exact ⟨fresh, hfirst⟩

theorem imp {own' : Env → Env → Prop} {x : Journaling ε α} (hx : Proceeds own x)
    (hown : ∀ current env, own current env → own' current env) : Proceeds own' x := by
  intro j
  rcases hx j with ⟨fresh, h⟩
  exact ⟨fresh, h.imp (hown j.env)⟩

theorem discard {x : Journaling ε α} (hx : Proceeds own x) :
    Proceeds own (Functor.discard x : Journaling ε PUnit) :=
  hx.bind fun _ => .pure _

theorem within {env : Env} {x : Journaling ε α} (hx : Proceeds Local x) :
    Proceeds (fun _ other => other = env) (Journal.within env x) := by
  intro j
  rcases hx { j with env } with ⟨fresh, h⟩
  refine ⟨fresh, ?_⟩
  unfold Journal.within
  cases hrun : x { j with env } with
  | ok value j' =>
      rw [hrun] at h
      exact h.within
  | error e j' =>
      rw [hrun] at h
      exact h.within

theorem ofEval {x : Journaling Failure α} (hx : Proceeds own x) :
    Proceeds own (Journal.ofEval x) := by
  intro j
  have hrun := hx j
  unfold Journal.ofEval
  cases h : x j with
  | ok value j' =>
      rw [h] at hrun
      exact hrun
  | error failure j' =>
      rw [h] at hrun
      exact hrun

theorem inside {x : Journaling ε Env} {f : Env → Journaling ε α}
    (hx : ∀ j, ∃ outer bindings, x j =
      .ok (j.store.frames.size :: outer) { j with store := (j.store.newFrame bindings).2 })
    (hf : ∀ env, Proceeds (fun _ other => other = env) (f env)) :
    Proceeds Secluded (x >>= f) := by
  intro j
  rcases hx j with ⟨outer, bindings, hrun⟩
  rw [bind_of_ok hrun]
  rcases hf (j.store.frames.size :: outer) { j with store := (j.store.newFrame bindings).2 } with
    ⟨fresh, h⟩
  have hnew : j.store.Lasts (j.store.newFrame bindings).2 := .newFrame j.store bindings
  refine ⟨fresh, h.env, h.entries, ?_, h.fine, h.returned, ?_⟩
  · have hall := (Passes.start.idle hnew).trans h.passes
    rw [List.append_nil] at hall
    exact hall
  · intro e he
    refine .inr fun frame hframe => ?_
    rcases h.places e he with henv | hplace
    · rw [henv] at hframe
      cases hframe
      exact Nat.le_refl _
    · exact Nat.le_trans hnew.same.frames (hplace frame hframe)

theorem resultOf {body : Journaling Signal Unit} (hbody : Proceeds own body) :
    Proceeds own (Journal.resultOf body) := by
  intro j
  have hrun := hbody j
  unfold Journal.resultOf
  cases h : body j with
  | ok value j' =>
      rw [h] at hrun
      exact hrun
  | error signal j' =>
      rw [h] at hrun
      cases signal <;> exact hrun

theorem catchError {body : Journaling Signal Unit}
    {handle : RuntimeError → Journaling Signal Unit} (hbody : Proceeds own body)
    (hhandle : ∀ error, Proceeds own (handle error)) :
    Proceeds own (Journal.catchError body handle) := by
  intro j
  rcases hbody j with ⟨fresh, hrun⟩
  unfold Journal.catchError
  cases h : body j with
  | ok value j' =>
      rw [h] at hrun
      exact ⟨fresh, hrun⟩
  | error signal j' =>
      rw [h] at hrun
      cases signal with
      | failed failure =>
          cases failure with
          | error error =>
              rcases hhandle error j' with ⟨later, hsecond⟩
              change Onward _ j fresh j' at hrun
              rw [hrun.env] at hsecond
              exact ⟨_, hrun.trans hsecond⟩
          | starved => exact ⟨fresh, hrun⟩
      | _ => exact ⟨fresh, hrun⟩

theorem repeatWhile {condition : Journaling Failure Value} {body : Journaling Signal Unit}
    (hcondition : Proceeds own condition) (hbody : Proceeds own body) :
    ∀ fuel, Proceeds own (Journal.repeatWhile condition body fuel) := by
  intro fuel
  induction fuel with
  | zero => exact fun j => ⟨[], .refl j⟩
  | succ fuel ih =>
      intro j
      rcases hcondition j with ⟨fresh, htest⟩
      unfold Journal.repeatWhile
      cases hc : condition j with
      | error failure j₁ =>
          rw [hc] at htest
          exact ⟨fresh, htest⟩
      | ok value j₁ =>
          rw [hc] at htest
          dsimp only
          cases value.isTruthy with
          | false => exact ⟨fresh, htest⟩
          | true =>
              rcases hbody j₁ with ⟨later, hround⟩
              change Onward _ j fresh j₁ at htest
              rw [htest.env] at hround
              rw [if_pos rfl]
              cases hb : body j₁ with
              | ok _ j₂ =>
                  rw [hb] at hround
                  rcases ih j₂ with ⟨rest, hrest⟩
                  have hso := htest.trans hround
                  change Onward _ j _ j₂ at hso
                  rw [hso.env] at hrest
                  exact ⟨_, hso.trans hrest⟩
              | error signal j₂ =>
                  rw [hb] at hround
                  cases signal <;> exact ⟨_, htest.trans hround⟩

end Proceeds

/-! ## Entries of their own -/

/-- How a result ends an activity. -/
def endingOf (ending : α → Ending) (signal : ε → Signal) : EStateM.Result ε Journal α → Ending
  | .ok value _ => ending value
  | .error e _ => .stopped (signal e)

def entryOf (st : Setting) (activity : Activity) (ending : α → Ending) (signal : ε → Signal)
    (x : Journaling ε α) (j : Journal) : Entry where
  activity := activity
  before := j.point st
  after := (ended (x j)).point st
  ending := endingOf ending signal (x j)

/-- The computation goes on in the current environment, and its own entry is the last one. -/
def Noted (st : Setting) (activity : Activity) (ending : α → Ending) (signal : ε → Signal)
    (x : Journaling ε α) : Prop :=
  ∀ j, ∃ inner,
    Onward (Local j.env) j (entryOf st activity ending signal x j :: inner) (ended (x j))

section Noting

variable {own : Env → Env → Prop} {st : Setting} {activity : Activity} {ending : α → Ending}
  {signal : ε → Signal} {x : Journaling ε α}

theorem Noted.proceeds (h : Noted st activity ending signal x) : Proceeds Local x := by
  intro j
  rcases h j with ⟨inner, hgoes⟩
  exact ⟨_, hgoes⟩

theorem ended_noting (j : Journal) : ended (noting st activity ending signal x j) =
    { ended (x j) with
      entries := entryOf st activity ending signal x j :: (ended (x j)).entries } := by
  unfold noting entryOf
  cases x j <;> rfl

theorem entryOf_noting (j : Journal) :
    entryOf st activity ending signal (noting st activity ending signal x) j =
      entryOf st activity ending signal x j := by
  unfold entryOf noting
  cases x j <;> rfl

theorem entryOf_of_ok {j j' : Journal} {value : α} (h : x j = .ok value j') :
    entryOf st activity ending signal x j = ⟨activity, j.point st, j'.point st, ending value⟩ := by
  rw [entryOf, h]
  rfl

theorem entryOf_of_error {j j' : Journal} {e : ε} (h : x j = .error e j') :
    entryOf st activity ending signal x j =
      ⟨activity, j.point st, j'.point st, .stopped (signal e)⟩ := by
  rw [entryOf, h]
  rfl

/-- The last step of a computation may change frames if the entry tells of it. -/
theorem Noted.of_last (own : Env → Env → Prop) (hown : ∀ env other, own env other → other = env)
    (h : ∀ j, ∃ inner between,
      Onward (own j.env) j inner { ended (x j) with store := between } ∧
      between.Becomes (entryOf st activity ending signal x j).Assigns
        (entryOf st activity ending signal x j).Introduces (ended (x j)).store ∧
      (entryOf st activity ending signal x j).Fine inner ∧
      (entryOf st activity ending signal x j).Accounted inner between) :
    Noted st activity ending signal (noting st activity ending signal x) := by
  intro j
  rcases h j with ⟨inner, between, hgoes, hbecomes, hfine, haccounted⟩
  rw [ended_noting, entryOf_noting]
  refine ⟨inner, hgoes.env, ?_, hgoes.passes.entry hbecomes haccounted, ⟨hfine, hgoes.fine⟩, ?_,
    ?_⟩
  · exact congrArg _ hgoes.entries
  · refine List.forall_mem_cons.mpr ⟨?_, hgoes.returned⟩
    exact congrArg st.inside hgoes.env
  · intro e he
    rcases List.mem_cons.mp he with rfl | he
    · exact .inl rfl
    · exact (hgoes.places e he).imp_left (hown j.env e.before.cx.env)

/-- An activity without a scope that binds no name, and changes no frame at the end. -/
theorem Noted.plain (hx : Proceeds Local x) (hscope : activity.opensScope = false)
    (hplain : activity.binds = false) :
    Noted st activity ending signal (noting st activity ending signal x) := by
  refine Noted.of_last Local (fun _ _ => id) fun j => ?_
  rcases hx j with ⟨inner, hgoes⟩
  refine ⟨inner, (ended (x j)).store, hgoes, .refl _, .of_plain hscope hplain,
    .of_settles (.refl _) fun _ _ _ => hplain⟩

theorem Noted.scoped (hx : Proceeds Secluded x) (hscope : activity.opensScope = true) :
    Noted st activity ending signal (noting st activity ending signal x) := by
  refine Noted.of_last Secluded (fun _ _ => False.elim) fun j => ?_
  rcases hx j with ⟨inner, hgoes⟩
  refine ⟨inner, (ended (x j)).store, hgoes, .refl _,
    ⟨fun _ hquiet => hgoes.sameNames hquiet, ?_, ?_⟩,
    .of_settles (.refl _) fun _ _ _ => Activity.binds_of_opensScope hscope⟩
  · rintro decl rfl
    cases hscope
  · rintro id name x result rfl
    cases hscope

end Noting

end Journal

/-- What becomes of a store is told by an entry that was begun in an earlier store. -/
theorem Store.Becomes.told {assigned assigned' : String → Prop}
    {introduced introduced' : FrameId → String → Prop} {before s s' : Store}
    (h : s.Becomes assigned introduced s') (hgrows : before.Grows s)
    (hassigned : ∀ name, assigned name → assigned' name)
    (hintroduced : ∀ frame name, (before.frame frame).find? name = none → introduced frame name →
      introduced' frame name) : s.Becomes assigned' introduced' s' where
  frames := h.frames
  bound := h.bound
  kept frame name value hvalue hname := h.kept frame name value hvalue (mt (hassigned name) hname)
  names frame hframe name hnone hsome := by
    refine hintroduced frame name ?_ (h.names frame hframe name hnone hsome)
    cases hbefore : (before.frame frame).find? name with
    | none => rfl
    | some value =>
        have hbound := hgrows frame name (by rw [hbefore]; rfl)
        rw [hnone] at hbound
        cases hbound
  overloads := h.overloads

namespace Journal

variable {st : Setting}

theorem here_of_ok {y : Context → EStateM ε Store α} {j : Journal} {value : α} {s : Store}
    (h : y (st.inside j.env) j.store = .ok value s) :
    here st y j = .ok value { j with store := s } := by
  unfold here
  simp only [h]

theorem here_of_error {y : Context → EStateM ε Store α} {j : Journal} {e : ε} {s : Store}
    (h : y (st.inside j.env) j.store = .error e s) :
    here st y j = .error e { j with store := s } := by
  unfold here
  simp only [h]

theorem ofEval_of_ok {x : Journaling Failure α} {j j' : Journal} {value : α}
    (h : x j = .ok value j') : ofEval x j = .ok value j' := by
  unfold ofEval
  rw [h]

theorem ofEval_of_error {x : Journaling Failure α} {j j' : Journal} {failure : Failure}
    (h : x j = .error failure j') : ofEval x j = .error (.failed failure) j' := by
  unfold ofEval
  rw [h]

theorem Noted.assigning {x : Journaling Failure Value} {id : NodeId} {name : Token} {value : Expr}
    (hx : Noted st (.expression value) .value .failed x) :
    Noted st (.expression (.assign id name value)) .value .failed
      (evaluating st (.expression (.assign id name value))
        (x >>= fun result => here st fun cx => Eval.assign cx id name result)) := by
  refine Noted.of_last Local (fun _ _ hsame => hsame) fun j => ?_
  rcases hx j with ⟨inner, hgoes⟩
  have hfails {after : Point} {signal : Signal} {earlier : List Entry} :
      Entry.Fine ⟨.expression (.assign id name value), j.point st, after, .stopped signal⟩
        earlier :=
    .of_expression rfl fun _ _ _ _ _ h => by cases h
  have haccounted {after : Point} {how : Ending} {earlier : List Entry} {s : Store}
      (h : s.Settles after.store) :
      Entry.Accounted ⟨.expression (.assign id name value), j.point st, after, how⟩ earlier s :=
    .of_settles h fun _ h => by cases h
  refine ⟨entryOf st (.expression value) .value .failed x j :: inner, (ended (x j)).store, ?_⟩
  cases hrun : x j with
  | error failure j' =>
      rw [hrun] at hgoes
      rw [bind_of_error hrun, entryOf_of_error (bind_of_error hrun)]
      exact ⟨hgoes, .refl _, hfails, haccounted (.refl _)⟩
  | ok result j' =>
      rw [hrun, entryOf_of_ok hrun] at hgoes
      change Onward _ j _ j' at hgoes
      have hcx : st.inside j'.env = st.inside j.env := by rw [hgoes.env]
      rw [entryOf_of_ok hrun]
      rcases Eval.assign_cases (st.inside j'.env) id j'.store name result with
        ⟨e, hassign⟩ | ⟨s', hassign, hbecomes, hsettles⟩
      · have hall : (x >>= fun result => here st fun cx => Eval.assign cx id name result) j =
            .error e j' :=
          (bind_of_ok hrun).trans (here_of_error hassign)
        rw [hall, entryOf_of_error hall]
        exact ⟨hgoes, .refl _, hfails, haccounted (.refl _)⟩
      · have hall : (x >>= fun result => here st fun cx => Eval.assign cx id name result) j =
            .ok result { j' with store := s' } :=
          (bind_of_ok hrun).trans (here_of_ok hassign)
        rw [hall, entryOf_of_ok hall]
        refine ⟨hgoes, hbecomes.told hgoes.passes.becomes.bound ?_ ?_, .of_expression rfl ?_,
          haccounted hsettles⟩
        · rintro key rfl
          exact ⟨id, name, value, result, rfl, rfl, rfl⟩
        · intro frame key hnone hnew
          rw [hcx] at hnew
          exact ⟨hnone, hnew⟩
        · intro id' name' value' result' hactivity hending
          cases hactivity
          cases hending
          rw [hcx] at hassign
          exact ⟨j'.store, ⟨_, List.mem_cons_self, rfl, rfl, rfl, rfl⟩,
            hgoes.passes.becomes.bound, hassign⟩

theorem Noted.declaring {x : Journaling Failure α} {s : Stmt} {y : α → Context → Eval Unit}
    (hx : Proceeds Local x) (hy : ∀ value cx, Declares cx.env s.declared (y value cx))
    (hscope : s.opensScope = false)
    (hfail : ∀ value cx store e store', y value cx store = .error e store' → store.Settles store')
    (hdone : ∀ j inner value j' s', x j = .ok value j' → Onward (Local j.env) j inner j' →
      y value (st.inside j.env) j'.store = .ok () s' →
      Entry.Initializes ⟨.statement s, j.point st, ⟨st.inside j.env, s'⟩, .done⟩ inner ∧
      Entry.Accounted ⟨.statement s, j.point st, ⟨st.inside j.env, s'⟩, .done⟩ inner j'.store) :
    Noted st (.statement s) (fun _ => .done) id
      (executing st s (ofEval (x >>= fun value => here st (y value)))) := by
  refine Noted.of_last Local (fun _ _ hsame => hsame) fun j => ?_
  rcases hx j with ⟨inner, hgoes⟩
  have hfails {j' : Journal} {signal : Signal} :
      Entry.Fine ⟨.statement s, j.point st, j'.point st, .stopped signal⟩ inner :=
    .of_statement rfl hscope fun _ _ h => by cases h
  have haccounted {after : Point} {signal : Signal} {store : Store}
      (h : store.Settles after.store) :
      Entry.Accounted ⟨.statement s, j.point st, after, .stopped signal⟩ inner store :=
    .of_settles h fun _ _ h => by cases h
  cases hrun : x j with
  | error failure j' =>
      have hall : ofEval (x >>= fun value => here st (y value)) j =
          .error (.failed failure) j' :=
        ofEval_of_error (bind_of_error hrun)
      rw [hrun] at hgoes
      refine ⟨inner, j'.store, ?_⟩
      unfold entryOf
      rw [hall]
      exact ⟨hgoes, .refl _, hfails, haccounted (.refl _)⟩
  | ok value j' =>
      rw [hrun] at hgoes
      change Onward _ j inner j' at hgoes
      have hcx : st.inside j'.env = st.inside j.env := by rw [hgoes.env]
      have hdeclares := hy value (st.inside j.env) j'.store
      refine ⟨inner, j'.store, ?_⟩
      cases hlast : y value (st.inside j.env) j'.store with
      | error failure s' =>
          have hall : ofEval (x >>= fun value => here st (y value)) j =
              .error (.failed failure) { j' with store := s' } := by
            refine ofEval_of_error ?_
            rw [bind_of_ok hrun, here_of_error (by rw [hcx]; exact hlast)]
          rw [hlast] at hdeclares
          unfold entryOf
          rw [hall]
          refine ⟨hgoes, ?_, hfails, haccounted (hfail _ _ _ _ _ hlast)⟩
          exact hdeclares.told hgoes.passes.becomes.bound (fun _ => False.elim)
            fun frame key hnone hnew => ⟨hnone, hnew⟩
      | ok _ s' =>
          have hall : ofEval (x >>= fun value => here st (y value)) j =
              .ok () { j' with store := s' } := by
            refine ofEval_of_ok ?_
            rw [bind_of_ok hrun, here_of_ok (by rw [hcx]; exact hlast)]
          rw [hlast] at hdeclares
          unfold entryOf
          rw [hall]
          have hentry := hdone j inner value j' s' hrun hgoes hlast
          rw [← hcx] at hentry
          refine ⟨hgoes, ?_, .of_statement rfl hscope hentry.1, hentry.2⟩
          exact hdeclares.told hgoes.passes.becomes.bound (fun _ => False.elim)
            fun frame key hnone hnew => ⟨hnone, hnew⟩

end Journal

end MiniPascal
