import MiniPascal.Proofs.Session.Courses

/-!
# Functions of one name

The declarations of a name in one scope make one list: the first binds the name, and each later one
finds that function and becomes an overload of it.  A call of the name runs the first function of
the list that takes the arguments, or else the first one that the name stands for around the call.

All this is so as long as no other declaration finds the first function.  If a variable holds it, a
function that is declared under the name of the variable is added to its overloads as well.
-/

namespace MiniPascal

/-! ## Choices -/

namespace Store

def Choice.fn : Choice → Fn
  | .function f => f
  | .method f _ => f

variable {s : Store} {env : Env} {f g : Fn} {types : List String}

theorem takes_of_chooseOverload {choice : Choice}
    (h : s.chooseOverload env f types = some choice) : choice.fn.Takes s.parents types := by
  cases chooses_of_chooseOverload h with
  | overload hchosen => exact takes_of_findOverload hchosen
  | method _ _ hchosen => exact takes_of_findOverload hchosen
  | function _ hchosen => exact takes_of_findOverload hchosen

/-- A function that is not bound to an instance is chosen from one list: its overloads, and then
what its name stands for around the call. -/
theorem chooseOverload_eq_find? (hbound : s.boundInstance f = none) (hglobal : globalFrame ∈ env) :
    s.chooseOverload env f types =
      ((f :: s.overloadsOf f ++ s.named env f.name).find? (·.accepts s.parents types)).map
        .function := by
  have hfallback : (s.findFunction env f.name types).or (s.findFunction globals f.name types) =
      s.findFunction env f.name types := by
    cases hnear : s.findFunction env f.name types with
    | some g => rfl
    | none =>
        rw [findFunction_eq_find?, find?_accepts_eq_none_iff] at hnear
        rw [Option.none_or, findFunction_eq_find?, find?_accepts_eq_none_iff]
        intro g hg
        rcases List.mem_flatMap.mp hg with ⟨frame, hframe, hg⟩
        rw [List.mem_singleton.mp hframe] at hg
        exact hnear g (List.mem_flatMap.mpr ⟨globalFrame, hglobal, hg⟩)
  rw [chooseOverload, chooseMethod, hbound, hfallback, findOverload_eq_find?, findFunction_eq_find?,
    List.find?_append]
  cases (f :: s.overloadsOf f).find? (·.accepts s.parents types) <;> rfl

end Store

/-- A function is called on as many arguments as it has parameters, or no function is called. -/
theorem Eval.applyValue_function (call : Caller) (cx : Context) (f : Fn) (paren : Token)
    (arguments : List Value) (s : Store) :
    applyValue call cx (.function f) paren arguments s =
      match s.chooseOverload cx.env f (arguments.map Value.typeName) with
      | none => .error (.error ⟨paren, .noSignature, none⟩) s
      | some choice => (bindChoice choice >>= fun selected => call selected arguments) s := by
  unfold applyValue
  dsimp only
  rw [get_bind]
  cases hchoice : s.chooseOverload cx.env f (arguments.map Value.typeName) with
  | none => rfl
  | some choice =>
      have harity : choice.fn.arity = arguments.length := by
        rw [(Store.takes_of_chooseOverload hchoice).arity, List.length_map]
      cases choice with
      | function g => exact checkArity_then_of_eq harity _
      | method g self => exact checkArity_then_of_eq harity _

/-- A call of a function that is not bound to an instance runs the first one that takes the
arguments, of its overloads and then of the functions of its name around the call. -/
theorem Eval.call_of_function {call : Caller} {cx : Context} {callee : Expr} {paren : Token}
    {arguments : List Expr} {f : Fn} {values : List Value} {s s₀ s₁ : Store}
    (hcallee : expr call cx callee s₀ = .ok (.function f) s₁)
    (harguments : exprs call cx arguments s₁ = .ok values s) (hbound : s.boundInstance f = none)
    (hglobal : Store.globalFrame ∈ cx.env) :
    let candidates := f :: s.overloadsOf f ++ s.named cx.env f.name
    (∀ g, s.FirstTaking candidates (values.map Value.typeName) g →
      expr call cx (.call callee paren arguments) s₀ = call g values s) ∧
    ((∀ g ∈ candidates, ¬g.Takes s.parents (values.map Value.typeName)) →
      expr call cx (.call callee paren arguments) s₀ =
        .error (.error ⟨paren, .noSignature, none⟩) s) := by
  intro candidates
  have happly : expr call cx (.call callee paren arguments) s₀ =
      applyValue call cx (.function f) paren values s := by
    rw [expr, bind_of_ok hcallee, bind_of_ok harguments]
  rw [happly, applyValue_function, Store.chooseOverload_eq_find? hbound hglobal]
  refine ⟨fun g hg => ?_, fun hnone => ?_⟩
  · rw [Store.find?_accepts_iff.mpr hg]
    rfl
  · rw [Store.find?_accepts_eq_none_iff.mpr hnone]
    rfl

/-! ## Declarations of a name -/

namespace Entry

/-- The function that an entry has declared in a frame under a name. -/
def declaredIn (frame : FrameId) (name : String) (e : Entry) : Option Fn :=
  match e.activity, e.ending with
  | .statement (.function decl), .done =>
      if decl.name.lexeme = name ∧ e.before.cx.env.head? = some frame then
        some ⟨e.before.store.overloads.size, decl, e.before.cx.env, false⟩
      else none
  | _, _ => none

/-- An entry has declared a function in a frame that did not have its name.  Since then the name has
not been assigned another value there, and no declaration has found the function but those of the
name in the frame. -/
structure Heads (d : Entry) (frame : FrameId) (name : String) (f : Fn)
    (before between : List Entry) : Prop where
  declared : d.declaredIn frame name = some f
  free : (d.before.store.frame frame).find? name = none
  kept : ∀ e ∈ between, e.Assigns name →
    (e.after.store.frame frame).find? name = some (.function f)
  alone : ∀ later e earlier, between = later ++ e :: earlier →
    e.AddsTo (earlier ++ d :: before) f → (e.declaredIn frame name).isSome

variable {frame : FrameId} {name : String} {f : Fn} {d e : Entry} {before between : List Entry}

theorem declaredIn_eq_some_iff : e.declaredIn frame name = some f ↔
    ∃ decl outer, e.activity = .statement (.function decl) ∧ e.ending = .done ∧
      decl.name.lexeme = name ∧ e.before.cx.env = frame :: outer ∧
      f = ⟨e.before.store.overloads.size, decl, frame :: outer, false⟩ := by
  rcases e with ⟨activity, ⟨cx, store⟩, after, ending⟩
  unfold declaredIn
  dsimp only
  constructor
  · intro h
    split at h
    · next decl =>
        split at h
        · next hplace =>
            cases h
            rcases List.head?_eq_some_iff.mp hplace.2 with ⟨outer, henv⟩
            exact ⟨decl, outer, rfl, rfl, hplace.1, henv, by rw [henv]⟩
        · cases h
    · cases h
  · rintro ⟨decl, outer, rfl, rfl, hname, henv, rfl⟩
    simp [hname, henv]

theorem Heads.name_eq (h : d.Heads frame name f before between) : f.name = name := by
  rcases declaredIn_eq_some_iff.mp h.declared with ⟨decl, outer, -, -, hname, -, rfl⟩
  exact hname

theorem Heads.tail (h : d.Heads frame name f before (e :: between)) :
    d.Heads frame name f before between where
  declared := h.declared
  free := h.free
  kept e he := h.kept e (List.mem_cons_of_mem _ he)
  alone later e' earlier hbetween := h.alone (e :: later) e' earlier (by rw [hbetween]; rfl)

end Entry

namespace Exec

variable {env outer : Env} {frame : FrameId} {decl : Function} {f : Fn} {s s' : Store}

/-- A function that is declared under a free name is bound to it, without overloads. -/
theorem defineFunction_free (hframe : frame < s.frames.size)
    (hfree : (s.frame frame).find? decl.name.lexeme = none)
    (hrun : defineFunction (frame :: outer) decl s = .ok () s') :
    (s'.frame frame).find? decl.name.lexeme =
        some (.function ⟨s.overloads.size, decl, frame :: outer, false⟩) ∧
      s'.overloads.size = s.overloads.size + 1 ∧
      s'.overloadsOf ⟨s.overloads.size, decl, frame :: outer, false⟩ = [] := by
  have hdefinition : (s.newFn decl (frame :: outer) false).2.definition (frame :: outer)
      decl.name.lexeme (.function (s.newFn decl (frame :: outer) false).1) = .fresh := by
    have hfind : (s.newFn decl (frame :: outer) false).2.findHere? (frame :: outer)
        decl.name.lexeme = none := hfree
    rw [Store.definition, hfind]
  have hdefine : defineFunction (frame :: outer) decl s =
      Eval.define (frame :: outer) decl.name (.function (s.newFn decl (frame :: outer) false).1)
        (s.newFn decl (frame :: outer) false).2 := rfl
  rw [hdefine, Eval.define_run, hdefinition] at hrun
  cases hrun
  refine ⟨?_, s.size_overloads_newFn decl (frame :: outer) false, ?_⟩
  · rw [Store.bindHere, Store.find?_bindIn, if_pos ⟨⟨rfl, hframe⟩, rfl⟩]
    rfl
  · exact (s.overloadsOf_newFn decl (frame :: outer) false _).trans
      (Store.overloadsOf_of_le (Nat.le_refl _))

/-- A function that is declared over another one becomes its last overload. -/
theorem defineFunction_over (hfound : s.findHere? env decl.name.lexeme = some (.function f))
    (hid : f.id < s.overloads.size) (hrun : defineFunction env decl s = .ok () s') :
    s'.overloadsOf f = s.overloadsOf f ++ [⟨s.overloads.size, decl, env, false⟩] := by
  have hdefinition : (s.newFn decl env false).2.definition env decl.name.lexeme
      (.function (s.newFn decl env false).1) = .overload f (s.newFn decl env false).1 := by
    have hfind : (s.newFn decl env false).2.findHere? env decl.name.lexeme =
        some (.function f) := hfound
    rw [Store.definition, hfind]
  have hdefine : defineFunction env decl s =
      Eval.define env decl.name (.function (s.newFn decl env false).1)
        (s.newFn decl env false).2 := rfl
  rw [hdefine, Eval.define_run, hdefinition] at hrun
  cases hrun
  have hlt : f.id < (s.newFn decl env false).2.overloads.size := by
    rw [Store.size_overloads_newFn]
    omega
  rw [Store.overloadsOf_addOverload hlt, if_pos rfl, Store.overloadsOf_newFn]
  rfl

end Exec

namespace Passes

variable {frame : FrameId} {name : String} {f : Fn} {d : Entry} {before between : List Entry}
  {s s' : Store}

/-- The overloads of a function are those that have been declared in its scope under its name. -/
theorem declarations (h : Passes s (between ++ d :: before) s')
    (hd : d.Heads frame name f before between) (hframe : frame < d.before.store.frames.size) :
    d.before.store.BecomesBy (between ++ [d]) s' ∧
      (s'.frame frame).find? name = some (.function f) ∧ f.id < s'.overloads.size ∧
      s'.overloadsOf f = (between.filterMap (Entry.declaredIn frame name)).reverse := by
  induction between generalizing s' with
  | nil =>
      rcases h.last with ⟨start, -, hbecomes, haccounted, hlasts⟩
      rcases Entry.declaredIn_eq_some_iff.mp hd.declared with
        ⟨decl, outer, hactivity, hdone, rfl, henv, rfl⟩
      rcases haccounted.declared decl hactivity hdone with ⟨rfl, hrun⟩
      rw [henv] at hrun
      rcases Exec.defineFunction_free hframe hd.free hrun with ⟨hbound, hsize, hnone⟩
      have hid : d.before.store.overloads.size < d.after.store.overloads.size := by omega
      refine ⟨?_, hlasts.same.kept _ _ _ hbound not_false, ?_, ?_⟩
      · have hway : d.before.store.BecomesBy [] d.before.store := .refl _
        exact (hway.entry hbecomes).trans hlasts.becomes
      · exact Nat.lt_of_lt_of_le hid hlasts.settles.functions
      · rw [hlasts.settles.overloads _ hid, hnone]
        rfl
  | cons e rest ih =>
      rcases h.last with ⟨start, hstart, hbecomes, haccounted, hlasts⟩
      rcases ih hstart hd.tail with ⟨hway, hbound, hid, hoverloads⟩
      have hbound' : (e.after.store.frame frame).find? name = some (.function f) := by
        by_cases hassigns : e.Assigns name
        · exact hd.kept e List.mem_cons_self hassigns
        · exact hbecomes.kept _ _ _ hbound hassigns
      have hid' := Nat.lt_of_lt_of_le hid haccounted.functions
      have hoverloads' : e.after.store.overloadsOf f =
          ((e :: rest).filterMap (Entry.declaredIn frame name)).reverse := by
        cases hdeclared : e.declaredIn frame name with
        | some g =>
            rcases Entry.declaredIn_eq_some_iff.mp hdeclared with
              ⟨decl, outer, hactivity, hdone, rfl, henv, rfl⟩
            rcases haccounted.declared decl hactivity hdone with ⟨rfl, hrun⟩
            have hfound : e.before.store.findHere? e.before.cx.env decl.name.lexeme =
                some (.function f) := by
              rw [henv]
              exact hbound
            rw [Exec.defineFunction_over hfound hid hrun, hoverloads, henv,
              List.filterMap_cons_some hdeclared, List.reverse_cons]
        | none =>
            have hnot : ¬e.AddsTo (rest ++ d :: before) f := by
              intro hadds
              have hsome := hd.alone [] e rest rfl hadds
              rw [hdeclared] at hsome
              cases hsome
            rw [haccounted.overloads f hid hnot, hoverloads, List.filterMap_cons_none hdeclared]
      refine ⟨(hway.entry hbecomes).trans hlasts.becomes,
        hlasts.same.kept _ _ _ hbound' not_false,
        Nat.lt_of_lt_of_le hid' hlasts.settles.functions, ?_⟩
      rw [hlasts.settles.overloads f hid', hoverloads']

end Passes

/-! ## Frames without an instance -/

/-- Around statements, the innermost frame does not bind `this`. -/
theorem Sound.no_this {known : Reference → Prop} {w : World} {p : Place} {env : Env}
    (h : Sound known w) (hp : Fits w.events w.store p env) (hinner : p.Inner) :
    w.store.findHere? env "this" = none := by
  cases hp with
  | top _ => exact h.global "this" not_declarable_this
  | @inside region names p env frame hentered _ _ _ _ _ =>
      rcases h.entered _ _ _ hentered with ⟨-, hok⟩
      cases region with
      | receiver decl => cases hinner.2
      | parent decl => exact hok.1
      | _ => exact hok.1

namespace Entry

variable {e : Entry} {frame : FrameId} {name : String}

theorem Begun.declarable (h : e.Begun) (hnew : e.Introduces frame name) : Declarable name := by
  rcases e with ⟨activity, before, after, ending⟩
  rcases h with ⟨known, w, -, -, hresolved, hplaced⟩
  rcases hnew with ⟨-, hnew⟩
  cases activity with
  | statement s =>
      rcases hplaced with ⟨p, -, -, htidy⟩
      exact htidy.declarable name hnew.2
  | call f arguments => exact hnew.elim
  | expression x =>
      cases x with
      | assign id token value =>
          rcases hplaced with ⟨p, -, hmentioned⟩
          rcases hmentioned.right _ List.mem_cons_self with ⟨r, hr, hmention, -⟩
          have hname := hresolved.written r hr (by rw [hmention])
          rw [hmention] at hname
          rw [hnew.1]
          exact hname
      | _ => exact hnew.elim

/-- A declaration is executed in a frame that does not bind `this`. -/
theorem Begun.no_this {f : Fn} (h : e.Begun) (hdeclared : e.declaredIn frame name = some f) :
    frame < e.before.store.frames.size ∧ (e.before.store.frame frame).find? "this" = none := by
  rcases declaredIn_eq_some_iff.mp hdeclared with ⟨decl, outer, hactivity, -, -, henv, -⟩
  rcases h with ⟨known, w, hstore, hsound, -, hplaced⟩
  rw [hactivity] at hplaced
  rcases hplaced with ⟨p, hp, hinner, -⟩
  have hnone := hsound.no_this hp hinner
  rw [henv] at hp hnone
  rw [hstore] at hp hnone
  exact ⟨hp.mem_lt frame List.mem_cons_self, hnone⟩

/-- Such a function is not bound to an instance: its frame did not bind `this`, and nothing that is
executed declares it. -/
theorem Heads.unbound {d : Entry} {before between : List Entry} {f : Fn} {s : Store}
    (h : d.Heads frame name f before between)
    (hbecomes : d.before.store.BecomesBy (between ++ [d]) s)
    (hpast : ∀ e ∈ between ++ d :: before, e.Begun) : s.boundInstance f = none := by
  have hmem : d ∈ between ++ d :: before := List.mem_append_right _ List.mem_cons_self
  rcases (hpast d hmem).no_this h.declared with ⟨hframe, hnone⟩
  rcases declaredIn_eq_some_iff.mp h.declared with ⟨decl, outer, -, -, -, -, hf⟩
  have hthis : (s.frame frame).find? "this" = none := by
    by_contra hsome
    rcases hbecomes.names frame hframe "this" hnone (Option.isSome_iff_ne_none.mpr hsome) with
      ⟨e, he, hnew⟩
    have hbegun : e.Begun := by
      rcases List.mem_append.mp he with he | he
      · exact hpast e (List.mem_append_left _ he)
      · rw [List.mem_singleton.mp he]
        exact hpast d hmem
    exact not_declarable_this (hbegun.declarable hnew)
  have hfound : s.findHere? f.closure "this" = none := by
    rw [hf]
    exact hthis
  rw [Store.boundInstance, hfound]

end Entry

/-! ## Courses -/

namespace Course

theorem workAll_linked {c : Course} (h : c.runs.Linked) (jobs : List Job) :
    (c.workAll jobs).runs.Linked :=
  workAll_induction (fun _ task hlinked => hlinked.perform task) h jobs

/-- Every entry ends in an environment that goes out to top-level code. -/
theorem globalFrame_mem {c : Course} (h : c.runs.Linked) {a : Entry} (ha : a ∈ c.runs.entries) :
    Store.globalFrame ∈ a.after.cx.env := by
  rcases h with ⟨l, hlinked⟩
  exact List.mem_of_getLast? (hlinked.entries a ha).1.after.env.getLast?

/-- Whatever is compiled and run or tested: a scope has declared functions of a name, and does not
otherwise bind it.  Then at every later moment the name stands there for the first of them, and a
call of what it stands for, whose arguments have been evaluated by then, runs the first of all these
functions that takes the arguments; if there is none, the first one that the name stands for around
the call, from the innermost frame outward; and if there is none either, no signature matches.
Whatever is chosen for a call has as many parameters as there are arguments, so their number is
never refused. -/
theorem call_runs_first_declared (options : CompileOptions) (host : Host) (jobs : List Job) :
    let c := (start options host).workAll jobs
    c.session = (Session.start options host).workAll jobs ∧
    (∀ later a earlier between d before frame name f,
      c.runs.entries = later ++ a :: earlier → a :: earlier = between ++ d :: before →
      d.Heads frame name f before between →
      let cx := a.after.cx
      let s := a.after.store
      let candidates := f :: (between.filterMap (Entry.declaredIn frame name)).reverse ++
        s.named cx.env name
      (s.frame frame).find? name = some (.function f) ∧
      ∀ call id token paren arguments values s₀,
        Eval.expr call cx (.variable id token) s₀ = .ok (.function f) s₀ →
        Eval.exprs call cx arguments s₀ = .ok values s →
        (∀ g, s.FirstTaking candidates (values.map Value.typeName) g →
          Eval.expr call cx (.call (.variable id token) paren arguments) s₀ = call g values s) ∧
        ((∀ g ∈ candidates, ¬g.Takes s.parents (values.map Value.typeName)) →
          Eval.expr call cx (.call (.variable id token) paren arguments) s₀ =
            .error (.error ⟨paren, .noSignature, none⟩) s)) ∧
    (∀ (s : Store) env f types choice, s.chooseOverload env f types = some choice →
      choice.fn.arity = types.length) ∧
    ∀ call cx f paren arguments s, Eval.applyValue call cx (.function f) paren arguments s =
      match s.chooseOverload cx.env f (arguments.map Value.typeName) with
      | none => .error (.error ⟨paren, .noSignature, none⟩) s
      | some choice => (Eval.bindChoice choice >>= fun selected => call selected arguments) s := by
  refine ⟨workAll_session (.start host) jobs, ?_,
    fun _ _ _ _ _ h => (Store.takes_of_chooseOverload h).arity, Eval.applyValue_function⟩
  intro later a earlier between d before frame name f hentries hsplit hheads cx s candidates
  have hvalid := (valid_start options host).workAll jobs
  have hway := (workAll_told (c := start options host) (.start host) jobs).passes
  rw [hentries] at hway
  have hpasses := hway.split.1
  rw [hsplit] at hpasses
  have hpast (e : Entry) (he : e ∈ between ++ d :: before) : e.Begun := by
    refine hvalid.vouched.entries.begun e ?_
    rw [hentries, hsplit]
    exact List.mem_append_right _ he
  have hd : d.Begun := hpast d (List.mem_append_right _ List.mem_cons_self)
  rcases hpasses.declarations hheads (hd.no_this hheads.declared).1 with
    ⟨hbecomes, hbound, -, hoverloads⟩
  have hglobal : Store.globalFrame ∈ cx.env := by
    refine globalFrame_mem (workAll_linked (c := start options host) (.start host) jobs) (a := a) ?_
    rw [hentries]
    exact List.mem_append_right _ List.mem_cons_self
  have hcandidates : f :: s.overloadsOf f ++ s.named cx.env f.name = candidates := by
    rw [hoverloads, hheads.name_eq]
  refine ⟨hbound, fun call id token paren arguments values s₀ hcallee harguments => ?_⟩
  rw [← hcandidates]
  exact Eval.call_of_function hcallee harguments (hheads.unbound hbecomes hpast) hglobal

/-- A function takes an integer, and one that is declared after it a string. -/
def siblings : List Job :=
  [⟨⟨.empty, 20, ⟨"main.pas",
    "procedure F(X : Integer); begin print 'integer'; end " ++
    "procedure F(X : String); begin print 'string'; end"⟩⟩, .run⟩]

def siblingName : Token :=
  ⟨.identifier, "F", ⟨2, 1⟩, "main.pas"⟩

/-- Whether an entry declares a function at top level under the name, or else neither declares a
function nor a variable nor assigns a value. -/
def declaresOnly (name : String) (e : Entry) : Bool :=
  match e.activity with
  | .statement (.function _) => (e.declaredIn Store.globalFrame name).isSome
  | .statement (.var _) | .expression (.assign _ _ _) => false
  | _ => true

theorem heads_of_declaresOnly {name : String} {d : Entry} {f : Fn} {before between : List Entry}
    (hdeclared : d.declaredIn Store.globalFrame name = some f)
    (hfree : (d.before.store.frame Store.globalFrame).find? name = none)
    (hall : ∀ e ∈ between, declaresOnly name e = true) :
    d.Heads Store.globalFrame name f before between where
  declared := hdeclared
  free := hfree
  kept e he := by
    rintro ⟨id, token, value, result, hactivity, -⟩
    have hcheck := hall e he
    unfold declaresOnly at hcheck
    rw [hactivity] at hcheck
    cases hcheck
  alone later e earlier hbetween hadds := by
    have hcheck := hall e (by rw [hbetween]; exact List.mem_append_right _ List.mem_cons_self)
    rcases hadds with ⟨-, existing, -, hadds⟩
    unfold declaresOnly at hcheck
    split at hadds
    · next decl hactivity =>
        rw [hactivity] at hcheck
        exact hcheck
    · next decl hactivity =>
        rw [hactivity] at hcheck
        cases hcheck
    · exact hadds.elim

/-- Whether two functions have been declared at top level under a name, of which only the second one
takes an argument of a type, and the name can be called at the end. -/
def takesSecond (name type : String) (entries : List Entry) : Bool :=
  match entries, entries.reverse.find? fun e => (e.declaredIn Store.globalFrame name).isSome,
      entries.reverse.filterMap (Entry.declaredIn Store.globalFrame name) with
  | a :: _, some d, [f, g] =>
      ((d.before.store.frame Store.globalFrame).find? name).isNone &&
        a.after.cx.env == Store.globals && (a.after.cx.locals[0]?).isNone &&
        !f.accepts a.after.store.parents [type] && g.accepts a.after.store.parents [type]
  | _, _, _ => false

theorem exists_of_takesSecond {name type : String} {entries : List Entry}
    (h : takesSecond name type entries = true) :
    ∃ a earlier between d before f g, entries = a :: earlier ∧
      a :: earlier = between ++ d :: before ∧ d.declaredIn Store.globalFrame name = some f ∧
      (d.before.store.frame Store.globalFrame).find? name = none ∧
      between.filterMap (Entry.declaredIn Store.globalFrame name) = [g] ∧
      a.after.cx.env = Store.globals ∧ a.after.cx.locals[0]? = none ∧
      ¬f.Takes a.after.store.parents [type] ∧ g.Takes a.after.store.parents [type] := by
  unfold takesSecond at h
  split at h
  case h_2 => cases h
  next a earlier d f g hfirst hdeclared =>
    simp only [Bool.and_eq_true, Option.isNone_iff_eq_none, beq_iff_eq, Bool.not_eq_true',
      ← Bool.not_eq_true, Fn.accepts_iff] at h
    rcases h with ⟨⟨⟨⟨hfree, henv⟩, hlocals⟩, hnot⟩, htakes⟩
    rcases List.find?_eq_some_iff_append.mp hfirst with ⟨hsome, before, between, hsplit, hnone⟩
    -- nothing has been declared under the name before
    have hbefore : before.filterMap (Entry.declaredIn Store.globalFrame name) = [] := by
      rw [List.filterMap_eq_nil_iff]
      intro e he
      simpa using hnone e he
    rcases Option.isSome_iff_exists.mp hsome with ⟨f', hf'⟩
    rw [hsplit, List.filterMap_append, hbefore, List.filterMap_cons_some hf', List.nil_append,
      List.cons.injEq] at hdeclared
    rcases hdeclared with ⟨rfl, hbetween⟩
    refine ⟨a, earlier, between.reverse, d, before.reverse, f', g, rfl, ?_, hf', hfree, ?_, henv,
      hlocals, hnot, htakes⟩
    · rw [← List.reverse_reverse (a :: earlier), hsplit]
      simp
    · rw [List.filterMap_reverse, hbetween]
      rfl

theorem call_runs_first_declared_siblings :
    let c := (start {} (.still 0)).workAll siblings
    ∃ a earlier between d before f g, c.runs.entries = a :: earlier ∧
      a :: earlier = between ++ d :: before ∧ d.Heads Store.globalFrame "F" f before between ∧
      between.filterMap (Entry.declaredIn Store.globalFrame "F") = [g] ∧
      ∀ call paren, Eval.expr call a.after.cx
        (.call (.variable 0 siblingName) paren [.literal (.string "text")]) a.after.store =
          call g [.string "text"] a.after.store := by
  have hruns := (call_runs_first_declared {} (.still 0) siblings).2.1
  have hfound : let c := (start {} (.still 0)).workAll siblings
      c.runs.entries.all (declaresOnly "F") = true ∧
        takesSecond "F" "String" c.runs.entries = true := by
    decide +kernel
  generalize (start {} (.still 0)).workAll siblings = c at *
  rcases hfound with ⟨honly, hcheck⟩
  rcases exists_of_takesSecond hcheck with ⟨a, earlier, between, d, before, f, g, hentries, hsplit,
    hdeclared, hfree, hsecond, henv, hlocals, hnot, htakes⟩
  have hheads : d.Heads Store.globalFrame "F" f before between := by
    refine heads_of_declaresOnly hdeclared hfree fun e he => List.all_eq_true.mp honly e ?_
    rw [hentries, hsplit]
    exact List.mem_append_left _ he
  refine ⟨a, earlier, between, d, before, f, g, hentries, hsplit, hheads, hsecond, ?_⟩
  intro call paren
  rcases hruns [] a earlier between d before Store.globalFrame "F" f hentries hsplit hheads with
    ⟨hbound, hcalls⟩
  have hcallee : Eval.expr call a.after.cx (.variable 0 siblingName) a.after.store =
      .ok (.function f) a.after.store := by
    have hread : Eval.readVariable a.after.cx 0 siblingName.lexeme a.after.store =
        .ok (some (.function f)) a.after.store := by
      change (a.after.store.frame Store.globalFrame).find? siblingName.lexeme = _ at hbound
      unfold Eval.readVariable
      rw [hlocals, henv, get_bind]
      simp only [Store.globals, Store.find?, hbound]
      rfl
    show Eval.lookUp a.after.cx 0 siblingName a.after.store = _
    unfold Eval.lookUp
    rw [bind_of_ok hread]
    rfl
  refine (hcalls call 0 siblingName paren [.literal (.string "text")] [.string "text"]
    a.after.store hcallee rfl).1 g ?_
  rw [hsecond]
  refine ⟨[f], _, rfl, htakes, ?_⟩
  rw [List.forall_mem_singleton]
  exact hnot

end Course

end MiniPascal
