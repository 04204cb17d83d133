import MiniPascal.Proofs.Machine.Instantiation
import MiniPascal.Proofs.Session.Courses

/-!
# Calls of methods

`object.m(...)` binds a copy of the first `m` that the class of the object has, without the other
ones.  Nothing but the call refers to this copy, so when the arguments have been evaluated it still
has no overloads and still knows its instance.  Therefore the choice comes back to the class: what
runs is the first of the methods there that takes the arguments, bound to the instance.
-/

namespace MiniPascal

/-! ## The methods of a class -/

namespace Store

/-- The functions that a table of methods has under a name, in front the one that stands for all. -/
def grouped (s : Store) (methods : Table Fn) (name : String) : List Fn :=
  match methods.find? name with
  | some first => first :: s.overloadsOf first
  | none => []

/-- A table of methods has the functions of a list by their names, in order, and no two names share
a list of overloads. -/
structure Groups (s : Store) (methods : Table Fn) (decls : List Function) : Prop where
  made : ∀ name first, methods.find? name = some first → first.id < s.overloads.size
  apart : ∀ name other first f, methods.find? name = some first → methods.find? other = some f →
    f.id = first.id → other = name
  order : ∀ name, (s.grouped methods name).map Fn.decl =
    decls.filter fun decl => decl.name.lexeme = name

namespace Groups

variable {s : Store} {methods : Table Fn} {decls : List Function} {decl : Function}

theorem empty (s : Store) : s.Groups ∅ [] where
  made _ _ h := by cases h
  apart _ _ _ _ h := by cases h
  order _ := rfl

theorem order_snoc (h : s.Groups methods decls) {s' : Store} {methods' : Table Fn} {f : Fn}
    (hdecl : f.decl = decl) (hgroup : ∀ name, s'.grouped methods' name =
      s.grouped methods name ++ if name = decl.name.lexeme then [f] else []) (name : String) :
    (s'.grouped methods' name).map Fn.decl =
      (decls ++ [decl]).filter fun decl => decl.name.lexeme = name := by
  rw [hgroup, List.map_append, h.order, List.filter_append]
  by_cases hname : name = decl.name.lexeme
  · simp [hname, hdecl]
  · simp [hname, Ne.symm hname]

/-- If the name has functions, the first one gets an overload. -/
theorem addOverload (h : s.Groups methods decls) {first f : Fn} {s' : Store} {closure : Env}
    {isInitializer : Bool} (hfirst : methods.find? decl.name.lexeme = some first)
    (hnew : s.newFn decl closure isInitializer = (f, s')) :
    (s'.addOverload first f).Groups methods (decls ++ [decl]) := by
  have hsize := s.size_overloads_newFn decl closure isInitializer
  have hsame := s.overloadsOf_newFn decl closure isInitializer
  have hdecl : (s.newFn decl closure isInitializer).1.decl = decl := rfl
  rw [hnew] at hsize hsame hdecl
  dsimp only at hsize hsame hdecl
  have hlt := h.made _ first hfirst
  have hadd := Store.overloadsOf_addOverload (s := s') (f := first) (by omega) f
  refine ⟨fun name other hother => ?_, h.apart, h.order_snoc hdecl fun name => ?_⟩
  · have hother := h.made name other hother
    simp only [Store.addOverload, Array.size_modify]
    omega
  · by_cases hname : name = decl.name.lexeme
    · subst hname
      simp [grouped, hfirst, hadd, hsame]
    · cases hother : methods.find? name with
      | none => simp [grouped, hother, hname]
      | some other =>
          have hapart : other.id ≠ first.id := fun hid => hname (h.apart _ _ _ _ hfirst hother hid)
          simp [grouped, hother, hname, hadd, hsame, hapart]

theorem insert (h : s.Groups methods decls) {f : Fn} {s' : Store} {closure : Env}
    {isInitializer : Bool} (hfree : methods.find? decl.name.lexeme = none)
    (hnew : s.newFn decl closure isInitializer = (f, s')) :
    s'.Groups (methods.insert decl.name.lexeme f) (decls ++ [decl]) := by
  have hsize := s.size_overloads_newFn decl closure isInitializer
  have hsame := s.overloadsOf_newFn decl closure isInitializer
  have hdecl : (s.newFn decl closure isInitializer).1.decl = decl := rfl
  have hid : (s.newFn decl closure isInitializer).1.id = s.overloads.size := rfl
  rw [hnew] at hsize hsame hdecl hid
  dsimp only at hsize hsame hdecl hid
  refine ⟨fun name other hother => ?_, fun name name' first other hfirst hother hsameId => ?_,
    h.order_snoc hdecl fun name => ?_⟩
  · rw [Table.find?_insert] at hother
    split at hother
    · cases hother
      omega
    · have hother := h.made name other hother
      omega
  · rw [Table.find?_insert] at hfirst hother
    split at hfirst <;> split at hother
    · next hname hname' => exact hname'.trans hname.symm
    · cases hfirst
      have hother := h.made name' other hother
      omega
    · cases hother
      have hfirst := h.made name first hfirst
      omega
    · exact h.apart name name' first other hfirst hother hsameId
  · by_cases hname : name = decl.name.lexeme
    · subst hname
      simp [grouped, hfree, hsame, Store.overloadsOf_of_le (Nat.le_of_eq hid.symm)]
    · simp [grouped, hname, hsame]

end Groups

end Store

namespace Exec

/-- A class has its methods under their names, in the order in which they are declared. -/
theorem addMethods_groups (env : Env) (rest : List Function) :
    ∀ {methods : Table Fn} {decls : List Function} {s : Store}, s.Groups methods decls →
      ∃ methods' s', addMethods env methods rest s = .ok methods' s' ∧
        s'.Groups methods' (decls ++ rest) := by
  induction rest with
  | nil =>
      intro methods decls s h
      rw [List.append_nil]
      exact ⟨methods, s, rfl, h⟩
  | cons decl rest ih =>
      intro methods decls s h
      have hrun := addMethod_run env methods decl s
      rcases hnew : s.newFn decl env (decl.name.lexeme == initializerName) with ⟨f, s'⟩
      rw [hnew] at hrun
      have hnext : ∃ methods' s'', addMethod env methods decl s = .ok methods' s'' ∧
          s''.Groups methods' (decls ++ [decl]) := by
        rw [hrun]
        cases hfirst : methods.find? decl.name.lexeme with
        | some first => exact ⟨_, _, rfl, h.addOverload hfirst hnew⟩
        | none => exact ⟨_, _, rfl, h.insert hfirst hnew⟩
      rcases hnext with ⟨methods', s'', hadd, hgroups⟩
      rw [addMethods, bind_of_ok hadd, List.append_cons]
      exact ih hgroups

/-- When a class has been declared, its name is bound to a class with the declared methods. -/
theorem defineClass_groups {cx : Context} {frame : FrameId} {outer : Env}
    {decl : ClassDecl Stmt} {s s' : Store} (henv : cx.env = frame :: outer)
    (hframe : frame < s'.frames.size) (hrun : defineClass cx decl s = .ok () s') :
    ∃ cls : Class, s'.findHere? cx.env decl.name.lexeme = some (.class cls) ∧
      s'.Groups cls.methods decl.methods := by
  rw [defineClass_eq] at hrun
  simp only [bind_eq_ok_iff] at hrun
  rcases hrun with ⟨-, s₁, -, superclass, s₂, -, -, s₃, -, cls, s₄, hmake, hlast⟩
  rw [henv] at hlast ⊢
  cases hlast
  have hbound : frame < s₄.frames.size := by
    simpa [Store.bindHere, Store.bindIn] using hframe
  refine ⟨cls, ?_, ?_⟩
  · show ((s₄.bindIn frame decl.name.lexeme (.class cls)).frame frame).find? _ = _
    rw [Store.find?_bindIn, if_pos ⟨⟨rfl, hbound⟩, rfl⟩]
  · simp only [makeClass, bind_eq_ok_iff] at hmake
    rcases hmake with ⟨env, s₅, -, methods, s₆, hmethods, hclass⟩
    cases hclass
    rcases addMethods_groups env decl.methods (.empty s₅) with ⟨methods', s', hadd, hgroups⟩
    rw [hadd] at hmethods
    cases hmethods
    exact ⟨hgroups.made, hgroups.apart, hgroups.order⟩

end Exec

/-! ## Bound methods -/

/-- A function is a copy of a method with `this` bound to an instance. -/
structure Store.IsBound (s : Store) (method : Fn) (object : Instance) (bound : Fn) : Prop where
  decl : bound.decl = method.decl
  isInitializer : bound.isInitializer = method.isInitializer
  outside : bound.closure.tail = method.closure
  receiver : s.boundInstance bound = some object

theorem Store.isBound_bindMethod (s : Store) (method : Fn) (self : Instance) :
    (s.bindMethod method self).2.IsBound method self (s.bindMethod method self).1 :=
  ⟨rfl, rfl, rfl, s.boundInstance_bindMethod method self⟩

namespace Eval

variable {call : Caller} {cx : Context} {first bound g : Fn} {self : Instance} {paren : Token}
  {arguments : List Value} {s : Store}

/-- A call of a bound copy without overloads runs the first method of the class that takes the
arguments. -/
theorem applyValue_bound (hbound : s.IsBound first self bound) (hnone : s.overloadsOf bound = [])
    (hfirst : self.cls.findMethod bound.name = some first)
    (hg : s.FirstTaking (first :: s.overloadsOf first) (arguments.map Value.typeName) g) :
    ∃ f s', (s' = s ∨ s' = (s.bindMethod g self).2) ∧ s'.IsBound g self f ∧
      applyValue call cx (.function bound) paren arguments s = call f arguments s' := by
  have hmatch := Store.findOverload_eq_some_iff.mpr hg
  have harity : g.arity = arguments.length := by
    rw [hg.takes.arity, List.length_map]
  -- the copy takes what the first method takes
  have hcopy : s.findOverload bound (arguments.map Value.typeName) =
      if first.accepts s.parents (arguments.map Value.typeName) then some bound else none := by
    rw [Store.findOverload, hnone, Fn.accepts, hbound.decl]
    rfl
  unfold applyValue
  dsimp only
  rw [get_bind]
  by_cases haccepts : first.accepts s.parents (arguments.map Value.typeName) = true
  · rw [if_pos haccepts] at hcopy
    rw [Store.findOverload, if_pos haccepts] at hmatch
    cases hmatch
    refine ⟨bound, s, .inl rfl, hbound, ?_⟩
    have hchoice : s.chooseOverload cx.env bound (arguments.map Value.typeName) =
        some (.function bound) := by
      rw [Store.chooseOverload, hcopy]
      rfl
    have harity' : bound.arity = arguments.length := by
      rw [← harity, Fn.arity, hbound.decl]
      rfl
    rw [hchoice]
    exact checkArity_then_of_eq harity' _
  · rw [if_neg haccepts] at hcopy
    refine ⟨(s.bindMethod g self).1, (s.bindMethod g self).2, .inr rfl, s.isBound_bindMethod g self,
      ?_⟩
    have hchoice : s.chooseOverload cx.env bound (arguments.map Value.typeName) =
        some (.method g self) := by
      rw [Store.chooseOverload, hcopy, Store.chooseMethod, hbound.receiver]
      dsimp only
      rw [Store.findMethodMatching, hfirst]
      dsimp only
      rw [hmatch]
      rfl
    rw [hchoice]
    exact checkArity_then_of_eq harity _

/-- What is neither the name of the class nor a field is a bound copy of the first method. -/
theorem getProperty_method {name : Token} (hname : ¬Text.sameName name.lexeme "classname")
    (hfield : (s.fieldsOf self).find? name.lexeme = none)
    (hfirst : self.cls.findMethod name.lexeme = some first) :
    getProperty (.object self) name s =
      .ok (.function (s.bindMethod first self).1) (s.bindMethod first self).2 := by
  have hproperty : property? self name.lexeme s =
      .ok (some (.function (s.bindMethod first self).1)) (s.bindMethod first self).2 := by
    unfold property?
    rw [if_neg hname, get_bind, hfield, hfirst]
    rfl
  unfold getProperty
  dsimp only
  rw [bind_of_ok hproperty]
  rfl

end Eval

/-! ## Calls in sound worlds -/

/-- Where an evaluation leads, whose recorded twin keeps worlds sound. -/
theorem Keeps.of_erases {known : Reference → Prop} {F : World → ε → Prop} {w : World}
    {x : Tracing ε α} {y : EStateM ε Store α} {Q : World → α → Prop} {value : α} {s : Store}
    (hx : Keeps known F x w Q) (hsame : Trace.Erases x y) (hrun : y w.store = .ok value s) :
    ∃ w', w'.store = s ∧ w.Extends w' ∧ Sound known w' ∧ Q w' value := by
  have herases := hsame w.trace
  change _ = y w.store at herases
  rw [hrun] at herases
  unfold Keeps at hx
  cases htrace : x w.trace with
  | error e t =>
      rw [htrace] at herases
      cases herases
  | ok result t =>
      rw [htrace] at herases hx
      cases herases
      rcases hx with ⟨w', rfl, hextends, hsound, hQ⟩
      exact ⟨w', rfl, hextends, hsound, hQ⟩

section Worlds

variable {known : Reference → Prop} {w : World} {cx : Context} {p : Place} {object : Expr}
  {name paren : Token} {arguments : List Expr} {fuel : Nat} {self : Instance} {s s' : Store}
  {values : List Value} {first : Fn}

/-- A call of a method of an instance runs the first method of the class that takes the arguments,
and while they are evaluated other methods can only come behind. -/
theorem Sound.methodCall (h : Sound known w) (hresolved : Resolved known cx.locals)
    (hp : Fits w.events w.store p cx.env)
    (hmentioned : Mentioned known p (Expr.call (.get object name) paren arguments).mentions)
    (hobject : Eval.expr (Exec.callFn cx fuel) cx object w.store = .ok (.object self) s)
    (hname : ¬Text.sameName name.lexeme "classname")
    (hfield : (s.fieldsOf self).find? name.lexeme = none)
    (hfirst : self.cls.findMethod name.lexeme = some first)
    (harguments : Eval.exprs (Exec.callFn cx fuel) cx arguments (s.bindMethod first self).2 =
      .ok values s') :
    s.overloadsOf first <+: s'.overloadsOf first ∧
    ∀ g, s'.FirstTaking (first :: s'.overloadsOf first) (values.map Value.typeName) g →
      ∃ bound s'', (s'' = s' ∨ s'' = (s'.bindMethod g self).2) ∧ s''.IsBound g self bound ∧
        Eval.expr (Exec.callFn cx fuel) cx (.call (.get object name) paren arguments) w.store =
          Exec.callFn cx fuel bound values s'' := by
  have hcall := callFn_ok hresolved fuel
  have hsame := Trace.callFn_erases cx fuel
  rcases (expr_keeps hcall hresolved object w h hp hmentioned.left).of_erases
    (Trace.expr_erases hsame cx object) hobject with ⟨w₁, rfl, hx₁, hsound₁, hself⟩
  have hbindable := bindable_of_findMethod hself self.cls.mem_ancestry_self hfirst
  have hsound : Sound known (w₁.bindMethod .apart first self) := hsound₁.bindMethod hbindable
  have hx : w.Extends (w₁.bindMethod .apart first self) := hx₁.trans World.extends_bindMethod
  rcases (exprs_keeps hcall hresolved arguments _ hsound (hx.fits hp) hmentioned.right).of_erases
    (Trace.exprs_erases hsame cx arguments) harguments with ⟨w₂, rfl, hx₂, hsound₂, -⟩
  refine ⟨(World.extends_bindMethod.trans hx₂).overloads first, fun g hg => ?_⟩
  have hbound : w₂.store.IsBound first self (w₁.store.bindMethod first self).1 :=
    ⟨rfl, rfl, rfl, hsound₁.boundInstance hbindable hx₂⟩
  have hcopyName : (w₁.store.bindMethod first self).1.name = name.lexeme := by
    rcases Class.findMethod_mem hfirst with ⟨owner, howner, hfind⟩
    exact (hself owner howner _ _ hfind).name
  rw [← hcopyName] at hfirst
  rcases Eval.applyValue_bound hbound (hsound₂.overloads_boundApart hx₂) hfirst hg with
    ⟨bound, s'', hstore, hbound'', happly⟩
  refine ⟨bound, s'', hstore, hbound'', ?_⟩
  have htarget : Eval.expr (Exec.callFn cx fuel) cx (.get object name) w.store =
      .ok (.function (w₁.store.bindMethod first self).1) (w₁.store.bindMethod first self).2 := by
    rw [hcopyName] at hfirst
    rw [Eval.expr, bind_of_ok hobject]
    exact Eval.getProperty_method hname hfield hfirst
  rw [Eval.expr, bind_of_ok htarget, bind_of_ok harguments]
  exact happly

end Worlds

/-! ## Declarations of classes -/

namespace Passes

variable {s s' : Store} {d a : Entry} {later earlier : List Entry}

/-- Behind the declaration of a class, its name is bound to a class with the declared methods. -/
theorem class_groups (h : Passes s (d :: earlier) s') (hbegun : d.Begun) {decl : ClassDecl Stmt}
    (hactivity : d.activity = .statement (.classDecl decl)) (hdone : d.ending = .done) :
    ∃ cls : Class, d.after.store.findHere? d.before.cx.env decl.name.lexeme = some (.class cls) ∧
      d.after.store.Groups cls.methods decl.methods := by
  rcases h.last with ⟨start, -, hbecomes, haccounted, -⟩
  rcases haccounted.classes decl hactivity hdone with ⟨rfl, hrun⟩
  rcases hbegun with ⟨known, w, hstore, -, -, hplaced⟩
  rw [hactivity] at hplaced
  rcases hplaced with ⟨p, hp, -⟩
  rcases hp.frame_lt with ⟨frame, outer, henv, hframe⟩
  rw [hstore] at hframe
  exact Exec.defineClass_groups henv (Nat.lt_of_lt_of_le hframe hbecomes.frames) hrun

/-- Overloads stay in place, and others can only come behind them. -/
theorem overloads_grow (h : Passes s (later ++ d :: earlier) s') (ha : a ∈ later) (f : Fn) :
    d.after.store.overloadsOf f <+: a.after.store.overloadsOf f := by
  rcases List.append_of_mem ha with ⟨last, between, rfl⟩
  rw [List.append_assoc, List.cons_append] at h
  have hbefore : Passes s ((a :: between) ++ d :: earlier) a.after.store := h.split.1
  exact hbefore.split.2.overloads f

end Passes

/-! ## Courses -/

namespace Course

/-- Whatever is compiled and run or tested, wherever a method of an instance is called: the name is
not that of the class nor of a field.  Then the methods that the nearest class has under the name
stay in front while the arguments are evaluated; and if one of those in front, as many of them as
one likes, takes the arguments, the first one that does runs, bound to the instance.  And when a
class has been declared, its methods stand under their names in the order in which they are
declared, and from then on they stay in front. -/
theorem method_call_runs_first_taking (options : CompileOptions) (host : Host) (jobs : List Job) :
    let c := (start options host).workAll jobs
    c.session = (Session.start options host).workAll jobs ∧
    (∀ e ∈ c.runs.entries, ∀ object name paren arguments,
      e.activity = .expression (.call (.get object name) paren arguments) →
      ∀ fuel self s first values s',
        let call := Exec.callFn e.before.cx fuel
        Eval.expr call e.before.cx object e.before.store = .ok (.object self) s →
        ¬Text.sameName name.lexeme "classname" →
        (s.fieldsOf self).find? name.lexeme = none →
        self.cls.Nearest name.lexeme first →
        Eval.exprs call e.before.cx arguments (s.bindMethod first self).2 = .ok values s' →
        s.overloadsOf first <+: s'.overloadsOf first ∧
        ∀ front g, front <+: first :: s'.overloadsOf first →
          s'.FirstTaking front (values.map Value.typeName) g →
          s'.findMethodMatching self.cls name.lexeme (values.map Value.typeName) = some g ∧
          ∃ bound s'', (s'' = s' ∨ s'' = (s'.bindMethod g self).2) ∧ s''.IsBound g self bound ∧
            Eval.expr call e.before.cx (.call (.get object name) paren arguments)
              e.before.store = call bound values s'') ∧
    ∀ later d earlier decl, c.runs.entries = later ++ d :: earlier →
      d.activity = .statement (.classDecl decl) → d.ending = .done →
      ∃ cls : Class,
        d.after.store.findHere? d.before.cx.env decl.name.lexeme = some (.class cls) ∧
        d.after.store.Groups cls.methods decl.methods ∧
        ∀ a ∈ later, ∀ f, d.after.store.overloadsOf f <+: a.after.store.overloadsOf f := by
  have hbegun := ((valid_start options host).workAll jobs).vouched.entries.begun
  refine ⟨workAll_session (.start host) jobs, ?_, ?_⟩
  · intro e he object name paren arguments hactivity fuel self s first values s' call hobject hname
      hfield hnearest harguments
    have hfirst := Class.findMethod_eq_some_iff.mpr hnearest
    rcases hbegun e he with ⟨known, w, hstore, hsound, hresolved, hplaced⟩
    rw [hactivity] at hplaced
    rcases hplaced with ⟨p, hp, hmentioned⟩
    rw [← hstore] at hobject ⊢
    rcases hsound.methodCall hresolved hp hmentioned hobject hname hfield hfirst harguments with
      ⟨hgrows, hcall⟩
    refine ⟨hgrows, fun front g hfront hg => ?_⟩
    have hall := hg.of_prefix hfront
    refine ⟨?_, hcall g hall⟩
    rw [Store.findMethodMatching, hfirst]
    exact Store.findOverload_eq_some_iff.mpr hall
  · intro later d earlier decl hentries hactivity hdone
    have hpasses := (workAll_told (c := start options host) (.start host) jobs).passes
    rw [hentries] at hpasses hbegun
    have hd : d.Begun := hbegun d (List.mem_append_right _ List.mem_cons_self)
    rcases hpasses.split.1.class_groups hd hactivity hdone with ⟨cls, hbound, hgroups⟩
    exact ⟨cls, hbound, hgroups, fun a ha f => hpasses.overloads_grow ha f⟩

/-- A method takes an integer or a string, and an instance of a class below is asked for it. -/
def inheritedOverloads : List Job :=
  [⟨⟨.empty, 20, ⟨"main.pas",
    "class A; begin " ++
    "M(X : Integer); begin print 'integer'; end " ++
    "M(X : String); begin print 'string'; end end " ++
    "class B(A); begin end " ++
    "B().M('text');"⟩⟩, .run⟩]

/-- Whether a call of a method in the context of an entry comes to a method other than the first. -/
def choosesSibling (fuel : Nat) (e : Entry) : Bool :=
  match e.activity with
  | .expression (.call (.get object name) _ arguments) =>
      let call := Exec.callFn e.before.cx fuel
      match Eval.expr call e.before.cx object e.before.store with
      | .ok (.object self) s =>
          match self.cls.findMethod name.lexeme with
          | some first =>
              match Eval.exprs call e.before.cx arguments (s.bindMethod first self).2 with
              | .ok values s' =>
                  match s'.findOverload first (values.map Value.typeName) with
                  | some g => !Text.sameName name.lexeme "classname" &&
                      ((s.fieldsOf self).find? name.lexeme).isNone && first.id < g.id
                  | none => false
              | .error _ _ => false
          | none => false
      | _ => false
  | _ => false

theorem exists_of_choosesSibling {fuel : Nat} {entries : List Entry}
    (h : entries.any (choosesSibling fuel) = true) :
    ∃ e ∈ entries, ∃ object name paren arguments,
      e.activity = .expression (.call (.get object name) paren arguments) ∧
      let call := Exec.callFn e.before.cx fuel
      ∃ self s first values s' g,
        Eval.expr call e.before.cx object e.before.store = .ok (.object self) s ∧
        ¬Text.sameName name.lexeme "classname" ∧
        (s.fieldsOf self).find? name.lexeme = none ∧
        self.cls.findMethod name.lexeme = some first ∧
        Eval.exprs call e.before.cx arguments (s.bindMethod first self).2 = .ok values s' ∧
        s'.findOverload first (values.map Value.typeName) = some g ∧ first.id < g.id := by
  rcases List.any_eq_true.mp h with ⟨e, he, hcheck⟩
  unfold choosesSibling at hcheck
  split at hcheck
  case h_2 => cases hcheck
  next object name paren arguments hactivity =>
    dsimp only at hcheck
    split at hcheck
    case h_2 => cases hcheck
    next self s hobject =>
      split at hcheck
      case h_2 => cases hcheck
      next first hfirst =>
        split at hcheck
        case h_2 => cases hcheck
        next values s' harguments =>
          split at hcheck
          case h_2 => cases hcheck
          next g hg =>
            simp only [Bool.and_eq_true, Bool.not_eq_true', Option.isNone_iff_eq_none,
              decide_eq_true_eq] at hcheck
            rcases hcheck with ⟨⟨hname, hfield⟩, hother⟩
            exact ⟨e, he, object, name, paren, arguments, hactivity, self, s, first, values, s', g,
              hobject, Bool.eq_false_iff.mp hname, hfield, hfirst, harguments, hg, hother⟩

/-- Whether an entry is that of a class that has been declared. -/
def declaresClass (e : Entry) : Bool :=
  match e.activity, e.ending with
  | .statement (.classDecl _), .done => true
  | _, _ => false

theorem exists_of_declaresClass {entries : List Entry} (h : entries.any declaresClass = true) :
    ∃ later d earlier decl, entries = later ++ d :: earlier ∧
      d.activity = .statement (.classDecl decl) ∧ d.ending = .done := by
  rcases List.any_eq_true.mp h with ⟨d, hd, hcheck⟩
  rcases List.append_of_mem hd with ⟨later, earlier, hentries⟩
  unfold declaresClass at hcheck
  split at hcheck
  case h_2 => cases hcheck
  next decl hactivity hdone => exact ⟨later, d, earlier, decl, hentries, hactivity, hdone⟩

theorem method_call_runs_first_taking_inherited :
    let c := (start {} (.still 0)).workAll inheritedOverloads
    (∃ e ∈ c.runs.entries, ∃ object name paren arguments,
      e.activity = .expression (.call (.get object name) paren arguments) ∧
      ∃ (self : Instance) (first g bound : Fn) (values : List Value) (s' s'' : Store),
        self.cls.Nearest name.lexeme first ∧
        s'.FirstTaking (first :: s'.overloadsOf first) (values.map Value.typeName) g ∧
        first.id < g.id ∧ s''.IsBound g self bound ∧
        Eval.expr (Exec.callFn e.before.cx 20) e.before.cx
          (.call (.get object name) paren arguments) e.before.store =
            Exec.callFn e.before.cx 20 bound values s'') ∧
    ∃ d ∈ c.runs.entries, ∃ (decl : ClassDecl Stmt) (cls : Class),
      d.activity = .statement (.classDecl decl) ∧
      d.after.store.Groups cls.methods decl.methods := by
  have hruns := (method_call_runs_first_taking {} (.still 0) inheritedOverloads).2
  have hfound : let entries := ((start {} (.still 0)).workAll inheritedOverloads).runs.entries
      entries.any (choosesSibling 20) = true ∧ entries.any declaresClass = true := by
    decide +kernel
  generalize (start {} (.still 0)).workAll inheritedOverloads = c at *
  rcases hruns with ⟨hcalls, hclasses⟩
  constructor
  · rcases exists_of_choosesSibling hfound.1 with ⟨e, he, object, name, paren, arguments,
      hactivity, self, s, first, values, s', g, hobject, hname, hfield, hfirst, harguments, hg,
      hother⟩
    have hnearest := Class.findMethod_eq_some_iff.mp hfirst
    have htaking := Store.findOverload_eq_some_iff.mp hg
    rcases hcalls e he object name paren arguments hactivity 20 self s first values s' hobject
      hname hfield hnearest harguments with ⟨-, hcall⟩
    rcases hcall _ g (List.prefix_refl _) htaking with ⟨-, bound, s'', -, hbound, hrun⟩
    exact ⟨e, he, object, name, paren, arguments, hactivity, self, first, g, bound, values, s', s'',
      hnearest, htaking, hother, hbound, hrun⟩
  · rcases exists_of_declaresClass hfound.2 with
      ⟨later, d, earlier, decl, hentries, hactivity, hdone⟩
    rcases hclasses later d earlier decl hentries hactivity hdone with ⟨cls, -, hgroups, -⟩
    refine ⟨d, ?_, decl, cls, hactivity, hgroups⟩
    rw [hentries]
    exact List.mem_append_right _ List.mem_cons_self

end Course

end MiniPascal
