import MiniPascal.Proofs.Machine.DeclarationSoundness

/-!
# What becomes of bindings

No operation takes a name out of a frame.  A binding stays what it is unless its name is assigned,
and an old frame gets a new name only by a declaration in it or by an assignment: looking up,
calling what is built in and binding methods do neither.  A function gets overloads only by
declarations that find it under their name.
-/

namespace MiniPascal

/-! ## The nearest frame -/

namespace Store

variable {s : Store} {env : Env} {name : String} {owner : FrameId}

/-- The nearest frame with a name has it, and those in front of it do not. -/
theorem frameOf?_eq_some_iff : s.frameOf? env name = some owner ↔
    owner ∈ env ∧ (s.frame owner).contains name = true ∧
      ∀ nearer ∈ env.takeWhile (· ≠ owner), (s.frame nearer).contains name = false := by
  induction env with
  | nil => simp [frameOf?]
  | cons frame outer ih =>
      unfold frameOf?
      by_cases hsame : frame = owner
      · subst hsame
        cases hfound : (s.frame frame).contains name with
        | true => simp
        | false =>
            rw [if_neg (by simp), ih]
            simp [hfound]
      · have hmem : owner ∈ frame :: outer ↔ owner ∈ outer := by
          simp [List.mem_cons, Ne.symm hsame]
        rw [List.takeWhile_cons_of_pos (by simpa using hsame), hmem]
        cases hfound : (s.frame frame).contains name with
        | true => simp [hfound, hsame]
        | false =>
            rw [if_neg (by simp), ih]
            simp [hfound]

theorem frameOf?_isSome_iff :
    (s.frameOf? env name).isSome ↔ ∃ frame ∈ env, (s.frame frame).contains name = true := by
  induction env with
  | nil => simp [frameOf?]
  | cons frame outer ih =>
      unfold frameOf?
      cases hfound : (s.frame frame).contains name with
      | true => simp [hfound]
      | false => simp [hfound, ih]

theorem find?_eq_frameOf? (s : Store) (env : Env) (name : String) :
    s.find? env name = (s.frameOf? env name).bind fun frame => (s.frame frame).find? name := by
  induction env with
  | nil => rfl
  | cons frame outer ih =>
      unfold find? frameOf? Table.contains
      cases hfound : (s.frame frame).find? name with
      | some value => simp [hfound]
      | none => simp [ih]

end Store

/-! ## Changes of the store -/

namespace Store

/-- What may become of frames and functions: bindings stay but for names that are assigned, frames
get no names but those that are introduced, and functions get further overloads. -/
structure Becomes (assigned : String → Prop) (introduced : FrameId → String → Prop)
    (s s' : Store) : Prop where
  frames : s.frames.size ≤ s'.frames.size
  bound : s.Grows s'
  kept : ∀ frame name value, (s.frame frame).find? name = some value → ¬assigned name →
    (s'.frame frame).find? name = some value
  names : ∀ frame, frame < s.frames.size → ∀ name, (s.frame frame).find? name = none →
    ((s'.frame frame).find? name).isSome → introduced frame name
  overloads : ∀ f, s.overloadsOf f <+: s'.overloadsOf f

/-- Old functions get no overloads. -/
structure Settles (s s' : Store) : Prop where
  functions : s.overloads.size ≤ s'.overloads.size
  overloads : ∀ f : Fn, f.id < s.overloads.size → s'.overloadsOf f = s.overloadsOf f

/-- All bindings stay, old frames get no names, and old functions no overloads. -/
structure Lasts (s s' : Store) : Prop where
  same : s.Becomes (fun _ => False) (fun _ _ => False) s'
  settles : s.Settles s'

namespace Becomes

variable {assigned : String → Prop} {introduced : FrameId → String → Prop} {s s' s'' : Store}

theorem refl (s : Store) : s.Becomes assigned introduced s where
  frames := Nat.le_refl _
  bound := .refl s
  kept _ _ _ h _ := h
  names _ _ _ hnone hsome := by
    rw [hnone] at hsome
    cases hsome
  overloads _ := List.prefix_refl _

theorem trans (h : s.Becomes assigned introduced s') (h' : s'.Becomes assigned introduced s'') :
    s.Becomes assigned introduced s'' where
  frames := Nat.le_trans h.frames h'.frames
  bound := h.bound.trans h'.bound
  kept frame name value hvalue hname :=
    h'.kept frame name value (h.kept frame name value hvalue hname) hname
  names frame hframe name hnone hsome := by
    cases hbetween : (s'.frame frame).find? name with
    | none => exact h'.names frame (Nat.lt_of_lt_of_le hframe h.frames) name hbetween hsome
    | some value => exact h.names frame hframe name hnone (by rw [hbetween]; rfl)
  overloads f := (h.overloads f).trans (h'.overloads f)

theorem imp {assigned' : String → Prop} {introduced' : FrameId → String → Prop}
    (h : s.Becomes assigned introduced s') (hassigned : ∀ name, assigned name → assigned' name)
    (hintroduced : ∀ frame name, introduced frame name → introduced' frame name) :
    s.Becomes assigned' introduced' s' where
  frames := h.frames
  bound := h.bound
  kept frame name value hvalue hname := h.kept frame name value hvalue (mt (hassigned name) hname)
  names frame hframe name hnone hsome :=
    hintroduced frame name (h.names frame hframe name hnone hsome)
  overloads := h.overloads

end Becomes

namespace Settles

variable {s s' s'' : Store}

theorem refl (s : Store) : s.Settles s :=
  ⟨Nat.le_refl _, fun _ _ => rfl⟩

theorem trans (h : s.Settles s') (h' : s'.Settles s'') : s.Settles s'' where
  functions := Nat.le_trans h.functions h'.functions
  overloads f hf :=
    (h'.overloads f (Nat.lt_of_lt_of_le hf h.functions)).trans (h.overloads f hf)

theorem of_eq (hoverloads : s'.overloads = s.overloads) : s.Settles s' where
  functions := Nat.le_of_eq (by rw [hoverloads])
  overloads f _ := by rw [overloadsOf, overloadsOf, hoverloads]

theorem newFn (s : Store) (decl : Function) (closure : Env) (isInitializer : Bool) :
    s.Settles (s.newFn decl closure isInitializer).2 where
  functions := by simp [Store.newFn]
  overloads f _ := by rw [overloadsOf, overloadsOf, getD_overloads_newFn]

theorem addOverload {f : Fn} (h : s.Settles s') (hnew : s.overloads.size ≤ f.id) (overload : Fn) :
    s.Settles (s'.addOverload f overload) where
  functions := by simpa [Store.addOverload] using h.functions
  overloads g hg := by
    rw [← h.overloads g hg, overloadsOf, overloadsOf, getD_overloads_addOverload, if_neg]
    omega

end Settles

theorem Becomes.of_overloads {assigned : String → Prop} {introduced : FrameId → String → Prop}
    {s s' : Store} (hframes : s'.frames = s.frames)
    (hoverloads : ∀ f, s.overloadsOf f <+: s'.overloadsOf f) :
    s.Becomes assigned introduced s' := by
  have hframe (frame : FrameId) : s'.frame frame = s.frame frame := by
    rw [Store.frame, Store.frame, hframes]
  refine ⟨Nat.le_of_eq (by rw [hframes]), ?_, ?_, ?_, hoverloads⟩
  · intro frame name hbound
    rw [hframe]
    exact hbound
  · intro frame name value hvalue _
    rw [hframe]
    exact hvalue
  · intro frame _ name hnone hsome
    rw [hframe, hnone] at hsome
    cases hsome

theorem becomes_addOverload {assigned : String → Prop} {introduced : FrameId → String → Prop}
    (s : Store) (f overload : Fn) : s.Becomes assigned introduced (s.addOverload f overload) :=
  .of_overloads rfl (s.overloadsOf_isPrefix_addOverload f overload)

namespace Lasts

variable {s s' s'' : Store}

theorem refl (s : Store) : s.Lasts s :=
  ⟨.refl s, .refl s⟩

theorem trans (h : s.Lasts s') (h' : s'.Lasts s'') : s.Lasts s'' :=
  ⟨h.same.trans h'.same, h.settles.trans h'.settles⟩

theorem becomes {assigned : String → Prop} {introduced : FrameId → String → Prop}
    (h : s.Lasts s') : s.Becomes assigned introduced s' :=
  h.same.imp (fun _ => False.elim) fun _ _ => False.elim

theorem of_eq (hframes : s'.frames = s.frames) (hoverloads : s'.overloads = s.overloads) :
    s.Lasts s' := by
  refine ⟨.of_overloads hframes fun f => ?_, .of_eq hoverloads⟩
  have hsame : s'.overloadsOf f = s.overloadsOf f := by
    rw [overloadsOf, overloadsOf, hoverloads]
  exact hsame ▸ List.prefix_refl _

theorem newFrame (s : Store) (bindings : Table Value) : s.Lasts (s.newFrame bindings).2 := by
  -- what has a name is an old frame
  have hold {frame : FrameId} {name : String} (hsome : ((s.frame frame).find? name).isSome) :
      (s.newFrame bindings).2.frame frame = s.frame frame := by
    rw [frame_newFrame, if_neg]
    rintro rfl
    have hempty : s.frame s.frames.size = ∅ := by simp [Store.frame]
    rw [hempty] at hsome
    cases hsome
  refine ⟨⟨?_, ?_, ?_, ?_, fun _ => List.prefix_refl _⟩, .of_eq rfl⟩
  · simp [Store.newFrame]
  · intro frame name hbound
    rw [hold hbound]
    exact hbound
  · intro frame name value hvalue _
    rw [hold (by rw [hvalue]; rfl)]
    exact hvalue
  · intro frame hframe name hnone hsome
    rw [frame_newFrame, if_neg (Nat.ne_of_lt hframe), hnone] at hsome
    cases hsome

theorem newFn (s : Store) (decl : Function) (closure : Env) (isInitializer : Bool) :
    s.Lasts (s.newFn decl closure isInitializer).2 := by
  refine ⟨.of_overloads rfl fun f => ?_, .newFn s decl closure isInitializer⟩
  have hsame : (s.newFn decl closure isInitializer).2.overloadsOf f = s.overloadsOf f := by
    rw [overloadsOf, overloadsOf, getD_overloads_newFn]
  exact hsame ▸ List.prefix_refl _

theorem bindMethod (s : Store) (f : Fn) (self : Instance) : s.Lasts (s.bindMethod f self).2 :=
  (newFrame s _).trans (newFn _ _ _ _)

end Lasts

theorem becomes_bindIn (s : Store) (frame : FrameId) (name : String) (value : Value) :
    s.Becomes (· = name) (fun other key => other = frame ∧ key = name)
      (s.bindIn frame name value) := by
  refine ⟨?_, ?_, ?_, ?_, fun _ => List.prefix_refl _⟩
  · simp [bindIn]
  · intro other key hbound
    rw [find?_bindIn]
    split
    · rfl
    · exact hbound
  · intro other key old hold hkey
    rw [find?_bindIn, if_neg fun h => hkey h.2]
    exact hold
  · intro other _ key hnone hsome
    rw [find?_bindIn] at hsome
    split at hsome
    · next h => exact ⟨h.1.1, h.2⟩
    · rw [hnone] at hsome
      cases hsome

/-- A name is declared in a frame, and may be bound anew before anything else happens to the
frame. -/
theorem becomes_declared {frame : FrameId} {name : String} {first last : Value} {s s' : Store}
    (hfree : (s.frame frame).find? name = none)
    (h : (s.bindIn frame name first).Lasts s') :
    s.Becomes (fun _ => False) (fun other key => other = frame ∧ key = name)
      (s'.bindIn frame name last) := by
  have hall := ((becomes_bindIn s frame name first).trans h.becomes).trans
    (becomes_bindIn s' frame name last)
  refine ⟨hall.frames, hall.bound, ?_, hall.names, hall.overloads⟩
  intro other key old hold _
  by_cases hsame : other = frame ∧ key = name
  · rcases hsame with ⟨rfl, rfl⟩
    rw [hfree] at hold
    cases hold
  · have hother (t : Store) (value : Value) :
        ((t.bindIn frame name value).frame other).find? key = (t.frame other).find? key := by
      rw [find?_bindIn, if_neg fun h => hsame ⟨h.1.1, h.2⟩]
    rw [hother]
    exact h.same.kept other key old ((hother s first).trans hold) not_false

end Store

/-! ## Computations that bind nothing -/

def Store.behind : EStateM.Result ε Store α → Store
  | .ok _ s => s
  | .error _ s => s

/-- However it ends, the computation leaves bindings, names and overloads as they are. -/
def Steady (x : EStateM ε Store α) : Prop :=
  ∀ s : Store, s.Lasts (Store.behind (x s))

namespace Steady

theorem pure (value : α) : Steady (Pure.pure value : EStateM ε Store α) :=
  fun s => .refl s

theorem throw (e : ε) : Steady (MonadExcept.throw e : EStateM ε Store α) :=
  fun s => .refl s

theorem get : Steady (MonadState.get : EStateM ε Store Store) :=
  fun s => .refl s

theorem bind {x : EStateM ε Store α} {f : α → EStateM ε Store β} (hx : Steady x)
    (hf : ∀ value, Steady (f value)) : Steady (x >>= f) := by
  intro s
  have hfirst := hx s
  cases hrun : x s with
  | ok value s' =>
      rw [hrun] at hfirst
      rw [bind_of_ok hrun]
      exact hfirst.trans (hf value s')
  | error e s' =>
      rw [hrun] at hfirst
      rw [bind_of_error hrun]
      exact hfirst

theorem of_modify {change : Store → Store} (h : ∀ s : Store, s.Lasts (change s)) :
    Steady (modify change : EStateM ε Store Unit) :=
  h

theorem of_modifyGet {change : Store → α × Store} (h : ∀ s : Store, s.Lasts (change s).2) :
    Steady (modifyGet change : EStateM ε Store α) :=
  h

theorem of_run {x : EStateM ε Store α} (h : ∀ s, ∃ value, x s = .ok value s) : Steady x := by
  intro s
  rcases h s with ⟨value, hrun⟩
  rw [hrun]
  exact .refl s

end Steady

namespace Eval

theorem child_steady (env : Env) (bindings : Table Value) : Steady (child env bindings) :=
  (Steady.of_modifyGet fun s => .newFrame s bindings).bind fun _ => .pure _

theorem bindMethod_steady (method : Fn) (self : Instance) : Steady (bindMethod method self) :=
  .of_modifyGet fun s => .bindMethod s method self

theorem failAt_steady (token : Token) (fault : RuntimeFault) :
    Steady (failAt token fault : Eval α) :=
  .throw _

theorem orFail_steady (token : Token) (result : Except RuntimeFault α) :
    Steady (orFail token result) := by
  cases result with
  | ok value => exact .pure value
  | error fault => exact failAt_steady token fault

theorem property?_steady (self : Instance) (name : String) : Steady (property? self name) := by
  unfold property?
  split
  · exact .pure _
  · refine Steady.get.bind fun s => ?_
    split
    · exact .pure _
    · split
      · exact (bindMethod_steady _ self).bind fun _ => .pure _
      · exact .pure _

theorem lookUp_steady (cx : Context) (id : NodeId) (name : Token) :
    Steady (lookUp cx id name) := by
  refine (Steady.of_run fun s => ?_).bind fun found => ?_
  · rcases readVariable_run cx id name.lexeme s with ⟨value, hrun, -⟩
    exact ⟨value, hrun⟩
  · split
    · exact .pure _
    · refine (Steady.of_run fun s => ?_).bind fun self => ?_
      · rcases thisInstance?_run cx.env s with ⟨value, hrun, -⟩
        exact ⟨value, hrun⟩
      · split
        · exact failAt_steady name _
        · refine (property?_steady _ name.lexeme).bind fun property => ?_
          split
          · exact .pure _
          · exact failAt_steady name _

theorem superMethod_steady (cx : Context) (id : NodeId) (keyword method : Token) :
    Steady (superMethod cx id keyword method) := by
  unfold superMethod
  split
  · exact failAt_steady keyword _
  · refine Steady.get.bind fun s => ?_
    split
    · dsimp only
      split
      · split
        · exact (bindMethod_steady _ _).bind fun _ => .pure _
        · exact failAt_steady method _
      · exact failAt_steady keyword _
    · exact failAt_steady keyword _

theorem getProperty_steady (target : Value) (name : Token) : Steady (getProperty target name) := by
  unfold getProperty
  split
  · refine (property?_steady _ name.lexeme).bind fun property => ?_
    split
    · exact .pure _
    · exact failAt_steady name _
  · refine Steady.get.bind fun s => ?_
    split
    · next found _ =>
        cases found with
        | length count => exact .pure _
        | method op target =>
            exact (Steady.of_modifyGet fun s => .of_eq rfl rfl).bind fun _ => .pure _
    · exact failAt_steady name _
    · exact failAt_steady name _

theorem fieldOwner_steady (target : Value) (name : Token) : Steady (fieldOwner target name) := by
  unfold fieldOwner
  split
  · exact .pure _
  · split
    · exact failAt_steady name _
    · exact failAt_steady name _

theorem checkArity_steady (paren : Token) (expected got : Nat) :
    Steady (checkArity paren expected got) := by
  unfold checkArity
  split
  · exact .pure _
  · exact failAt_steady paren _

theorem bindChoice_steady (choice : Store.Choice) : Steady (bindChoice choice) := by
  cases choice with
  | function f => exact .pure _
  | method f self => exact bindMethod_steady f self

theorem callNative_steady (host : Host) (op : NativeOp) (paren : Token) (arguments : List Value) :
    Steady (callNative host op paren arguments) := by
  intro s
  rw [callNative_apply]
  cases hrun : (s.entering op).callNative host op arguments with
  | error fault => exact .of_eq (s.frames_entering op) (s.overloads_entering op)
  | ok outcome =>
      rcases Store.bindings_of_callNative hrun with ⟨hframes, hoverloads⟩
      exact .of_eq hframes hoverloads

end Eval

/-! ## Computations that declare names -/

/-- However it ends, the computation leaves bindings as they are, and no old frame gets a name but
the innermost one of the environment, and that only the given ones. -/
def Declares (env : Env) (names : List String) (x : EStateM ε Store α) : Prop :=
  ∀ s : Store, s.Becomes (fun _ => False) (fun frame name => env.head? = some frame ∧ name ∈ names)
    (Store.behind (x s))

namespace Declares

variable {env : Env} {names : List String}

theorem of_steady {x : EStateM ε Store α} (h : Steady x) : Declares env names x :=
  fun s => (h s).becomes

theorem bind {x : EStateM ε Store α} {f : α → EStateM ε Store β} (hx : Declares env names x)
    (hf : ∀ value, Declares env names (f value)) : Declares env names (x >>= f) := by
  intro s
  have hfirst := hx s
  cases hrun : x s with
  | ok value s' =>
      rw [hrun] at hfirst
      rw [bind_of_ok hrun]
      exact hfirst.trans (hf value s')
  | error e s' =>
      rw [hrun] at hfirst
      rw [bind_of_error hrun]
      exact hfirst

theorem imp {x : EStateM ε Store α} {names' : List String} (h : Declares env names x)
    (hnames : ∀ name ∈ names, name ∈ names') : Declares env names' x :=
  fun s => (h s).imp (fun _ => id) fun _ name hname => ⟨hname.1, hnames name hname.2⟩

end Declares

namespace Exec

variable {env : Env}

/-- A name that is free in the innermost frame, bound, and maybe bound anew. -/
theorem becomes_bindHere {name : String} {first last : Value} {s s' : Store}
    (hfree : s.findHere? env name = none) (h : (s.bindHere env name first).Lasts s') :
    s.Becomes (fun _ => False) (fun frame key => env.head? = some frame ∧ key ∈ [name])
      (s'.bindHere env name last) := by
  cases env with
  | nil => exact h.becomes
  | cons frame outer =>
      refine (Store.becomes_declared hfree h).imp (fun _ => id) fun other key hsame => ?_
      rcases hsame with ⟨rfl, rfl⟩
      exact ⟨rfl, List.mem_singleton_self _⟩

theorem define_ok {name : Token} {value : Value} {s s' : Store}
    (hrun : Eval.define env name value s = .ok () s') :
    s.define? env name.lexeme value = some s' := by
  rw [Eval.define_run] at hrun
  unfold Store.define?
  cases hdefinition : s.definition env name.lexeme value with
  | fresh =>
      rw [hdefinition] at hrun
      cases hrun
      rfl
  | overload existing added =>
      rw [hdefinition] at hrun
      cases hrun
      rfl
  | refused =>
      rw [hdefinition] at hrun
      cases hrun

theorem define?_cases {name : String} {value : Value} {s s' : Store}
    (h : s.define? env name value = some s') :
    (s.findHere? env name = none ∧ s' = s.bindHere env name value) ∨
      ∃ existing added, s.findHere? env name = some (.function existing) ∧
        value = .function added ∧ s' = s.addOverload existing added := by
  unfold Store.define? Store.definition at h
  cases hfind : s.findHere? env name with
  | none =>
      rw [hfind] at h
      cases h
      exact .inl ⟨rfl, rfl⟩
  | some found =>
      rw [hfind] at h
      cases found with
      | function existing =>
          cases value with
          | function added =>
              cases h
              exact .inr ⟨existing, added, rfl, rfl, rfl⟩
          | _ => cases h
      | _ => cases h

theorem findHere?_of_fresh {name : String} {value : Value} {s : Store}
    (h : s.definition env name value = .fresh) : s.findHere? env name = none := by
  unfold Store.definition at h
  cases hfind : s.findHere? env name with
  | none => rfl
  | some found =>
      rw [hfind] at h
      cases found <;> first | cases h | (cases value <;> cases h)

theorem define_declares (name : Token) (value : Value) :
    Declares env [name.lexeme] (Eval.define env name value) := by
  intro s
  rw [Eval.define_run]
  cases hdefinition : s.definition env name.lexeme value with
  | fresh =>
      have hfree := findHere?_of_fresh hdefinition
      cases env with
      | nil => exact .refl s
      | cons frame outer =>
          have hbind := Store.becomes_bindIn s frame name.lexeme value
          refine ⟨hbind.frames, hbind.bound, ?_, ?_, hbind.overloads⟩
          · intro other key old hold _
            show ((s.bindIn frame name.lexeme value).frame other).find? key = some old
            rw [Store.find?_bindIn, if_neg]
            · exact hold
            · rintro ⟨⟨rfl, -⟩, rfl⟩
              change (s.frame other).find? name.lexeme = none at hfree
              rw [hfree] at hold
              cases hold
          · intro other hother key hnone hsome
            rcases hbind.names other hother key hnone hsome with ⟨rfl, rfl⟩
            exact ⟨rfl, List.mem_singleton_self _⟩
  | overload existing added => exact Store.becomes_addOverload s existing added
  | refused => exact .refl s

theorem defineMembers_declares (enumName : String) (members : List Token) :
    ∀ ordinal, Declares env (members.map Token.lexeme)
      (defineMembers env enumName ordinal members) := by
  induction members with
  | nil => exact fun _ => .of_steady (.pure _)
  | cons member rest ih =>
      intro ordinal
      refine ((define_declares member _).imp ?_).bind fun _ => (ih (ordinal + 1)).imp ?_
      · exact List.forall_mem_singleton.mpr List.mem_cons_self
      · exact fun name hname => List.mem_cons_of_mem _ hname

theorem defineEnums_declares (decls : List EnumDecl) :
    Declares env (decls.flatMap EnumDecl.declared) (defineEnums env decls) := by
  induction decls with
  | nil => exact .of_steady (.pure _)
  | cons decl rest ih =>
      refine ((defineMembers_declares decl.name.lexeme decl.members 0).imp ?_).bind fun _ =>
        ih.imp ?_
      · exact fun name hname => List.mem_append_left _ hname
      · exact fun name hname => List.mem_append_right _ hname

theorem defineFunction_declares (decl : Function) :
    Declares env [decl.name.lexeme] (defineFunction env decl) :=
  (Declares.of_steady (.of_modifyGet fun s => .newFn s decl env false)).bind fun f =>
    define_declares decl.name (.function f)

theorem superclass?_steady (cx : Context) (parent : Option Superclass) :
    Steady (superclass? cx parent) := by
  cases parent with
  | none => exact .pure _
  | some parent =>
      refine (Eval.lookUp_steady cx parent.id parent.name).bind fun value => ?_
      split
      · exact .pure _
      · exact Eval.failAt_steady _ _

theorem methodEnv_steady (superclass : Option Class) : Steady (methodEnv env superclass) := by
  cases superclass with
  | none => exact .pure _
  | some parent => exact Eval.child_steady _ _

/-- Methods are overloads of methods that were made for the same class. -/
theorem addMethods_lasts {s : Store} (list : List Function) :
    ∀ (methods : Table Fn) (s' : Store), s.Lasts s' →
      (∀ name first, methods.find? name = some first → s.overloads.size ≤ first.id) →
      s.Lasts (Store.behind (addMethods env methods list s')) := by
  induction list with
  | nil => exact fun _ _ h _ => h
  | cons decl rest ih =>
      intro methods s' h hnew
      let made := s'.newFn decl env (decl.name.lexeme == initializerName)
      have hmade : s.Lasts made.2 := h.trans (.newFn s' decl env _)
      cases hfind : methods.find? decl.name.lexeme with
      | some first =>
          have hadd : addMethod env methods decl s' =
              .ok methods (made.2.addOverload first made.1) := by
            unfold addMethod
            rw [hfind]
            rfl
          have hlasts : s.Lasts (made.2.addOverload first made.1) :=
            ⟨hmade.same.trans (Store.becomes_addOverload _ first _),
              hmade.settles.addOverload (hnew _ first hfind) _⟩
          rw [addMethods, bind_of_ok hadd]
          exact ih methods _ hlasts hnew
      | none =>
          have hadd : addMethod env methods decl s' =
              .ok (methods.insert decl.name.lexeme made.1) made.2 := by
            unfold addMethod
            rw [hfind]
            rfl
          rw [addMethods, bind_of_ok hadd]
          refine ih _ _ hmade fun name first hfirst => ?_
          rw [Table.find?_insert] at hfirst
          split at hfirst
          · cases hfirst
            exact h.settles.functions
          · exact hnew name first hfirst

theorem addMethods_steady (list : List Function) : Steady (addMethods env ∅ list) :=
  fun s => addMethods_lasts list ∅ s (.refl s) fun _ _ h => by cases h

theorem define_nil_ok {name : Token} {s s' : Store}
    (hrun : Eval.define env name .nil s = .ok () s') :
    s.findHere? env name.lexeme = none ∧ s' = s.bindHere env name.lexeme .nil := by
  rw [Eval.define_run] at hrun
  cases hdefinition : s.definition env name.lexeme .nil with
  | fresh =>
      rw [hdefinition] at hrun
      cases hrun
      exact ⟨findHere?_of_fresh hdefinition, rfl⟩
  | overload existing added =>
      unfold Store.definition at hdefinition
      split at hdefinition <;> cases hdefinition
  | refused =>
      rw [hdefinition] at hrun
      cases hrun

/-- What a class is made of, once its name is declared. -/
def makeClass (cx : Context) (decl : ClassDecl Stmt) (superclass : Option Class) : Eval Class := do
  let env ← methodEnv cx.env superclass
  let methods ← addMethods env ∅ decl.methods
  modifyGet fun s => newClass decl.name.lexeme superclass methods s

theorem defineClass_eq (cx : Context) (decl : ClassDecl Stmt) :
    defineClass cx decl = (do
      defineEnums cx.env decl.enums
      let superclass ← superclass? cx decl.superclass
      Eval.define cx.env decl.name .nil
      let cls ← makeClass cx decl superclass
      modify (·.bindHere cx.env decl.name.lexeme (.class cls))) := by
  simp only [defineClass, makeClass, bind_assoc]

theorem makeClass_steady (cx : Context) (decl : ClassDecl Stmt) (superclass : Option Class) :
    Steady (makeClass cx decl superclass) :=
  (methodEnv_steady superclass).bind fun _ => (addMethods_steady decl.methods).bind
    fun _ => .of_modifyGet fun _ => .of_eq rfl rfl

/-- The name of a class is free when the class is declared, whatever it is bound to first. -/
theorem defineClass_declares (cx : Context) (decl : ClassDecl Stmt) :
    Declares cx.env decl.declared (defineClass cx decl) := by
  rw [defineClass_eq]
  refine ((defineEnums_declares decl.enums).imp fun name hname =>
    List.mem_append_left _ hname).bind fun _ => ?_
  refine (Declares.of_steady (superclass?_steady cx decl.superclass)).bind fun superclass => ?_
  have hname : ∀ name ∈ [decl.name.lexeme], name ∈ decl.declared :=
    fun _ h => List.mem_append_right _ h
  refine Declares.imp ?_ hname
  intro s
  have hdeclares : Declares cx.env [decl.name.lexeme] (Eval.define cx.env decl.name .nil) :=
    define_declares decl.name .nil
  have hnil := hdeclares s
  cases hdefine : Eval.define cx.env decl.name .nil s with
  | error e s₁ =>
      rw [hdefine] at hnil
      rw [bind_of_error hdefine]
      exact hnil
  | ok _ s₁ =>
      rcases define_nil_ok hdefine with ⟨hfree, rfl⟩
      have hmake := makeClass_steady cx decl superclass (s.bindHere cx.env decl.name.lexeme .nil)
      rw [bind_of_ok hdefine]
      cases hrun : makeClass cx decl superclass (s.bindHere cx.env decl.name.lexeme .nil) with
      | error e s₂ =>
          rw [hrun] at hmake
          rw [bind_of_error hrun]
          rw [hdefine] at hnil
          exact hnil.trans hmake.becomes
      | ok cls s₂ =>
          rw [hrun] at hmake
          rw [bind_of_ok hrun]
          exact becomes_bindHere hfree hmake

theorem printLine_steady (host : Host) (keyword : Token) (value : Value) :
    Steady (printLine host keyword value) :=
  (Eval.callNative_steady host _ keyword _).bind fun _ => .pure _

end Exec

/-! ## Computations that add no overloads -/

/-- However it ends, the computation gives no overloads to old functions. -/
def Settling (x : EStateM ε Store α) : Prop :=
  ∀ s : Store, s.Settles (Store.behind (x s))

namespace Settling

theorem of_steady {x : EStateM ε Store α} (h : Steady x) : Settling x :=
  fun s => (h s).settles

theorem bind {x : EStateM ε Store α} {f : α → EStateM ε Store β} (hx : Settling x)
    (hf : ∀ value, Settling (f value)) : Settling (x >>= f) := by
  intro s
  have hfirst := hx s
  cases hrun : x s with
  | ok value s' =>
      rw [hrun] at hfirst
      rw [bind_of_ok hrun]
      exact hfirst.trans (hf value s')
  | error e s' =>
      rw [hrun] at hfirst
      rw [bind_of_error hrun]
      exact hfirst

end Settling

namespace Exec

variable {env : Env}

theorem settles_bindHere (s : Store) (name : String) (value : Value) :
    s.Settles (s.bindHere env name value) := by
  cases env <;> exact .of_eq rfl

theorem define_settling (name : Token) {value : Value} (h : ∀ f, value ≠ .function f) :
    Settling (Eval.define env name value) := by
  intro s
  rw [Eval.define_run]
  cases hdefinition : s.definition env name.lexeme value with
  | fresh => exact settles_bindHere s _ _
  | overload existing added =>
      unfold Store.definition at hdefinition
      split at hdefinition
      · cases hdefinition
      · split at hdefinition
        · next f => exact absurd rfl (h f)
        · cases hdefinition
      · cases hdefinition
  | refused => exact .refl s

/-- A declaration gives an overload to no function but one that it finds under its name. -/
theorem overloadsOf_define? {name : String} {value : Value} {s s' : Store} {f : Fn}
    (h : s.define? env name value = some s')
    (hother : ∀ existing added, s.findHere? env name = some (.function existing) →
      value = .function added → existing.id ≠ f.id) : s'.overloadsOf f = s.overloadsOf f := by
  rcases define?_cases h with ⟨-, rfl⟩ | ⟨existing, added, hfind, hvalue, rfl⟩
  · cases env <;> rfl
  · rw [Store.overloadsOf, Store.overloadsOf, Store.getD_overloads_addOverload, if_neg]
    exact fun hsame => hother existing added hfind hvalue hsame.1.symm

theorem functions_define? {name : String} {value : Value} {s s' : Store}
    (h : s.define? env name value = some s') : s'.overloads.size = s.overloads.size := by
  rcases define?_cases h with ⟨-, rfl⟩ | ⟨existing, added, -, -, rfl⟩
  · cases env <;> rfl
  · simp [Store.addOverload]

theorem define_error_settles (name : Token) (value : Value) (s : Store) (e : Failure) (s' : Store)
    (h : Eval.define env name value s = .error e s') : s.Settles s' := by
  rw [Eval.define_run] at h
  split at h
  · cases h
  · cases h
  · cases h
    exact .refl s

theorem defineMembers_settling (enumName : String) (members : List Token) :
    ∀ ordinal, Settling (defineMembers env enumName ordinal members) := by
  induction members with
  | nil => exact fun _ => .of_steady (.pure _)
  | cons member rest ih =>
      exact fun ordinal => (define_settling member fun _ h => by cases h).bind fun _ => ih _

theorem defineEnums_settling (decls : List EnumDecl) : Settling (defineEnums env decls) := by
  induction decls with
  | nil => exact .of_steady (.pure _)
  | cons decl rest ih => exact (defineMembers_settling _ _ 0).bind fun _ => ih

theorem defineClass_settling (cx : Context) (decl : ClassDecl Stmt) :
    Settling (defineClass cx decl) := by
  rw [defineClass_eq]
  refine (defineEnums_settling decl.enums).bind fun _ => ?_
  refine (Settling.of_steady (superclass?_steady cx decl.superclass)).bind fun superclass => ?_
  refine (define_settling decl.name fun _ h => by cases h).bind fun _ => ?_
  refine (Settling.of_steady (makeClass_steady cx decl superclass)).bind fun cls => ?_
  exact fun s => settles_bindHere s _ _

end Exec

/-! ## Assignments -/

/-- Where an assignment may make a variable: in the frame at the distance of its name. -/
def Context.Introduces (cx : Context) (id : NodeId) (name : String) (frame : FrameId)
    (key : String) : Prop :=
  key = name ∧ ∃ d, cx.locals[id]? = some d ∧ cx.env[d]? = some frame

namespace Eval

variable (cx : Context) (id : NodeId) (s : Store)

/-- The frame of an assigned variable stands at the distance of the name, or else has the name. -/
theorem targetFrame?_run (name : String) :
    ∃ target, targetFrame? cx id name s = .ok target s ∧ ∀ frame, target = some frame →
      (∃ d, cx.locals[id]? = some d ∧ cx.env[d]? = some frame) ∨
        ((s.frame frame).find? name).isSome := by
  unfold targetFrame?
  cases hdistance : cx.locals[id]? with
  | some d =>
      refine ⟨Store.frameAt? cx.env d, rfl, fun frame hframe => .inl ⟨d, rfl, ?_⟩⟩
      rw [← hframe, Store.frameAt?, List.head?_drop]
  | none =>
      refine ⟨s.frameOf? cx.env name, rfl, fun frame hframe => .inr ?_⟩
      exact (Store.frameOf?_eq_some_iff.mp hframe).2.1

/-- An assignment binds nothing if it fails.  Else it binds its name, and if the name has no
distance, only where it is bound already. -/
theorem assign_cases (name : Token) (value : Value) :
    (∃ e, assign cx id name value s = .error e s) ∨
      ∃ s', assign cx id name value s = .ok value s' ∧
        s.Becomes (· = name.lexeme) (cx.Introduces id name.lexeme) s' ∧ s.Settles s' := by
  unfold assign
  rcases targetFrame?_run cx id s name.lexeme with ⟨target, hrun, htarget⟩
  rw [bind_of_ok hrun]
  cases target with
  | some frame =>
      have hall := s.becomes_bindIn frame name.lexeme value
      refine .inr ⟨_, rfl, ⟨hall.frames, hall.bound, hall.kept, ?_, hall.overloads⟩, .of_eq rfl⟩
      intro other hother key hnone hsome
      rcases hall.names other hother key hnone hsome with ⟨rfl, rfl⟩
      rcases htarget other rfl with hplace | hbound
      · exact ⟨rfl, hplace⟩
      · rw [hnone] at hbound
        cases hbound
  | none =>
      rcases thisInstance?_run cx.env s with ⟨self, hself, -⟩
      dsimp only
      rw [bind_of_ok hself]
      cases self with
      | none => exact .inl ⟨_, rfl⟩
      | some self =>
          have hfield : s.Lasts (s.setField self name.lexeme value) := .of_eq rfl rfl
          exact .inr ⟨_, rfl, hfield.becomes, hfield.settles⟩

end Eval

end MiniPascal
