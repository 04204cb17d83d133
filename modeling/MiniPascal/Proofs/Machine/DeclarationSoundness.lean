import MiniPascal.Proofs.Machine.ExpressionSoundness

/-!
# Declarations keep worlds sound

Declaring a name binds it in the innermost frame, so that the environment fits the place behind the
declaration.  A function is made before its name is bound, but its body stands behind it.
-/

namespace MiniPascal

variable {known : Reference → Prop} {w : World}

/-! ## Names -/

theorem World.isSome_bindIn {frame : FrameId} {outer : Env} {name : String}
    {value : Value} (hframe : frame < w.store.frames.size) :
    ((w.bindIn frame name value).store.findHere? (frame :: outer) name).isSome := by
  show (((w.store.bindIn frame name value).frame frame).find? name).isSome
  rw [Store.find?_bindIn, if_pos ⟨⟨rfl, hframe⟩, rfl⟩]
  rfl

theorem Eval.define_run (env : Env) (name : Token) (value : Value) (s : Store) :
    Eval.define env name value s =
      match s.definition env name.lexeme value with
      | .fresh => .ok () (s.bindHere env name.lexeme value)
      | .overload existing added => .ok () (s.addOverload existing added)
      | .refused => .error (.error { token := name, fault := .variableExists, value := none }) s := by
  unfold Eval.define
  dsimp only [bind, EStateM.bind, get, getThe, MonadStateOf.get, EStateM.get]
  cases s.definition env name.lexeme value <;> rfl

/-- Declares a name; its value may depend on the declaration. -/
theorem define_keeps {p : Place} {env : Env} {name : Token} {value : Value} (h : Sound known w)
    (hp : Fits w.events w.store p env) (hname : Declarable name.lexeme)
    (hvalue : ∀ w', w.Extends w' → Fits w'.events w'.store (p.declare [name.lexeme]) env →
      ValueOk known w' value) :
    Keeps known (FailureOk known) (Trace.keep (Eval.define env name value)) w fun w' _ =>
      Fits w'.events w'.store (p.declare [name.lexeme]) env := by
  have hnames : ∀ other ∈ [name.lexeme], Declarable other :=
    List.forall_mem_singleton.mpr hname
  rcases hp.frame_lt with ⟨frame, outer, rfl, hframe⟩
  have hrun := Eval.define_run (frame :: outer) name value w.store
  unfold Store.definition at hrun
  cases hfind : w.store.findHere? (frame :: outer) name.lexeme with
  | none =>
      rw [hfind] at hrun
      have hx : w.Extends (w.bindIn frame name.lexeme value) := World.extends_bindIn hname
      have hfits := (hx.fits hp).declare hnames
        (List.forall_mem_singleton.mpr (World.isSome_bindIn hframe))
      exact Keeps.keep (v := w.bindIn frame name.lexeme value) hrun rfl hx
        (h.bindIn hname (hvalue _ hx hfits)) hfits
  | some old =>
      rw [hfind] at hrun
      have hfits := hp.declare hnames (List.forall_mem_singleton.mpr (by rw [hfind]; rfl))
      have hrefused : Eval.define (frame :: outer) name value w.store =
          Eval.failAt name .variableExists w.store →
          Keeps known (FailureOk known) (Trace.keep (Eval.define (frame :: outer) name value)) w
            fun w' _ => Fits w'.events w'.store (p.declare [name.lexeme]) (frame :: outer) := by
        intro hfail
        refine Keeps.keep_error h hfail ?_
        intro found hfound
        cases hfound
      cases old with
      | function existing =>
          cases value with
          | function added =>
              have hexisting : ValueOk known w (.function existing) := h.findHere hfind
              rcases hexisting with ⟨hid, hmade, -⟩
              have hadded := (hvalue w (.refl w) hfits).2.2
              have hx : w.Extends (w.addOverload existing added) := World.extends_addOverload
              have hoverloads := (h.overloads existing.id hid).addPlain hid hmade hadded
              exact Keeps.keep (v := w.addOverload existing added) hrun rfl hx
                (h.addOverload hoverloads) (hx.fits hfits)
          | _ => exact hrefused hrun
      | _ => exact hrefused hrun

theorem defineMembers_keeps {env : Env} {enumName : String} {members : List Token} :
    ∀ {p : Place} {ordinal : Nat} {w : World}, Sound known w → Fits w.events w.store p env →
      (∀ member ∈ members, Declarable member.lexeme) →
      Keeps known (FailureOk known) (Trace.keep (Exec.defineMembers env enumName ordinal members))
        w fun w' _ => Fits w'.events w'.store (p.declare (members.map Token.lexeme)) env := by
  induction members with
  | nil =>
      intro p ordinal w h hp _
      refine Keeps.keep (v := w) rfl rfl (.refl w) h ?_
      simpa using hp
  | cons member rest ih =>
      intro p ordinal w h hp hmembers
      rcases List.forall_mem_cons.mp hmembers with ⟨hmember, hrest⟩
      refine Keeps.keep_bind ?_
      have hdefine : Keeps known (FailureOk known)
          (Trace.keep (Eval.define env member
            (.enum ⟨enumName, member.lexeme, Int64.ofNat ordinal⟩))) w
          fun w' _ => Fits w'.events w'.store (p.declare [member.lexeme]) env :=
        define_keeps h hp hmember fun _ _ _ => trivial
      refine hdefine.bind ?_
      intro w' _ _ hsound hfits
      refine (ih hsound hfits hrest).imp ?_
      intro w'' _ _ _ hfits'
      rw [← Place.declare_append] at hfits'
      exact hfits'

theorem defineEnums_keeps {env : Env} {enums : List EnumDecl} :
    ∀ {p : Place} {w : World}, Sound known w → Fits w.events w.store p env →
      (∀ decl ∈ enums, ∀ member ∈ decl.members, Declarable member.lexeme) →
      Keeps known (FailureOk known) (Trace.keep (Exec.defineEnums env enums)) w fun w' _ =>
        Fits w'.events w'.store (p.declare (enums.flatMap EnumDecl.declared)) env := by
  induction enums with
  | nil =>
      intro p w h hp _
      refine Keeps.keep (v := w) rfl rfl (.refl w) h ?_
      simpa using hp
  | cons decl rest ih =>
      intro p w h hp henums
      rcases List.forall_mem_cons.mp henums with ⟨hdecl, hrest⟩
      refine Keeps.keep_bind ?_
      refine (defineMembers_keeps h hp hdecl).bind ?_
      intro w' _ _ hsound hfits
      refine (ih hsound hfits hrest).imp ?_
      intro w'' _ _ _ hfits'
      rw [← Place.declare_append] at hfits'
      exact hfits'

/-! ## Functions -/

theorem defineFunction_keeps {p : Place} {env : Env} {decl : Function} (h : Sound known w)
    (hp : Fits w.events w.store p env) (hopen : p.Open) (hname : Declarable decl.name.lexeme)
    (hbody : KnowsBody known (p.declare [decl.name.lexeme]) decl) :
    Keeps known (FailureOk known) (Trace.keep (Exec.defineFunction env decl)) w fun w' _ =>
      Fits w'.events w'.store (p.declare [decl.name.lexeme]) env := by
  have hx : w.Extends (w.newFn .plain decl env false) := World.extends_newFn
  refine Keeps.keep_bind ?_
  have hnew : Keeps known (FailureOk known)
      (Trace.keep (modifyGet fun s => s.newFn decl env false : Eval Fn)) w fun w' f =>
        f.id < w'.store.overloads.size ∧ w'.made f.id = .plain ∧ f.closure = env ∧
          f.decl = decl := by
    exact Keeps.keep (v := w.newFn .plain decl env false) rfl rfl hx h.newFn
      ⟨World.lt_newFn, World.made_newFn, rfl, rfl⟩
  refine hnew.bind ?_
  intro w₁ f hx₁ hsound₁ hf
  rcases hf with ⟨hid, hmade, hclosure, hdecl⟩
  refine define_keeps hsound₁ (hx₁.fits hp) hname ?_
  intro w₂ hx₂ hfits
  refine ⟨Nat.lt_of_lt_of_le hid hx₂.functions, (hx₂.made f.id hid).trans hmade, ?_⟩
  refine ⟨p.declare [decl.name.lexeme], ?_, hopen.declare, ?_⟩
  · rw [hclosure]
    exact hfits
  · rw [hdecl]
    exact hbody

/-! ## Classes -/

/-- Only inside a class with a superclass does the innermost frame bind `super`. -/
theorem Sound.no_super {p : Place} {env : Env} (h : Sound known w)
    (hp : Fits w.events w.store p env) (hopen : p.Open) :
    w.store.findHere? env "super" = none := by
  cases hp with
  | top _ => exact h.global "super" not_declarable_super
  | @inside region names p env frame hentered _ _ _ _ _ =>
      rcases h.entered _ _ _ hentered with ⟨-, hok⟩
      cases region with
      | receiver decl => exact hok.1
      | parent decl => cases hopen
      | _ => exact hok.2

theorem superclass?_keeps {p : Place} {cx : Context} {decl : ClassDecl Stmt}
    (hresolved : Resolved known cx.locals) (h : Sound known w)
    (hp : Fits w.events w.store (p.declare (decl.enums.flatMap EnumDecl.declared)) cx.env)
    (hknown : ∀ r ∈ Stmt.parentReferences p decl, known r) :
    Keeps known (FailureOk known) (Trace.superclass? cx decl.superclass) w fun w' found =>
      (∀ cls, found = some cls → ClassOk known w' cls) ∧
        found.isSome = decl.superclass.isSome := by
  cases hsuperclass : decl.superclass with
  | none =>
      refine Keeps.pure h ⟨?_, rfl⟩
      intro cls hcls
      cases hcls
  | some parent =>
      unfold Stmt.parentReferences at hknown
      rw [hsuperclass] at hknown
      have hr := hknown _ (List.mem_singleton_self _)
      refine Keeps.note h ?_ ?_ ?_ ?_
      · refine hresolved.readsDeclared hr rfl hp (.inr ⟨decl.name.lexeme, ?_, ?_⟩)
        · exact Place.declare_append p _ _
        · exact of_decide_eq_false (hresolved.pending _ hr)
      · refine ⟨.refl _, hresolved.readsInPlace hr rfl hp ?_, h.reads⟩
        rw [Place.length_declare, Place.length_declare]
      · intro region outer frame hsame
        cases hsame
      · intro w₁ _ hsound₁ _
        refine (lookUp_keeps hsound₁).bind ?_
        intro w₂ value _ hsound₂ hvalue
        cases value with
        | «class» cls =>
            refine Keeps.pure hsound₂ ⟨?_, rfl⟩
            intro found hfound
            cases hfound
            exact hvalue
        | _ => exact Keeps.failAt hsound₂

theorem methodEnv_keeps {p : Place} {env : Env} {decl : ClassDecl Stmt}
    {superclass : Option Class} (h : Sound known w)
    (hp : Fits w.events w.store (p.declare decl.declared) env) (hopen : p.Open)
    (hcls : ∀ cls, superclass = some cls → ClassOk known w cls)
    (hsome : superclass.isSome = decl.superclass.isSome) :
    Keeps known (FailureOk known) (Trace.methodEnv decl env superclass) w fun w' env' =>
      Fits w'.events w'.store (p.insideClass decl) env' ∧
        w'.store.findHere? env' "super" = superclass.map .class := by
  cases superclass with
  | none =>
      have hinside : p.insideClass decl = p.declare decl.declared := by
        unfold Place.insideClass
        cases hsuperclass : decl.superclass with
        | none => rfl
        | some parent =>
            rw [hsuperclass] at hsome
            cases hsome
      refine Keeps.pure h ⟨?_, ?_⟩
      · rw [hinside]
        exact hp
      · exact h.no_super hp hopen.declare
  | some parent =>
      have hinside : p.insideClass decl =
          (p.declare decl.declared).enter (.parent decl) ["super"] := by
        unfold Place.insideClass
        cases hsuperclass : decl.superclass with
        | none =>
            rw [hsuperclass] at hsome
            cases hsome
        | some _ => rfl
      have hsuper : ((∅ : Table Value).insert "super" (.class parent)).find? "super" =
          some (.class parent) := by
        rw [Table.find?_insert, if_pos rfl]
      refine Keeps.of_ok (v := w.enter (.parent decl) env
        ((∅ : Table Value).insert "super" (.class parent))) rfl (w.extends_enter _ _ _)
        (h.enter ?_ ?_) ⟨?_, ?_⟩
      · intro name value hvalue
        rw [Table.find?_insert] at hvalue
        split at hvalue
        · cases hvalue
          exact hcls parent rfl
        · cases hvalue
      · unfold FrameOk
        rw [w.frame_enter]
        exact ⟨rfl, parent, hsuper⟩
      · rw [hinside]
        refine hp.enter ?_ ?_ (.inr hopen.declare)
        · intro name hname
          rw [List.mem_singleton.mp hname, hsuper]
          rfl
        · intro name hname
          exact .inr hname
      · show ((w.enter (.parent decl) env _).store.frame w.store.frames.size).find? "super" = _
        rw [w.frame_enter]
        exact hsuper

/-- The methods that a class has so far, all of them in one environment. -/
def MethodsOk (known : Reference → Prop) (w : World) (superclass : Option Class) (env : Env)
    (methods : Table Fn) : Prop :=
  ∀ name first, methods.find? name = some first →
    MethodOk known w superclass name first ∧ first.closure = env

theorem World.Extends.methodsOk {w' : World} {superclass : Option Class} {env : Env}
    {methods : Table Fn} (h : w.Extends w') (hmethods : MethodsOk known w superclass env methods) :
    MethodsOk known w' superclass env methods := by
  intro name first hfirst
  rcases hmethods name first hfirst with ⟨hok, hclosure⟩
  exact ⟨h.methodOk hok, hclosure⟩

theorem Exec.addMethod_run (env : Env) (methods : Table Fn) (decl : Function) (s : Store) :
    Exec.addMethod env methods decl s =
      let made := s.newFn decl env (decl.name.lexeme == initializerName)
      match methods.find? decl.name.lexeme with
      | some first => .ok methods (made.2.addOverload first made.1)
      | none => .ok (methods.insert decl.name.lexeme made.1) made.2 := by
  unfold Exec.addMethod
  cases methods.find? decl.name.lexeme with
  | some first => rfl
  | none => rfl

theorem addMethod_keeps {p : Place} {env : Env} {superclass : Option Class} {methods : Table Fn}
    {decl : Function} (h : Sound known w) (hp : Fits w.events w.store p env)
    (hsuper : w.store.findHere? env "super" = superclass.map .class)
    (hmethods : MethodsOk known w superclass env methods)
    (hbody : KnowsBody known (p.enter (.receiver decl) ["this"]) decl) :
    Keeps known (FailureOk known) (Trace.keep (Exec.addMethod env methods decl)) w
      fun w' methods' => MethodsOk known w' superclass env methods' := by
  have hrun := Exec.addMethod_run env methods decl w.store
  dsimp only at hrun
  generalize (decl.name.lexeme == initializerName) = isInitializer at hrun
  have hx (made : Made) : w.Extends (w.newFn made decl env isInitializer) := World.extends_newFn
  have hmethod (made : Made) : MethodFn known (w.newFn made decl env isInitializer)
      (w.store.newFn decl env isInitializer).1 := ⟨p, (hx made).fits hp, hbody⟩
  cases hfirst : methods.find? decl.name.lexeme with
  | some first =>
      -- the name is taken: the new function is an overload of the first one
      rw [hfirst] at hrun
      rcases hmethods _ first hfirst with ⟨hok, hclosure⟩
      have hok' := (hx (.method first)).methodOk hok
      have hsound : Sound known (w.newFn (.method first) decl env isInitializer) := h.newFn
      have hoverloads := (hsound.overloads first.id hok'.id).addMethod hok'.id hok'.made
        World.lt_newFn World.made_newFn hclosure.symm (hmethod _)
      let v := (w.newFn (.method first) decl env isInitializer).addOverload first
        (w.store.newFn decl env isInitializer).1
      have hx' : w.Extends v := (hx _).trans World.extends_addOverload
      exact Keeps.keep (v := v) hrun rfl hx' (hsound.addOverload hoverloads)
        (hx'.methodsOk hmethods)
  | none =>
      rw [hfirst] at hrun
      refine Keeps.keep (v := w.newFn (.method (w.store.newFn decl env isInitializer).1) decl env
        isInitializer) hrun rfl (hx _) h.newFn ?_
      intro name first hname
      rw [Table.find?_insert] at hname
      split at hname
      · next hsame =>
          cases hname
          exact ⟨⟨hsame.symm, World.lt_newFn, World.made_newFn, hmethod _, hsuper⟩, rfl⟩
      · exact (hx _).methodsOk hmethods name first hname

theorem addMethods_keeps {p : Place} {env : Env} {superclass : Option Class}
    {list : List Function} :
    ∀ {methods : Table Fn} {w : World}, Sound known w → Fits w.events w.store p env →
      w.store.findHere? env "super" = superclass.map .class →
      MethodsOk known w superclass env methods →
      Stmt.TidyMethods Declarable list → (∀ r ∈ Stmt.methodReferences p list, known r) →
      Keeps known (FailureOk known) (Trace.keep (Exec.addMethods env methods list)) w
        fun w' methods' => MethodsOk known w' superclass env methods' := by
  induction list with
  | nil =>
      intro methods w h _ _ hmethods _ _
      exact Keeps.keep (v := w) rfl rfl (.refl w) h hmethods
  | cons decl rest ih =>
      intro methods w h hp hsuper hmethods htidy hknown
      rcases htidy with ⟨hparams, hbody, hrest⟩
      have hdecl : KnowsBody known (p.enter (.receiver decl) ["this"]) decl :=
        ⟨hparams, hbody, fun r hr => hknown r (List.mem_append_left _ hr)⟩
      refine Keeps.keep_bind ?_
      refine (addMethod_keeps h hp hsuper hmethods hdecl).bind ?_
      intro w' methods' hx hsound hmethods'
      refine ih hsound (hx.fits hp) ?_ hmethods' hrest fun r hr =>
        hknown r (List.mem_append_right _ hr)
      exact (hx.findHere? hp not_declarable_super).trans hsuper

/-- A new class has its methods and those of the class it extends. -/
theorem MethodsOk.classOk {superclass : Option Class} {env : Env} {methods : Table Fn}
    (hmethods : MethodsOk known w superclass env methods) (id : Nat) (name : String)
    (hcls : ∀ cls, superclass = some cls → ClassOk known w cls) :
    ClassOk known w (.mk id name superclass methods) := by
  intro ancestor hancestor
  cases superclass with
  | none =>
      rw [List.mem_singleton.mp hancestor]
      intro name first hfirst
      exact (hmethods name first hfirst).1
  | some parent =>
      rcases List.mem_cons.mp hancestor with rfl | hancestor
      · intro name first hfirst
        exact (hmethods name first hfirst).1
      · exact hcls parent rfl ancestor hancestor

theorem defineClass_keeps {p : Place} {cx : Context} {decl : ClassDecl Stmt}
    (hresolved : Resolved known cx.locals) (h : Sound known w)
    (hp : Fits w.events w.store p cx.env) (hopen : p.Open)
    (htidy : (Stmt.classDecl decl).Tidy Declarable)
    (hknown : ∀ r ∈ Stmt.references p (.classDecl decl), known r) :
    Keeps known (FailureOk known) (Trace.defineClass cx decl) w fun w' _ =>
      Fits w'.events w'.store (p.declare decl.declared) cx.env := by
  rcases htidy with ⟨hname, henums, hmethods⟩
  refine (defineEnums_keeps h hp henums).bind ?_
  intro w₁ _ hx₁ hsound₁ hfits₁
  refine (superclass?_keeps hresolved hsound₁ hfits₁ fun r hr =>
    hknown r (List.mem_append_left _ hr)).bind ?_
  intro w₂ superclass hx₂ hsound₂ hsuperclass
  rcases hsuperclass with ⟨hcls, hsome⟩
  have hnil : Keeps known (FailureOk known) (Trace.keep (Eval.define cx.env decl.name .nil)) w₂
      fun w' _ => Fits w'.events w'.store
        ((p.declare (decl.enums.flatMap EnumDecl.declared)).declare [decl.name.lexeme]) cx.env :=
    define_keeps hsound₂ (hx₂.fits hfits₁) hname fun _ _ _ => trivial
  refine hnil.bind ?_
  intro w₃ _ hx₃ hsound₃ hfits₃
  rw [← Place.declare_append] at hfits₃
  have hcls₃ : ∀ cls, superclass = some cls → ClassOk known w₃ cls :=
    fun cls hsame => hx₃.classOk (hcls cls hsame)
  refine (methodEnv_keeps hsound₃ hfits₃ hopen hcls₃ hsome).bind ?_
  intro w₄ env hx₄ hsound₄ henv
  rcases henv with ⟨hinside, hsuper⟩
  have hnone : MethodsOk known w₄ superclass env ∅ := by
    intro name first hfirst
    cases hfirst
  refine (addMethods_keeps hsound₄ hinside hsuper hnone hmethods fun r hr =>
    hknown r (List.mem_append_right _ hr)).bind ?_
  intro w₅ methods hx₅ hsound₅ hmethods₅
  have hx₆ : w₅.Extends (w₅.withStore
      (Exec.newClass decl.name.lexeme superclass methods w₅.store).2) :=
    World.extends_withStore rfl rfl
  have hclass := hx₆.classOk (hmethods₅.classOk w₅.store.classCount decl.name.lexeme
    fun cls hsame => (hx₄.trans hx₅).classOk (hcls₃ cls hsame))
  refine Keeps.bind (Keeps.keep (Q := fun w' cls => ClassOk known w' cls)
    (v := w₅.withStore (Exec.newClass decl.name.lexeme superclass methods w₅.store).2) rfl rfl hx₆
    (hsound₅.counted rfl rfl rfl rfl rfl) hclass) ?_
  intro w₆ cls hx₆ hsound₆ hclass₆
  have hfits₆ := ((hx₄.trans hx₅).trans hx₆).fits hfits₃
  rcases hfits₆.frame_lt with ⟨frame, outer, henv, -⟩
  have hx₇ : w₆.Extends (w₆.bindIn frame decl.name.lexeme (.class cls)) :=
    World.extends_bindIn hname
  have hrun : (modify (·.bindHere cx.env decl.name.lexeme (.class cls)) : Eval Unit) w₆.store =
      .ok () (w₆.bindIn frame decl.name.lexeme (.class cls)).store := by
    rw [henv]
    rfl
  exact Keeps.keep hrun rfl hx₇ (hsound₆.bindIn hname (hx₇.classOk hclass₆)) (hx₇.fits hfits₆)

end MiniPascal
