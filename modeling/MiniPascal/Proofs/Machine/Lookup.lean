import MiniPascal.Proofs.Machine.Choosing
import MiniPascal.Proofs.Machine.Keeping

/-!
# Looking names up in sound worlds

Whatever is found in a sound world is a value that a program may hold: variables, properties,
methods of the instance around and of its superclass.  A method is bound in a frame of its own.
-/

namespace MiniPascal

/-! ## Classes and environments -/

namespace Class

theorem mem_ancestry_self (cls : Class) : cls ∈ cls.ancestry := by
  cases cls with
  | mk id name superclass methods =>
      cases superclass with
      | none => exact List.mem_singleton_self _
      | some parent => exact List.mem_cons_self

theorem ancestry_of_superclass {cls parent : Class} (h : cls.superclass = some parent) :
    cls.ancestry = cls :: parent.ancestry := by
  cases cls with
  | mk id name superclass methods =>
      cases h
      rfl

theorem ancestry_of_root {cls : Class} (h : cls.superclass = none) : cls.ancestry = [cls] := by
  cases cls with
  | mk id name superclass methods =>
      cases h
      rfl

theorem chain_induction {P : Class → Prop} (root : ∀ cls, cls.superclass = none → P cls)
    (derived : ∀ cls parent, cls.superclass = some parent → P parent → P cls) :
    ∀ cls, P cls
  | mk _ _ none _ => root _ rfl
  | mk _ _ (some parent) _ =>
      derived _ parent rfl (chain_induction root derived parent)

theorem findMethod_of_root {cls : Class} (h : cls.superclass = none) (name : String) :
    cls.findMethod name = cls.methods.find? name := by
  cases cls with
  | mk id _ superclass methods =>
      cases h
      rfl

theorem findMethod_of_superclass {cls parent : Class} (h : cls.superclass = some parent)
    (name : String) :
    cls.findMethod name = (cls.methods.find? name).or (parent.findMethod name) := by
  cases cls with
  | mk id _ superclass methods =>
      cases h
      rw [findMethod]
      cases hfind : methods.find? name <;> simp [Class.methods, hfind]

theorem findMethod_mem {cls : Class} {name : String} {method : Fn}
    (h : cls.findMethod name = some method) :
    ∃ ancestor ∈ cls.ancestry, ancestor.methods.find? name = some method := by
  induction cls using chain_induction with
  | root cls hroot =>
      rw [findMethod_of_root hroot] at h
      exact ⟨cls, cls.mem_ancestry_self, h⟩
  | derived cls parent hparent ih =>
      rw [findMethod_of_superclass hparent] at h
      rcases Option.or_eq_some_iff.mp h with h | ⟨-, h⟩
      · exact ⟨cls, cls.mem_ancestry_self, h⟩
      · rcases ih h with ⟨ancestor, hmem, hfind⟩
        refine ⟨ancestor, ?_, hfind⟩
        rw [ancestry_of_superclass hparent]
        exact List.mem_cons_of_mem _ hmem

theorem ancestry_trans {cls ancestor : Class} (h : ancestor ∈ cls.ancestry) :
    ancestor.ancestry <:+ cls.ancestry := by
  induction cls using chain_induction with
  | root cls hroot =>
      rw [ancestry_of_root hroot] at h
      cases List.mem_singleton.mp h
      exact List.suffix_refl _
  | derived cls parent hparent ih =>
      rw [ancestry_of_superclass hparent] at h
      rcases List.mem_cons.mp h with rfl | h
      · exact List.suffix_refl _
      · rw [ancestry_of_superclass hparent]
        exact (ih h).trans (List.suffix_cons _ _)

theorem length_ancestry (cls : Class) : cls.ancestry.length =
    (cls.superclass.map fun parent => parent.ancestry.length).getD 0 + 1 := by
  cases hparent : cls.superclass with
  | none =>
      rw [ancestry_of_root hparent]
      rfl
  | some parent =>
      rw [ancestry_of_superclass hparent]
      rfl

/-- A class does not extend what one of its proper ancestors extends. -/
theorem superclass_ne {cls home parent owner : Class} (hhome : home ∈ cls.ancestry)
    (hparent : home.superclass = some parent) (howner : owner ∈ parent.ancestry) :
    cls.superclass ≠ owner.superclass := by
  intro hsame
  have hcls := length_ancestry cls
  rw [hsame, ← length_ancestry owner] at hcls
  have hhomele := (ancestry_trans hhome).length_le
  have hownerle := (ancestry_trans howner).length_le
  rw [ancestry_of_superclass hparent, List.length_cons] at hhomele
  omega

theorem superclass_mem {cls home parent : Class} (h : home ∈ cls.ancestry)
    (hparent : home.superclass = some parent) : parent ∈ cls.ancestry := by
  refine (ancestry_trans h).subset ?_
  rw [ancestry_of_superclass hparent]
  exact List.mem_cons_of_mem _ parent.mem_ancestry_self

end Class

theorem Store.find?_mem {s : Store} {env : Env} {name : String} {value : Value}
    (h : s.find? env name = some value) : ∃ frame, (s.frame frame).find? name = some value := by
  induction env with
  | nil => cases h
  | cons frame outer ih =>
      unfold Store.find? at h
      cases hfind : (s.frame frame).find? name with
      | some found =>
          rw [hfind] at h
          exact ⟨frame, hfind.trans h⟩
      | none =>
          rw [hfind] at h
          exact ih h

theorem Store.findHere?_mem {s : Store} {env : Env} {name : String} {value : Value}
    (h : s.findHere? env name = some value) :
    ∃ frame outer, env = frame :: outer ∧ (s.frame frame).find? name = some value := by
  cases env with
  | nil => cases h
  | cons frame outer => exact ⟨frame, outer, rfl, h⟩

theorem find?_bindParams {params : List Param} :
    ∀ {bindings : Table Value} {values : List Value} {name : String} {value : Value},
      (Exec.bindParams bindings params values).find? name = some value →
      bindings.find? name = some value ∨
        value ∈ values ∧ ∃ param ∈ params, param.name.lexeme = name := by
  induction params with
  | nil =>
      intro bindings values name value hfind
      exact .inl hfind
  | cons param rest ih =>
      intro bindings values name value hfind
      cases values with
      | nil => exact .inl hfind
      | cons first values =>
          rcases ih hfind with hfind | ⟨hvalue, other, hother, hname⟩
          · rw [Table.find?_insert] at hfind
            split at hfind
            · next hsame =>
                cases hfind
                exact .inr ⟨List.mem_cons_self, param, List.mem_cons_self, hsame.symm⟩
            · exact .inl hfind
          · exact .inr ⟨List.mem_cons_of_mem _ hvalue, other, List.mem_cons_of_mem _ hother, hname⟩

theorem mem_of_find?_bindParams {params : List Param} {values : List Value} {name : String}
    {value : Value} (h : (Exec.bindParams ∅ params values).find? name = some value) :
    value ∈ values := by
  rcases find?_bindParams h with hnone | ⟨hvalue, -⟩
  · cases hnone
  · exact hvalue

/-- Frame by frame, an environment that fits a place is that of top-level code, or was made for
the scope at the same distance. -/
theorem Fits.scope {events : List Event} {s : Store} {p : Place} {env outer : Env}
    {frame : FrameId} {n : Nat} (h : Fits events s p env) (hn : env.drop n = frame :: outer) :
    (frame = Store.globalFrame ∧ outer = []) ∨
      ∃ scope, p[n]? = some scope ∧ .entered scope.region outer frame ∈ events ∧
        (∀ name ∈ scope.names, ((s.frame frame).find? name).isSome) ∧
        (∀ name ∈ scope.names, Declarable name ∨ name ∈ scope.region.reserved) ∧
        Fits events s (p.drop (n + 1)) outer := by
  induction h generalizing n with
  | top _ =>
      cases n with
      | zero =>
          cases hn
          exact .inl ⟨rfl, rfl⟩
      | succ n =>
          simp [Store.globals] at hn
  | @inside region names p env' frame' hentered _ _ hbound hnames _ houter ih =>
      cases n with
      | zero =>
          cases hn
          exact .inr ⟨⟨region, names⟩, rfl, hentered, hbound, hnames, houter⟩
      | succ n => exact ih hn

theorem Fits.frame {events : List Event} {s : Store} {p : Place} {env : Env}
    {scope : LexicalScope} {n : Nat} (h : Fits events s p env) (hn : p[n]? = some scope) :
    ∃ frame outer, env.drop n = frame :: outer ∧ .entered scope.region outer frame ∈ events ∧
      (∀ name ∈ scope.names, ((s.frame frame).find? name).isSome) ∧
      (∀ name ∈ scope.names, Declarable name ∨ name ∈ scope.region.reserved) := by
  induction h generalizing n with
  | top _ => cases hn
  | @inside region names p env frame hentered _ _ hbound hnames _ _ ih =>
      cases n with
      | zero =>
          cases hn
          exact ⟨frame, env, rfl, hentered, hbound, hnames⟩
      | succ n => exact ih hn

/-- Declarations change what the scopes have, not what they are. -/
theorem Place.region_declare {p : Place} {names : List String} {scope : LexicalScope} {d : Nat}
    (h : p[d]? = some scope) :
    ∃ scope', (p.declare names)[d]? = some scope' ∧ scope'.region = scope.region := by
  cases p with
  | nil => cases h
  | cons inner outer =>
      cases d with
      | zero =>
          cases h
          exact ⟨_, rfl, rfl⟩
      | succ d => exact ⟨scope, h, rfl⟩

/-- A reference that is evaluated at its place, or right in front of a declaration of some other
name, finds its name at its distance. -/
theorem Fits.reads {events : List Event} {s : Store} {p : Place} {env : Env} {r : Reference}
    {d : Nat} (h : Fits events s p env)
    (hplace : r.place = p ∨ ∃ own, r.place = p.declare [own] ∧ r.mention.name ≠ own)
    (hd : r.distance? = some d) :
    ∃ scope frame, r.place[d]? = some scope ∧ env[d]? = some frame ∧
      .entered scope.region (env.drop (d + 1)) frame ∈ events ∧
      (s.findAt? env d r.mention.name).isSome := by
  have hdistance : p.distance? r.mention.name = some d := by
    rcases hplace with hplace | ⟨own, hplace, hname⟩
    · rw [← hplace]
      exact hd
    · rw [← hd, Reference.distance?, hplace, Place.distance?_declare (.inr ?_)]
      intro hmem
      exact hname (List.mem_singleton.mp hmem)
  rcases Place.scope_of_distance? hdistance with ⟨scope, hscope, hname⟩
  rcases h.frame hscope with ⟨frame, outer, henv, hentered, hbound, -⟩
  have hregion : ∃ scope', r.place[d]? = some scope' ∧ scope'.region = scope.region := by
    rcases hplace with hplace | ⟨own, hplace, -⟩
    · rw [hplace]
      exact ⟨scope, hscope, rfl⟩
    · rw [hplace]
      exact Place.region_declare hscope
  rcases hregion with ⟨scope', hscope', hsame⟩
  have houter : env.drop (d + 1) = outer := by
    rw [← List.drop_drop, henv]
    rfl
  refine ⟨scope', frame, hscope', ?_, ?_, ?_⟩
  · rw [← List.head?_drop, henv]
    rfl
  · rw [hsame, houter]
    exact hentered
  · rw [Store.findAt?, henv]
    exact hbound _ hname

section Lookup

variable {known : Reference → Prop} {w : World}

theorem Sound.find {env : Env} {name : String} {value : Value} (h : Sound known w)
    (hfind : w.store.find? env name = some value) : ValueOk known w value := by
  rcases Store.find?_mem hfind with ⟨frame, hframe⟩
  exact h.frames frame name value hframe

theorem Sound.findHere {env : Env} {name : String} {value : Value} (h : Sound known w)
    (hfind : w.store.findHere? env name = some value) : ValueOk known w value := by
  rcases Store.findHere?_mem hfind with ⟨frame, outer, -, hframe⟩
  exact h.frames frame name value hframe

/-! ## Methods -/

theorem Sound.declared {cls home : Class} {f : Fn} (h : Sound known w) (hcls : ClassOk known w cls)
    (hhome : home ∈ cls.ancestry) (hf : w.store.Declares home f) :
    MethodFn known w f ∧ w.store.findHere? f.closure "super" = home.superclass.map .class := by
  rcases hf with ⟨name, first, hfirst, hf⟩
  have hok := hcls home hhome name first hfirst
  rcases hf with rfl | hf
  · exact ⟨hok.known, hok.parent⟩
  · rcases (h.overloads first.id hok.id).of_method hok.made f hf with ⟨-, -, hclosure, hknown⟩
    exact ⟨hknown, hclosure ▸ hok.parent⟩

/-- A method and an instance that it may be bound to. -/
def Bindable (known : Reference → Prop) (w : World) (method : Fn) (self : Instance) : Prop :=
  ClassOk known w self.cls ∧ ∃ home ∈ self.cls.ancestry, w.store.Declares home method

theorem bindable_of_findMethod {cls : Class} {self : Instance} {name : String} {method : Fn}
    (hself : ClassOk known w self.cls) (hcls : cls ∈ self.cls.ancestry)
    (hmethod : cls.findMethod name = some method) : Bindable known w method self := by
  rcases Class.findMethod_mem hmethod with ⟨home, hhome, hfind⟩
  exact ⟨hself, home, (Class.ancestry_trans hcls).subset hhome, name, method, hfind, .inl rfl⟩

theorem bindable_of_findOverload {self : Instance} {name : String} {types : List String}
    {first method : Fn} (hself : ClassOk known w self.cls)
    (hfirst : self.cls.findMethod name = some first)
    (hmethod : w.store.findOverload first types = some method) : Bindable known w method self := by
  rcases Class.findMethod_mem hfirst with ⟨home, hhome, hfind⟩
  exact ⟨hself, home, hhome, name, first, hfind, Store.findOverload_mem hmethod⟩

def World.bindMethod (w : World) (made : Made) (method : Fn) (self : Instance) : World :=
  (w.enter (.receiver method.decl) method.closure
    ((∅ : Table Value).insert "this" (.object self))).newFn made method.decl
      (w.store.frames.size :: method.closure) method.isInitializer

section BindMethod

variable {made : Made} {method : Fn} {self : Instance}

theorem World.extends_bindMethod : w.Extends (w.bindMethod made method self) :=
  (w.extends_enter _ _ _).trans World.extends_newFn

theorem Sound.bindMethod (h : Sound known w) (hself : Bindable known w method self) :
    Sound known (w.bindMethod made method self) := by
  refine Sound.newFn (h.enter ?_ ?_)
  · intro name value hvalue
    rw [Table.find?_insert] at hvalue
    split at hvalue
    · cases hvalue
      exact hself.1
    · cases hvalue
  · rcases hself with ⟨-, home, hhome, hdeclares⟩
    have hx := w.extends_enter (.receiver method.decl) method.closure
      ((∅ : Table Value).insert "this" (.object self))
    unfold FrameOk
    rw [w.frame_enter]
    refine ⟨?_, self, home, method, ?_, hhome, hx.declares hdeclares, rfl, rfl⟩
    · rfl
    · rw [Table.find?_insert, if_pos rfl]

/-- A bound method may be called. -/
theorem Sound.boundMethod (h : Sound known w) (hself : Bindable known w method self) :
    PlainFn known (w.bindMethod made method self) (w.store.bindMethod method self).1 := by
  rcases hself with ⟨hcls, home, hhome, hdeclares⟩
  rcases (h.declared hcls hhome hdeclares).1 with ⟨p, hp, hbody⟩
  have hfits : Fits (w.enter (.receiver method.decl) method.closure
      ((∅ : Table Value).insert "this" (.object self))).events
      (w.enter (.receiver method.decl) method.closure
        ((∅ : Table Value).insert "this" (.object self))).store
      (p.enter (.receiver method.decl) ["this"]) (w.store.frames.size :: method.closure) := by
    refine hp.enter ?_ ?_ (.inl rfl)
    · intro name hname
      rw [List.mem_singleton.mp hname, Table.find?_insert, if_pos rfl]
      rfl
    · intro name hname
      exact .inr hname
  exact ⟨p.enter (.receiver method.decl) ["this"], World.extends_newFn.fits hfits, rfl, hbody⟩

theorem Sound.boundValue (h : Sound known w) (hself : Bindable known w method self) :
    ValueOk known (w.bindMethod .plain method self)
      (.function (w.store.bindMethod method self).1) := by
  refine ⟨?_, ?_, h.boundMethod hself⟩
  · simp [World.bindMethod, World.newFn, World.enter, Store.newFn, Store.bindMethod,
      Store.newFrame]
  · simp [World.bindMethod, World.newFn, World.enter, Store.newFn, Store.bindMethod,
      Store.newFrame]

end BindMethod

theorem bindMethod_keeps {F : World → Failure → Prop} {method : Fn} {self : Instance}
    (h : Sound known w) (hself : Bindable known w method self) :
    Keeps known F (Trace.bindMethod method self) w fun w' f =>
      ValueOk known w' (.function f) ∧ f.decl = method.decl :=
  Keeps.of_ok (v := w.bindMethod .plain method self) rfl World.extends_bindMethod
    (h.bindMethod hself) ⟨h.boundValue hself, rfl⟩

/-! ## Names -/

theorem property?_keeps {self : Instance} {name : String} (h : Sound known w)
    (hself : ClassOk known w self.cls) :
    Keeps known (FailureOk known) (Trace.property? self name) w fun w' found =>
      ∀ value, found = some value → ValueOk known w' value := by
  unfold Trace.property?
  split
  · refine Keeps.pure h ?_
    intro value hvalue
    cases hvalue
    trivial
  · refine Keeps.look_store ?_
    cases hfield : (w.store.fieldsOf self).find? name with
    | some value =>
        refine Keeps.pure h ?_
        intro found hfound
        cases hfound
        exact h.fields self name value hfield
    | none =>
        cases hmethod : self.cls.findMethod name with
        | none =>
            refine Keeps.pure h ?_
            intro found hfound
            cases hfound
        | some method =>
            have hbindable := bindable_of_findMethod hself self.cls.mem_ancestry_self hmethod
            refine (bindMethod_keeps h hbindable).bind ?_
            intro w' f _ hsound hf
            refine Keeps.pure hsound ?_
            intro found hfound
            cases hfound
            exact hf.1

theorem readVariable_run (cx : Context) (id : NodeId) (name : String) (s : Store) :
    ∃ found, Eval.readVariable cx id name s = .ok found s ∧
      ∀ value, found = some value → ∃ frame, (s.frame frame).find? name = some value := by
  unfold Eval.readVariable
  cases hlocal : cx.locals[id]? with
  | some distance =>
      refine ⟨s.findAt? cx.env distance name, rfl, ?_⟩
      intro value hvalue
      rcases Store.findHere?_mem hvalue with ⟨frame, outer, -, hframe⟩
      exact ⟨frame, hframe⟩
  | none =>
      refine ⟨(s.find? cx.env name).or (s.find? Store.globals name), rfl, ?_⟩
      intro value hvalue
      rcases Option.or_eq_some_iff.mp hvalue with hvalue | ⟨-, hvalue⟩
      · exact Store.find?_mem hvalue
      · exact Store.find?_mem hvalue

theorem thisInstance?_run (env : Env) (s : Store) :
    ∃ found, Eval.thisInstance? env s = .ok found s ∧
      ∀ self, found = some self → s.find? env "this" = some (.object self) := by
  have hnone : ∀ self, (none : Option Instance) = some self →
      s.find? env "this" = some (.object self) := by
    intro self hself
    cases hself
  unfold Eval.thisInstance?
  dsimp only [bind, EStateM.bind, get, getThe, MonadStateOf.get, EStateM.get]
  cases hfind : s.find? env "this" with
  | none => exact ⟨none, rfl, hfind ▸ hnone⟩
  | some value =>
      cases value with
      | object self =>
          refine ⟨some self, rfl, ?_⟩
          intro other hother
          cases hother
          rfl
      | _ => exact ⟨none, rfl, hfind ▸ hnone⟩

theorem lookUp_keeps {cx : Context} {id : NodeId} {name : Token} (h : Sound known w) :
    Keeps known (FailureOk known) (Trace.lookUp cx id name) w (ValueOk known) := by
  rcases readVariable_run cx id name.lexeme w.store with ⟨found, hrun, hfound⟩
  refine Keeps.look hrun ?_
  cases found with
  | some value =>
      rcases hfound value rfl with ⟨frame, hframe⟩
      exact Keeps.pure h (h.frames frame _ value hframe)
  | none =>
      rcases thisInstance?_run cx.env w.store with ⟨receiver, hrun', hreceiver⟩
      refine Keeps.look hrun' ?_
      cases receiver with
      | none => exact Keeps.failAt h
      | some self =>
          have hself : ValueOk known w (.object self) := h.find (hreceiver self rfl)
          refine (property?_keeps h hself).bind ?_
          intro w' found _ hsound hvalue
          cases found with
          | some value => exact Keeps.pure hsound (hvalue value rfl)
          | none => exact Keeps.failAt hsound

/-! ## Superclasses -/

/-- Where `this` is bound, the frame was made for a method; around it stands what its class
extends. -/
theorem Sound.receiver {p : Place} {env : Env} {n : Nat} {self : Instance} (h : Sound known w)
    (hp : Fits w.events w.store p env) (hself : w.store.findAt? env n "this" = some (.object self)) :
    ∃ home around, home ∈ self.cls.ancestry ∧ w.store.Declares home around ∧
      around.closure = env.drop (n + 1) ∧
      p[n]?.map LexicalScope.region = some (.receiver around.decl) ∧
      w.store.findAt? env (n + 1) "super" = home.superclass.map .class := by
  rcases Store.findHere?_mem hself with ⟨frame, outer, henv, hframe⟩
  have houter : env.drop (n + 1) = outer := by
    rw [← List.drop_drop, henv]
    rfl
  rcases hp.scope henv with ⟨rfl, -⟩ | ⟨scope, hscope, hentered, -, -, -⟩
  · rw [h.global "this" not_declarable_this] at hframe
    cases hframe
  · rcases h.entered _ _ _ hentered with ⟨-, hok⟩
    cases hregion : scope.region with
    | receiver decl =>
        rw [hregion] at hok
        rcases hok with ⟨-, self', home, around, hself', hhome, hdeclares, hdecl, hclosure⟩
        cases hframe.symm.trans hself'
        have hcls : ClassOk known w self.cls := h.frames frame _ _ hframe
        refine ⟨home, around, hhome, hdeclares, ?_, ?_, ?_⟩
        · rw [houter, hclosure]
        · rw [hscope, Option.map_some, hregion, hdecl]
        · rw [Store.findAt?, houter, ← hclosure]
          exact (h.declared hcls hhome hdeclares).2
    | parent decl =>
        rw [hregion] at hok
        cases hok.1.symm.trans hframe
    | _ =>
        rw [hregion] at hok
        cases hok.1.symm.trans hframe

/-- The frames of `super` and `this` bind a class and an instance. -/
theorem Sound.derived {p : Place} {env : Env} {nearer : Nat} (h : Sound known w)
    (hp : Fits w.events w.store p env) (hthis : p.distance? "this" = some nearer)
    (hsuper : p.distance? "super" = some (nearer + 1)) :
    ∃ superclass self,
      w.store.findAt? env (nearer + 1) "super" = some (.class superclass) ∧
      w.store.findAt? env nearer "this" = some (.object self) := by
  rcases Place.scope_of_distance? hthis with ⟨scope, hscope, hname⟩
  rcases hp.frame hscope with ⟨frame, outer, henv, hentered, -, hnames⟩
  rcases Place.scope_of_distance? hsuper with ⟨scope', hscope', hname'⟩
  rcases hp.frame hscope' with ⟨frame', outer', henv', hentered', -, hnames'⟩
  have hreceiver := (hnames "this" hname).resolve_left not_declarable_this
  have hparent := (hnames' _ hname').resolve_left not_declarable_super
  have hok := (h.entered _ _ _ hentered).2
  have hok' := (h.entered _ _ _ hentered').2
  rw [Store.findAt?, Store.findAt?, henv, henv']
  cases hregion' : scope'.region with
  | parent decl' =>
      rw [hregion'] at hok'
      rcases hok' with ⟨-, superclass, hsuperclass⟩
      cases hregion : scope.region with
      | receiver decl =>
          rw [hregion] at hok
          rcases hok with ⟨-, self, -, -, hself, -⟩
          exact ⟨superclass, self, hsuperclass, hself⟩
      | parent decl =>
          rw [hregion] at hreceiver
          exact absurd (List.mem_singleton.mp hreceiver) (by decide)
      | _ =>
          rw [hregion] at hreceiver
          cases hreceiver
  | receiver decl' =>
      rw [hregion'] at hparent
      exact absurd (List.mem_singleton.mp hparent) (by decide)
  | _ =>
      rw [hregion'] at hparent
      cases hparent

/-- A method of the superclass is bound, or there is none. -/
theorem superMethod_run (w : World) (cx : Context) (id : NodeId) (keyword method : Token) :
    (∃ error, Trace.superMethod cx id keyword method w.trace = .error (.error error) w.trace ∧
      error.value = none) ∨
      ∃ nearer superclass self found, cx.locals[id]? = some (nearer + 1) ∧
        w.store.findAt? cx.env (nearer + 1) "super" = some (.class superclass) ∧
        w.store.findAt? cx.env nearer "this" = some (.object self) ∧
        superclass.findMethod method.lexeme = some found ∧
        ∀ made, Trace.superMethod cx id keyword method w.trace =
          .ok (.function (w.store.bindMethod found self).1)
            (w.bindMethod made found self).trace := by
  unfold Trace.superMethod
  cases hlocal : cx.locals[id]? with
  | none => exact .inl ⟨_, rfl, rfl⟩
  | some distance =>
      have hlook (f : Store → Tracing Failure Value) :
          (Trace.keep get >>= f) w.trace = f w.store w.trace := rfl
      simp only [hlook]
      cases hsuper : w.store.findAt? cx.env distance "super" with
      | none => exact .inl ⟨_, rfl, rfl⟩
      | some value =>
          cases value with
          | «class» superclass =>
              cases distance with
              | zero => exact .inl ⟨_, rfl, rfl⟩
              | succ nearer =>
                  simp only
                  cases hthis : w.store.findAt? cx.env nearer "this" with
                  | none => exact .inl ⟨_, rfl, rfl⟩
                  | some value =>
                      cases value with
                      | object self =>
                          simp only
                          cases hfound : superclass.findMethod method.lexeme with
                          | none => exact .inl ⟨_, rfl, rfl⟩
                          | some found =>
                              exact .inr ⟨nearer, superclass, self, found, rfl, hsuper, hthis,
                                hfound, fun _ => rfl⟩
                      | _ => exact .inl ⟨_, rfl, rfl⟩
          | _ => exact .inl ⟨_, rfl, rfl⟩

/-- Where the superclass and the instance are found, all that may be missing is the method. -/
theorem Eval.superMethod_run {cx : Context} {id : NodeId} {s : Store} {nearer : Nat}
    {superclass : Class} {self : Instance} (hlocal : cx.locals[id]? = some (nearer + 1))
    (hsuper : s.findAt? cx.env (nearer + 1) "super" = some (.class superclass))
    (hself : s.findAt? cx.env nearer "this" = some (.object self)) (keyword method : Token) :
    superMethod cx id keyword method s =
      match superclass.findMethod method.lexeme with
      | some found => .ok (.function (s.bindMethod found self).1) (s.bindMethod found self).2
      | none => failAt method (.undefinedProperty method.lexeme) s := by
  unfold superMethod
  rw [hlocal]
  simp only [get_bind, hsuper, hself]
  cases superclass.findMethod method.lexeme with
  | none => rfl
  | some found => rfl

theorem ReachesSuper.superMethod_eq {cx : Context} {id : NodeId} {s : Store}
    (h : ReachesSuper cx id s) (keyword method : Token) :
    ∃ nearer superclass self,
      s.findAt? cx.env (nearer + 1) "super" = some (.class superclass) ∧
      s.findAt? cx.env nearer "this" = some (.object self) ∧
      Eval.superMethod cx id keyword method s =
        match superclass.findMethod method.lexeme with
        | some found => .ok (.function (s.bindMethod found self).1) (s.bindMethod found self).2
        | none => Eval.failAt method (.undefinedProperty method.lexeme) s := by
  rcases h with ⟨nearer, superclass, self, hlocal, hsuper, hself⟩
  exact ⟨nearer, superclass, self, hsuper, hself,
    Eval.superMethod_run hlocal hsuper hself keyword method⟩

theorem Sound.superMethod_bindable {cx : Context} {p : Place} {nearer : Nat} {superclass : Class}
    {self : Instance} {name : String} {found : Fn} (h : Sound known w)
    (hp : Fits w.events w.store p cx.env)
    (hsuper : w.store.findAt? cx.env (nearer + 1) "super" = some (.class superclass))
    (hself : w.store.findAt? cx.env nearer "this" = some (.object self))
    (hfound : superclass.findMethod name = some found) : Bindable known w found self := by
  rcases h.receiver hp hself with ⟨home, around, hhome, -, -, -, hparent⟩
  rw [hsuper] at hparent
  cases hsuperclass : home.superclass with
  | none =>
      rw [hsuperclass] at hparent
      cases hparent
  | some parent =>
      rw [hsuperclass] at hparent
      cases hparent
      have hcls : ClassOk known w self.cls := h.findHere hself
      exact bindable_of_findMethod hcls (Class.superclass_mem hhome hsuperclass) hfound

theorem superMethod_keeps {cx : Context} {p : Place} {id : NodeId} {keyword method : Token}
    (h : Sound known w) (hp : Fits w.events w.store p cx.env) :
    Keeps known (FailureOk known) (Trace.superMethod cx id keyword method) w (ValueOk known) := by
  rcases superMethod_run w cx id keyword method with ⟨error, hrun, hvalue⟩ |
    ⟨nearer, superclass, self, found, -, hsuper, hself, hfound, hrun⟩
  · unfold Keeps
    rw [hrun]
    refine ⟨w, rfl, .refl w, h, ?_⟩
    intro value hsome
    rw [hvalue] at hsome
    cases hsome
  · have hbindable := h.superMethod_bindable hp hsuper hself hfound
    exact Keeps.of_ok (hrun .plain) World.extends_bindMethod (h.bindMethod hbindable)
      (h.boundValue hbindable)

/-! ## Members -/

theorem memberValue_keeps {found : Member} (h : Sound known w) :
    Keeps known (FailureOk known) (Trace.keep (Eval.memberValue found)) w (ValueOk known) := by
  cases found with
  | length count => exact Keeps.keep (v := w) rfl rfl (.refl w) h trivial
  | method op target =>
      have hsound : Sound known (w.withStore (w.store.newNative (.member op target)).2) :=
        h.counted rfl rfl rfl rfl rfl
      exact Keeps.keep (v := w.withStore _) rfl rfl (World.extends_withStore rfl rfl) hsound trivial

theorem getProperty_keeps {target : Value} {name : Token} (h : Sound known w)
    (htarget : ValueOk known w target) :
    Keeps known (FailureOk known) (Trace.getProperty target name) w (ValueOk known) := by
  unfold Trace.getProperty
  cases target with
  | object self =>
      refine (property?_keeps h htarget).bind ?_
      intro w' found _ hsound hvalue
      cases found with
      | some value => exact Keeps.pure hsound (hvalue value rfl)
      | none => exact Keeps.failAt hsound
  | _ =>
      -- all but instances have the members of containers, if any
      refine Keeps.keep_look ?_
      split
      · exact memberValue_keeps h
      · exact Keeps.failAt h
      · exact Keeps.failAt h

end Lookup

end MiniPascal
