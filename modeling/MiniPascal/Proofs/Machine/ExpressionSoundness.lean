import MiniPascal.Proofs.Machine.Lookup

/-!
# Expressions keep worlds sound

Evaluating an expression at a place that the environment fits keeps the world sound, as long as
calls do.  A call of a method of the superclass works on a copy of the method that nothing else
refers to while the arguments are evaluated.
-/

namespace MiniPascal

variable {known : Reference → Prop} {w : World}

/-! ## Calls -/

/-- A caller that runs functions which may be called, on as many arguments as they take. -/
def CallerOk (known : Reference → Prop) (call : Trace.Caller) : Prop :=
  ∀ w f arguments, Sound known w → PlainFn known w f →
    (∀ value ∈ arguments, ValueOk known w value) → f.arity = arguments.length →
    Keeps known (FailureOk known) (call f arguments) w (ValueOk known)

/-- A choice that may be called once it is bound. -/
def ChoiceOk (known : Reference → Prop) (w : World) : Store.Choice → Prop
  | .function f => PlainFn known w f
  | .method f self => Bindable known w f self

theorem Sound.findOverload {f chosen : Fn} {types : List String} (h : Sound known w)
    (hf : ValueOk known w (.function f)) (hchosen : w.store.findOverload f types = some chosen) :
    PlainFn known w chosen := by
  rcases hf with ⟨hid, hmade, hplain⟩
  rcases Store.findOverload_mem hchosen with rfl | hmem
  · exact hplain
  · exact (h.overloads f.id hid).of_plain hmade chosen hmem

theorem Sound.chooseOverload {env : Env} {f : Fn} {types : List String} {choice : Store.Choice}
    (h : Sound known w) (hf : ValueOk known w (.function f))
    (hchoice : w.store.chooseOverload env f types = some choice) : ChoiceOk known w choice := by
  cases Store.chooses_of_chooseOverload hchoice with
  | overload hchosen => exact h.findOverload hf hchosen
  | method hself hfirst hchosen =>
      exact bindable_of_findOverload (h.findHere hself) hfirst hchosen
  | function hfirst hchosen => exact h.findOverload (h.frames _ _ _ hfirst) hchosen

theorem checkArity_keeps {paren : Token} {expected got : Nat} (h : Sound known w) :
    Keeps known (FailureOk known) (Trace.keep (Eval.checkArity paren expected got)) w
      fun _ _ => expected = got := by
  unfold Eval.checkArity
  split
  · next hsame => exact Keeps.keep (v := w) rfl rfl (.refl w) h hsame
  · exact Keeps.failAt h

theorem bindChoice_keeps {choice : Store.Choice} (h : Sound known w)
    (hchoice : ChoiceOk known w choice) :
    Keeps known (FailureOk known) (Trace.bindChoice choice) w fun w' f => PlainFn known w' f := by
  cases choice with
  | function f => exact Keeps.pure h hchoice
  | method f self =>
      refine (bindMethod_keeps h hchoice).imp ?_
      intro w' bound _ _ hbound
      exact hbound.1.2.2

theorem initializer?_bindable {self : Instance} {types : List String} {initializer : Fn}
    (hself : ClassOk known w self.cls)
    (hinitializer : Eval.initializer? w.store self.cls types = some initializer) :
    Bindable known w initializer self := by
  rcases Eval.exists_of_initializer? hinitializer with ⟨first, hfirst, rfl | hchosen⟩
  · exact bindable_of_findMethod hself self.cls.mem_ancestry_self hfirst
  · exact bindable_of_findOverload hself hfirst hchosen

theorem newInstance_keeps {cls : Class} (h : Sound known w) (hcls : ClassOk known w cls) :
    Keeps known (FailureOk known) (Trace.keep (modifyGet fun s => s.newInstance cls)) w
      fun w' self => self.cls = cls ∧ ClassOk known w' self.cls :=
  have hextends : w.Extends (w.withStore (w.store.newInstance cls).2) :=
    World.extends_withStore rfl rfl
  Keeps.keep (v := w.withStore (w.store.newInstance cls).2) rfl rfl hextends h.newInstance
    ⟨rfl, hextends.classOk hcls⟩

/-- What may be bound to an instance may later be bound to any instance of its class. -/
theorem Bindable.later {w' : World} {method : Fn} {self self' : Instance}
    (h : Bindable known w method self) (hx : w.Extends w') (hself : self'.cls = self.cls) :
    Bindable known w' method self' := by
  rcases h with ⟨hcls, home, hhome, hdeclares⟩
  unfold Bindable
  rw [hself]
  exact ⟨hx.classOk hcls, home, hhome, hx.declares hdeclares⟩

theorem callNative_keeps {host : Host} {op : NativeOp} {paren : Token} {arguments : List Value}
    (h : Sound known w) (harguments : ∀ value ∈ arguments, ValueOk known w value) :
    Keeps known (FailureOk known) (Trace.keep (Eval.callNative host op paren arguments)) w
      (ValueOk known) := by
  have happly := Eval.callNative_apply host op paren arguments w.store
  cases hrun : (w.store.entering op).callNative host op arguments with
  | error fault =>
      rw [hrun] at happly
      exact Keeps.keep_of_run (v := w.withStore (w.store.entering op)) happly rfl
        (World.extends_withStore (w.store.frames_entering op) (w.store.overloads_entering op))
        (Keeps.failAt (h.entering op))
  | ok outcome =>
      rcases outcome with ⟨value, change⟩
      rw [hrun] at happly
      rcases h.callNative harguments hrun with ⟨hvalue, hsound, hextends⟩
      exact Keeps.keep (v := w.withStore (change (w.store.entering op))) happly rfl hextends hsound
        (hextends.valueOk hvalue)

theorem native_keeps {host : Host} {op : NativeOp} {paren : Token} {arguments : List Value}
    (h : Sound known w) (harguments : ∀ value ∈ arguments, ValueOk known w value) :
    Keeps known (FailureOk known) (Trace.keep do
      Eval.checkArity paren op.arity arguments.length
      Eval.callNative host op paren arguments) w (ValueOk known) := by
  refine Keeps.keep_bind ((checkArity_keeps h).bind ?_)
  intro w₁ _ hextends hsound _
  exact callNative_keeps hsound fun value hvalue => hextends.valueOk (harguments value hvalue)

section Calls

variable {call : Trace.Caller} (hcall : CallerOk known call)
include hcall

theorem instantiate_keeps {cls : Class} {paren : Token} {arguments : List Value}
    (h : Sound known w) (hcls : ClassOk known w cls)
    (harguments : ∀ value ∈ arguments, ValueOk known w value) :
    Keeps known (FailureOk known) (Trace.instantiate call cls paren arguments) w
      (ValueOk known) := by
  refine Keeps.look_store ?_
  cases hinitializer : Eval.initializer? w.store cls (arguments.map Value.typeName) with
  | none =>
      refine (checkArity_keeps h).bind ?_
      intro w₁ _ hextends hsound _
      refine (newInstance_keeps hsound (hextends.classOk hcls)).bind ?_
      intro w₂ self _ hsound' hself
      exact Keeps.pure hsound' hself.2
  | some initializer =>
      refine (checkArity_keeps h).bind ?_
      intro w₁ _ hextends hsound harity
      refine (newInstance_keeps hsound (hextends.classOk hcls)).bind ?_
      intro w₂ self hextends' hsound' hself
      have hx := hextends.trans hextends'
      have hbindable : Bindable known w initializer ⟨0, cls⟩ :=
        initializer?_bindable hcls hinitializer
      refine (bindMethod_keeps hsound' (hbindable.later hx hself.1)).bind ?_
      intro w₃ bound hextends'' hsound'' hbound
      have hx' := hx.trans hextends''
      have harity' : bound.arity = arguments.length := by
        rw [Fn.arity, hbound.2]
        exact harity
      refine (hcall w₃ bound arguments hsound'' hbound.1.2.2
        (fun value hvalue => hx'.valueOk (harguments value hvalue)) harity').discard.bind ?_
      intro w₄ _ hextends₃ hsound₃ _
      exact Keeps.pure hsound₃ ((hextends''.trans hextends₃).classOk hself.2)

theorem applyValue_keeps {cx : Context} {callee : Value} {paren : Token} {arguments : List Value}
    (h : Sound known w) (hcallee : ValueOk known w callee)
    (harguments : ∀ value ∈ arguments, ValueOk known w value) :
    Keeps known (FailureOk known) (Trace.applyValue call cx callee paren arguments) w
      (ValueOk known) := by
  unfold Trace.applyValue
  cases callee with
  | function f =>
      refine Keeps.look_store ?_
      cases hchoice : w.store.chooseOverload cx.env f (arguments.map Value.typeName) with
      | none => exact Keeps.failAt h
      | some choice =>
          refine (bindChoice_keeps h (h.chooseOverload hcallee hchoice)).bind ?_
          intro w₁ selected hextends hsound hselected
          refine (checkArity_keeps hsound).bind ?_
          intro w₂ _ hextends' hsound' harity
          exact hcall w₂ selected arguments hsound' (hextends'.plainFn hselected)
            (fun value hvalue => (hextends.trans hextends').valueOk (harguments value hvalue)) harity
  | native native =>
      exact native_keeps h harguments
  | «class» cls => exact instantiate_keeps hcall h hcallee harguments
  | _ => exact Keeps.failAt h

end Calls

/-! ## Assignments -/

theorem targetFrame?_run (cx : Context) (id : NodeId) (name : String) (s : Store) :
    ∃ target, Eval.targetFrame? cx id name s = .ok target s := by
  unfold Eval.targetFrame?
  cases cx.locals[id]? with
  | some distance => exact ⟨_, rfl⟩
  | none => exact ⟨_, rfl⟩

theorem assign_keeps {cx : Context} {id : NodeId} {name : Token} {value : Value}
    (h : Sound known w) (hname : Declarable name.lexeme) (hvalue : ValueOk known w value) :
    Keeps known (FailureOk known) (Trace.keep (Eval.assign cx id name value)) w
      (ValueOk known) := by
  rcases targetFrame?_run cx id name.lexeme w.store with ⟨target, htarget⟩
  have hrun (f : Option FrameId → Eval Value) :
      (Eval.targetFrame? cx id name.lexeme >>= f) w.store = f target w.store := by
    show EStateM.bind _ f w.store = _
    simp only [EStateM.bind, htarget]
  cases target with
  | some frame =>
      have hextends : w.Extends (w.bindIn frame name.lexeme value) := World.extends_bindIn hname
      exact Keeps.keep (v := w.bindIn frame name.lexeme value) (hrun _) rfl hextends
        (h.bindIn hname (hextends.valueOk hvalue)) (hextends.valueOk hvalue)
  | none =>
      rcases thisInstance?_run cx.env w.store with ⟨receiver, hreceiver, -⟩
      have hrun' (f : Option Instance → Eval Value) :
          (Eval.thisInstance? cx.env >>= f) w.store = f receiver w.store := by
        show EStateM.bind _ f w.store = _
        simp only [EStateM.bind, hreceiver]
      cases receiver with
      | some self =>
          have hextends : w.Extends (w.withStore (w.store.setField self name.lexeme value)) :=
            World.extends_withStore rfl rfl
          exact Keeps.keep (v := w.withStore (w.store.setField self name.lexeme value))
            ((hrun _).trans (hrun' _)) rfl hextends (h.setField hvalue) (hextends.valueOk hvalue)
      | none =>
          refine Keeps.keep_error h ((hrun _).trans (hrun' _)) ?_
          intro found hfound
          cases hfound

theorem fieldOwner_keeps {target : Value} {name : Token} (h : Sound known w) :
    Keeps known (FailureOk known) (Trace.keep (Eval.fieldOwner target name)) w
      fun _ _ => True := by
  have hfail (fault : RuntimeFault) : Keeps known (FailureOk known)
      (Trace.keep (Eval.failAt name fault : Eval Instance)) w fun _ _ => True :=
    Keeps.failAt h
  cases target with
  | object self => exact Keeps.keep (v := w) rfl rfl (.refl w) h trivial
  | array id => exact hfail (.containerField "arrays")
  | list id => exact hfail (.containerField "lists")
  | map id => exact hfail (.containerField "maps")
  | stack id => exact hfail (.containerField "stacks")
  | _ => exact hfail .noFields

theorem setField_keeps {self : Instance} {name : String} {value : Value} (h : Sound known w)
    (hvalue : ValueOk known w value) :
    Keeps known (FailureOk known) (Trace.keep (modify (·.setField self name value))) w
      fun w' _ => ValueOk known w' value :=
  have hextends : w.Extends (w.withStore (w.store.setField self name value)) :=
    World.extends_withStore rfl rfl
  Keeps.keep (v := w.withStore (w.store.setField self name value)) rfl rfl hextends
    (h.setField hvalue) (hextends.valueOk hvalue)

theorem newMap_keeps {contents : List (Value × Value)} (h : Sound known w)
    (hcontents : ∀ entry ∈ contents, ValueOk known w entry.2) :
    Keeps known (FailureOk known) (Trace.keep (modifyGet fun s => s.newMap contents)) w
      fun _ _ => True :=
  Keeps.keep (v := w.withStore (w.store.newMap contents).2) rfl rfl
    (World.extends_withStore rfl rfl) (h.newMap hcontents) trivial

/-! ## Copies of methods -/

/-- The world in which a function that stood apart may be referred to. -/
def World.release (w : World) (id : Nat) : World :=
  { w with made := fun other => if other = id then .plain else w.made other }

section Release

variable {id : Nat} (hapart : w.made id = .apart)
include hapart

theorem World.made_release {other : Nat} {made : Made} (hmade : w.made other = made)
    (hne : made ≠ .apart) : (w.release id).made other = made := by
  have hother : other ≠ id := by
    intro hsame
    rw [hsame, hapart] at hmade
    exact hne hmade.symm
  simp only [release, hother, if_false]
  exact hmade

theorem ClassOk.release {cls : Class} (hcls : ClassOk known w cls) :
    ClassOk known (w.release id) cls := by
  intro ancestor hancestor name first hfirst
  have hok := hcls ancestor hancestor name first hfirst
  refine ⟨hok.name, hok.id, World.made_release hapart hok.made ?_, hok.known, hok.parent⟩
  intro hsame
  cases hsame

theorem ValueOk.release {value : Value} (hvalue : ValueOk known w value) :
    ValueOk known (w.release id) value := by
  cases value with
  | function f =>
      rcases hvalue with ⟨hid, hmade, hf⟩
      refine ⟨hid, World.made_release hapart hmade ?_, hf⟩
      intro hsame
      cases hsame
  | «class» cls => exact ClassOk.release hapart hvalue
  | object self => exact ClassOk.release hapart hvalue
  | _ => trivial

theorem Sound.release (h : Sound known w) (hid : id < w.store.overloads.size) :
    Sound known (w.release id) := by
  have hnone := (h.overloads id hid).of_apart hapart
  refine ⟨?_, ?_, ?_, ?_, ?_, h.entered, h.globalFrame, h.global, h.events, h.reads⟩
  · intro other hother
    have hok := h.overloads other hother
    unfold OverloadsOk
    by_cases hsame : other = id
    · have hmade : (w.release id).made other = .plain := by
        simp only [World.release, hsame, if_true]
      rw [hmade]
      intro f hf
      rw [hsame] at hf
      simp only [World.release, hnone] at hf
      cases hf
    · have hmade : (w.release id).made other = w.made other := by
        simp only [World.release, hsame, if_false]
      rw [hmade]
      cases hkind : w.made other with
      | plain => exact hok.of_plain hkind
      | method first =>
          intro f hf
          rcases hok.of_method hkind f hf with ⟨hlt, hfirst, hclosure, hknown⟩
          refine ⟨hlt, World.made_release hapart hfirst ?_, hclosure, hknown⟩
          intro hsame
          cases hsame
      | apart => exact hok.of_apart hkind
  · intro frame name value hvalue
    exact ValueOk.release hapart (h.frames frame name value hvalue)
  · intro self name value hvalue
    exact ValueOk.release hapart (h.fields self name value hvalue)
  · intro other value hvalue
    exact ValueOk.release hapart (h.sequences other value hvalue)
  · intro other entry hentry
    exact ValueOk.release hapart (h.maps other entry hentry)

end Release

theorem World.Extends.release {w' : World} {id : Nat} (h : w.Extends w')
    (hid : w.store.overloads.size ≤ id) : w.Extends (w'.release id) := by
  refine ⟨h.events, h.frames, h.bound, h.fixed, h.functions, ?_, h.overloads⟩
  intro other hother
  have hne : other ≠ id := Nat.ne_of_lt (Nat.lt_of_lt_of_le hother hid)
  simp only [World.release, hne, if_false]
  exact h.made other hother

/-! ## Calls of methods of the superclass -/

theorem Sound.made_of_group {cls : Class} {name : String} {first f : Fn} (h : Sound known w)
    (hcls : ClassOk known w cls) (hfirst : cls.findMethod name = some first)
    (hf : f = first ∨ f ∈ w.store.overloadsOf first) : w.made f.id = .method first := by
  rcases Class.findMethod_mem hfirst with ⟨home, hhome, hfind⟩
  have hok := hcls home hhome name first hfind
  rcases hf with rfl | hf
  · exact hok.made
  · exact ((h.overloads first.id hok.id).of_method hok.made f hf).2.1

/-- References of an expression at a place. -/
def Mentioned (known : Reference → Prop) (p : Place) (mentions : List Mention) : Prop :=
  ∀ m ∈ mentions, ∃ r, known r ∧ r.mention = m ∧ r.place = p

namespace Resolved

variable {cx : Context} {p : Place} {r : Reference} {id : NodeId}
variable (hresolved : Resolved known cx.locals) (hr : known r)
include hresolved hr

/-- A known reference reads its name from the frame of its declaration. -/
theorem readsDeclared {events : List Event} {s : Store} {name : String}
    (hmention : r.mention = ⟨id, name, .read⟩) (hp : Fits events s p cx.env)
    (hplace : r.place = p ∨ ∃ own, r.place = p.declare [own] ∧ r.mention.name ≠ own) :
    ReadsDeclared known events cx id name s := by
  intro d hlocal
  have hd := hresolved.distance r hr (.inl (by rw [hmention])) d (by rw [hmention]; exact hlocal)
  have hreads := hp.reads hplace hd
  rw [hmention] at hreads
  exact ⟨r, hr, hmention, hd, hreads⟩

theorem readsInPlace {events : List Event} {s : Store} {name : String}
    (hmention : r.mention = ⟨id, name, .read⟩) (hp : Fits events s p cx.env)
    (hplace : r.place.length = p.length) : ReadsInPlace known cx id name := by
  have hlocal := hresolved.recorded r hr (by rw [hmention])
  rw [hmention] at hlocal
  refine ⟨r, hr, hmention, hlocal, ?_, hp.nested⟩
  rw [hplace]
  exact hp.length

/-- The distance of `super` is one more than that of `this`. -/
theorem superDistance (hmention : r.mention = ⟨id, "super", .receiver⟩) :
    ∃ nearer, cx.locals[id]? = some (nearer + 1) ∧ r.place.distance? "this" = some nearer ∧
      r.place.distance? "super" = some (nearer + 1) := by
  rcases hresolved.derived r hr (by rw [hmention]) (by rw [hmention]) with ⟨hderived, hsome⟩
  rcases hderived with ⟨nearer, hthis, hsuper⟩
  rcases Option.isSome_iff_exists.mp hsome with ⟨d, hlocal⟩
  have hnot : ¬Declarable r.mention.name := by
    rw [hmention]
    exact not_declarable_super
  have hd := hresolved.distance r hr (.inr hnot) d hlocal
  rw [Reference.distance?, hmention, hsuper] at hd
  cases hd
  rw [hmention] at hlocal
  exact ⟨nearer, hlocal, hthis, hsuper⟩

theorem reachesSuper (hmention : r.mention = ⟨id, "super", .receiver⟩) (h : Sound known w)
    (hp : Fits w.events w.store r.place cx.env) : ReachesSuper cx id w.store := by
  rcases hresolved.superDistance hr hmention with ⟨nearer, hlocal, hthis, hsuper⟩
  rcases h.derived hp hthis hsuper with ⟨superclass, self, hclass, hself⟩
  exact ⟨nearer, superclass, self, hlocal, hclass, hself⟩

end Resolved

/-! ### Methods that are bound apart -/

section BoundApart

variable {method : Fn} {self : Instance}

theorem World.lt_bindMethod {made : Made} :
    w.store.overloads.size < (w.bindMethod made method self).store.overloads.size := by
  simp [World.bindMethod, World.newFn, World.enter, Store.newFn, Store.newFrame]

theorem World.Extends.made_bindMethod {made : Made} {w' : World}
    (h : (w.bindMethod made method self).Extends w') : w'.made w.store.overloads.size = made := by
  rw [h.made _ World.lt_bindMethod]
  simp [World.bindMethod, World.newFn, World.enter, Store.newFrame]

theorem Store.boundInstance_bindMethod (s : Store) (method : Fn) (self : Instance) :
    (s.bindMethod method self).2.boundInstance (s.bindMethod method self).1 = some self := by
  have hthis : (s.bindMethod method self).2.findHere? (s.bindMethod method self).1.closure "this" =
      some (.object self) := by
    show ((s.newFrame ((∅ : Table Value).insert "this" (.object self))).2.frame
      s.frames.size).find? "this" = _
    rw [Store.frame_newFrame, if_pos rfl, Table.find?_insert, if_pos rfl]
  rw [Store.boundInstance, hthis]

theorem Sound.boundInstance {made : Made} {w' : World} (h : Sound known w)
    (hself : Bindable known w method self)
    (hextends : (w.bindMethod made method self).Extends w') :
    w'.store.boundInstance (w.store.bindMethod method self).1 = some self := by
  have hplain : PlainFn known (w.bindMethod made method self)
      (w.store.bindMethod method self).1 := h.boundMethod hself
  rcases hplain with ⟨place, hfits, -⟩
  have hbefore := w.store.boundInstance_bindMethod method self
  rw [Store.boundInstance] at hbefore ⊢
  rw [hextends.findHere? hfits not_declarable_this]
  exact hbefore

theorem Sound.overloads_boundApart {w' : World} (h : Sound known w')
    (hextends : (w.bindMethod .apart method self).Extends w') :
    w'.store.overloadsOf (w.store.bindMethod method self).1 = [] :=
  (h.overloads w.store.overloads.size
    (Nat.lt_of_lt_of_le World.lt_bindMethod hextends.functions)).of_apart hextends.made_bindMethod

end BoundApart

/-- What a call of a method of the superclass rests on, once the method is bound apart. -/
theorem Sound.superCall {w₂ : World} {cx : Context} {p : Place} {id : NodeId} {method : Token}
    {nearer : Nat} {superclass : Class} {self : Instance} {found : Fn} (h : Sound known w)
    (hp : Fits w.events w.store p cx.env) (hlocal : cx.locals[id]? = some (nearer + 1))
    (hsuper : w.store.findAt? cx.env (nearer + 1) "super" = some (.class superclass))
    (hself : w.store.findAt? cx.env nearer "this" = some (.object self))
    (hfound : superclass.findMethod method.lexeme = some found)
    (hextends : (w.bindMethod .apart found self).Extends w₂) (hsound : Sound known w₂) :
    ∃ home around, SuperCall cx p id method w.store
      (.function (w.store.bindMethod found self).1) w₂.store nearer superclass self home around
      found (w.store.bindMethod found self).1 := by
  rcases h.receiver hp hself with ⟨home, around, hhome, hdeclares, hclosure, hplace, hparent⟩
  have hparent' : home.superclass = some superclass := by
    rw [hsuper] at hparent
    cases hsuperclass : home.superclass with
    | none =>
        rw [hsuperclass] at hparent
        cases hparent
    | some parent =>
        rw [hsuperclass] at hparent
        cases hparent
        rfl
  have hcls : ClassOk known w self.cls := h.findHere hself
  have hmem := Class.superclass_mem hhome hparent'
  have hbindable := bindable_of_findMethod hcls hmem hfound
  have hcls₂ : ClassOk known w₂ self.cls :=
    hextends.classOk (World.extends_bindMethod.classOk hcls)
  rcases Class.findMethod_mem hfound with ⟨owner, howner, hfind⟩
  have hok := hcls₂ owner ((Class.ancestry_trans hmem).subset howner) _ found hfind
  refine ⟨home, around, hlocal, hsuper, hself, hhome, hparent', hdeclares, hclosure, hplace,
    hfound, hok.name, rfl, rfl, rfl, hsound.overloads_boundApart hextends,
    h.boundInstance hbindable hextends, ?_, ?_, ?_⟩
  · intro f hf
    exact ((hsound.overloads found.id hok.id).of_method hok.made f hf).2.2.1
  · intro cls hlower hin f hf hclosure
    have hcalled := (hsound.declared hcls₂ hlower hf).2
    rw [hclosure, hok.parent] at hcalled
    refine Class.superclass_ne hin hparent' howner ?_
    exact (Option.map_injective (fun _ _ hsame => Value.class.inj hsame) hcalled).symm
  · intro first hfirst f hf hf'
    have hparents : ClassOk known w₂ superclass := by
      intro ancestor hancestor
      exact hcls₂ ancestor ((Class.ancestry_trans hmem).subset hancestor)
    have hmade := hsound.made_of_group hparents hfound hf
    have hmade' := hsound.made_of_group hcls₂ hfirst hf'
    rw [hmade] at hmade'
    cases hmade'
    rfl

section SuperCalls

variable {call : Trace.Caller} (hcall : CallerOk known call)
include hcall

theorem superCall_keeps {cx : Context} {p : Place} {id : NodeId} {keyword method paren : Token}
    {arguments : List Expr} (hresolved : Resolved known cx.locals) (h : Sound known w)
    (hp : Fits w.events w.store p cx.env)
    (hmentioned : Mentioned known p [⟨id, "super", .receiver⟩])
    (harguments : ∀ w', w.Extends w' → Sound known w' →
      Keeps known (FailureOk known) (Trace.exprs call cx arguments) w' fun w'' values =>
        ∀ value ∈ values, ValueOk known w'' value) :
    Keeps known (FailureOk known) (do
      let target ← Trace.superMethod cx id keyword method
      let values ← Trace.exprs call cx arguments
      Trace.note fun after => .called cx (.super id keyword method) w.store target values after
      Trace.applyValue call cx target paren values) w (ValueOk known) := by
  rcases superMethod_run w cx id keyword method with ⟨error, hrun, hvalue⟩ |
    ⟨nearer, superclass, self, found, hlocal, hsuper, hself, hfound, hrun⟩
  · refine Keeps.bind (Q := fun _ _ => False) ?_ ?_
    · unfold Keeps
      rw [hrun]
      refine ⟨w, rfl, .refl w, h, ?_⟩
      intro value hsome
      rw [hvalue] at hsome
      cases hsome
    · intro w' value _ _ hfalse
      exact hfalse.elim
  · have hbindable := h.superMethod_bindable hp hsuper hself hfound
    have hsound₁ : Sound known (w.bindMethod .apart found self) := h.bindMethod hbindable
    have hextends₁ : w.Extends (w.bindMethod .apart found self) := World.extends_bindMethod
    have hvalues := harguments _ hextends₁ hsound₁
    unfold Keeps at hvalues
    have hfirst := hrun .apart
    -- the run goes on from the world in which the arguments have been evaluated
    cases hargs : Trace.exprs call cx arguments (w.bindMethod .apart found self).trace with
    | error e t =>
        rw [hargs] at hvalues
        rcases hvalues with ⟨w₂, rfl, hextends₂, hsound₂, hfailure⟩
        unfold Keeps
        rw [bind_of_ok hfirst, bind_of_error hargs]
        exact ⟨w₂, rfl, hextends₁.trans hextends₂, hsound₂, hfailure⟩
    | ok values t =>
        rw [hargs] at hvalues
        rcases hvalues with ⟨w₂, rfl, hextends₂, hsound₂, hvaluesOk⟩
        have hapart : w₂.made w.store.overloads.size = .apart := hextends₂.made_bindMethod
        have hlt := Nat.lt_of_lt_of_le World.lt_bindMethod hextends₂.functions
        have hsound₃ := hsound₂.release hapart hlt
        have hextends₃ : w.Extends (w₂.release w.store.overloads.size) :=
          (hextends₁.trans hextends₂).release (Nat.le_refl _)
        have hbound : ValueOk known (w₂.release w.store.overloads.size)
            (.function (w.store.bindMethod found self).1) := by
          refine ⟨hlt, ?_, hextends₂.plainFn (h.boundMethod hbindable)⟩
          show (if w.store.overloads.size = w.store.overloads.size then Made.plain else _) = _
          rw [if_pos rfl]
        rcases hmentioned _ List.mem_cons_self with ⟨r, hr, hmention, rfl⟩
        rcases h.superCall hp hlocal hsuper hself hfound hextends₂ hsound₂ with
          ⟨home, around, hcalled⟩
        have hnearer : r.place.distance? "this" = some nearer := by
          rcases hresolved.superDistance hr hmention with ⟨distance, hlocal', hthis, -⟩
          cases hlocal.symm.trans hlocal'
          exact hthis
        refine Keeps.of_run (y := Trace.note (fun after => .called cx (.super id keyword method)
            w.store (.function (w.store.bindMethod found self).1) values after) >>= fun _ =>
              Trace.applyValue call cx (.function (w.store.bindMethod found self).1) paren values)
          hextends₃ ?_ ?_
        · rw [bind_of_ok hfirst, bind_of_ok hargs]
          rfl
        · refine Keeps.note hsound₃ ?_ hsound₃.reads ?_ ?_
          · exact ⟨r, nearer, superclass, self, home, around, found, _, hr, hmention,
              hnearer, hcalled⟩
          · intro region outer frame hsame
            cases hsame
          · intro w₄ hextends₄ hsound₄ _
            exact applyValue_keeps hcall hsound₄ (hextends₄.valueOk hbound) fun value hvalue =>
              hextends₄.valueOk (ValueOk.release hapart (hvaluesOk value hvalue))

end SuperCalls

/-! ## Expressions -/

theorem Mentioned.left {p : Place} {ms ns : List Mention} (h : Mentioned known p (ms ++ ns)) :
    Mentioned known p ms :=
  fun m hm => h m (List.mem_append_left _ hm)

theorem Mentioned.right {p : Place} {ms ns : List Mention} (h : Mentioned known p (ms ++ ns)) :
    Mentioned known p ns :=
  fun m hm => h m (List.mem_append_right _ hm)

theorem justified_called {earlier : List Event} {cx : Context} {callee : Expr} {before after : Store}
    {target : Value} {arguments : List Value}
    (h : ¬∃ id keyword method, callee = .super id keyword method) :
    Justified known earlier (.called cx callee before target arguments after) := by
  cases callee with
  | super id keyword method => exact absurd ⟨id, keyword, method, rfl⟩ h
  | _ => trivial

theorem Resolved.reaching {cx : Context} {p : Place} {id : NodeId} {keyword method : Token}
    (hresolved : Resolved known cx.locals) (h : Sound known w)
    (hp : Fits w.events w.store p cx.env)
    (hm : Mentioned known p (Expr.super id keyword method).mentions) :
    ReachesSuper cx id w.store := by
  rcases hm _ List.mem_cons_self with ⟨r, hr, hmention, rfl⟩
  exact hresolved.reachesSuper hr hmention h hp

/-- Nothing is said of a call before its target is known, unless that is in the superclass. -/
theorem Resolved.calling {cx : Context} {p : Place} {callee : Expr}
    (hresolved : Resolved known cx.locals) (h : Sound known w)
    (hp : Fits w.events w.store p cx.env) (hm : Mentioned known p callee.mentions) :
    Justified known w.events (.calling cx callee w.store) := by
  cases callee with
  | super id keyword method => exact hresolved.reaching h hp hm
  | _ => trivial

section Expressions

variable {call : Trace.Caller} {cx : Context} {p : Place}

mutual

theorem expr_keeps (hcall : CallerOk known call)
    (hresolved : Resolved known cx.locals) :
    ∀ (e : Expr) (w : World), Sound known w → Fits w.events w.store p cx.env →
      Mentioned known p e.mentions →
      Keeps known (FailureOk known) (Trace.expr call cx e) w (ValueOk known)
  | .literal value, w, h, _, _ => Keeps.pure h (Value.isData_ofLiteral value).valueOk
  | .cast inner _, w, h, hp, hm => expr_keeps hcall hresolved inner w h hp hm
  | .grouping inner, w, h, hp, hm => expr_keeps hcall hresolved inner w h hp hm
  | .unary op token operand, w, h, hp, hm => by
      refine (expr_keeps hcall hresolved operand w h hp hm).bind ?_
      intro w₁ value _ hsound _
      refine Keeps.orFail hsound ?_
      intro result hresult
      exact (Value.applyUnary_isData hresult).valueOk
  | .binary left op token right, w, h, hp, hm => by
      refine (expr_keeps hcall hresolved left w h hp hm.left).bind ?_
      intro w₁ _ hx₁ hsound₁ _
      refine (expr_keeps hcall hresolved right w₁ hsound₁ (hx₁.fits hp) hm.right).bind ?_
      intro w₂ _ _ hsound₂ _
      refine Keeps.keep_look (Keeps.orFail hsound₂ ?_)
      intro result hresult
      exact (Store.applyBinary_isData hresult).valueOk
  | .logical left op token right, w, h, hp, hm => by
      refine (expr_keeps hcall hresolved left w h hp hm.left).bind ?_
      intro w₁ value hx₁ hsound₁ hvalue
      cases Eval.decides op value with
      | true => exact Keeps.pure hsound₁ hvalue
      | false => exact expr_keeps hcall hresolved right w₁ hsound₁ (hx₁.fits hp) hm.right
  | .variable id name, w, h, hp, hm => by
      rcases hm _ List.mem_cons_self with ⟨r, hr, hmention, hplace⟩
      refine Keeps.note h ?_ ?_ ?_ ?_
      · exact hresolved.readsDeclared hr hmention hp (.inl hplace)
      · exact ⟨.refl _, hresolved.readsInPlace hr hmention hp (by rw [hplace]), h.reads⟩
      · intro region outer frame hsame
        cases hsame
      · intro w₁ _ hsound₁ _
        exact lookUp_keeps hsound₁
  | .this id keyword, w, h, _, _ => lookUp_keeps h
  | .super id keyword method, w, h, hp, hm => by
      refine Keeps.note h (hresolved.reaching h hp hm) h.reads ?_ ?_
      · intro region outer frame hsame
        cases hsame
      · intro w₁ hx₁ hsound₁ _
        exact superMethod_keeps hsound₁ (hx₁.fits hp)
  | .assign id name value, w, h, hp, hm => by
      refine (expr_keeps hcall hresolved value w h hp hm.left).bind ?_
      intro w₁ result _ hsound₁ hresult
      refine assign_keeps hsound₁ ?_ hresult
      rcases hm.right _ List.mem_cons_self with ⟨r, hr, hmention, -⟩
      have hname := hresolved.written r hr (by rw [hmention])
      rw [hmention] at hname
      exact hname
  | .call callee paren arguments, w, h, hp, hm => by
      refine Keeps.note h (hresolved.calling h hp hm.left) h.reads ?_ ?_
      · intro region outer frame hsame
        cases hsame
      intro w₀ hx₀ hsound₀ _
      have hp₀ := hx₀.fits hp
      refine Keeps.look_store ?_
      by_cases hsuper : ∃ id keyword method, callee = .super id keyword method
      · rcases hsuper with ⟨id, keyword, method, rfl⟩
        rw [Trace.expr, bind_assoc]
        refine Keeps.note hsound₀ (hresolved.reaching hsound₀ hp₀ hm.left) hsound₀.reads ?_ ?_
        · intro region outer frame hsame
          cases hsame
        intro w₁ hx₁ hsound₁ hstore
        rw [← hstore]
        have hp₁ := hx₁.fits hp₀
        refine superCall_keeps hcall hresolved hsound₁ hp₁ hm.left ?_
        intro w' hx hsound
        exact exprs_keeps hcall hresolved arguments w' hsound (hx.fits hp₁) hm.right
      · refine (expr_keeps hcall hresolved callee w₀ hsound₀ hp₀ hm.left).bind ?_
        intro w₁ target hx₁ hsound₁ htarget
        refine (exprs_keeps hcall hresolved arguments w₁ hsound₁ (hx₁.fits hp₀) hm.right).bind ?_
        intro w₂ values hx₂ hsound₂ hvalues
        refine Keeps.note hsound₂ (justified_called hsuper) hsound₂.reads ?_ ?_
        · intro region outer frame hsame
          cases hsame
        · intro w₃ hx₃ hsound₃ _
          exact applyValue_keeps hcall hsound₃ ((hx₂.trans hx₃).valueOk htarget) fun value hvalue =>
            hx₃.valueOk (hvalues value hvalue)
  | .get object name, w, h, hp, hm => by
      refine (expr_keeps hcall hresolved object w h hp hm).bind ?_
      intro w₁ target _ hsound₁ htarget
      exact getProperty_keeps hsound₁ htarget
  | .set object name value, w, h, hp, hm => by
      refine (expr_keeps hcall hresolved object w h hp hm.left).bind ?_
      intro w₁ target hx₁ hsound₁ _
      refine (fieldOwner_keeps hsound₁).bind ?_
      intro w₂ self hx₂ hsound₂ _
      refine (expr_keeps hcall hresolved value w₂ hsound₂ ((hx₁.trans hx₂).fits hp) hm.right).bind ?_
      intro w₃ result _ hsound₃ hresult
      refine (setField_keeps hsound₃ hresult).bind ?_
      intro w₄ _ _ hsound₄ hresult'
      exact Keeps.pure hsound₄ hresult'
  | .subscript bracket object index, w, h, hp, hm => by
      refine (expr_keeps hcall hresolved object w h hp hm.left).bind ?_
      intro w₁ _ hx₁ hsound₁ _
      refine (expr_keeps hcall hresolved index w₁ hsound₁ (hx₁.fits hp) hm.right).bind ?_
      intro w₂ _ _ hsound₂ _
      refine Keeps.keep_look (Keeps.orFail hsound₂ ?_)
      intro result hresult
      exact hsound₂.subscript hresult
  | .map _ items, w, h, hp, hm => by
      refine (entries_keeps hcall hresolved items [] w h hp hm (List.forall_mem_nil _)).bind ?_
      intro w₁ contents _ hsound₁ hcontents
      refine (newMap_keeps hsound₁ hcontents).bind ?_
      intro w₂ id _ hsound₂ _
      exact Keeps.pure hsound₂ trivial

theorem exprs_keeps (hcall : CallerOk known call)
    (hresolved : Resolved known cx.locals) :
    ∀ (list : List Expr) (w : World), Sound known w → Fits w.events w.store p cx.env →
      Mentioned known p (Expr.listMentions list) →
      Keeps known (FailureOk known) (Trace.exprs call cx list) w fun w' values =>
        ∀ value ∈ values, ValueOk known w' value
  | [], w, h, _, _ => Keeps.pure h (List.forall_mem_nil _)
  | e :: rest, w, h, hp, hm => by
      refine (expr_keeps hcall hresolved e w h hp hm.left).bind ?_
      intro w₁ value hx₁ hsound₁ hvalue
      refine (exprs_keeps hcall hresolved rest w₁ hsound₁ (hx₁.fits hp) hm.right).bind ?_
      intro w₂ values hx₂ hsound₂ hvalues
      exact Keeps.pure hsound₂ (List.forall_mem_cons.mpr ⟨hx₂.valueOk hvalue, hvalues⟩)

theorem entries_keeps (hcall : CallerOk known call)
    (hresolved : Resolved known cx.locals) :
    ∀ (items : List (Expr × Expr)) (contents : List (Value × Value)) (w : World),
      Sound known w → Fits w.events w.store p cx.env →
      Mentioned known p (Expr.entryMentions items) →
      (∀ entry ∈ contents, ValueOk known w entry.2) →
      Keeps known (FailureOk known) (Trace.entries call cx items contents) w fun w' result =>
        ∀ entry ∈ result, ValueOk known w' entry.2
  | [], _, w, h, _, _, hcontents => Keeps.pure h hcontents
  | (key, item) :: rest, contents, w, h, hp, hm, hcontents => by
      refine (expr_keeps hcall hresolved key w h hp hm.left.left).bind ?_
      intro w₁ keyValue hx₁ hsound₁ _
      refine (expr_keeps hcall hresolved item w₁ hsound₁ (hx₁.fits hp) hm.left.right).bind ?_
      intro w₂ itemValue hx₂ hsound₂ hitem
      refine entries_keeps hcall hresolved rest _ w₂ hsound₂ ((hx₁.trans hx₂).fits hp) hm.right ?_
      intro entry hentry
      rcases mem_putEntry hentry with hold | hnew
      · exact (hx₁.trans hx₂).valueOk (hcontents entry hold)
      · rw [hnew]
        exact hitem

end

end Expressions

end MiniPascal
