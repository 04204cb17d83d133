import MiniPascal.Proofs.Machine.Inheritance

/-!
# Expressions and declared classes

The judgement `Leads`: run in a store that was reached with some classes declared, a recorded
computation leads to a store that is reached with these classes and maybe more, and so are the
stores that it records.  It composes along `>>=`; every evaluation of an expression has it.
-/

namespace MiniPascal

/-! ## Changes of the store -/

namespace Store

/-- A choice of a method is for an instance of a declared class. -/
def Choice.Within (history : List Class) : Choice → Prop
  | .function _ => True
  | .method _ self => self.cls ∈ history

namespace Reached

variable {history : List Class} {s : Store} (h : s.Reached history)
include h

theorem counted {s' : Store} (hframes : s'.frames = s.frames) (hfields : s'.fields = s.fields)
    (hsequences : s'.sequences = s.sequences) (hmaps : s'.maps = s.maps)
    (hcount : s'.classCount = s.classCount) (hparents : s'.parents = s.parents) :
    s'.Reached history :=
  h.change hcount hparents fun _ hvalue =>
    h.within (Holds.of_eq s hvalue hframes hfields hsequences hmaps)

theorem newFrame {bindings : Table Value}
    (hbindings : ∀ name value, bindings.find? name = some value → value.Within history) :
    (s.newFrame bindings).2.Reached history := by
  refine h.change rfl rfl fun value hvalue => ?_
  rcases hvalue.of_newFrame with hold | ⟨name, hname⟩
  · exact h.within hold
  · exact hbindings name value hname

theorem bindIn {frame : FrameId} {name : String} {value : Value} (hvalue : value.Within history) :
    (s.bindIn frame name value).Reached history := by
  refine h.change rfl rfl fun found hfound => ?_
  rcases hfound.of_bindIn with hold | rfl
  · exact h.within hold
  · exact hvalue

theorem bindHere {env : Env} {name : String} {value : Value} (hvalue : value.Within history) :
    (s.bindHere env name value).Reached history := by
  cases env with
  | nil => exact h
  | cons frame outer => exact h.bindIn hvalue

theorem newFn {decl : Function} {closure : Env} {isInitializer : Bool} :
    (s.newFn decl closure isInitializer).2.Reached history :=
  h.counted rfl rfl rfl rfl rfl rfl

theorem addOverload {f overload : Fn} : (s.addOverload f overload).Reached history :=
  h.counted rfl rfl rfl rfl rfl rfl

theorem bindMethod {f : Fn} {self : Instance} (hself : self.cls ∈ history) :
    (s.bindMethod f self).2.Reached history := by
  refine newFn (h.newFrame fun name value hvalue => ?_)
  rw [Table.find?_insert] at hvalue
  split at hvalue <;> cases hvalue
  exact hself

theorem newInstance {cls : Class} : (s.newInstance cls).2.Reached history :=
  h.change rfl rfl fun _ hvalue => h.within hvalue.of_newInstance

theorem setField {self : Instance} {name : String} {value : Value}
    (hvalue : value.Within history) : (s.setField self name value).Reached history := by
  refine h.change rfl rfl fun found hfound => ?_
  rcases hfound.of_setField with hold | rfl
  · exact h.within hold
  · exact hvalue

theorem newMap {entries : List (Value × Value)}
    (hentries : ∀ entry ∈ entries, entry.1.Within history ∧ entry.2.Within history) :
    (s.newMap entries).2.Reached history := by
  refine h.change rfl rfl fun value hvalue => ?_
  rcases hvalue.of_newMap with hold | ⟨entry, hentry, rfl | rfl⟩
  · exact h.within hold
  · exact (hentries entry hentry).1
  · exact (hentries entry hentry).2

theorem entering (op : NativeOp) : (s.entering op).Reached history := by
  rcases s.exists_entering op with ⟨calls, hcalls⟩
  rw [hcalls]
  exact h.counted rfl rfl rfl rfl rfl rfl

theorem callNative {host : Host} {op : NativeOp} {arguments : List Value} {value : Value}
    {change : Store → Store} (harguments : ∀ value ∈ arguments, value.Within history)
    (hrun : (s.entering op).callNative host op arguments = .ok (value, change)) :
    value.Within history ∧ (change (s.entering op)).Reached history := by
  have hkeyed := keyed_of_callNative hrun
  rcases Holds.of_callNative (fun _ => h.within) (fun _ => Value.IsData.within) harguments hrun with
    ⟨hvalue, hheld⟩
  exact ⟨hvalue, h.change hkeyed.classCount hkeyed.parents hheld⟩

theorem contents : s.Contents (Value.Within history) :=
  ⟨fun _ _ hvalue => h.within (.inSequence hvalue), fun _ _ hentry => h.within (.asItem hentry)⟩

theorem chooseOverload {env : Env} {f : Fn} {types : List String} {choice : Choice}
    (hchoice : s.chooseOverload env f types = some choice) : choice.Within history := by
  cases chooses_of_chooseOverload hchoice with
  | overload => trivial
  | method hself => exact h.within (Holds.of_findHere? hself)
  | function => trivial

end Reached

end Store

/-! ## Records -/

/-- A store, and the values at hand that it need not hold yet. -/
structure Moment where
  store : Store
  atHand : List Value

def Event.moments : Event → List Moment
  | .entered _ _ _ => []
  | .read _ _ _ s => [⟨s, []⟩]
  | .reaching _ _ s => [⟨s, []⟩]
  | .calling _ _ s => [⟨s, []⟩]
  | .called _ _ before target arguments after => [⟨before, []⟩, ⟨after, target :: arguments⟩]

/-- At the moment these classes are declared, and the values at hand are of such classes. -/
structure Moment.Reached (history : List Class) (moment : Moment) : Prop where
  store : moment.store.Reached history
  atHand : ∀ value ∈ moment.atHand, value.Within history

/-- The store was reached with these classes declared, and each recorded moment with some. -/
structure Traced.Reached (history : List Class) (t : Traced) : Prop where
  store : t.store.Reached history
  moments : ∀ event ∈ t.events, ∀ moment ∈ event.moments, ∃ earlier, moment.Reached earlier

namespace Traced.Reached

variable {history : List Class} {t : Traced} (h : t.Reached history)
include h

theorem withStore {later : List Class} {s : Store} (hs : s.Reached later) :
    Traced.Reached later { t with store := s } :=
  ⟨hs, h.moments⟩

theorem note {event : Event}
    (hevent : ∀ moment ∈ event.moments, ∃ earlier, moment.Reached earlier) :
    Traced.Reached history { t with events := event :: t.events } :=
  ⟨h.store, List.forall_mem_cons.mpr ⟨hevent, h.moments⟩⟩

theorem moment : ∀ moment ∈ [⟨t.store, []⟩], ∃ earlier, Moment.Reached earlier moment :=
  List.forall_mem_singleton.mpr ⟨history, h.store, List.forall_mem_nil _⟩

end Traced.Reached

/-- The value of an error is of a declared class. -/
def Failure.Within (history : List Class) : Failure → Prop
  | .error e => ∀ value ∈ e.value, value.Within history
  | .starved => True

/-- The value of a signal is of a declared class. -/
def Signal.Within (history : List Class) : Signal → Prop
  | .break => True
  | .exit value => value.Within history
  | .failed failure => failure.Within history

theorem RuntimeError.within_raisedValue {history : List Class} {error : RuntimeError}
    (h : (Failure.error error).Within history) : error.raisedValue.Within history := by
  unfold raisedValue
  cases hvalue : error.value with
  | none => trivial
  | some value => exact h value hvalue

/-! ## The judgement -/

/-- The computation leads to a record that is reached with the declared classes and maybe more; a
result satisfies `Q` there, and an error `F`. -/
def Leads (F : List Class → ε → Prop) (x : Tracing ε α) (history : List Class) (t : Traced)
    (Q : List Class → α → Prop) : Prop :=
  match x t with
  | .ok value t' => ∃ later, history <:+ later ∧ t'.Reached later ∧ Q later value
  | .error e t' => ∃ later, history <:+ later ∧ t'.Reached later ∧ F later e

namespace Leads

variable {F : List Class → ε → Prop} {history : List Class} {t : Traced}

theorem of_ok {x : Tracing ε α} {Q : List Class → α → Prop} {value : α} {t' : Traced}
    (hrun : x t = .ok value t') (h : t'.Reached history) (hQ : Q history value) :
    Leads F x history t Q := by
  unfold Leads
  rw [hrun]
  exact ⟨history, List.suffix_refl _, h, hQ⟩

theorem pure {Q : List Class → α → Prop} {value : α} (h : t.Reached history) (hQ : Q history value) :
    Leads F (Pure.pure value) history t Q :=
  of_ok rfl h hQ

theorem throw {Q : List Class → α → Prop} {e : ε} (h : t.Reached history) (hF : F history e) :
    Leads F (MonadExcept.throw e : Tracing ε α) history t Q :=
  ⟨history, List.suffix_refl _, h, hF⟩

theorem of_run {x y : Tracing ε α} {Q : List Class → α → Prop} {later : List Class} {t' : Traced}
    (hlater : history <:+ later) (hrun : x t = y t') (hy : Leads F y later t' Q) :
    Leads F x history t Q := by
  unfold Leads at hy ⊢
  rw [hrun]
  split at hy
  · rcases hy with ⟨last, hlast, h, hQ⟩
    exact ⟨last, hlater.trans hlast, h, hQ⟩
  · rcases hy with ⟨last, hlast, h, hF⟩
    exact ⟨last, hlater.trans hlast, h, hF⟩

theorem bind {x : Tracing ε α} {f : α → Tracing ε β} {Q : List Class → α → Prop}
    {R : List Class → β → Prop} (hx : Leads F x history t Q)
    (hf : ∀ later t' value, history <:+ later → t'.Reached later → Q later value →
      Leads F (f value) later t' R) : Leads F (x >>= f) history t R := by
  unfold Leads at hx
  cases hrun : x t with
  | error e t' =>
      rw [hrun] at hx
      unfold Leads
      rw [bind_of_error hrun]
      exact hx
  | ok value t' =>
      rw [hrun] at hx
      rcases hx with ⟨later, hlater, h, hQ⟩
      exact of_run hlater (bind_of_ok hrun) (hf later t' value hlater h hQ)

/-- A computation without a result of interest, and one that follows it. -/
theorem discard {x : Tracing ε α} {Q : List Class → α → Prop} (hx : Leads F x history t Q) :
    Leads F (Functor.discard x) history t fun _ _ => True := by
  show Leads F (x >>= fun _ => Pure.pure ()) history t _
  exact hx.bind fun _ _ _ _ h _ => Leads.pure h trivial

theorem look {f : Store → Tracing ε β} {Q : List Class → β → Prop}
    (h : Leads F (f t.store) history t Q) : Leads F (Trace.keep get >>= f) history t Q :=
  h

theorem keep_bind {x : EStateM ε Store α} {f : α → EStateM ε Store β} {Q : List Class → β → Prop}
    (h : Leads F (Trace.keep x >>= fun value => Trace.keep (f value)) history t Q) :
    Leads F (Trace.keep (x >>= f)) history t Q := by
  rw [Trace.keep_bind]
  exact h

theorem keep_look {f : Store → EStateM ε Store β} {Q : List Class → β → Prop}
    (h : Leads F (Trace.keep (f t.store)) history t Q) :
    Leads F (Trace.keep (get >>= f)) history t Q :=
  h

theorem keep_of_run {y : EStateM ε Store α} {Q : List Class → α → Prop} {value : α}
    (hrun : y t.store = .ok value t.store) (h : t.Reached history) (hQ : Q history value) :
    Leads F (Trace.keep y) history t Q := by
  have hkeep : Trace.keep y t = .ok value t := by simp only [Trace.keep, hrun]
  exact of_ok hkeep h hQ

/-- A kept computation that goes on as another one does from a changed store. -/
theorem keep_of_apply {y z : EStateM ε Store α} {Q : List Class → α → Prop} {s : Store}
    (hrun : y t.store = z s) (hz : Leads F (Trace.keep z) history { t with store := s } Q) :
    Leads F (Trace.keep y) history t Q := by
  refine of_run (List.suffix_refl _) ?_ hz
  simp only [Trace.keep, hrun]

theorem keep_pure {Q : List Class → α → Prop} {value : α} (h : t.Reached history)
    (hQ : Q history value) : Leads F (Trace.keep (Pure.pure value)) history t Q :=
  keep_of_run rfl h hQ

theorem keep_throw {Q : List Class → α → Prop} {e : ε} (h : t.Reached history) (hF : F history e) :
    Leads F (Trace.keep (MonadExcept.throw e : EStateM ε Store α)) history t Q :=
  ⟨history, List.suffix_refl _, h, hF⟩

theorem keep_modify {change : Store → Store} (h : t.Reached history)
    (hchange : (change t.store).Reached history) :
    Leads F (Trace.keep (modify change)) history t fun _ _ => True :=
  of_ok rfl (h.withStore hchange) trivial

theorem keep_modifyGet {change : Store → α × Store} {Q : List Class → α → Prop}
    (h : t.Reached history) (hchange : (change t.store).2.Reached history)
    (hQ : Q history (change t.store).1) :
    Leads F (Trace.keep (modifyGet change)) history t Q :=
  of_ok rfl (h.withStore hchange) hQ

theorem note {event : Store → Event} {x : Tracing ε α} {Q : List Class → α → Prop}
    (h : t.Reached history)
    (hevent : ∀ moment ∈ (event t.store).moments, ∃ earlier, moment.Reached earlier)
    (hx : ∀ t', t'.Reached history → t'.store = t.store → Leads F x history t' Q) :
    Leads F (Trace.note event >>= fun _ => x) history t Q :=
  hx _ (h.note hevent) rfl

end Leads

namespace Trace

variable {history : List Class} {t : Traced}

abbrev EvalLeads (x : Tracing Failure α) (history : List Class) (t : Traced)
    (Q : List Class → α → Prop) : Prop :=
  Leads Failure.Within x history t Q

theorem failAt_leads {token : Token} {fault : RuntimeFault} {Q : List Class → α → Prop}
    (h : t.Reached history) : EvalLeads (keep (Eval.failAt token fault)) history t Q := by
  refine .keep_throw h fun value hvalue => ?_
  cases hvalue

theorem orFail_leads {token : Token} {result : Except RuntimeFault α} {Q : List Class → α → Prop}
    (h : t.Reached history) (hQ : ∀ value, result = .ok value → Q history value) :
    EvalLeads (keep (Eval.orFail token result)) history t Q := by
  cases result with
  | ok value => exact .keep_pure h (hQ value rfl)
  | error fault => exact failAt_leads h

theorem child_leads {env : Env} {bindings : Table Value} (h : t.Reached history)
    (hbindings : ∀ name value, bindings.find? name = some value → value.Within history) :
    EvalLeads (keep (Eval.child env bindings)) history t fun _ _ => True :=
  .of_ok rfl (h.withStore (h.store.newFrame hbindings)) trivial

theorem enter_leads {region : Region} {env : Env} {bindings : Table Value} (h : t.Reached history)
    (hbindings : ∀ name value, bindings.find? name = some value → value.Within history) :
    EvalLeads (enter region env bindings) history t fun _ _ => True :=
  .note h (List.forall_mem_nil _) fun _ h' _ => child_leads h' hbindings

theorem bindMethod_leads {method : Fn} {self : Instance} (h : t.Reached history)
    (hself : self.cls ∈ history) :
    EvalLeads (bindMethod method self) history t fun _ _ => True :=
  .note h (List.forall_mem_nil _) fun _ h' _ =>
    .keep_modifyGet h' (h'.store.bindMethod hself) trivial

theorem define_leads {env : Env} {name : Token} {value : Value} (h : t.Reached history)
    (hvalue : value.Within history) :
    EvalLeads (keep (Eval.define env name value)) history t fun _ _ => True := by
  refine .keep_look ?_
  cases t.store.definition env name.lexeme value with
  | fresh => exact .keep_modify h (h.store.bindHere hvalue)
  | overload existing added => exact .keep_modify h h.store.addOverload
  | refused => exact failAt_leads h

/-! ## Names -/

theorem thisInstance?_leads {env : Env} (h : t.Reached history) :
    EvalLeads (keep (Eval.thisInstance? env)) history t fun later found =>
      ∀ self ∈ found, self.cls ∈ later := by
  rcases thisInstance?_run env t.store with ⟨found, hrun, hfound⟩
  refine .keep_of_run hrun h fun self hself => ?_
  exact h.store.within (.of_find? (hfound self hself))

theorem property?_leads {self : Instance} {name : String} (h : t.Reached history)
    (hself : self.cls ∈ history) :
    EvalLeads (property? self name) history t fun later found =>
      ∀ value ∈ found, value.Within later := by
  have hsome {value : Value} {later : List Class} (hvalue : value.Within later) :
      ∀ found ∈ some value, found.Within later := by
    intro found hfound
    cases hfound
    exact hvalue
  unfold property?
  split
  · exact .pure h (hsome trivial)
  · refine .look ?_
    split
    · next value hvalue => exact .pure h (hsome (h.store.within (.inField hvalue)))
    · split
      · exact (bindMethod_leads h hself).bind fun later t' bound _ h' _ => .pure h' (hsome trivial)
      · exact .pure h fun value hvalue => by cases hvalue

theorem readVariable_leads {cx : Context} {id : NodeId} {name : String} (h : t.Reached history) :
    EvalLeads (keep (Eval.readVariable cx id name)) history t fun later found =>
      ∀ value ∈ found, value.Within later := by
  rcases readVariable_run cx id name t.store with ⟨found, hrun, hfound⟩
  refine .keep_of_run hrun h fun value hvalue => ?_
  rcases hfound value hvalue with ⟨frame, hframe⟩
  exact h.store.within (.inVariable hframe)

theorem lookUp_leads {cx : Context} {id : NodeId} {name : Token} (h : t.Reached history) :
    EvalLeads (lookUp cx id name) history t Value.Within := by
  refine (readVariable_leads h).bind fun h₁ t₁ found _ ht₁ hfound => ?_
  cases found with
  | some value => exact .pure ht₁ (hfound value rfl)
  | none =>
      refine (thisInstance?_leads ht₁).bind fun h₂ t₂ self? _ ht₂ hself => ?_
      cases self? with
      | none => exact failAt_leads ht₂
      | some self =>
          refine (property?_leads ht₂ (hself self rfl)).bind fun h₃ t₃ property _ ht₃ hfound => ?_
          cases property with
          | some value => exact .pure ht₃ (hfound value rfl)
          | none => exact failAt_leads ht₃

theorem assign_leads {cx : Context} {id : NodeId} {name : Token} {value : Value}
    (h : t.Reached history) (hvalue : value.Within history) :
    EvalLeads (keep (Eval.assign cx id name value)) history t Value.Within := by
  have htarget : EvalLeads (keep (Eval.targetFrame? cx id name.lexeme)) history t
      fun later _ => value.Within later := by
    unfold Eval.targetFrame?
    split
    · exact .keep_pure h hvalue
    · exact .keep_look (.keep_pure h hvalue)
  refine .keep_bind (htarget.bind fun h₁ t₁ frame? _ ht₁ hvalue₁ => ?_)
  cases frame? with
  | some frame =>
      exact .of_ok rfl (ht₁.withStore (ht₁.store.bindIn hvalue₁)) hvalue₁
  | none =>
      refine .keep_bind ((thisInstance?_leads ht₁).bind fun h₂ t₂ self? hlater ht₂ _ => ?_)
      have hvalue₂ := hvalue₁.mono hlater
      cases self? with
      | some self => exact .of_ok rfl (ht₂.withStore (ht₂.store.setField hvalue₂)) hvalue₂
      | none => exact failAt_leads ht₂

theorem superMethod_leads {cx : Context} {id : NodeId} {keyword method : Token}
    (h : t.Reached history) :
    EvalLeads (superMethod cx id keyword method) history t Value.Within := by
  unfold superMethod
  cases cx.locals[id]? with
  | none => exact failAt_leads h
  | some distance =>
      refine .look ?_
      dsimp only
      split
      · split
        · next self hreceiver =>
            have hself : self.cls ∈ history := by
              cases distance with
              | zero => cases hreceiver
              | succ nearer => exact h.store.within (.of_findHere? hreceiver)
            split
            · exact (bindMethod_leads h hself).bind fun later t' bound _ h' _ => .pure h' trivial
            · exact failAt_leads h
        · exact failAt_leads h
      · exact failAt_leads h

/-! ## Members -/

theorem memberValue_leads {member : Member} (h : t.Reached history) :
    EvalLeads (keep (Eval.memberValue member)) history t Value.Within := by
  cases member with
  | length count => exact .keep_pure h trivial
  | method op target =>
      exact .of_ok rfl (h.withStore (h.store.counted rfl rfl rfl rfl rfl rfl)) trivial

theorem getProperty_leads {target : Value} {name : Token} (h : t.Reached history)
    (htarget : target.Within history) :
    EvalLeads (getProperty target name) history t Value.Within := by
  unfold getProperty
  split
  · refine (property?_leads h htarget).bind fun later t' property _ h' hproperty => ?_
    cases property with
    | some value => exact .pure h' (hproperty value rfl)
    | none => exact failAt_leads h'
  · refine .keep_look ?_
    split
    · exact memberValue_leads h
    · exact failAt_leads h
    · exact failAt_leads h

theorem fieldOwner_leads {target : Value} {name : Token} (h : t.Reached history) :
    EvalLeads (keep (Eval.fieldOwner target name)) history t fun _ _ => True := by
  unfold Eval.fieldOwner
  split
  · exact .keep_pure h trivial
  · split
    · exact failAt_leads h
    · exact failAt_leads h

/-! ## Calls -/

theorem checkArity_leads {paren : Token} {expected got : Nat} (h : t.Reached history) :
    EvalLeads (keep (Eval.checkArity paren expected got)) history t fun _ _ => True := by
  unfold Eval.checkArity
  split
  · exact .keep_pure h trivial
  · exact failAt_leads h

theorem callNative_leads {host : Host} {op : NativeOp} {paren : Token} {arguments : List Value}
    (h : t.Reached history) (harguments : ∀ value ∈ arguments, value.Within history) :
    EvalLeads (keep (Eval.callNative host op paren arguments)) history t Value.Within := by
  have happly := Eval.callNative_apply host op paren arguments t.store
  cases hrun : (t.store.entering op).callNative host op arguments with
  | error fault =>
      rw [hrun] at happly
      exact .keep_of_apply happly (failAt_leads (h.withStore (h.store.entering op)))
  | ok outcome =>
      rw [hrun] at happly
      rcases h.store.callNative harguments hrun with ⟨hvalue, hchange⟩
      exact .keep_of_apply happly (.keep_pure (h.withStore hchange) hvalue)

def CallerLeads (call : Caller) : Prop :=
  ∀ f arguments history t, t.Reached history → (∀ value ∈ arguments, value.Within history) →
    EvalLeads (call f arguments) history t Value.Within

section Calls

variable {call : Caller} (hcall : CallerLeads call)
include hcall

theorem instantiate_leads {cls : Class} {paren : Token} {arguments : List Value}
    (h : t.Reached history) (hcls : cls ∈ history)
    (harguments : ∀ value ∈ arguments, value.Within history) :
    EvalLeads (instantiate call cls paren arguments) history t Value.Within := by
  have hnew {history : List Class} {t : Traced} (h : t.Reached history) (hcls : cls ∈ history) :
      EvalLeads (keep (modifyGet fun s => s.newInstance cls)) history t
        fun later self => self.cls ∈ later :=
    .keep_modifyGet h h.store.newInstance hcls
  refine .look ?_
  split
  · refine (checkArity_leads h).bind fun h₁ t₁ _ hle ht₁ _ => ?_
    exact (hnew ht₁ (hle.subset hcls)).bind fun h₂ t₂ self _ ht₂ hself => .pure ht₂ hself
  · refine (checkArity_leads h).bind fun h₁ t₁ _ hle₁ ht₁ _ => ?_
    refine (hnew ht₁ (hle₁.subset hcls)).bind fun h₂ t₂ self hle₂ ht₂ hself => ?_
    refine (bindMethod_leads ht₂ hself).bind fun h₃ t₃ bound hle₃ ht₃ _ => ?_
    have harguments₃ : ∀ value ∈ arguments, value.Within h₃ := fun value hvalue =>
      (harguments value hvalue).mono ((hle₁.trans hle₂).trans hle₃)
    refine (hcall bound arguments h₃ t₃ ht₃ harguments₃).discard.bind fun h₄ t₄ _ hle₄ ht₄ _ => ?_
    exact .pure ht₄ (hle₄.subset (hle₃.subset hself))

theorem applyValue_leads {cx : Context} {callee : Value} {paren : Token} {arguments : List Value}
    (h : t.Reached history) (hcallee : callee.Within history)
    (harguments : ∀ value ∈ arguments, value.Within history) :
    EvalLeads (applyValue call cx callee paren arguments) history t Value.Within := by
  cases callee with
  | function f =>
      refine .look ?_
      split
      · exact failAt_leads h
      · next choice hchoice =>
          have hselected : EvalLeads (bindChoice choice) history t fun _ _ => True := by
            have hchosen := h.store.chooseOverload hchoice
            cases choice with
            | function f => exact .pure h trivial
            | method f self => exact bindMethod_leads h hchosen
          refine hselected.bind fun h₁ t₁ selected hle₁ ht₁ _ => ?_
          refine (checkArity_leads ht₁).bind fun h₂ t₂ _ hle₂ ht₂ _ => ?_
          exact hcall selected arguments h₂ t₂ ht₂ fun value hvalue =>
            (harguments value hvalue).mono (hle₁.trans hle₂)
  | native native =>
      refine .keep_bind ((checkArity_leads h).bind fun h₁ t₁ _ hle₁ ht₁ _ => ?_)
      exact callNative_leads ht₁ fun value hvalue => (harguments value hvalue).mono hle₁
  | «class» cls => exact instantiate_leads hcall h hcallee harguments
  | _ => exact failAt_leads h

end Calls

/-! ## Expressions -/

mutual

theorem expr_leads {call : Caller} (hcall : CallerLeads call) (cx : Context) :
    ∀ (e : Expr) {history : List Class} {t : Traced}, t.Reached history →
      EvalLeads (expr call cx e) history t Value.Within
  | .literal value, _, _, h => by
      rw [expr]
      exact .pure h (Value.isData_ofLiteral value).within
  | .cast inner _, _, _, h => by
      rw [expr]
      exact expr_leads hcall cx inner h
  | .grouping inner, _, _, h => by
      rw [expr]
      exact expr_leads hcall cx inner h
  | .unary op token operand, _, _, h => by
      rw [expr]
      refine (expr_leads hcall cx operand h).bind fun _ _ value _ h₁ _ => ?_
      exact orFail_leads h₁ fun result hresult => (Value.applyUnary_isData hresult).within
  | .binary left op token right, _, _, h => by
      rw [expr]
      refine (expr_leads hcall cx left h).bind fun _ _ leftValue _ h₁ _ => ?_
      refine (expr_leads hcall cx right h₁).bind fun _ _ rightValue _ h₂ _ => .keep_look ?_
      exact orFail_leads h₂ fun result hresult => (Store.applyBinary_isData hresult).within
  | .logical left op _ right, _, _, h => by
      rw [expr]
      refine (expr_leads hcall cx left h).bind fun _ _ leftValue _ h₁ hleft => ?_
      split
      · exact .pure h₁ hleft
      · exact expr_leads hcall cx right h₁
  | .variable id name, _, _, h => by
      rw [expr]
      exact .note h h.moment fun _ h' _ => lookUp_leads h'
  | .this id keyword, _, _, h => by
      rw [expr]
      exact lookUp_leads h
  | .super id keyword method, _, _, h => by
      rw [expr]
      exact .note h h.moment fun _ h' _ => superMethod_leads h'
  | .assign id name value, _, _, h => by
      rw [expr]
      exact (expr_leads hcall cx value h).bind fun _ _ result _ h₁ hresult =>
        assign_leads h₁ hresult
  | .call callee paren arguments, _, _, h => by
      rw [expr]
      refine .note h h.moment fun _ h' _ => .look ?_
      refine (expr_leads hcall cx callee h').bind fun _ _ target _ h₁ htarget => ?_
      refine (exprs_leads hcall cx arguments h₁).bind fun later _ values hle h₂ hvalues => ?_
      have htarget₂ := htarget.mono hle
      refine .note h₂ ?_ fun _ h₃ _ => applyValue_leads hcall h₃ htarget₂ hvalues
      refine List.forall_mem_cons.mpr ⟨h'.moment _ List.mem_cons_self, ?_⟩
      refine List.forall_mem_singleton.mpr ⟨later, h₂.store, ?_⟩
      exact List.forall_mem_cons.mpr ⟨htarget₂, hvalues⟩
  | .get object name, _, _, h => by
      rw [expr]
      exact (expr_leads hcall cx object h).bind fun _ _ target _ h₁ htarget =>
        getProperty_leads h₁ htarget
  | .set object name value, _, _, h => by
      rw [expr]
      refine (expr_leads hcall cx object h).bind fun _ _ target _ h₁ _ => ?_
      refine (fieldOwner_leads h₁).bind fun _ _ self _ h₂ _ => ?_
      refine (expr_leads hcall cx value h₂).bind fun _ _ result _ h₃ hresult => ?_
      exact .of_ok rfl (h₃.withStore (h₃.store.setField hresult)) hresult
  | .subscript bracket object index, _, _, h => by
      rw [expr]
      refine (expr_leads hcall cx object h).bind fun _ _ target _ h₁ _ => ?_
      refine (expr_leads hcall cx index h₁).bind fun _ _ position _ h₂ _ => .keep_look ?_
      refine orFail_leads h₂ fun result hresult => ?_
      exact h₂.store.contents.subscript (fun _ => Value.IsData.within) hresult
  | .map _ items, _, _, h => by
      rw [expr]
      refine (entries_leads hcall cx items h (List.forall_mem_nil _)).bind
        fun _ _ contents _ h₁ hcontents => ?_
      exact .of_ok rfl (h₁.withStore (h₁.store.newMap hcontents)) trivial

theorem exprs_leads {call : Caller} (hcall : CallerLeads call) (cx : Context) :
    ∀ (list : List Expr) {history : List Class} {t : Traced}, t.Reached history →
      EvalLeads (exprs call cx list) history t fun later values =>
        ∀ value ∈ values, value.Within later
  | [], _, _, h => by
      rw [exprs]
      exact .pure h (List.forall_mem_nil _)
  | e :: rest, _, _, h => by
      rw [exprs]
      refine (expr_leads hcall cx e h).bind fun _ _ value _ h₁ hvalue => ?_
      refine (exprs_leads hcall cx rest h₁).bind fun _ _ values hle h₂ hvalues => ?_
      exact .pure h₂ (List.forall_mem_cons.mpr ⟨hvalue.mono hle, hvalues⟩)

theorem entries_leads {call : Caller} (hcall : CallerLeads call) (cx : Context) :
    ∀ (list : List (Expr × Expr)) {contents : List (Value × Value)} {history : List Class}
      {t : Traced}, t.Reached history →
      (∀ entry ∈ contents, entry.1.Within history ∧ entry.2.Within history) →
      EvalLeads (entries call cx list contents) history t fun later contents =>
        ∀ entry ∈ contents, entry.1.Within later ∧ entry.2.Within later
  | [], _, _, _, h, hcontents => by
      rw [entries]
      exact .pure h hcontents
  | (key, item) :: rest, contents, history, _, h, hcontents => by
      rw [entries]
      refine (expr_leads hcall cx key h).bind fun h₁ _ keyValue hle₁ ht₁ hkey => ?_
      refine (expr_leads hcall cx item ht₁).bind fun h₂ _ itemValue hle₂ ht₂ hitem => ?_
      refine entries_leads hcall cx rest ht₂ fun entry hentry => ⟨?_, ?_⟩
      · rcases Store.key_of_mem_putEntry hentry with ⟨other, hother, hsame⟩ | hsame
        · rw [← hsame]
          exact (hcontents other hother).1.mono (hle₁.trans hle₂)
        · rw [hsame]
          exact hkey.mono hle₂
      · rcases mem_putEntry hentry with hold | hsame
        · exact (hcontents entry hold).2.mono (hle₁.trans hle₂)
        · rw [hsame]
          exact hitem

end

end Trace

end MiniPascal
