import MiniPascal.Machine.Exec
import MiniPascal.Proofs.Machine.Lookup

/-!
# The functions that a store holds

A store carries functions in its variables, fields and containers, as overloads, and as the methods
of classes and instances.  Whatever is found in a store that carries only functions with a property
carries only such functions, and the operations on the store keep it so.
-/

namespace MiniPascal

variable (P : Function → Prop)

/-- All methods of a class and its ancestors have the property. -/
def Class.Carries (cls : Class) : Prop :=
  ∀ ancestor ∈ cls.ancestry, ∀ name method, ancestor.methods.find? name = some method →
    P method.decl

/-- All functions that a value gives access to have the property. -/
def Value.Carries : Value → Prop
  | .function f => P f.decl
  | .class cls => cls.Carries P
  | .object self => self.cls.Carries P
  | _ => True

/-- All functions that a store gives access to have the property. -/
structure Store.Carries (s : Store) : Prop where
  frames : ∀ frame name value, (s.frame frame).find? name = some value → value.Carries P
  overloads : ∀ id, ∀ f ∈ s.overloads.getD id [], P f.decl
  fields : ∀ self name value, (s.fieldsOf self).find? name = some value → value.Carries P
  contents : s.Contents (Value.Carries P)

/-- A function that is chosen for a call has the property, and so have the methods of the instance
it is yet to be bound to. -/
def Store.Choice.Carries : Store.Choice → Prop
  | .function f => P f.decl
  | .method f self => P f.decl ∧ self.cls.Carries P

/-- The value of an error carries only functions with the property. -/
def Failure.Carries : Failure → Prop
  | .error e => ∀ value ∈ e.value, value.Carries P
  | .starved => True

/-- The value of a signal carries only functions with the property. -/
def Signal.Carries : Signal → Prop
  | .break => True
  | .exit value => value.Carries P
  | .failed failure => failure.Carries P

variable {P}

theorem Value.IsData.carries {value : Value} (h : value.IsData) : value.Carries P := by
  cases value with
  | function f => exact h.elim
  | «class» cls => exact h.elim
  | object self => exact h.elim
  | _ => trivial

theorem RuntimeError.carries_raisedValue {error : RuntimeError}
    (h : (Failure.error error).Carries P) : error.raisedValue.Carries P := by
  unfold raisedValue
  cases hvalue : error.value with
  | none => trivial
  | some value => exact h value hvalue

/-! ## Weaker properties -/

section Weaker

variable {Q : Function → Prop} (hPQ : ∀ decl, P decl → Q decl)
include hPQ

theorem Class.Carries.imp {cls : Class} (h : cls.Carries P) : cls.Carries Q :=
  fun ancestor hancestor name method hmethod =>
    hPQ _ (h ancestor hancestor name method hmethod)

theorem Value.Carries.imp {value : Value} (h : value.Carries P) : value.Carries Q := by
  cases value with
  | function f => exact hPQ _ h
  | «class» cls => exact Class.Carries.imp hPQ h
  | object self => exact Class.Carries.imp hPQ h
  | _ => trivial

theorem Store.Carries.imp {s : Store} (h : s.Carries P) : s.Carries Q where
  frames := fun frame name value hvalue => (h.frames frame name value hvalue).imp hPQ
  overloads := fun id f hf => hPQ _ (h.overloads id f hf)
  fields := fun self name value hvalue => (h.fields self name value hvalue).imp hPQ
  contents := ⟨fun id value hvalue => (h.contents.sequences id value hvalue).imp hPQ,
    fun id entry hentry => (h.contents.maps id entry hentry).imp hPQ⟩

end Weaker

/-! ## Classes -/

namespace Class.Carries

theorem findMethod {cls : Class} {name : String} {method : Fn} (h : cls.Carries P)
    (hmethod : cls.findMethod name = some method) : P method.decl := by
  rcases findMethod_mem hmethod with ⟨ancestor, hancestor, hfind⟩
  exact h ancestor hancestor name method hfind

theorem mk {id : Nat} {name : String} {superclass : Option Class} {methods : Table Fn}
    (hsuper : ∀ parent ∈ superclass, parent.Carries P)
    (hmethods : ∀ name method, methods.find? name = some method → P method.decl) :
    (Class.mk id name superclass methods).Carries P := by
  intro ancestor hancestor
  cases superclass with
  | none =>
      cases List.mem_singleton.mp hancestor
      exact hmethods
  | some parent =>
      rcases List.mem_cons.mp hancestor with rfl | hancestor
      · exact hmethods
      · exact hsuper parent rfl ancestor hancestor

end Class.Carries

/-! ## Changes of the store -/

namespace Store.Carries

variable {s : Store} (h : s.Carries P)
include h

theorem counted {s' : Store} (hframes : s'.frames = s.frames)
    (hoverloads : s'.overloads = s.overloads) (hfields : s'.fields = s.fields)
    (hcontents : s'.Contents (Value.Carries P)) : s'.Carries P := by
  refine ⟨?_, ?_, ?_, hcontents⟩
  · intro frame name value hvalue
    rw [Store.frame, hframes] at hvalue
    exact h.frames frame name value hvalue
  · rw [hoverloads]
    exact h.overloads
  · intro self name value hvalue
    rw [Store.fieldsOf, hfields] at hvalue
    exact h.fields self name value hvalue

theorem newFrame {bindings : Table Value}
    (hbindings : ∀ name value, bindings.find? name = some value → value.Carries P) :
    (s.newFrame bindings).2.Carries P := by
  refine ⟨?_, h.overloads, h.fields, ⟨h.contents.sequences, h.contents.maps⟩⟩
  intro frame name value hvalue
  rw [frame_newFrame] at hvalue
  split at hvalue
  · exact hbindings name value hvalue
  · exact h.frames frame name value hvalue

theorem bindIn {frame : FrameId} {name : String} {value : Value} (hvalue : value.Carries P) :
    (s.bindIn frame name value).Carries P := by
  refine ⟨?_, h.overloads, h.fields, ⟨h.contents.sequences, h.contents.maps⟩⟩
  intro other key found hfound
  rw [find?_bindIn] at hfound
  split at hfound
  · cases hfound
    exact hvalue
  · exact h.frames other key found hfound

theorem bindHere {env : Env} {name : String} {value : Value} (hvalue : value.Carries P) :
    (s.bindHere env name value).Carries P := by
  cases env with
  | nil => exact h
  | cons frame outer => exact h.bindIn hvalue

theorem newFn {decl : Function} {closure : Env} {isInitializer : Bool} :
    (s.newFn decl closure isInitializer).2.Carries P := by
  refine ⟨h.frames, ?_, h.fields, ⟨h.contents.sequences, h.contents.maps⟩⟩
  intro id
  rw [getD_overloads_newFn]
  exact h.overloads id

theorem addOverload {f overload : Fn} (hoverload : P overload.decl) :
    (s.addOverload f overload).Carries P := by
  refine ⟨h.frames, ?_, h.fields, ⟨h.contents.sequences, h.contents.maps⟩⟩
  intro id other hother
  rcases s.mem_overloads_addOverload hother with hold | rfl
  · exact h.overloads id other hold
  · exact hoverload

theorem bindMethod {f : Fn} {self : Instance} (hself : self.cls.Carries P) :
    (s.bindMethod f self).2.Carries P := by
  refine newFn (h.newFrame ?_)
  intro name value hvalue
  rw [Table.find?_insert] at hvalue
  split at hvalue
  · cases hvalue
    exact hself
  · cases hvalue

theorem newInstance {cls : Class} : (s.newInstance cls).2.Carries P := by
  refine ⟨h.frames, h.overloads, ?_, ⟨h.contents.sequences, h.contents.maps⟩⟩
  intro self name value hvalue
  simp only [Store.newInstance, Store.fieldsOf, Array.getD_eq_getD_getElem?,
    Array.getElem?_push] at hvalue
  split at hvalue
  · cases hvalue
  · refine h.fields self name value ?_
    rwa [Store.fieldsOf, Array.getD_eq_getD_getElem?]

theorem setField {self : Instance} {name : String} {value : Value} (hvalue : value.Carries P) :
    (s.setField self name value).Carries P := by
  refine ⟨h.frames, h.overloads, ?_, ⟨h.contents.sequences, h.contents.maps⟩⟩
  intro other key found hfound
  rcases s.find?_setField self other name key value hfound with hold | rfl
  · exact h.fields other key found hold
  · exact hvalue

theorem newMap {entries : List (Value × Value)}
    (hentries : ∀ entry ∈ entries, entry.2.Carries P) : (s.newMap entries).2.Carries P :=
  h.counted rfl rfl rfl (h.contents.newMap hentries)

theorem entering (op : NativeOp) : (s.entering op).Carries P := by
  rcases s.exists_entering op with ⟨calls, hcalls⟩
  rw [hcalls]
  exact h.counted rfl rfl rfl ⟨h.contents.sequences, h.contents.maps⟩

theorem callNative {host : Host} {op : NativeOp} {arguments : List Value} {value : Value}
    {change : Store → Store} (harguments : ∀ value ∈ arguments, value.Carries P)
    (hrun : (s.entering op).callNative host op arguments = .ok (value, change)) :
    value.Carries P ∧ (change (s.entering op)).Carries P := by
  rcases h.contents.callNative (fun _ => Value.IsData.carries) harguments hrun with
    ⟨hvalue, hcontents, hframes, hoverloads, hfields⟩
  exact ⟨hvalue, h.counted hframes hoverloads hfields hcontents⟩

/-! ## What is found -/

theorem find? {env : Env} {name : String} {value : Value}
    (hfind : s.find? env name = some value) : value.Carries P := by
  rcases find?_mem hfind with ⟨frame, hframe⟩
  exact h.frames frame name value hframe

theorem findHere? {env : Env} {name : String} {value : Value}
    (hfind : s.findHere? env name = some value) : value.Carries P := by
  rcases findHere?_mem hfind with ⟨frame, outer, rfl, hframe⟩
  exact h.frames frame name value hframe

theorem findOverload {f chosen : Fn} {types : List String} (hf : P f.decl)
    (hchosen : s.findOverload f types = some chosen) : P chosen.decl := by
  rcases findOverload_mem hchosen with rfl | hmem
  · exact hf
  · exact h.overloads f.id chosen hmem

theorem chooseOverload {env : Env} {f : Fn} {types : List String} {choice : Store.Choice}
    (hf : P f.decl) (hchoice : s.chooseOverload env f types = some choice) :
    choice.Carries P := by
  cases chooses_of_chooseOverload hchoice with
  | overload hchosen => exact h.findOverload hf hchosen
  | @method self _ _ hself hfirst hchosen =>
      have hcls : self.cls.Carries P := h.findHere? hself
      exact ⟨h.findOverload (hcls.findMethod hfirst) hchosen, hcls⟩
  | function hfirst hchosen => exact h.findOverload (h.frames _ _ _ hfirst) hchosen

theorem initializer? {cls : Class} {types : List String} {initializer : Fn}
    (hcls : cls.Carries P) (hinitializer : Eval.initializer? s cls types = some initializer) :
    P initializer.decl := by
  rcases Eval.exists_of_initializer? hinitializer with ⟨first, hfirst, rfl | hchosen⟩
  · exact hcls.findMethod hfirst
  · exact h.findOverload (hcls.findMethod hfirst) hchosen

end Store.Carries

/-! ## The first store -/

theorem Store.carries_empty : Store.empty.Carries P := by
  refine ⟨?_, ?_, ?_, ?_, ?_⟩
  · intro frame name value hvalue
    cases hvalue
  · intro id f hf
    cases hf
  · intro self name value hvalue
    cases hvalue
  · intro id value hvalue
    exact absurd hvalue (by simp [Store.empty, Store.sequence])
  · intro id entry hentry
    cases hentry

/-- There are no functions but the built-in ones at first. -/
theorem Store.carries_initial : Store.initial.Carries P := by
  have hbuiltins (list : List Builtin) : ∀ {s : Store}, s.Carries P →
      (list.foldl Store.bindBuiltin s).Carries P := by
    induction list with
    | nil => exact fun h => h
    | cons op rest ih =>
        intro s h
        have hcounted : (s.newNative (.builtin op)).2.Carries P :=
          h.counted rfl rfl rfl ⟨h.contents.sequences, h.contents.maps⟩
        exact ih (hcounted.bindIn trivial)
  exact hbuiltins Builtin.all (Store.carries_empty.newFrame fun _ _ hvalue => by cases hvalue)

end MiniPascal
