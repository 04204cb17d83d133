import MiniPascal.Proofs.Machine.Holding

/-!
# How frames enclose each other

A layout says for each frame which environment it was made in.  In a linked store the environment of
every function that the store gives access to is a chain of this layout: from a frame to the frames
around it, each older than the one before, to the frame of top-level code.  Operations on the store
keep it linked, and a new frame adds to the layout only.
-/

namespace MiniPascal

/-! ## Functions at hand -/

/-- A class or one of its ancestors has the function as a method. -/
def Class.Offers (cls : Class) (f : Fn) : Prop :=
  ∃ ancestor ∈ cls.ancestry, ∃ name, ancestor.methods.find? name = some f

/-- A value gives access to a function. -/
def Value.Offers : Value → Fn → Prop
  | .function g, f => f = g
  | .class cls, f => cls.Offers f
  | .object self, f => self.cls.Offers f
  | _, _ => False

/-- A store gives access to a function: by a value that it holds, or as an overload. -/
inductive Store.Live (s : Store) (f : Fn) : Prop
  | held {value : Value} (hvalue : s.Holds value) (hf : value.Offers f) : s.Live f
  | overload {id : Nat} (hf : f ∈ s.overloads.getD id []) : s.Live f

/-! ## Layouts -/

/-- The environments that frames were made in, and the number of frames. -/
structure Layout where
  outer : FrameId → Env
  size : Nat

namespace Layout

/-- The same frames, and maybe more. -/
structure Extends (l l' : Layout) : Prop where
  size : l.size ≤ l'.size
  outer : ∀ frame, frame < l.size → l'.outer frame = l.outer frame

/-- The frames of an environment enclose each other: its first frame was made in the environment of
the others, which are older, and the last one is the frame of top-level code. -/
inductive Chain (l : Layout) : Env → Prop
  | globals (hglobal : Store.globalFrame < l.size) : l.Chain Store.globals
  | inside {frame : FrameId} {env : Env} (hframe : frame < l.size) (houter : l.outer frame = env)
      (hnewer : ∀ other ∈ env, other < frame) (henv : l.Chain env) : l.Chain (frame :: env)

def enter (l : Layout) (env : Env) : Layout where
  outer frame := if frame = l.size then env else l.outer frame
  size := l.size + 1

variable {l l' l'' : Layout} {env : Env}

theorem Extends.refl (l : Layout) : l.Extends l :=
  ⟨Nat.le_refl _, fun _ _ => rfl⟩

theorem Extends.trans (h : l.Extends l') (h' : l'.Extends l'') : l.Extends l'' :=
  ⟨Nat.le_trans h.size h'.size, fun frame hframe =>
    (h'.outer frame (Nat.lt_of_lt_of_le hframe h.size)).trans (h.outer frame hframe)⟩

theorem extends_enter (l : Layout) (env : Env) : l.Extends (l.enter env) :=
  ⟨Nat.le_succ _, fun _ hframe => if_neg (Nat.ne_of_lt hframe)⟩

namespace Chain

theorem mono (h : l.Chain env) (hl : l.Extends l') : l'.Chain env := by
  induction h with
  | globals hglobal => exact .globals (Nat.lt_of_lt_of_le hglobal hl.size)
  | inside hframe houter hnewer _ ih =>
      exact .inside (Nat.lt_of_lt_of_le hframe hl.size) ((hl.outer _ hframe).trans houter) hnewer ih

theorem lt (h : l.Chain env) : ∀ frame ∈ env, frame < l.size := by
  induction h with
  | globals hglobal =>
      intro frame hframe
      rw [List.mem_singleton.mp hframe]
      exact hglobal
  | inside hframe _ _ _ ih =>
      intro other hother
      rcases List.mem_cons.mp hother with rfl | hother
      · exact hframe
      · exact ih other hother

theorem enter (h : l.Chain env) : (l.enter env).Chain (l.size :: env) :=
  .inside (Nat.lt_succ_self _) (if_pos rfl) h.lt (h.mono (l.extends_enter env))

theorem getLast? (h : l.Chain env) : env.getLast? = some Store.globalFrame := by
  induction h with
  | globals _ => rfl
  | inside _ _ _ _ ih =>
      rw [List.getLast?_cons, ih]
      rfl

end Chain
end Layout

/-! ## Linked values -/

/-- The environments of the functions that a class offers are chains. -/
def Class.Linked (l : Layout) (cls : Class) : Prop :=
  ∀ f, cls.Offers f → l.Chain f.closure

/-- The environments of the functions that a value offers are chains. -/
def Value.Linked (l : Layout) (value : Value) : Prop :=
  ∀ f, value.Offers f → l.Chain f.closure

def Failure.Linked (l : Layout) : Failure → Prop
  | .error e => ∀ value ∈ e.value, value.Linked l
  | .starved => True

def Signal.Linked (l : Layout) : Signal → Prop
  | .break => True
  | .exit value => value.Linked l
  | .failed failure => failure.Linked l

/-- The environment of a function that is chosen for a call is a chain, and so are those of the
methods of the instance it is yet to be bound to. -/
def Store.Choice.Linked (l : Layout) : Store.Choice → Prop
  | .function f => l.Chain f.closure
  | .method f self => l.Chain f.closure ∧ self.cls.Linked l

/-- The frames of a store are those of the layout, and the environments of all functions that the
store gives access to are chains. -/
structure Store.Linked (l : Layout) (s : Store) : Prop where
  size : l.size = s.frames.size
  live : ∀ f, s.Live f → l.Chain f.closure

section Values

variable {l l' : Layout}

theorem Class.Linked.mono {cls : Class} (h : cls.Linked l) (hl : l.Extends l') : cls.Linked l' :=
  fun f hf => (h f hf).mono hl

theorem Value.Linked.mono {value : Value} (h : value.Linked l) (hl : l.Extends l') :
    value.Linked l' :=
  fun f hf => (h f hf).mono hl

theorem Value.linked_function {f : Fn} (h : l.Chain f.closure) : (Value.function f).Linked l := by
  rintro _ rfl
  exact h

theorem Value.IsData.linked {value : Value} (h : value.IsData) : value.Linked l := by
  intro f hf
  cases value with
  | function g => exact h.elim
  | «class» cls => exact h.elim
  | object self => exact h.elim
  | _ => exact hf.elim

theorem RuntimeError.linked_raisedValue {error : RuntimeError}
    (h : (Failure.error error).Linked l) : error.raisedValue.Linked l := by
  unfold raisedValue
  cases hvalue : error.value with
  | none => exact fun f hf => hf.elim
  | some value => exact h value hvalue

theorem Class.Linked.findMethod {cls : Class} {name : String} {method : Fn} (h : cls.Linked l)
    (hmethod : cls.findMethod name = some method) : l.Chain method.closure := by
  rcases findMethod_mem hmethod with ⟨ancestor, hancestor, hfind⟩
  exact h method ⟨ancestor, hancestor, name, hfind⟩

/-- A class of linked methods that extends a linked class. -/
theorem Class.Linked.mk {id : Nat} {name : String} {superclass : Option Class} {methods : Table Fn}
    (hsuper : ∀ parent ∈ superclass, parent.Linked l)
    (hmethods : ∀ key f, methods.find? key = some f → l.Chain f.closure) :
    (Class.mk id name superclass methods).Linked l := by
  rintro f ⟨ancestor, hancestor, key, hf⟩
  cases superclass with
  | none =>
      rw [List.mem_singleton.mp hancestor] at hf
      exact hmethods key f hf
  | some parent =>
      rcases List.mem_cons.mp hancestor with rfl | hancestor
      · exact hmethods key f hf
      · exact hsuper parent rfl f ⟨ancestor, hancestor, key, hf⟩

end Values

/-! ## Changes of the store -/

namespace Store.Linked

variable {l : Layout} {s s' : Store} (h : s.Linked l)
include h

theorem held {value : Value} (hvalue : s.Holds value) : value.Linked l :=
  fun f hf => h.live f (.held hvalue hf)

theorem overload {f overload : Fn} (hoverload : overload ∈ s.overloadsOf f) :
    l.Chain overload.closure :=
  h.live overload (.overload hoverload)

/-- A store with as many frames that holds linked values. -/
theorem change (hsize : s'.frames.size = s.frames.size) (hoverloads : s'.overloads = s.overloads)
    (hheld : ∀ value, s'.Holds value → value.Linked l) : s'.Linked l := by
  refine ⟨h.size.trans hsize.symm, fun f hf => ?_⟩
  cases hf with
  | held hvalue hf => exact hheld _ hvalue f hf
  | overload hf =>
      rw [hoverloads] at hf
      exact h.live f (.overload hf)

theorem functions (hframes : s'.frames = s.frames) (hfields : s'.fields = s.fields)
    (hsequences : s'.sequences = s.sequences) (hmaps : s'.maps = s.maps)
    (hoverloads : ∀ id, ∀ f ∈ s'.overloads.getD id [], f ∈ s.overloads.getD id [] ∨
      l.Chain f.closure) : s'.Linked l := by
  refine ⟨h.size.trans (by rw [hframes]), fun f hf => ?_⟩
  cases hf with
  | held hvalue hf => exact h.held (Holds.of_eq s hvalue hframes hfields hsequences hmaps) f hf
  | overload hf =>
      rcases hoverloads _ f hf with hold | hchain
      · exact h.live f (.overload hold)
      · exact hchain

theorem newFrame {env : Env} {bindings : Table Value}
    (hbindings : ∀ name value, bindings.find? name = some value → value.Linked l) :
    (s.newFrame bindings).2.Linked (l.enter env) := by
  refine ⟨?_, fun f hf => ?_⟩
  · simp [Layout.enter, Store.newFrame, h.size]
  · refine Layout.Chain.mono ?_ (l.extends_enter env)
    cases hf with
    | held hvalue hf =>
        rcases hvalue.of_newFrame with hold | ⟨name, hname⟩
        · exact h.held hold f hf
        · exact hbindings name _ hname f hf
    | overload hf => exact h.live f (.overload hf)

theorem bindIn {frame : FrameId} {name : String} {value : Value} (hvalue : value.Linked l) :
    (s.bindIn frame name value).Linked l := by
  refine h.change (by simp [Store.bindIn]) rfl fun found hfound => ?_
  rcases hfound.of_bindIn with hold | rfl
  · exact h.held hold
  · exact hvalue

theorem bindHere {env : Env} {name : String} {value : Value} (hvalue : value.Linked l) :
    (s.bindHere env name value).Linked l := by
  cases env with
  | nil => exact h
  | cons frame outer => exact h.bindIn hvalue

theorem newFn {decl : Function} {closure : Env} {isInitializer : Bool} :
    (s.newFn decl closure isInitializer).2.Linked l := by
  refine h.functions rfl rfl rfl rfl fun id f hf => ?_
  rw [getD_overloads_newFn] at hf
  exact .inl hf

theorem addOverload {f overload : Fn} (hoverload : l.Chain overload.closure) :
    (s.addOverload f overload).Linked l := by
  refine h.functions rfl rfl rfl rfl fun id g hg => ?_
  rcases s.mem_overloads_addOverload hg with hold | rfl
  · exact .inl hold
  · exact .inr hoverload

/-- A bound method has a frame of its own inside the environment of the method. -/
theorem bindMethod {f : Fn} {self : Instance} (hf : l.Chain f.closure)
    (hself : self.cls.Linked l) :
    (s.bindMethod f self).2.Linked (l.enter f.closure) ∧
      (l.enter f.closure).Chain (s.bindMethod f self).1.closure := by
  refine ⟨newFn (h.newFrame fun name value hvalue => ?_), ?_⟩
  · rw [Table.find?_insert] at hvalue
    split at hvalue <;> cases hvalue
    exact hself
  · have hclosure : (s.bindMethod f self).1.closure = l.size :: f.closure := by
      rw [h.size]
      rfl
    rw [hclosure]
    exact hf.enter

theorem newInstance {cls : Class} : (s.newInstance cls).2.Linked l :=
  h.change rfl rfl fun _ hvalue => h.held hvalue.of_newInstance

theorem setField {self : Instance} {name : String} {value : Value} (hvalue : value.Linked l) :
    (s.setField self name value).Linked l := by
  refine h.change rfl rfl fun found hfound => ?_
  rcases hfound.of_setField with hold | rfl
  · exact h.held hold
  · exact hvalue

theorem newMap {entries : List (Value × Value)}
    (hentries : ∀ entry ∈ entries, entry.1.Linked l ∧ entry.2.Linked l) :
    (s.newMap entries).2.Linked l := by
  refine h.change rfl rfl fun value hvalue => ?_
  rcases hvalue.of_newMap with hold | ⟨entry, hentry, rfl | rfl⟩
  · exact h.held hold
  · exact (hentries entry hentry).1
  · exact (hentries entry hentry).2

theorem counted (hframes : s'.frames = s.frames) (hoverloads : s'.overloads = s.overloads)
    (hfields : s'.fields = s.fields) (hsequences : s'.sequences = s.sequences)
    (hmaps : s'.maps = s.maps) : s'.Linked l :=
  h.functions hframes hfields hsequences hmaps fun id f hf => .inl (by rwa [hoverloads] at hf)

theorem entering (op : NativeOp) : (s.entering op).Linked l := by
  rcases s.exists_entering op with ⟨calls, hcalls⟩
  rw [hcalls]
  exact h.counted rfl rfl rfl rfl rfl

theorem callNative {host : Host} {op : NativeOp} {arguments : List Value} {value : Value}
    {change : Store → Store} (harguments : ∀ value ∈ arguments, value.Linked l)
    (hrun : (s.entering op).callNative host op arguments = .ok (value, change)) :
    value.Linked l ∧ (change (s.entering op)).Linked l := by
  rcases bindings_of_callNative hrun with ⟨hframes, hoverloads⟩
  rcases Holds.of_callNative (fun _ => h.held) (fun _ => Value.IsData.linked) harguments hrun with
    ⟨hvalue, hheld⟩
  exact ⟨hvalue, h.change (by rw [hframes]) hoverloads hheld⟩

theorem contents : s.Contents (Value.Linked l) :=
  ⟨fun _ _ hvalue => h.held (.inSequence hvalue), fun _ _ hentry => h.held (.asItem hentry)⟩

/-! ## What is found -/

theorem findOverload {f chosen : Fn} {types : List String} (hf : l.Chain f.closure)
    (hchosen : s.findOverload f types = some chosen) : l.Chain chosen.closure := by
  rcases findOverload_mem hchosen with rfl | hmem
  · exact hf
  · exact h.overload hmem

theorem chooseOverload {env : Env} {f : Fn} {types : List String} {choice : Choice}
    (hf : l.Chain f.closure) (hchoice : s.chooseOverload env f types = some choice) :
    choice.Linked l := by
  cases chooses_of_chooseOverload hchoice with
  | overload hchosen => exact h.findOverload hf hchosen
  | @method self _ _ hself hfirst hchosen =>
      have hcls : self.cls.Linked l := h.held (.of_findHere? hself)
      exact ⟨h.findOverload (hcls.findMethod hfirst) hchosen, hcls⟩
  | function hfirst hchosen =>
      exact h.findOverload (h.held (.inVariable hfirst) _ rfl) hchosen

theorem initializer? {cls : Class} {types : List String} {initializer : Fn}
    (hcls : cls.Linked l) (hinitializer : Eval.initializer? s cls types = some initializer) :
    l.Chain initializer.closure := by
  rcases Eval.exists_of_initializer? hinitializer with ⟨first, hfirst, rfl | hchosen⟩
  · exact hcls.findMethod hfirst
  · exact h.findOverload (hcls.findMethod hfirst) hchosen

end Store.Linked

/-! ## The first store -/

def Layout.start : Layout where
  outer _ := []
  size := 1

/-- There are no functions but the built-in ones at first. -/
theorem Store.linked_initial : Store.initial.Linked .start := by
  have hbuiltins (list : List Builtin) : ∀ {s : Store}, s.Linked .start →
      (list.foldl Store.bindBuiltin s).Linked .start := by
    induction list with
    | nil => exact fun h => h
    | cons op rest ih =>
        intro s h
        have hcounted : (s.newNative (.builtin op)).2.Linked .start :=
          h.counted rfl rfl rfl rfl rfl
        exact ih (hcounted.bindIn fun f hf => hf.elim)
  have hempty : Store.empty.Linked ⟨fun _ => [], 0⟩ := by
    refine ⟨rfl, fun f hf => ?_⟩
    cases hf with
    | held hvalue hf =>
        cases hvalue with
        | inVariable h => cases h
        | inField h => cases h
        | inSequence h => exact absurd h (by simp [Store.empty, Store.sequence])
        | asKey h => cases h
        | asItem h => cases h
    | overload hf => cases hf
  have hfirst : (Store.empty.newFrame ∅).2.Linked .start := by
    have hframe : (Store.empty.newFrame ∅).2.Linked (Layout.enter ⟨fun _ => [], 0⟩ []) :=
      hempty.newFrame fun _ _ hvalue => by cases hvalue
    refine ⟨hframe.size, fun f hf => (hframe.live f hf).mono ⟨Nat.le_refl _, fun frame _ => ?_⟩⟩
    simp [Layout.start, Layout.enter]
  exact hbuiltins Builtin.all hfirst

end MiniPascal
