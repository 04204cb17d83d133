import MiniPascal.Proofs.Machine.Contents
import MiniPascal.Proofs.Machine.World

/-!
# Sound worlds under changes of the store

Every operation on the store leads from a sound world to a sound one.
-/

namespace MiniPascal

/-! ## Steps between worlds -/

section Steps

variable {known : Reference → Prop} {w w' : World}

theorem World.Extends.overloadsOk {id : Nat} (h : w.Extends w')
    (hid : id < w.store.overloads.size)
    (hsame : w'.store.overloads.getD id [] = w.store.overloads.getD id [])
    (hok : OverloadsOk known w id) : OverloadsOk known w' id := by
  unfold OverloadsOk
  rw [h.made id hid, hsame]
  cases hmade : w.made id with
  | plain =>
      intro f hf
      exact h.plainFn (hok.of_plain hmade f hf)
  | method first =>
      intro f hf
      rcases hok.of_method hmade f hf with ⟨hlt, hfirst, hclosure, hknown⟩
      exact ⟨Nat.lt_of_lt_of_le hlt h.functions, (h.made f.id hlt).trans hfirst, hclosure,
        h.methodFn hknown⟩
  | apart => exact hok.of_apart hmade

/-- A world that extends a sound one is sound if what is new in it is. -/
theorem Sound.extend (h : Sound known w) (hx : w.Extends w')
    (hoverloads : ∀ id, id < w'.store.overloads.size →
      (id < w.store.overloads.size ∧
        w'.store.overloads.getD id [] = w.store.overloads.getD id []) ∨ OverloadsOk known w' id)
    (hframes : ∀ frame name value, (w'.store.frame frame).find? name = some value →
      (w.store.frame frame).find? name = some value ∨ ValueOk known w' value)
    (hfields : ∀ self name value, (w'.store.fieldsOf self).find? name = some value →
      (w.store.fieldsOf self).find? name = some value ∨ ValueOk known w' value)
    (hsequences : ∀ id, ∀ value ∈ w'.store.sequence id,
      value ∈ w.store.sequence id ∨ ValueOk known w' value)
    (hmaps : ∀ id, ∀ entry ∈ w'.store.mapEntries id,
      entry ∈ w.store.mapEntries id ∨ ValueOk known w' entry.2)
    (hentered : ∀ region outer frame, .entered region outer frame ∈ w'.events →
      .entered region outer frame ∈ w.events ∨
        frame < w'.store.frames.size ∧ FrameOk w'.store region outer frame)
    (hevents : AllJustified known w'.events) (hreads : InOrder known w.store w'.events) :
    Sound known w' := by
  constructor
  · intro id hid
    rcases hoverloads id hid with ⟨hlt, hsame⟩ | hok
    · exact hx.overloadsOk hlt hsame (h.overloads id hlt)
    · exact hok
  · intro frame name value hvalue
    rcases hframes frame name value hvalue with hold | hok
    · exact hx.valueOk (h.frames frame name value hold)
    · exact hok
  · intro self name value hvalue
    rcases hfields self name value hvalue with hold | hok
    · exact hx.valueOk (h.fields self name value hold)
    · exact hok
  · intro id value hvalue
    rcases hsequences id value hvalue with hold | hok
    · exact hx.valueOk (h.sequences id value hold)
    · exact hok
  · intro id entry hentry
    rcases hmaps id entry hentry with hold | hok
    · exact hx.valueOk (h.maps id entry hold)
    · exact hok
  · intro region outer frame hmem
    rcases hentered region outer frame hmem with hold | hok
    · rcases h.entered region outer frame hold with ⟨hlt, hframe⟩
      exact ⟨Nat.lt_of_lt_of_le hlt hx.frames, hx.frameOk hlt hframe⟩
    · exact hok
  · exact Nat.lt_of_lt_of_le h.globalFrame hx.frames
  · intro name hname
    exact (hx.fixed _ h.globalFrame name hname).trans (h.global name hname)
  · exact hevents
  · exact hreads.grow hx.bound

def World.withStore (w : World) (s : Store) : World :=
  { w with store := s }

theorem World.extends_withStore {s : Store} (hframes : s.frames = w.store.frames)
    (hoverloads : s.overloads = w.store.overloads) : w.Extends (w.withStore s) := by
  have hframe (frame : FrameId) : s.frame frame = w.store.frame frame := by
    rw [Store.frame, hframes]
    rfl
  refine ⟨List.suffix_refl _, Nat.le_of_eq (congrArg Array.size hframes.symm), ?_, ?_,
    Nat.le_of_eq (congrArg Array.size hoverloads.symm), fun _ _ => rfl, ?_⟩
  · intro frame name hbound
    rw [World.withStore, hframe]
    exact hbound
  · intro frame _ name _
    rw [World.withStore, hframe]
  · intro f
    simp only [World.withStore, Store.overloadsOf, hoverloads]
    exact List.prefix_refl _

/-- Only the contents of instances and containers change. -/
theorem Sound.withStore {s : Store} (h : Sound known w) (hframes : s.frames = w.store.frames)
    (hoverloads : s.overloads = w.store.overloads)
    (hfields : ∀ self name value, (s.fieldsOf self).find? name = some value →
      (w.store.fieldsOf self).find? name = some value ∨ ValueOk known w value)
    (hsequences : ∀ id, ∀ value ∈ s.sequence id,
      value ∈ w.store.sequence id ∨ ValueOk known w value)
    (hmaps : ∀ id, ∀ entry ∈ s.mapEntries id,
      entry ∈ w.store.mapEntries id ∨ ValueOk known w entry.2) :
    Sound known (w.withStore s) := by
  have hx := World.extends_withStore (w := w) hframes hoverloads
  refine h.extend hx ?_ ?_ ?_ ?_ ?_ ?_ h.events h.reads
  · intro id hid
    refine .inl ⟨?_, ?_⟩
    · exact Nat.lt_of_lt_of_eq hid (congrArg Array.size hoverloads)
    · simp only [World.withStore, hoverloads]
  · intro frame name value hvalue
    refine .inl ?_
    rw [← hvalue, Store.frame, Store.frame]
    simp only [World.withStore, hframes]
  · intro self name value hvalue
    exact (hfields self name value hvalue).imp_right hx.valueOk
  · intro id value hvalue
    exact (hsequences id value hvalue).imp_right hx.valueOk
  · intro id entry hentry
    exact (hmaps id entry hentry).imp_right hx.valueOk
  · intro region outer frame hmem
    exact .inl hmem

/-! ## Records -/

/-- The world with one more event in its record. -/
def World.note (w : World) (event : Event) : World :=
  { w with events := event :: w.events }

theorem World.extends_note (w : World) (event : Event) : w.Extends (w.note event) where
  events := List.suffix_cons event w.events
  frames := Nat.le_refl _
  bound _ _ h := h
  fixed _ _ _ _ := rfl
  functions := Nat.le_refl _
  made _ _ := rfl
  overloads _ := List.prefix_refl _

theorem Sound.note {event : Event} (h : Sound known w) (hevent : Justified known w.events event)
    (hreads : InOrder known w.store (event :: w.events))
    (hother : ∀ region outer frame, event ≠ .entered region outer frame) :
    Sound known (w.note event) := by
  refine h.extend (w.extends_note event) ?_ ?_ ?_ ?_ ?_ ?_ ⟨hevent, h.events⟩ hreads
  · intro id hid
    exact .inl ⟨hid, rfl⟩
  · intro frame name value hvalue
    exact .inl hvalue
  · intro self name value hvalue
    exact .inl hvalue
  · intro id value hvalue
    exact .inl hvalue
  · intro id entry hentry
    exact .inl hentry
  · intro region outer frame hmem
    rcases List.mem_cons.mp hmem with hsame | hmem
    · exact absurd hsame.symm (hother region outer frame)
    · exact .inl hmem

/-! ## Frames -/

def World.enter (w : World) (region : Region) (env : Env) (bindings : Table Value) : World where
  store := (w.store.newFrame bindings).2
  events := .entered region env w.store.frames.size :: w.events
  made := w.made

theorem World.extends_enter (w : World) (region : Region) (env : Env) (bindings : Table Value) :
    w.Extends (w.enter region env bindings) := by
  have hold (frame : FrameId) (hframe : frame < w.store.frames.size) :
      (w.enter region env bindings).store.frame frame = w.store.frame frame := by
    simp only [enter, Store.frame_newFrame, Nat.ne_of_lt hframe, if_false]
  refine ⟨List.suffix_cons _ _, ?_, ?_, ?_, Nat.le_refl _, fun _ _ => rfl,
    fun _ => List.prefix_refl _⟩
  · simp [enter, Store.newFrame]
  · intro frame name hbound
    by_cases hframe : frame < w.store.frames.size
    · rw [hold frame hframe]
      exact hbound
    · simp [Store.frame, Array.getD_eq_getD_getElem?,
        Array.getElem?_eq_none (Nat.le_of_not_lt hframe)] at hbound
      cases hbound
  · intro frame hframe name _
    rw [hold frame hframe]

theorem World.frame_enter (w : World) (region : Region) (env : Env) (bindings : Table Value) :
    (w.enter region env bindings).store.frame w.store.frames.size = bindings := by
  simp only [enter, Store.frame_newFrame, if_true]

theorem Sound.enter {region : Region} {env : Env} {bindings : Table Value} (h : Sound known w)
    (hvalues : ∀ name value, bindings.find? name = some value → ValueOk known w value)
    (hframe : FrameOk (w.enter region env bindings).store region env w.store.frames.size) :
    Sound known (w.enter region env bindings) := by
  have hx := w.extends_enter region env bindings
  refine h.extend hx ?_ ?_ ?_ ?_ ?_ ?_ ⟨trivial, h.events⟩ h.reads
  · intro id hid
    exact .inl ⟨hid, rfl⟩
  · intro frame name value hvalue
    by_cases hnew : frame = w.store.frames.size
    · rw [hnew, w.frame_enter] at hvalue
      exact .inr (hx.valueOk (hvalues name value hvalue))
    · simp only [World.enter, Store.frame_newFrame, hnew, if_false] at hvalue
      exact .inl hvalue
  · intro self name value hvalue
    exact .inl hvalue
  · intro id value hvalue
    exact .inl hvalue
  · intro id entry hentry
    exact .inl hentry
  · intro region' outer frame hmem
    rcases List.mem_cons.mp hmem with hsame | hmem
    · cases hsame
      refine .inr ⟨?_, hframe⟩
      simp [World.enter, Store.newFrame]
    · exact .inl hmem

/-- The environment of a new frame fits the place of its scope. -/
theorem Fits.enter {region : Region} {env : Env} {bindings : Table Value} {p : Place}
    {names : List String} (h : Fits w.events w.store p env)
    (hbound : ∀ name ∈ names, (bindings.find? name).isSome)
    (hnames : ∀ name ∈ names, Declarable name ∨ name ∈ region.reserved)
    (hover : region.isReceiver = true ∨ p.Open) :
    Fits (w.enter region env bindings).events (w.enter region env bindings).store
      (p.enter region names) (w.store.frames.size :: env) := by
  refine .inside List.mem_cons_self ?_ h.mem_lt ?_ hnames hover ((w.extends_enter _ _ _).fits h)
  · simp [World.enter, Store.newFrame]
  · intro name hname
    rw [w.frame_enter]
    exact hbound name hname

def World.bindIn (w : World) (frame : FrameId) (name : String) (value : Value) : World :=
  w.withStore (w.store.bindIn frame name value)

theorem World.extends_bindIn {frame : FrameId} {name : String} {value : Value}
    (hname : Declarable name) : w.Extends (w.bindIn frame name value) := by
  refine ⟨List.suffix_refl _, ?_, ?_, ?_, Nat.le_refl _, fun _ _ => rfl,
    fun _ => List.prefix_refl _⟩
  · simp [bindIn, withStore, Store.bindIn]
  · intro other key hbound
    simp only [bindIn, withStore, Store.find?_bindIn]
    split
    · rfl
    · exact hbound
  · intro other _ key hkey
    have hne : key ≠ name := by
      intro hsame
      exact hkey (hsame ▸ hname)
    simp only [bindIn, withStore, Store.find?_bindIn, hne, and_false, if_false]

theorem Sound.bindIn {frame : FrameId} {name : String} {value : Value} (h : Sound known w)
    (hname : Declarable name) (hvalue : ValueOk known (w.bindIn frame name value) value) :
    Sound known (w.bindIn frame name value) := by
  refine h.extend (World.extends_bindIn hname) ?_ ?_ ?_ ?_ ?_ ?_ h.events h.reads
  · intro id hid
    exact .inl ⟨hid, rfl⟩
  · intro other key found hfound
    simp only [World.bindIn, World.withStore, Store.find?_bindIn] at hfound
    split at hfound
    · cases hfound
      exact .inr hvalue
    · exact .inl hfound
  · intro self key found hfound
    exact .inl hfound
  · intro id found hfound
    exact .inl hfound
  · intro id entry hentry
    exact .inl hentry
  · intro region outer other hmem
    exact .inl hmem

/-! ## Functions -/

theorem Sound.functions (h : Sound known w) (hx : w.Extends w')
    (hframes : w'.store.frames = w.store.frames) (hfields : w'.store.fields = w.store.fields)
    (hsequences : w'.store.sequences = w.store.sequences) (hmaps : w'.store.maps = w.store.maps)
    (hevents : w'.events = w.events)
    (hoverloads : ∀ id, id < w'.store.overloads.size →
      (id < w.store.overloads.size ∧
        w'.store.overloads.getD id [] = w.store.overloads.getD id []) ∨ OverloadsOk known w' id) :
    Sound known w' := by
  refine h.extend hx hoverloads ?_ ?_ ?_ ?_ ?_ ?_ ?_
  · intro frame name value hvalue
    rw [Store.frame, hframes] at hvalue
    exact .inl hvalue
  · intro self name value hvalue
    rw [Store.fieldsOf, hfields] at hvalue
    exact .inl hvalue
  · intro id value hvalue
    rw [Store.sequence, hsequences] at hvalue
    exact .inl hvalue
  · intro id entry hentry
    rw [Store.mapEntries, hmaps] at hentry
    exact .inl hentry
  · intro region outer frame hmem
    rw [hevents] at hmem
    exact .inl hmem
  · rw [hevents]
    exact h.events
  · rw [hevents]
    exact h.reads

def World.newFn (w : World) (made : Made) (decl : Function) (closure : Env)
    (isInitializer : Bool) : World where
  store := (w.store.newFn decl closure isInitializer).2
  events := w.events
  made := fun id => if id = w.store.overloads.size then made else w.made id

section NewFn

variable {made : Made} {decl : Function} {closure : Env} {isInitializer : Bool}

theorem World.extends_newFn : w.Extends (w.newFn made decl closure isInitializer) := by
  refine ⟨List.suffix_refl _, Nat.le_refl _, fun _ _ h => h, fun _ _ _ _ => rfl, ?_, ?_, ?_⟩
  · simp [newFn, Store.newFn]
  · intro id hid
    simp only [newFn, Nat.ne_of_lt hid, if_false]
  · intro f
    rw [Store.overloadsOf, Store.overloadsOf]
    simp only [newFn, Store.getD_overloads_newFn]
    exact List.prefix_refl _

theorem Sound.newFn (h : Sound known w) :
    Sound known (w.newFn made decl closure isInitializer) := by
  refine h.functions World.extends_newFn rfl rfl rfl rfl rfl fun id hid => ?_
  by_cases hnew : id = w.store.overloads.size
  · refine .inr ?_
    have hnone : (w.newFn made decl closure isInitializer).store.overloads.getD id [] = [] := by
      simp only [World.newFn, Store.getD_overloads_newFn]
      simp [hnew]
    unfold OverloadsOk
    rw [hnone]
    split
    · exact List.forall_mem_nil _
    · exact List.forall_mem_nil _
    · rfl
  · refine .inl ⟨?_, ?_⟩
    · simp only [World.newFn, Store.newFn, Array.size_push] at hid
      omega
    · simp only [World.newFn, Store.getD_overloads_newFn]

theorem World.lt_newFn : w.store.overloads.size <
    (w.newFn made decl closure isInitializer).store.overloads.size := by
  simp [newFn, Store.newFn]

theorem World.made_newFn :
    (w.newFn made decl closure isInitializer).made w.store.overloads.size = made :=
  if_pos rfl

end NewFn

def World.addOverload (w : World) (f overload : Fn) : World :=
  w.withStore (w.store.addOverload f overload)

theorem World.extends_addOverload {f overload : Fn} : w.Extends (w.addOverload f overload) := by
  refine ⟨List.suffix_refl _, Nat.le_refl _, fun _ _ h => h, fun _ _ _ _ => rfl, ?_,
    fun _ _ => rfl, w.store.overloadsOf_isPrefix_addOverload f overload⟩
  simp [addOverload, withStore, Store.addOverload]

theorem World.overloads_addOverload {f overload : Fn} (hid : f.id < w.store.overloads.size) :
    (w.addOverload f overload).store.overloads.getD f.id [] =
      w.store.overloads.getD f.id [] ++ [overload] := by
  simp only [addOverload, withStore, Store.getD_overloads_addOverload, true_and, hid, if_true]

/-- A function that is no method gets one more such function as an overload. -/
theorem OverloadsOk.addPlain {f overload : Fn} (h : OverloadsOk known w f.id)
    (hid : f.id < w.store.overloads.size) (hmade : w.made f.id = .plain)
    (hoverload : PlainFn known w overload) : OverloadsOk known (w.addOverload f overload) f.id := by
  have hmade' : (w.addOverload f overload).made f.id = .plain := hmade
  unfold OverloadsOk
  rw [hmade', World.overloads_addOverload hid]
  refine List.forall_mem_append.mpr ⟨fun g hg => ?_, List.forall_mem_singleton.mpr ?_⟩
  · exact World.extends_addOverload.plainFn (h.of_plain hmade g hg)
  · exact World.extends_addOverload.plainFn hoverload

/-- The first method of a name gets one more method as an overload. -/
theorem OverloadsOk.addMethod {first overload : Fn} (h : OverloadsOk known w first.id)
    (hid : first.id < w.store.overloads.size) (hmade : w.made first.id = .method first)
    (hlt : overload.id < w.store.overloads.size) (hoverload : w.made overload.id = .method first)
    (hclosure : overload.closure = first.closure) (hmethod : MethodFn known w overload) :
    OverloadsOk known (w.addOverload first overload) first.id := by
  have hx : w.Extends (w.addOverload first overload) := World.extends_addOverload
  have hmade' : (w.addOverload first overload).made first.id = .method first := hmade
  unfold OverloadsOk
  rw [hmade', World.overloads_addOverload hid]
  refine List.forall_mem_append.mpr ⟨fun g hg => ?_, List.forall_mem_singleton.mpr ?_⟩
  · rcases h.of_method hmade g hg with ⟨hgid, hgmade, hgclosure, hgmethod⟩
    exact ⟨Nat.lt_of_lt_of_le hgid hx.functions, hgmade, hgclosure, hx.methodFn hgmethod⟩
  · exact ⟨Nat.lt_of_lt_of_le hlt hx.functions, hoverload, hclosure, hx.methodFn hmethod⟩

theorem Sound.addOverload {f overload : Fn} (h : Sound known w)
    (hok : OverloadsOk known (w.addOverload f overload) f.id) :
    Sound known (w.addOverload f overload) := by
  refine h.functions World.extends_addOverload rfl rfl rfl rfl rfl fun id hid => ?_
  by_cases hsame : id = f.id
  · rw [hsame]
    exact .inr hok
  · refine .inl ⟨?_, ?_⟩
    · simpa [World.addOverload, World.withStore, Store.addOverload] using hid
    · simp only [World.addOverload, World.withStore, Store.getD_overloads_addOverload, hsame,
        false_and, if_false]

end Steps

end MiniPascal
