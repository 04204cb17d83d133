import MiniPascal.Machine.Eval
import MiniPascal.Proofs.Sequence

/-!
# What a store holds

What each operation on the store does to frames, overloads and contents.  Operators and constants
yield data; native functions yield data, one of their arguments or what a container holds, and put
nothing else into containers.
-/

namespace MiniPascal

/-! ## Changes of the store -/

namespace Store

variable (s : Store)

theorem frame_newFrame (bindings : Table Value) (frame : FrameId) :
    (s.newFrame bindings).2.frame frame =
      if frame = s.frames.size then bindings else s.frame frame := by
  simp only [newFrame, Store.frame, Array.getD_eq_getD_getElem?, Array.getElem?_push]
  by_cases h : frame = s.frames.size
  · simp [h]
  · simp [h]

theorem frame_bindIn (target : FrameId) (name : String) (value : Value) (frame : FrameId) :
    (s.bindIn target name value).frame frame =
      if frame = target ∧ target < s.frames.size then (s.frame frame).insert name value
      else s.frame frame := by
  simp only [bindIn, Store.frame, Array.getD_eq_getD_getElem?, Array.getElem?_modify]
  by_cases h : frame = target
  · subst h
    by_cases hlt : frame < s.frames.size
    · simp [hlt]
    · simp [hlt]
  · simp [h, Ne.symm h]

theorem find?_bindIn (target : FrameId) (name : String) (value : Value) (frame : FrameId)
    (key : String) :
    ((s.bindIn target name value).frame frame).find? key =
      if (frame = target ∧ target < s.frames.size) ∧ key = name then some value
      else (s.frame frame).find? key := by
  rw [frame_bindIn]
  by_cases h : frame = target ∧ target < s.frames.size
  · simp [h]
  · simp [h]

theorem getD_overloads_newFn (decl : Function) (closure : Env) (isInitializer : Bool) (id : Nat) :
    (s.newFn decl closure isInitializer).2.overloads.getD id [] = s.overloads.getD id [] := by
  simp only [newFn, Array.getD_eq_getD_getElem?, Array.getElem?_push]
  by_cases h : id = s.overloads.size
  · simp [h]
  · simp [h]

theorem getD_overloads_addOverload (f overload : Fn) (id : Nat) :
    (s.addOverload f overload).overloads.getD id [] =
      if id = f.id ∧ f.id < s.overloads.size then s.overloads.getD id [] ++ [overload]
      else s.overloads.getD id [] := by
  simp only [addOverload, Array.getD_eq_getD_getElem?, Array.getElem?_modify]
  by_cases h : id = f.id
  · subst h
    by_cases hlt : f.id < s.overloads.size
    · simp [hlt]
    · simp [hlt]
  · simp [h, Ne.symm h]

theorem mem_overloads_addOverload {f overload g : Fn} {id : Nat}
    (h : g ∈ (s.addOverload f overload).overloads.getD id []) :
    g ∈ s.overloads.getD id [] ∨ g = overload := by
  rw [getD_overloads_addOverload] at h
  split at h
  · exact (List.mem_append.mp h).imp (fun hold => hold) List.mem_singleton.mp
  · exact .inl h

theorem overloadsOf_isPrefix_addOverload (f overload g : Fn) :
    s.overloadsOf g <+: (s.addOverload f overload).overloadsOf g := by
  rw [overloadsOf, overloadsOf, getD_overloads_addOverload]
  split
  · exact List.prefix_append _ _
  · exact List.prefix_refl _

theorem find?_setField (self other : Instance) (name key : String) (value : Value) :
    ((s.setField self name value).fieldsOf other).find? key = some found →
      (s.fieldsOf other).find? key = some found ∨ found = value := by
  simp only [setField, fieldsOf, Array.getD_eq_getD_getElem?, Array.getElem?_modify]
  by_cases h : self.id = other.id
  · by_cases hlt : other.id < s.fields.size
    · by_cases hkey : key = name
      · simp [h, hlt, hkey]
        intro hfound
        exact .inr hfound.symm
      · simp [h, hlt, hkey]
        intro hfound
        exact .inl hfound
    · simp only [h, if_true, Array.getElem?_eq_none (Nat.le_of_not_lt hlt)]
      exact .inl
  · simp only [h, if_false]
    exact .inl

theorem mem_sequence_update {id other : Nat} {change : Array Value → Array Value} {value : Value} :
    value ∈ (s.updateSequence id change).sequence other →
      value ∈ s.sequence other ∨ other = id ∧ value ∈ change (s.sequence id) := by
  simp only [updateSequence, sequence, Array.getD_eq_getD_getElem?, Array.getElem?_modify]
  by_cases h : id = other
  · subst h
    by_cases hlt : id < s.sequences.size
    · simp [hlt]
      exact .inr
    · simp [hlt]
  · simp only [h, if_false]
    exact .inl

theorem mem_sequence_new {elements : Array Value} {id : Nat} {value : Value} :
    value ∈ (s.newSequence elements).2.sequence id → value ∈ s.sequence id ∨ value ∈ elements := by
  simp only [newSequence, sequence, Array.getD_eq_getD_getElem?, Array.getElem?_push]
  by_cases h : id = s.sequences.size
  · simp [h]
  · simp only [h, if_false]
    exact .inl

theorem mem_mapEntries_update {id other : Nat}
    {change : List (Value × Value) → List (Value × Value)} {entry : Value × Value} :
    entry ∈ (s.updateMap id change).mapEntries other →
      entry ∈ s.mapEntries other ∨ other = id ∧ entry ∈ change (s.mapEntries id) := by
  simp only [updateMap, mapEntries, Array.getD_eq_getD_getElem?, Array.getElem?_modify]
  by_cases h : id = other
  · subst h
    by_cases hlt : id < s.maps.size
    · simp [hlt]
      exact .inr
    · simp [hlt]
  · simp only [h, if_false]
    exact .inl

theorem mem_mapEntries_new {entries : List (Value × Value)} {id : Nat} {entry : Value × Value} :
    entry ∈ (s.newMap entries).2.mapEntries id → entry ∈ s.mapEntries id ∨ entry ∈ entries := by
  simp only [newMap, mapEntries, Array.getD_eq_getD_getElem?, Array.getElem?_push]
  by_cases h : id = s.maps.size
  · simp [h]
  · simp only [h, if_false]
    exact .inl

theorem exists_entering (op : NativeOp) :
    ∃ calls, s.entering op = { s with hostCalls := calls } := by
  unfold entering
  split
  · exact ⟨_, rfl⟩
  · exact ⟨s.hostCalls, rfl⟩

@[simp] theorem frames_entering (op : NativeOp) : (s.entering op).frames = s.frames := by
  rcases s.exists_entering op with ⟨calls, hcalls⟩
  rw [hcalls]

@[simp] theorem overloads_entering (op : NativeOp) :
    (s.entering op).overloads = s.overloads := by
  rcases s.exists_entering op with ⟨calls, hcalls⟩
  rw [hcalls]

theorem eq_of_write {s : Store} {host : Host} {text : String} {value : Value}
    {change : Store → Store} (h : s.write host text = .ok (value, change)) :
    value = .nil ∧ change = (·.print text) := by
  unfold write at h
  split at h <;> cases h
  exact ⟨rfl, rfl⟩

end Store

theorem Eval.callNative_apply (host : Host) (op : NativeOp) (paren : Token)
    (arguments : List Value) (s : Store) :
    callNative host op paren arguments s =
      match (s.entering op).callNative host op arguments with
      | .ok (value, change) => .ok value (change (s.entering op))
      | .error fault => failAt paren fault (s.entering op) := by
  show (orFail paren ((s.entering op).callNative host op arguments) >>= _) (s.entering op) = _
  cases (s.entering op).callNative host op arguments with
  | ok result => rfl
  | error fault => rfl

theorem Eval.applyValue_native {call : Caller} {cx : Context} {native : Native} {paren : Token}
    {arguments : List Value} {s : Store} (harity : native.op.arity = arguments.length) :
    applyValue call cx (.native native) paren arguments s =
      callNative cx.host native.op paren arguments s := by
  rw [applyValue, harity, checkArity, if_pos rfl]
  rfl

/-! ## Data -/

/-- A value that is no function, class or instance. -/
def Value.IsData : Value → Prop
  | .function _ | .class _ | .object _ => False
  | _ => True

theorem Value.isData_ofLiteral (value : Literal) : (Value.ofLiteral value).IsData := by
  cases value <;> trivial

theorem Value.applyUnary_isData {op : UnaryOp} {operand value : Value}
    (h : Value.applyUnary op operand = .ok value) : value.IsData := by
  unfold Value.applyUnary at h
  split at h <;> cases h <;> trivial

theorem Value.arithmetic_isData {op : BinaryOp} {left right value : Value}
    (h : Value.arithmetic op left right = .ok value) : value.IsData := by
  unfold Value.arithmetic at h
  split at h
  · unfold Value.integerArithmetic at h
    split at h <;> first | (split at h <;> cases h <;> trivial) | (cases h <;> trivial)
  · unfold Value.integerArithmetic at h
    split at h <;> first | (split at h <;> cases h <;> trivial) | (cases h <;> trivial)
  · unfold Value.doubleArithmetic at h
    split at h <;> first | (split at h <;> cases h <;> trivial) | (cases h <;> trivial)
  · cases h

theorem Value.applyComparison_isData {op : BinaryOp} {left right value : Value}
    (h : Value.applyComparison op left right = .ok value) : value.IsData := by
  unfold Value.applyComparison at h
  cases horder : Value.order? left right with
  | error fault =>
      rw [horder] at h
      cases h
  | ok ordering =>
      rw [horder] at h
      cases ordering with
      | none =>
          cases h
          trivial
      | some ordering =>
          change (Value.satisfies op ordering >>= fun found =>
            Except.ok (Value.boolean found)) = _ at h
          cases hsat : Value.satisfies op ordering with
          | error fault =>
              rw [hsat] at h
              cases h
          | ok found =>
              rw [hsat] at h
              cases h
              trivial

theorem Store.applyBinary_isData {s : Store} {op : BinaryOp} {left right value : Value}
    (h : s.applyBinary op left right = .ok value) : value.IsData := by
  cases op with
  | equal | notEqual =>
      cases h
      trivial
  | add =>
      change s.add left right = _ at h
      unfold Store.add at h
      split at h <;> cases h <;> trivial
  | subtract | multiply | divide => exact Value.arithmetic_isData h
  | greater | greaterEqual | less | lessEqual => exact Value.applyComparison_isData h

/-! ## Containers -/

theorem mem_putEntry {key value : Value} {entries : List (Value × Value)} {entry : Value × Value}
    (h : entry ∈ putEntry key value entries) : entry ∈ entries ∨ entry.2 = value := by
  induction entries with
  | nil =>
      rw [List.mem_singleton.mp h]
      exact .inr rfl
  | cons head rest ih =>
      unfold putEntry at h
      split at h
      · rcases List.mem_cons.mp h with rfl | h
        · exact .inr rfl
        · exact .inl (List.mem_cons_of_mem _ h)
      · rcases List.mem_cons.mp h with rfl | h
        · exact .inl List.mem_cons_self
        · exact (ih h).imp_left (List.mem_cons_of_mem _)

theorem lookupEntry_mem {key value : Value} {entries : List (Value × Value)}
    (h : lookupEntry key entries = some value) : ∃ entry ∈ entries, entry.2 = value := by
  induction entries with
  | nil => cases h
  | cons head rest ih =>
      unfold lookupEntry at h
      split at h
      · cases h
        exact ⟨head, List.mem_cons_self, rfl⟩
      · rcases ih h with ⟨entry, hentry, hvalue⟩
        exact ⟨entry, List.mem_cons_of_mem _ hentry, hvalue⟩

/-- All that arrays, lists, stacks and maps hold satisfies `V`. -/
structure Store.Contents (V : Value → Prop) (s : Store) : Prop where
  sequences : ∀ id, ∀ value ∈ s.sequence id, V value
  maps : ∀ id, ∀ entry ∈ s.mapEntries id, V entry.2

namespace Store.Contents

variable {V : Value → Prop} {s : Store} (h : s.Contents V)
include h

theorem updateSequence {id : Nat} {change : Array Value → Array Value}
    (hchange : ∀ value ∈ change (s.sequence id), value ∈ s.sequence id ∨ V value) :
    (s.updateSequence id change).Contents V := by
  refine ⟨fun other value hvalue => ?_, h.maps⟩
  rcases s.mem_sequence_update hvalue with hold | ⟨rfl, hnew⟩
  · exact h.sequences other value hold
  · exact (hchange value hnew).elim (h.sequences other value) id

theorem newSequence {elements : Array Value} (helements : ∀ value ∈ elements, V value) :
    (s.newSequence elements).2.Contents V := by
  refine ⟨fun id value hvalue => ?_, h.maps⟩
  exact (s.mem_sequence_new hvalue).elim (h.sequences id value) (helements value)

theorem updateMap {id : Nat} {change : List (Value × Value) → List (Value × Value)}
    (hchange : ∀ entry ∈ change (s.mapEntries id), entry ∈ s.mapEntries id ∨ V entry.2) :
    (s.updateMap id change).Contents V := by
  refine ⟨h.sequences, fun other entry hentry => ?_⟩
  rcases s.mem_mapEntries_update hentry with hold | ⟨rfl, hnew⟩
  · exact h.maps other entry hold
  · exact (hchange entry hnew).elim (h.maps other entry) id

theorem newMap {entries : List (Value × Value)} (hentries : ∀ entry ∈ entries, V entry.2) :
    (s.newMap entries).2.Contents V := by
  refine ⟨h.sequences, fun id entry hentry => ?_⟩
  exact (s.mem_mapEntries_new hentry).elim (h.maps id entry) (hentries entry)

theorem elementAt {id : Nat} {index value : Value} (hvalue : s.elementAt id index = .ok value) :
    V value := by
  rcases exists_of_bind_ok hvalue with ⟨i, -, hrest⟩
  split at hrest
  · next found hget =>
      cases hrest
      exact h.sequences id _ (Array.mem_of_getElem? hget)
  · cases hrest

variable (hdata : ∀ value : Value, value.IsData → V value)
include hdata

theorem subscript {target index value : Value} (hvalue : s.subscript target index = .ok value) :
    V value := by
  unfold Store.subscript at hvalue
  split at hvalue
  · rcases exists_of_bind_ok hvalue with ⟨i, -, hrest⟩
    split at hrest <;> cases hrest
    exact hdata _ trivial
  · exact h.elementAt hvalue
  · exact h.elementAt hvalue
  · cases hvalue

/-- What a native function yields satisfies `V`, and so does what containers hold behind it; all
else stays as it is. -/
def Kept (V : Value → Prop) (s : Store) (value : Value) (s' : Store) : Prop :=
  V value ∧ s'.Contents V ∧ s'.frames = s.frames ∧ s'.overloads = s.overloads ∧
    s'.fields = s.fields

omit h in
/-- The arguments of a native function, or nil in place of missing ones. -/
theorem headD {arguments : List Value} (hall : ∀ value ∈ arguments, V value) :
    V (arguments.headD .nil) := by
  cases arguments with
  | nil => exact hdata _ trivial
  | cons value rest => exact hall value List.mem_cons_self

theorem callContainer {op : ContainerOp} {target : Nat} {arguments : List Value} {value : Value}
    {change : Store → Store} (harguments : ∀ value ∈ arguments, V value)
    (hrun : s.callContainer op target arguments = .ok (value, change)) :
    Kept V s value (change s) := by
  have hfirst := headD hdata harguments
  have hsecond : V (arguments.tail.headD .nil) :=
    headD hdata fun value hvalue => harguments value (List.mem_of_mem_tail hvalue)
  have hpush : (s.updateSequence target (·.push (arguments.headD .nil))).Contents V := by
    refine h.updateSequence fun found hfound => ?_
    rcases Array.mem_push.mp hfound with hold | rfl
    · exact .inl hold
    · exact .inr hfirst
  cases op with
  | arrayGet | listGet =>
      rcases exists_of_bind_ok hrun with ⟨element, helement, hrest⟩
      cases hrest
      exact ⟨h.elementAt helement, h, rfl, rfl, rfl⟩
  | arraySet =>
      rcases exists_of_bind_ok hrun with ⟨i, -, hrest⟩
      split at hrest <;> cases hrest
      refine ⟨hsecond, h.updateSequence fun found hfound => ?_, rfl, rfl, rfl⟩
      rcases Array.mem_or_eq_of_mem_setIfInBounds hfound with hold | rfl
      · exact .inl hold
      · exact .inr hsecond
  | listAdd =>
      cases hrun
      exact ⟨hdata _ trivial, hpush, rfl, rfl, rfl⟩
  | mapGet =>
      cases hrun
      refine ⟨?_, h, rfl, rfl, rfl⟩
      cases hlookup : lookupEntry (arguments.headD .nil) (s.mapEntries target) with
      | none => exact hdata _ trivial
      | some found =>
          rcases lookupEntry_mem hlookup with ⟨entry, hentry, rfl⟩
          exact h.maps target entry hentry
  | mapPut =>
      cases hrun
      refine ⟨hsecond, h.updateMap fun entry hentry => ?_, rfl, rfl, rfl⟩
      rcases mem_putEntry hentry with hold | hnew
      · exact .inl hold
      · exact .inr (hnew ▸ hsecond)
  | mapContains | stackIsEmpty =>
      cases hrun
      exact ⟨hdata _ trivial, h, rfl, rfl, rfl⟩
  | stackPush =>
      cases hrun
      exact ⟨hfirst, hpush, rfl, rfl, rfl⟩
  | stackPop =>
      dsimp only [Store.callContainer] at hrun
      cases hback : (s.sequence target).back? with
      | none =>
          rw [hback] at hrun
          cases hrun
      | some found =>
          rw [hback] at hrun
          cases hrun
          refine ⟨h.sequences target _ (Array.mem_of_back? hback),
            h.updateSequence fun element helement => ?_, rfl, rfl, rfl⟩
          have hlist := Array.mem_toList_iff.mpr helement
          rw [Array.toList_pop] at hlist
          exact .inl (Array.mem_toList_iff.mp (List.dropLast_subset _ hlist))
  | stackPeek =>
      dsimp only [Store.callContainer] at hrun
      cases hback : (s.sequence target).back? with
      | none =>
          rw [hback] at hrun
          cases hrun
      | some found =>
          rw [hback] at hrun
          cases hrun
          exact ⟨h.sequences target _ (Array.mem_of_back? hback), h, rfl, rfl, rfl⟩

theorem callBuiltin {host : Host} {op : Builtin} {arguments : List Value} {value : Value}
    {change : Store → Store} (hrun : s.callBuiltin host op arguments = .ok (value, change)) :
    Kept V s value (change s) := by
  -- every result is data; only containers and the output change
  have hnil : ∀ n, ∀ value ∈ Array.replicate n Value.nil, V value := by
    intro n value hvalue
    rw [Array.eq_of_mem_replicate hvalue]
    exact hdata _ trivial
  have hsame {value : Value} (hvalue : value.IsData) : Kept V s value s :=
    ⟨hdata value hvalue, h, rfl, rfl, rfl⟩
  cases op with
  | writeLn | write =>
      rcases eq_of_write hrun with ⟨rfl, rfl⟩
      exact ⟨hdata _ trivial, ⟨h.sequences, h.maps⟩, rfl, rfl, rfl⟩
  | str | clock =>
      cases hrun
      exact hsame trivial
  | ord | length =>
      rcases exists_of_bind_ok hrun with ⟨n, -, hrest⟩
      cases hrest
      exact hsame trivial
  | copy =>
      rcases exists_of_bind_ok hrun with ⟨start, -, hstart⟩
      rcases exists_of_bind_ok hstart with ⟨stop, -, hstop⟩
      rcases exists_of_bind_ok hstop with ⟨text, hcopy, hrest⟩
      cases hrest
      refine hsame ?_
      unfold Value.copy at hcopy
      split at hcopy
      · split at hcopy <;> cases hcopy
        trivial
      · cases hcopy
  | array =>
      rcases exists_of_bind_ok hrun with ⟨size, -, hrest⟩
      cases hrest
      exact ⟨hdata _ trivial, h.newSequence (hnil size), rfl, rfl, rfl⟩
  | list | stack =>
      cases hrun
      exact ⟨hdata _ trivial, h.newSequence (hnil 0), rfl, rfl, rfl⟩
  | map =>
      cases hrun
      exact ⟨hdata _ trivial, h.newMap (List.forall_mem_nil _), rfl, rfl, rfl⟩
  | assertTrue =>
      change (if (arguments.headD .nil).isTruthy then _ else _) = _ at hrun
      split at hrun
      · cases hrun
        exact hsame trivial
      · cases hrun
  | assertEqual =>
      change (if (arguments.headD .nil).same (arguments.tail.headD .nil) then _ else _) = _ at hrun
      split at hrun
      · cases hrun
        exact hsame trivial
      · cases hrun

theorem callNative {host : Host} {op : NativeOp} {arguments : List Value} {value : Value}
    {change : Store → Store} (harguments : ∀ value ∈ arguments, V value)
    (hrun : (s.entering op).callNative host op arguments = .ok (value, change)) :
    Kept V s value (change (s.entering op)) := by
  rcases s.exists_entering op with ⟨calls, hcalls⟩
  rw [hcalls] at hrun ⊢
  have hcalled : Contents V { s with hostCalls := calls } := ⟨h.sequences, h.maps⟩
  cases op with
  | builtin op => exact hcalled.callBuiltin hdata hrun
  | member op target => exact hcalled.callContainer hdata harguments hrun

end Store.Contents

theorem Store.bindings_of_callNative {s : Store} {host : Host} {op : NativeOp}
    {arguments : List Value} {value : Value} {change : Store → Store}
    (hrun : (s.entering op).callNative host op arguments = .ok (value, change)) :
    (change (s.entering op)).frames = s.frames ∧
      (change (s.entering op)).overloads = s.overloads := by
  have hcontents : s.Contents fun _ => True := ⟨fun _ _ _ => trivial, fun _ _ _ => trivial⟩
  rcases hcontents.callNative (fun _ _ => trivial) (fun _ _ => trivial) hrun with
    ⟨-, -, hframes, hoverloads, -⟩
  exact ⟨hframes, hoverloads⟩

end MiniPascal
