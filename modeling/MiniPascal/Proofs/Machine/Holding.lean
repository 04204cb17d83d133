import MiniPascal.Proofs.Machine.Lookup

/-!
# The values that a store holds

A store holds the values of its variables and fields, the elements of its arrays, lists and stacks,
and the keys and items of its maps.  No operation makes it hold anything besides what it held before
and what the operation is given.
-/

namespace MiniPascal

/-- A value stands in a variable, a field or a container. -/
inductive Store.Holds (s : Store) : Value → Prop
  | inVariable {frame : FrameId} {name : String} {value : Value}
      (h : (s.frame frame).find? name = some value) : s.Holds value
  | inField {self : Instance} {name : String} {value : Value}
      (h : (s.fieldsOf self).find? name = some value) : s.Holds value
  | inSequence {id : Nat} {value : Value} (h : value ∈ s.sequence id) : s.Holds value
  | asKey {id : Nat} {entry : Value × Value} (h : entry ∈ s.mapEntries id) : s.Holds entry.1
  | asItem {id : Nat} {entry : Value × Value} (h : entry ∈ s.mapEntries id) : s.Holds entry.2

namespace Store

variable {s : Store}

/-! ## Native functions -/

theorem key_of_mem_putEntry {key value : Value} {entries : List (Value × Value)}
    {entry : Value × Value} (h : entry ∈ putEntry key value entries) :
    (∃ other ∈ entries, other.1 = entry.1) ∨ entry.1 = key := by
  induction entries with
  | nil =>
      rw [List.mem_singleton.mp h]
      exact .inr rfl
  | cons head rest ih =>
      unfold putEntry at h
      split at h
      · rcases List.mem_cons.mp h with rfl | h
        · exact .inl ⟨head, List.mem_cons_self, rfl⟩
        · exact .inl ⟨entry, List.mem_cons_of_mem _ h, rfl⟩
      · rcases List.mem_cons.mp h with rfl | h
        · exact .inl ⟨_, List.mem_cons_self, rfl⟩
        · rcases ih h with ⟨other, hother, hkey⟩ | hkey
          · exact .inl ⟨other, List.mem_cons_of_mem _ hother, hkey⟩
          · exact .inr hkey

/-- A change makes no class, and puts nothing but `key` into maps as a key. -/
structure Keyed (key : Value) (s s' : Store) : Prop where
  classCount : s'.classCount = s.classCount
  parents : s'.parents = s.parents
  keys : ∀ id, ∀ entry ∈ s'.mapEntries id,
    (∃ other ∈ s.mapEntries id, other.1 = entry.1) ∨ entry.1 = key

theorem Keyed.of_eq {key : Value} {s' : Store} (hcount : s'.classCount = s.classCount)
    (hparents : s'.parents = s.parents) (hmaps : s'.maps = s.maps) : Keyed key s s' := by
  refine ⟨hcount, hparents, fun id entry hentry => .inl ⟨entry, ?_, rfl⟩⟩
  rwa [mapEntries, hmaps] at hentry

theorem keyed_of_callContainer {op : ContainerOp} {target : Nat} {arguments : List Value}
    {value : Value} {change : Store → Store}
    (hrun : s.callContainer op target arguments = .ok (value, change)) :
    Keyed (arguments.headD .nil) s (change s) := by
  cases op with
  | arrayGet | listGet =>
      rcases exists_of_bind_ok hrun with ⟨element, -, hrest⟩
      cases hrest
      exact .of_eq rfl rfl rfl
  | arraySet =>
      rcases exists_of_bind_ok hrun with ⟨i, -, hrest⟩
      split at hrest <;> cases hrest
      exact .of_eq rfl rfl rfl
  | mapPut =>
      cases hrun
      refine ⟨rfl, rfl, fun id entry hentry => ?_⟩
      rcases s.mem_mapEntries_update hentry with hold | ⟨rfl, hnew⟩
      · exact .inl ⟨entry, hold, rfl⟩
      · exact key_of_mem_putEntry hnew
  | stackPop | stackPeek =>
      dsimp only [callContainer] at hrun
      split at hrun <;> cases hrun
      exact .of_eq rfl rfl rfl
  | listAdd | mapGet | mapContains | stackPush | stackIsEmpty =>
      cases hrun
      exact .of_eq rfl rfl rfl

theorem keyed_of_callBuiltin {host : Host} {op : Builtin} {arguments : List Value}
    {value key : Value} {change : Store → Store}
    (hrun : s.callBuiltin host op arguments = .ok (value, change)) : Keyed key s (change s) := by
  cases op with
  | ord | length | array =>
      rcases exists_of_bind_ok hrun with ⟨n, -, hrest⟩
      cases hrest
      exact .of_eq rfl rfl rfl
  | copy =>
      rcases exists_of_bind_ok hrun with ⟨start, -, hstart⟩
      rcases exists_of_bind_ok hstart with ⟨stop, -, hstop⟩
      rcases exists_of_bind_ok hstop with ⟨text, -, hrest⟩
      cases hrest
      exact .of_eq rfl rfl rfl
  | map =>
      cases hrun
      refine ⟨rfl, rfl, fun id entry hentry => ?_⟩
      rcases s.mem_mapEntries_new hentry with hold | hnew
      · exact .inl ⟨entry, hold, rfl⟩
      · cases hnew
  | assertTrue | assertEqual =>
      dsimp only [callBuiltin] at hrun
      split at hrun <;> cases hrun
      exact .of_eq rfl rfl rfl
  | writeLn | write =>
      rcases eq_of_write hrun with ⟨-, rfl⟩
      exact .of_eq rfl rfl rfl
  | str | clock | list | stack =>
      cases hrun
      exact .of_eq rfl rfl rfl

theorem keyed_of_callNative {host : Host} {op : NativeOp} {arguments : List Value} {value : Value}
    {change : Store → Store}
    (hrun : (s.entering op).callNative host op arguments = .ok (value, change)) :
    Keyed (arguments.headD .nil) s (change (s.entering op)) := by
  rcases s.exists_entering op with ⟨calls, hcalls⟩
  rw [hcalls] at hrun ⊢
  have hkeyed : Keyed (arguments.headD .nil) { s with hostCalls := calls }
      (change { s with hostCalls := calls }) := by
    cases op with
    | builtin op => exact keyed_of_callBuiltin hrun
    | member op target => exact keyed_of_callContainer hrun
  exact ⟨hkeyed.classCount, hkeyed.parents, hkeyed.keys⟩

/-! ## Operations -/

namespace Holds

variable {s' : Store} {value : Value}

/-- Frames may change, and nothing else that holds values. -/
theorem of_frames (s : Store) (h : s'.Holds value) (hfields : s'.fields = s.fields)
    (hsequences : s'.sequences = s.sequences) (hmaps : s'.maps = s.maps) :
    s.Holds value ∨ ∃ frame name, (s'.frame frame).find? name = some value := by
  cases h with
  | inVariable h => exact .inr ⟨_, _, h⟩
  | inField h =>
      rw [fieldsOf, hfields] at h
      exact .inl (.inField h)
  | inSequence h =>
      rw [sequence, hsequences] at h
      exact .inl (.inSequence h)
  | asKey h =>
      rw [mapEntries, hmaps] at h
      exact .inl (.asKey h)
  | asItem h =>
      rw [mapEntries, hmaps] at h
      exact .inl (.asItem h)

/-- Functions, counters, parents and output hold no values. -/
theorem of_eq (s : Store) (h : s'.Holds value) (hframes : s'.frames = s.frames)
    (hfields : s'.fields = s.fields) (hsequences : s'.sequences = s.sequences)
    (hmaps : s'.maps = s.maps) : s.Holds value := by
  rcases of_frames s h hfields hsequences hmaps with hold | ⟨frame, name, hvariable⟩
  · exact hold
  · rw [Store.frame, hframes] at hvariable
    exact .inVariable hvariable

theorem of_newFrame {bindings : Table Value} (h : (s.newFrame bindings).2.Holds value) :
    s.Holds value ∨ ∃ name, bindings.find? name = some value := by
  rcases of_frames s h rfl rfl rfl with hold | ⟨frame, name, hvariable⟩
  · exact .inl hold
  · rw [frame_newFrame] at hvariable
    split at hvariable
    · exact .inr ⟨name, hvariable⟩
    · exact .inl (.inVariable hvariable)

theorem of_bindIn {target : FrameId} {name : String} {bound : Value}
    (h : (s.bindIn target name bound).Holds value) : s.Holds value ∨ value = bound := by
  rcases of_frames s h rfl rfl rfl with hold | ⟨frame, key, hvariable⟩
  · exact .inl hold
  · rw [find?_bindIn] at hvariable
    split at hvariable
    · cases hvariable
      exact .inr rfl
    · exact .inl (.inVariable hvariable)

theorem of_setField {self : Instance} {name : String} {written : Value}
    (h : (s.setField self name written).Holds value) : s.Holds value ∨ value = written := by
  cases h with
  | inVariable h => exact .inl (.inVariable h)
  | @inField other key _ h =>
      rcases s.find?_setField self other name key written h with hold | hnew
      · exact .inl (.inField hold)
      · exact .inr hnew
  | inSequence h => exact .inl (.inSequence h)
  | asKey h => exact .inl (.asKey h)
  | asItem h => exact .inl (.asItem h)

theorem of_newInstance {cls : Class} (h : (s.newInstance cls).2.Holds value) : s.Holds value := by
  cases h with
  | inVariable h => exact .inVariable h
  | @inField other key _ h =>
      have hfield : (s.fieldsOf other).find? key = some value := by
        simp only [newInstance, fieldsOf, Array.getD_eq_getD_getElem?, Array.getElem?_push] at h ⊢
        split at h
        · cases h
        · exact h
      exact .inField hfield
  | inSequence h => exact .inSequence h
  | asKey h => exact .asKey h
  | asItem h => exact .asItem h

theorem of_newMap {entries : List (Value × Value)} (h : (s.newMap entries).2.Holds value) :
    s.Holds value ∨ ∃ entry ∈ entries, value = entry.1 ∨ value = entry.2 := by
  cases h with
  | inVariable h => exact .inl (.inVariable h)
  | inField h => exact .inl (.inField h)
  | inSequence h => exact .inl (.inSequence h)
  | @asKey _ entry h =>
      rcases s.mem_mapEntries_new h with hold | hnew
      · exact .inl (.asKey hold)
      · exact .inr ⟨entry, hnew, .inl rfl⟩
  | @asItem _ entry h =>
      rcases s.mem_mapEntries_new h with hold | hnew
      · exact .inl (.asItem hold)
      · exact .inr ⟨entry, hnew, .inr rfl⟩

/-- Native functions deal in data, in their arguments and in what is held. -/
theorem of_callNative {V : Value → Prop} {host : Host} {op : NativeOp} {arguments : List Value}
    {result : Value} {change : Store → Store} (hheld : ∀ value, s.Holds value → V value)
    (hdata : ∀ value : Value, value.IsData → V value) (harguments : ∀ value ∈ arguments, V value)
    (hrun : (s.entering op).callNative host op arguments = .ok (result, change)) :
    V result ∧ ∀ value, (change (s.entering op)).Holds value → V value := by
  have hcontents : s.Contents V :=
    ⟨fun _ _ h => hheld _ (.inSequence h), fun _ _ h => hheld _ (.asItem h)⟩
  rcases hcontents.callNative hdata harguments hrun with
    ⟨hresult, hchanged, hframes, -, hfields⟩
  refine ⟨hresult, fun value h => ?_⟩
  cases h with
  | inVariable h =>
      rw [Store.frame, hframes] at h
      exact hheld value (.inVariable h)
  | inField h =>
      rw [fieldsOf, hfields] at h
      exact hheld value (.inField h)
  | inSequence h => exact hchanged.sequences _ _ h
  | @asKey id entry h =>
      rcases (keyed_of_callNative hrun).keys id entry h with ⟨other, hother, hkey⟩ | hkey
      · rw [← hkey]
        exact hheld other.1 (.asKey hother)
      · rw [hkey]
        exact Contents.headD hdata harguments
  | asItem h => exact hchanged.maps _ _ h

/-! ## Looking up -/

theorem of_find? {env : Env} {name : String} (h : s.find? env name = some value) :
    s.Holds value := by
  rcases find?_mem h with ⟨frame, hframe⟩
  exact .inVariable hframe

theorem of_findHere? {env : Env} {name : String} (h : s.findHere? env name = some value) :
    s.Holds value := by
  rcases findHere?_mem h with ⟨frame, outer, -, hframe⟩
  exact .inVariable hframe

end Holds

end Store

end MiniPascal
