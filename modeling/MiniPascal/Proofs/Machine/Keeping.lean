import MiniPascal.Proofs.Machine.StoreUpdates

/-!
# Computations that keep worlds sound

The judgement `Keeps`: run in a sound world, a recorded computation leads to a sound world that
extends it.  It composes along `>>=`; the lemmas below give it for everything that is not a matter
of statements and calls.
-/

namespace MiniPascal

namespace Trace

theorem keep_bind (x : EStateM ε Store α) (f : α → EStateM ε Store β) :
    keep (x >>= f) = keep x >>= fun value => keep (f value) := by
  funext t
  show keep (EStateM.bind x f) t = EStateM.bind (keep x) _ t
  cases hrun : x t.store with
  | ok value s => simp only [keep, EStateM.bind, hrun]
  | error e s => simp only [keep, EStateM.bind, hrun]

end Trace

section Judgement

variable (known : Reference → Prop)

/-- A failure whose value a program may hold. -/
def FailureOk (w : World) : Failure → Prop
  | .error error => ∀ value, error.value = some value → ValueOk known w value
  | .starved => True

def SignalOk (w : World) : Signal → Prop
  | .break => True
  | .exit value => ValueOk known w value
  | .failed failure => FailureOk known w failure

/-- Run in `w`, the computation leads to a sound world that extends `w`; a result satisfies `Q`
there, and an error `F`. -/
def Keeps (F : World → ε → Prop) (x : Tracing ε α) (w : World) (Q : World → α → Prop) : Prop :=
  match x w.trace with
  | .ok value t => ∃ w', w'.trace = t ∧ w.Extends w' ∧ Sound known w' ∧ Q w' value
  | .error e t => ∃ w', w'.trace = t ∧ w.Extends w' ∧ Sound known w' ∧ F w' e

end Judgement

namespace Keeps

variable {known : Reference → Prop} {F : World → ε → Prop} {w : World}

theorem of_ok {x : Tracing ε α} {Q : World → α → Prop} {value : α} {v : World}
    (hrun : x w.trace = .ok value v.trace) (hx : w.Extends v) (hsound : Sound known v)
    (hQ : Q v value) : Keeps known F x w Q := by
  unfold Keeps
  rw [hrun]
  exact ⟨v, rfl, hx, hsound, hQ⟩

theorem congr {x y : Tracing ε α} {Q : World → α → Prop} (hrun : x w.trace = y w.trace)
    (hy : Keeps known F y w Q) : Keeps known F x w Q := by
  unfold Keeps at hy ⊢
  rw [hrun]
  exact hy

theorem pure {Q : World → α → Prop} {value : α} (h : Sound known w) (hQ : Q w value) :
    Keeps known F (Pure.pure value) w Q :=
  of_ok rfl (.refl w) h hQ

theorem of_run {x y : Tracing ε α} {Q : World → α → Prop} {v : World} (hx : w.Extends v)
    (hrun : x w.trace = y v.trace) (hy : Keeps known F y v Q) : Keeps known F x w Q := by
  unfold Keeps at hy ⊢
  rw [hrun]
  split at hy
  · rcases hy with ⟨u, htrace, hextends, hsound, hQ⟩
    exact ⟨u, htrace, hx.trans hextends, hsound, hQ⟩
  · rcases hy with ⟨u, htrace, hextends, hsound, hF⟩
    exact ⟨u, htrace, hx.trans hextends, hsound, hF⟩

theorem throw {Q : World → α → Prop} {e : ε} (h : Sound known w) (hF : F w e) :
    Keeps known F (MonadExcept.throw e : Tracing ε α) w Q :=
  ⟨w, rfl, .refl w, h, hF⟩

theorem bind {x : Tracing ε α} {f : α → Tracing ε β} {Q : World → α → Prop}
    {R : World → β → Prop} (hx : Keeps known F x w Q)
    (hf : ∀ w' value, w.Extends w' → Sound known w' → Q w' value →
      Keeps known F (f value) w' R) : Keeps known F (x >>= f) w R := by
  unfold Keeps at hx
  cases hrun : x w.trace with
  | error e t =>
      rw [hrun] at hx
      unfold Keeps
      rw [bind_of_error hrun]
      exact hx
  | ok value t =>
      rw [hrun] at hx
      rcases hx with ⟨w', rfl, hextends, hsound, hQ⟩
      exact of_run hextends (bind_of_ok hrun) (hf w' value hextends hsound hQ)

theorem imp {x : Tracing ε α} {Q R : World → α → Prop} (hx : Keeps known F x w Q)
    (h : ∀ w' value, w.Extends w' → Sound known w' → Q w' value → R w' value) :
    Keeps known F x w R := by
  unfold Keeps at hx ⊢
  cases hrun : x w.trace with
  | ok value t =>
      rw [hrun] at hx
      rcases hx with ⟨w', htrace, hextends, hsound, hQ⟩
      exact ⟨w', htrace, hextends, hsound, h w' value hextends hsound hQ⟩
  | error e t =>
      rw [hrun] at hx
      exact hx

theorem ended {x : Tracing ε α} {Q : World → α → Prop} (h : Keeps known F x w Q) :
    ∃ made, Sound known
      ⟨(Trace.ended (x w.trace)).store, (Trace.ended (x w.trace)).events, made⟩ := by
  unfold Keeps at h
  cases hrun : x w.trace with
  | ok value t =>
      rw [hrun] at h
      rcases h with ⟨w', rfl, -, hsound, -⟩
      exact ⟨w'.made, hsound⟩
  | error e t =>
      rw [hrun] at h
      rcases h with ⟨w', rfl, -, hsound, -⟩
      exact ⟨w'.made, hsound⟩

theorem discard {x : Tracing ε α} {Q : World → α → Prop} (hx : Keeps known F x w Q) :
    Keeps known F (Functor.discard x) w fun w' _ => ∃ value, Q w' value := by
  show Keeps known F (x >>= fun _ => Pure.pure ()) w _
  exact hx.bind fun w' value _ hsound hQ => Keeps.pure hsound ⟨value, hQ⟩

theorem keep {y : EStateM ε Store α} {Q : World → α → Prop} {value : α} {v : World}
    (hrun : y w.store = .ok value v.store) (hevents : v.events = w.events)
    (hx : w.Extends v) (hsound : Sound known v) (hQ : Q v value) :
    Keeps known F (Trace.keep y) w Q := by
  refine of_ok (v := v) ?_ hx hsound hQ
  simp only [Trace.keep, World.trace, hrun, hevents]

theorem look {y : EStateM ε Store α} {f : α → Tracing ε β} {Q : World → β → Prop} {value : α}
    (hrun : y w.store = .ok value w.store) (hf : Keeps known F (f value) w Q) :
    Keeps known F (Trace.keep y >>= f) w Q := by
  refine congr (bind_of_ok ?_) hf
  simp only [Trace.keep, World.trace, hrun]

theorem look_store {f : Store → Tracing ε β} {Q : World → β → Prop}
    (hf : Keeps known F (f w.store) w Q) : Keeps known F (Trace.keep get >>= f) w Q :=
  look rfl hf

theorem keep_bind {x : EStateM ε Store α} {f : α → EStateM ε Store β} {Q : World → β → Prop}
    (h : Keeps known F (Trace.keep x >>= fun value => Trace.keep (f value)) w Q) :
    Keeps known F (Trace.keep (x >>= f)) w Q := by
  rw [Trace.keep_bind]
  exact h

theorem keep_look {f : Store → EStateM ε Store β} {Q : World → β → Prop}
    (hf : Keeps known F (Trace.keep (f w.store)) w Q) :
    Keeps known F (Trace.keep (get >>= f)) w Q :=
  congr rfl hf

/-- A change of the store alone, after which another computation goes on. -/
theorem keep_of_run {y z : EStateM ε Store α} {Q : World → α → Prop} {v : World}
    (hrun : y w.store = z v.store) (hevents : v.events = w.events) (hx : w.Extends v)
    (hz : Keeps known F (Trace.keep z) v Q) : Keeps known F (Trace.keep y) w Q := by
  refine of_run hx ?_ hz
  simp only [Trace.keep, World.trace, hrun, hevents]

theorem note {event : Store → Event} {x : Tracing ε α} {Q : World → α → Prop}
    (h : Sound known w) (hevent : Justified known w.events (event w.store))
    (hreads : InOrder known w.store (event w.store :: w.events))
    (hother : ∀ region outer frame, event w.store ≠ .entered region outer frame)
    (hx : ∀ w', w.Extends w' → Sound known w' → w'.store = w.store →
      Keeps known F x w' Q) :
    Keeps known F (Trace.note event >>= fun _ => x) w Q := by
  have hnote : Keeps known F (Trace.note event) w fun w' _ => w'.store = w.store :=
    of_ok (v := w.note (event w.store)) rfl (w.extends_note _) (h.note hevent hreads hother) rfl
  exact hnote.bind fun w' _ hextends hsound hstore => hx w' hextends hsound hstore

theorem keep_error {y : EStateM ε Store α} {Q : World → α → Prop} {e : ε} (h : Sound known w)
    (hrun : y w.store = .error e w.store) (hF : F w e) : Keeps known F (Trace.keep y) w Q := by
  unfold Keeps
  simp only [Trace.keep, World.trace, hrun]
  exact ⟨w, rfl, .refl w, h, hF⟩

theorem failAt {Q : World → α → Prop} {token : Token} {fault : RuntimeFault}
    (h : Sound known w) : Keeps known (FailureOk known) (Trace.keep (Eval.failAt token fault)) w Q := by
  refine ⟨w, rfl, .refl w, h, ?_⟩
  intro value hvalue
  cases hvalue

theorem orFail {Q : World → α → Prop} {token : Token} {result : Except RuntimeFault α}
    (h : Sound known w) (hQ : ∀ value, result = .ok value → Q w value) :
    Keeps known (FailureOk known) (Trace.keep (Eval.orFail token result)) w Q := by
  cases result with
  | ok value => exact keep (v := w) rfl rfl (.refl w) h (hQ value rfl)
  | error fault => exact failAt h

end Keeps

/-! ## Data and contents -/

section Contents

variable {known : Reference → Prop} {w : World}

theorem Value.IsData.valueOk {value : Value} (h : value.IsData) : ValueOk known w value := by
  cases value with
  | function f => exact h.elim
  | «class» cls => exact h.elim
  | object self => exact h.elim
  | _ => trivial

variable (h : Sound known w)
include h

theorem Sound.contents : w.store.Contents (ValueOk known w) where
  sequences := h.sequences
  maps := h.maps

theorem Sound.subscript {target index value : Value}
    (hvalue : w.store.subscript target index = .ok value) : ValueOk known w value :=
  h.contents.subscript (fun _ => Value.IsData.valueOk) hvalue

theorem Sound.newMap {entries : List (Value × Value)}
    (hentries : ∀ entry ∈ entries, ValueOk known w entry.2) :
    Sound known (w.withStore (w.store.newMap entries).2) := by
  refine h.withStore rfl rfl (fun _ _ _ => .inl) (fun _ _ => .inl) ?_
  intro id entry hentry
  exact (w.store.mem_mapEntries_new hentry).imp_right (hentries entry)

theorem Sound.setField {self : Instance} {name : String} {value : Value}
    (hvalue : ValueOk known w value) :
    Sound known (w.withStore (w.store.setField self name value)) := by
  refine h.withStore rfl rfl ?_ (fun _ _ => .inl) (fun _ _ => .inl)
  intro other key found hfound
  rcases w.store.find?_setField self other name key value hfound with hold | rfl
  · exact .inl hold
  · exact .inr hvalue

theorem Sound.newInstance {cls : Class} :
    Sound known (w.withStore (w.store.newInstance cls).2) := by
  refine h.withStore rfl rfl ?_ (fun _ _ => .inl) (fun _ _ => .inl)
  intro other key found hfound
  simp only [Store.newInstance, Store.fieldsOf, Array.getD_eq_getD_getElem?,
    Array.getElem?_push] at hfound ⊢
  split at hfound
  · cases hfound
  · exact .inl hfound

theorem Sound.counted {s : Store} (hframes : s.frames = w.store.frames)
    (hoverloads : s.overloads = w.store.overloads) (hfields : s.fields = w.store.fields)
    (hsequences : s.sequences = w.store.sequences) (hmaps : s.maps = w.store.maps) :
    Sound known (w.withStore s) := by
  refine h.withStore hframes hoverloads ?_ ?_ ?_
  · intro self name value hvalue
    rw [Store.fieldsOf, hfields] at hvalue
    exact .inl hvalue
  · intro id value hvalue
    rw [Store.sequence, hsequences] at hvalue
    exact .inl hvalue
  · intro id entry hentry
    rw [Store.mapEntries, hmaps] at hentry
    exact .inl hentry

theorem Sound.entering (op : NativeOp) : Sound known (w.withStore (w.store.entering op)) := by
  rcases w.store.exists_entering op with ⟨calls, hcalls⟩
  rw [hcalls]
  exact h.counted rfl rfl rfl rfl rfl

theorem Sound.callNative {host : Host} {op : NativeOp} {arguments : List Value} {value : Value}
    {change : Store → Store} (harguments : ∀ value ∈ arguments, ValueOk known w value)
    (hrun : (w.store.entering op).callNative host op arguments = .ok (value, change)) :
    ValueOk known w value ∧ Sound known (w.withStore (change (w.store.entering op))) ∧
      w.Extends (w.withStore (change (w.store.entering op))) := by
  rcases h.contents.callNative (fun _ => Value.IsData.valueOk) harguments hrun with
    ⟨hvalue, hcontents, hframes, hoverloads, hfields⟩
  refine ⟨hvalue, h.withStore hframes hoverloads ?_ ?_ ?_,
    World.extends_withStore hframes hoverloads⟩
  · intro self name found hfound
    rw [Store.fieldsOf, hfields] at hfound
    exact .inl hfound
  · intro id found hfound
    exact .inr (hcontents.sequences id found hfound)
  · intro id entry hentry
    exact .inr (hcontents.maps id entry hentry)

end Contents

end MiniPascal
