import MiniPascal.Machine.Eval

/-!
# Where a chosen function comes from

A function is chosen for a call from the overloads of the callee, from the methods of the instance
that the callee is bound to, or from what its name stands for in a frame.  In each case it is a
function that stands there, or an overload of it.
-/

namespace MiniPascal
namespace Store

variable {s : Store} {f chosen : Fn} {types : List String}

theorem findOverload_mem (h : s.findOverload f types = some chosen) :
    chosen = f ∨ chosen ∈ s.overloadsOf f := by
  unfold findOverload at h
  split at h
  · exact .inl (Option.some.inj h).symm
  · exact .inr (List.mem_of_find?_eq_some h)

theorem exists_of_findMethodMatching {cls : Class} {name : String}
    (h : s.findMethodMatching cls name types = some chosen) :
    ∃ first, cls.findMethod name = some first ∧ s.findOverload first types = some chosen := by
  unfold findMethodMatching at h
  split at h
  · next first hfirst => exact ⟨first, hfirst, h⟩
  · cases h

theorem exists_of_findFunction {env : Env} {name : String}
    (h : s.findFunction env name types = some chosen) :
    ∃ frame first, (s.frame frame).find? name = some (.function first) ∧
      s.findOverload first types = some chosen := by
  induction env with
  | nil => cases h
  | cons frame outer ih =>
      unfold findFunction at h
      dsimp only at h
      split at h
      · next f hhere =>
          cases h
          split at hhere
          · next first hfirst => exact ⟨frame, first, hfirst, hhere⟩
          · cases hhere
      · exact ih h

theorem findHere?_of_boundInstance {self : Instance} (h : s.boundInstance f = some self) :
    s.findHere? f.closure "this" = some (.object self) := by
  unfold boundInstance at h
  split at h
  · next hfound =>
      cases h
      exact hfound
  · cases h

/-- A choice for a call of `f`. -/
inductive Chooses (s : Store) (f : Fn) (types : List String) : Choice → Prop where
  | overload {chosen : Fn} (h : s.findOverload f types = some chosen) :
      Chooses s f types (.function chosen)
  | method {self : Instance} {first chosen : Fn}
      (hself : s.findHere? f.closure "this" = some (.object self))
      (hfirst : self.cls.findMethod f.name = some first)
      (h : s.findOverload first types = some chosen) : Chooses s f types (.method chosen self)
  | function {frame : FrameId} {first chosen : Fn}
      (hfirst : (s.frame frame).find? f.name = some (.function first))
      (h : s.findOverload first types = some chosen) : Chooses s f types (.function chosen)

theorem chooses_of_chooseOverload {env : Env} {choice : Choice}
    (h : s.chooseOverload env f types = some choice) : s.Chooses f types choice := by
  rcases Option.or_eq_some_iff.mp h with hown | ⟨-, hother⟩
  · rcases Option.map_eq_some_iff.mp hown with ⟨chosen, hchosen, rfl⟩
    exact .overload hchosen
  rcases Option.or_eq_some_iff.mp hother with hmethod | ⟨-, haround⟩
  · unfold chooseMethod at hmethod
    split at hmethod
    · next self hself =>
        rcases Option.map_eq_some_iff.mp hmethod with ⟨chosen, hchosen, rfl⟩
        rcases exists_of_findMethodMatching hchosen with ⟨first, hfirst, hoverload⟩
        exact .method (findHere?_of_boundInstance hself) hfirst hoverload
    · cases hmethod
  · rcases Option.map_eq_some_iff.mp haround with ⟨chosen, hchosen, rfl⟩
    have hfound : ∃ env, s.findFunction env f.name types = some chosen := by
      rcases Option.or_eq_some_iff.mp hchosen with hnear | ⟨-, htop⟩
      · exact ⟨env, hnear⟩
      · exact ⟨globals, htop⟩
    rcases hfound with ⟨around, hfound⟩
    rcases exists_of_findFunction hfound with ⟨frame, first, hfirst, hoverload⟩
    exact .function hfirst hoverload

end Store

/-- An initializer is the first one of its class, whether it takes the arguments or not, or an
overload that takes them. -/
theorem Eval.exists_of_initializer? {s : Store} {cls : Class} {types : List String}
    {initializer : Fn} (h : initializer? s cls types = some initializer) :
    ∃ first, cls.findMethod initializerName = some first ∧
      (initializer = first ∨ s.findOverload first types = some initializer) := by
  rcases Option.map_eq_some_iff.mp h with ⟨first, hfirst, hsame⟩
  refine ⟨first, hfirst, ?_⟩
  cases hmatching : s.findMethodMatching cls initializerName types with
  | none =>
      rw [hmatching] at hsame
      exact .inl hsame.symm
  | some chosen =>
      rw [hmatching] at hsame
      cases hsame
      rcases Store.exists_of_findMethodMatching hmatching with ⟨other, hother, hchosen⟩
      rw [hfirst] at hother
      cases hother
      exact .inr hchosen

end MiniPascal
