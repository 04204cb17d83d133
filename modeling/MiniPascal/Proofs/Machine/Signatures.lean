import Mathlib.Data.List.Forall2
import MiniPascal.Proofs.Machine.Lookup

/-!
# Functions that take arguments

What it means that a function takes arguments of given types, and that it is the first of several
ones to do so.  Each search of the evaluator looks through a list for the first function that takes
the arguments: a function with its overloads, those of a name along an environment, or those that
the nearest class declares.
-/

namespace MiniPascal

/-- A function takes arguments of given types: one for each parameter, whose type is `Any`, the
type of the argument, or above it. -/
def Fn.Takes (parents : Table String) (f : Fn) (types : List String) : Prop :=
  List.Forall₂ (fun (param : Param) type => Text.sameName param.typeName anyType ∨
    Text.sameName param.typeName type ∨ isSubtype parents param.typeName type) f.decl.params types

/-- The first function of a list that takes arguments of given types. -/
def Store.FirstTaking (s : Store) (fs : List Fn) (types : List String) (g : Fn) : Prop :=
  ∃ front back, fs = front ++ g :: back ∧ g.Takes s.parents types ∧
    ∀ f ∈ front, ¬f.Takes s.parents types

theorem Fn.accepts_iff {parents : Table String} {f : Fn} {types : List String} :
    f.accepts parents types = true ↔ f.Takes parents types := by
  unfold Fn.accepts Fn.Takes
  generalize f.decl.params = params
  induction params generalizing types with
  | nil => cases types <;> simp [paramsAccept]
  | cons param params ih =>
      cases types with
      | nil => simp [paramsAccept]
      | cons type types => simp [paramsAccept, Param.accepts, ih, or_assoc]

theorem Fn.Takes.arity {parents : Table String} {f : Fn} {types : List String}
    (h : f.Takes parents types) : f.arity = types.length :=
  h.length_eq

namespace Store

variable {s : Store} {f g : Fn} {types : List String}

theorem find?_accepts_iff {fs : List Fn} :
    fs.find? (·.accepts s.parents types) = some g ↔ s.FirstTaking fs types g := by
  simp only [List.find?_eq_some_iff_append, FirstTaking, Fn.accepts_iff, Bool.not_eq_true',
    ← Bool.not_eq_true]
  constructor
  · rintro ⟨htakes, front, back, hlist, hfront⟩
    exact ⟨front, back, hlist, htakes, hfront⟩
  · rintro ⟨front, back, hlist, htakes, hfront⟩
    exact ⟨htakes, front, back, hlist, hfront⟩

theorem FirstTaking.takes {fs : List Fn} (h : s.FirstTaking fs types g) :
    g.Takes s.parents types := by
  rcases h with ⟨-, -, -, htakes, -⟩
  exact htakes

/-- What stands behind a function that takes the arguments does not matter. -/
theorem FirstTaking.of_prefix {fs fs' : List Fn} (h : s.FirstTaking fs types g)
    (hfs : fs <+: fs') : s.FirstTaking fs' types g := by
  rcases hfs with ⟨rest, rfl⟩
  rcases h with ⟨front, back, rfl, htakes, hfront⟩
  exact ⟨front, back ++ rest, by rw [List.append_assoc, List.cons_append], htakes, hfront⟩

theorem find?_accepts_eq_none_iff {fs : List Fn} :
    fs.find? (·.accepts s.parents types) = none ↔ ∀ f ∈ fs, ¬f.Takes s.parents types := by
  simp only [List.find?_eq_none, Fn.accepts_iff]

/-! ## Overloads -/

theorem size_overloads_newFn (s : Store) (decl : Function) (closure : Env)
    (isInitializer : Bool) :
    (s.newFn decl closure isInitializer).2.overloads.size = s.overloads.size + 1 := by
  simp [newFn]

theorem overloadsOf_newFn (s : Store) (decl : Function) (closure : Env) (isInitializer : Bool)
    (f : Fn) : (s.newFn decl closure isInitializer).2.overloadsOf f = s.overloadsOf f :=
  s.getD_overloads_newFn decl closure isInitializer f.id

theorem overloadsOf_of_le {f : Fn} (h : s.overloads.size ≤ f.id) : s.overloadsOf f = [] := by
  simp [overloadsOf, h]

theorem overloadsOf_addOverload (h : f.id < s.overloads.size) (overload g : Fn) :
    (s.addOverload f overload).overloadsOf g =
      s.overloadsOf g ++ if g.id = f.id then [overload] else [] := by
  rw [overloadsOf, getD_overloads_addOverload, overloadsOf]
  by_cases hsame : g.id = f.id
  · rw [if_pos ⟨hsame, h⟩, if_pos hsame]
  · rw [if_neg fun hboth => hsame hboth.1, if_neg hsame, List.append_nil]

theorem findOverload_eq_find? (s : Store) (f : Fn) (types : List String) :
    s.findOverload f types = (f :: s.overloadsOf f).find? (·.accepts s.parents types) := by
  unfold findOverload
  rw [List.find?_cons]
  cases f.accepts s.parents types <;> rfl

theorem findOverload_eq_some_iff :
    s.findOverload f types = some g ↔ s.FirstTaking (f :: s.overloadsOf f) types g := by
  rw [findOverload_eq_find?, find?_accepts_iff]

theorem takes_of_findOverload (h : s.findOverload f types = some g) : g.Takes s.parents types :=
  (findOverload_eq_some_iff.mp h).takes

theorem findOverload_eq_none_iff :
    s.findOverload f types = none ↔ ∀ g ∈ f :: s.overloadsOf f, ¬g.Takes s.parents types := by
  rw [findOverload_eq_find?, find?_accepts_eq_none_iff]

/-! ## Functions along an environment -/

/-- The function that a name stands for in a frame, in front of its overloads. -/
def namedAt (s : Store) (frame : FrameId) (name : String) : List Fn :=
  match (s.frame frame).find? name with
  | some (.function f) => f :: s.overloadsOf f
  | _ => []

/-- The functions that a name stands for in the frames of an environment, from the innermost one
outward, each in front of its overloads. -/
def named (s : Store) (env : Env) (name : String) : List Fn :=
  env.flatMap fun frame => s.namedAt frame name

theorem findFunction_eq_find? (s : Store) (env : Env) (name : String) (types : List String) :
    s.findFunction env name types = (s.named env name).find? (·.accepts s.parents types) := by
  induction env with
  | nil => rfl
  | cons frame outer ih =>
      have hsearch (f : Fn) : (s.findOverload f types).or (s.findFunction outer name types) =
          ((f :: s.overloadsOf f) ++ s.named outer name).find? (·.accepts s.parents types) := by
        rw [List.find?_append, findOverload_eq_find?, ih]
      rw [named, List.flatMap_cons, ← named, namedAt, findFunction]
      cases (s.frame frame).find? name with
      | none => exact ih
      | some value =>
          cases value with
          | function f =>
              rw [← hsearch]
              dsimp only
              cases s.findOverload f types <;> rfl
          | _ => exact ih

end Store

/-! ## Methods of the nearest class -/

namespace Class

/-- The nearest class of the ancestry that declares methods of a name has `first` as the first of
them. -/
def Nearest (cls : Class) (name : String) (first : Fn) : Prop :=
  ∃ nearer owner farther, cls.ancestry = nearer ++ owner :: farther ∧
    owner.methods.find? name = some first ∧ ∀ below ∈ nearer, below.methods.find? name = none

theorem findMethod_eq_findSome? (cls : Class) (name : String) :
    cls.findMethod name = cls.ancestry.findSome? fun above => above.methods.find? name := by
  induction cls using chain_induction with
  | root cls hroot =>
      rw [findMethod_of_root hroot, ancestry_of_root hroot, List.findSome?_singleton]
  | derived cls parent hparent ih =>
      rw [findMethod_of_superclass hparent, ancestry_of_superclass hparent, List.findSome?_cons, ih]
      cases cls.methods.find? name <;> rfl

theorem findMethod_eq_some_iff {cls : Class} {name : String} {first : Fn} :
    cls.findMethod name = some first ↔ cls.Nearest name first := by
  rw [findMethod_eq_findSome?, List.findSome?_eq_some_iff]
  rfl

theorem findMethod_eq_none_iff {cls : Class} {name : String} :
    cls.findMethod name = none ↔ ∀ above ∈ cls.ancestry, above.methods.find? name = none := by
  rw [findMethod_eq_findSome?, List.findSome?_eq_none_iff]

end Class

/-! ## Numbers of arguments -/

namespace Eval

variable {paren : Token} {s : Store}

theorem checkArity_then_of_eq {expected got : Nat} (h : expected = got) (next : Eval α) :
    (checkArity paren expected got >>= fun _ => next) s = next s := by
  rw [checkArity, if_pos h]
  rfl

theorem checkArity_then_of_ne {expected got : Nat} (h : expected ≠ got) (next : Eval α) :
    (checkArity paren expected got >>= fun _ => next) s =
      .error (.error ⟨paren, .arity expected got, none⟩) s := by
  rw [checkArity, if_neg h]
  rfl

end Eval

end MiniPascal
