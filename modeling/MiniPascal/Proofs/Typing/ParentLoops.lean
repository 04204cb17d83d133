import Mathlib.Logic.Relation
import MiniPascal.Proofs.Typing.Climbing

/-!
# Loops over parents

Without fuel, to ask for a subtype is a loop: it looks at the next name up the table of parents,
remembers it, and goes on with its parent.  A table is finite but may be cyclic, so the loop ends at
a name without a parent or at one that it remembers.  It ends for every table, and it never ends in
front of a name that it has to find.
-/

namespace MiniPascal

/-- The loop at a name, with the names that it remembers, ends with an answer after so many
rounds. -/
inductive LoopEnds (parents : Table String) (expected : String) :
    Nat → List String → Option String → Bool → Prop
  | top {seen : List String} : LoopEnds parents expected 0 seen none false
  | met {seen : List String} {name : String} (hname : Text.sameName name expected = true) :
      LoopEnds parents expected 0 seen (some name) true
  | again {seen : List String} {name : String} (hname : Text.sameName name expected = false)
      (hseen : name ∈ seen) : LoopEnds parents expected 0 seen (some name) false
  | next {rounds : Nat} {seen : List String} {name : String} {answer : Bool}
      (hname : Text.sameName name expected = false) (hnew : name ∉ seen)
      (hrest : LoopEnds parents expected rounds (name :: seen) (parents.find? name) answer) :
      LoopEnds parents expected (rounds + 1) seen (some name) answer

section Loops

variable {parents : Table String} {expected : String}

/-! ## One answer -/

theorem LoopEnds.unique {rounds rounds' : Nat} {seen : List String} {start : Option String}
    {answer answer' : Bool} (h : LoopEnds parents expected rounds seen start answer)
    (h' : LoopEnds parents expected rounds' seen start answer') :
    rounds' = rounds ∧ answer' = answer := by
  induction h generalizing rounds' with
  | top =>
      cases h'
      exact ⟨rfl, rfl⟩
  | met hname =>
      cases h' with
      | met _ => exact ⟨rfl, rfl⟩
      | again hother _ => exact absurd (hname.symm.trans hother) (by decide)
      | next hother _ _ => exact absurd (hname.symm.trans hother) (by decide)
  | again hname hseen =>
      cases h' with
      | met hother => exact absurd (hother.symm.trans hname) (by decide)
      | again _ _ => exact ⟨rfl, rfl⟩
      | next _ hnew _ => exact absurd hseen hnew
  | next hname hnew _ ih =>
      cases h' with
      | met hother => exact absurd (hother.symm.trans hname) (by decide)
      | again _ hseen => exact absurd hseen hnew
      | next _ _ hrest =>
          have hsame := ih hrest
          exact ⟨congrArg (· + 1) hsame.1, hsame.2⟩

/-- With more fuel than the loop has rounds, a climb gives its answer. -/
theorem LoopEnds.climb_eq {rounds : Nat} {seen : List String} {start : Option String}
    {answer : Bool} (h : LoopEnds parents expected rounds seen start answer) :
    ∀ {fuel : Nat}, rounds < fuel →
      climb parents.find? id expected fuel seen start = answer := by
  induction h with
  | top =>
      intro fuel _
      exact climb_none fuel _
  | met hname =>
      intro fuel hfuel
      cases fuel with
      | zero => cases hfuel
      | succ fuel => rw [climb, if_pos hname]
  | again hname hseen =>
      intro fuel hfuel
      cases fuel with
      | zero => cases hfuel
      | succ fuel => rw [climb, hname, if_neg Bool.false_ne_true, id, if_pos hseen]
  | next hname hnew _ ih =>
      intro fuel hfuel
      cases fuel with
      | zero => cases hfuel
      | succ fuel =>
          rw [climb, hname, if_neg Bool.false_ne_true, id, if_neg hnew]
          exact ih (Nat.lt_of_succ_lt_succ hfuel)

/-! ## Termination -/

/-- The names with a parent that the loop does not remember. -/
def Table.ahead (parents : Table String) (seen : List String) : List String :=
  (parents.entries.map Prod.fst).filter fun name => decide (name ∉ seen)

theorem Table.length_ahead_lt {seen : List String} {name parent : String}
    (hparent : parents.find? name = some parent) (hnew : name ∉ seen) :
    (parents.ahead (name :: seen)).length < (parents.ahead seen).length := by
  have hname : name ∈ parents.entries.map Prod.fst := by
    apply Table.mem_of_find?
    rw [hparent]
    rfl
  exact @MiniPascal.length_ahead_lt id _ _ _ hname hnew

theorem Table.length_ahead_le (seen : List String) : (parents.ahead seen).length ≤ parents.size := by
  have hle := List.length_filter_le (fun name => decide (name ∉ seen))
    (parents.entries.map Prod.fst)
  rw [List.length_map] at hle
  exact hle

/-- The loop ends.  Each round but the last one leaves one name less ahead, and the table has
finitely many of them. -/
theorem exists_loopEnds (parents : Table String) (expected : String) (seen : List String)
    (start : Option String) : ∃ rounds answer, rounds ≤ (parents.ahead seen).length + 1 ∧
      LoopEnds parents expected rounds seen start answer := by
  induction hcount : (parents.ahead seen).length using Nat.strongRecOn
    generalizing seen start with
  | ind count ih =>
      cases start with
      | none => exact ⟨0, false, Nat.zero_le _, .top⟩
      | some name =>
          cases hname : Text.sameName name expected with
          | true => exact ⟨0, true, Nat.zero_le _, .met hname⟩
          | false =>
              by_cases hseen : name ∈ seen
              · exact ⟨0, false, Nat.zero_le _, .again hname hseen⟩
              · cases hparent : parents.find? name with
                | none =>
                    have htop : LoopEnds parents expected 0 (name :: seen)
                        (parents.find? name) false := by
                      rw [hparent]
                      exact .top
                    exact ⟨1, false, Nat.le_add_left 1 count, .next hname hseen htop⟩
                | some parent =>
                    have hless := Table.length_ahead_lt hparent hseen
                    rw [hcount] at hless
                    obtain ⟨rounds, answer, hrounds, hrest⟩ :=
                      ih _ hless (name :: seen) (parents.find? name) rfl
                    exact ⟨rounds + 1, answer, by omega, .next hname hseen hrest⟩

theorem loopEnds_isSubtype (parents : Table String) (expected actual : String) :
    ∃ rounds ≤ parents.size + 1, LoopEnds parents expected rounds [] (parents.find? actual)
      (isSubtype parents expected actual) := by
  obtain ⟨rounds, answer, hrounds, hends⟩ :=
    exists_loopEnds parents expected [] (parents.find? actual)
  have hsize : rounds ≤ parents.size + 1 :=
    Nat.le_trans hrounds (Nat.succ_le_succ (Table.length_ahead_le []))
  -- the fuel of a climb is more than it needs, so that it may have a unit more
  have hanswer : isSubtype parents expected actual = answer := by
    calc isSubtype parents expected actual
        = climb parents.find? id expected (parents.size + 2) [] (parents.find? actual) :=
          (climb_fuel (fun _ => Table.mem_of_find?)
            (Nat.lt_succ_of_le (Table.length_ahead_le [])) (Nat.le_succ _)).symm
      _ = answer := hends.climb_eq (Nat.lt_succ_of_le hsize)
  rw [hanswer]
  exact ⟨rounds, hsize, hends⟩

/-! ## Names above a name -/

theorem exists_meets_iff_reflTransGen {parent? : String → Option String} {name : String} :
    (∃ steps, Meets parent? expected steps name) ↔
      ∃ other, Relation.ReflTransGen (fun child parent => parent? child = some parent) name other ∧
        Text.sameName other expected = true := by
  constructor
  · rintro ⟨steps, hmeets⟩
    induction hmeets with
    | @here name hname => exact ⟨name, .refl, hname⟩
    | next _ hparent _ ih =>
        obtain ⟨other, hpath, hother⟩ := ih
        exact ⟨other, .head hparent hpath, hother⟩
  · rintro ⟨other, hpath, hother⟩
    induction hpath using Relation.ReflTransGen.head_induction_on with
    | refl => exact ⟨0, .here hother⟩
    | head hparent _ ih => exact exists_meets_iff.mpr (.inr ⟨_, hparent, ih⟩)

/-- Whatever the table of parents, cyclic or not, the loop from the parent of a name ends in one
way, after at most as many rounds as there are entries and one more.  Its answer is yes if and only
if one or more steps from the name through the table lead to one that is the expected name up to
letter case. -/
theorem subtype_loop_finds_ancestors (parents : Table String) (expected actual : String) :
    (∃ rounds ≤ parents.size + 1, ∀ count answer,
      LoopEnds parents expected count [] (parents.find? actual) answer ↔
        count = rounds ∧ answer = isSubtype parents expected actual) ∧
    (isSubtype parents expected actual = true ↔ ∃ name,
      Relation.TransGen (fun child parent => parents.find? child = some parent) actual name ∧
        Text.sameName name expected = true) := by
  constructor
  · obtain ⟨rounds, hrounds, hends⟩ := loopEnds_isSubtype parents expected actual
    refine ⟨rounds, hrounds, fun count answer => ?_⟩
    constructor
    · intro hother
      exact hends.unique hother
    · rintro ⟨rfl, rfl⟩
      exact hends
  · rw [isSubtype_iff]
    constructor
    · rintro ⟨parent, hparent, hmeets⟩
      obtain ⟨name, hpath, hname⟩ := exists_meets_iff_reflTransGen.mp hmeets
      exact ⟨name, Relation.TransGen.head' hparent hpath, hname⟩
    · rintro ⟨name, hpath, hname⟩
      obtain ⟨parent, hparent, hrest⟩ := Relation.TransGen.head'_iff.mp hpath
      exact ⟨parent, hparent, exists_meets_iff_reflTransGen.mpr ⟨name, hrest, hname⟩⟩

/-- Around a cycle, every name on it is found, and no other one. -/
example :
    let parents : Table String := .ofList [("A", "B"), ("B", "C"), ("C", "A")]
    isSubtype parents "a" "A" = true ∧ isSubtype parents "c" "A" = true ∧
      isSubtype parents "D" "A" = false := by
  decide

end Loops

end MiniPascal
