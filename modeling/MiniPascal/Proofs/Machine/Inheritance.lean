import MiniPascal.Proofs.Machine.Holding
import MiniPascal.Proofs.Typing.Climbing

/-!
# Declared classes

The classes that are declared on the way to a store decide its table of parents: under every name
stands the parent of the class declared last.  Where the ancestors of a class agree with the classes
declared last under their names, climbing the table meets the names of these ancestors, and no
others.
-/

namespace MiniPascal

/-! ## Histories -/

namespace Class

theorem exists_ancestry_eq (cls : Class) : ∃ rest, cls.ancestry = cls :: rest := by
  cases hparent : cls.superclass with
  | none => exact ⟨[], ancestry_of_root hparent⟩
  | some parent => exact ⟨parent.ancestry, ancestry_of_superclass hparent⟩

/-- The name that is recorded as the parent of a class. -/
def parentName (cls : Class) : String :=
  (cls.superclass.map Class.name).getD anyType

def lastNamed (history : List Class) (name : String) : Option Class :=
  history.find? fun cls => cls.name = name

/-- The class declared last under the name of a class has a parent of the same name. -/
def Current (history : List Class) (cls : Class) : Prop :=
  ∃ last, lastNamed history cls.name = some last ∧ last.parentName = cls.parentName

/-- The class declared last under the name `Any`, if there is one, extends no other class. -/
def AnyOnTop (history : List Class) : Prop :=
  ∀ last, lastNamed history anyType = some last → last.superclass = none

end Class

/-- A value that is a class or an instance of one has a class among the declared ones. -/
def Value.Within (history : List Class) : Value → Prop
  | .class cls => cls ∈ history
  | .object self => self.cls ∈ history
  | _ => True

theorem Value.Within.mono {history later : List Class} {value : Value} (hlater : history <:+ later)
    (h : value.Within history) : value.Within later := by
  cases value with
  | «class» cls => exact hlater.subset h
  | object self => exact hlater.subset h
  | _ => trivial

theorem Value.IsData.within {history : List Class} {value : Value} (h : value.IsData) :
    value.Within history := by
  cases value with
  | «class» cls => exact h.elim
  | object self => exact h.elim
  | _ => trivial

/-- The classes that were declared on the way to a store, the latest first.  A class extends one
that was declared before it; all other steps leave the parents of classes as they are, and make the
store hold values of declared classes only. -/
inductive Store.Reached : List Class → Store → Prop
  | initial : Reached [] .initial
  | change {history : List Class} {s s' : Store} (h : Reached history s)
      (hcount : s'.classCount = s.classCount) (hparents : s'.parents = s.parents)
      (hholds : ∀ value, s'.Holds value → value.Within history) : Reached history s'
  | declare {history : List Class} {s : Store} (h : Reached history s) {name : String}
      {superclass : Option Class} {methods : Table Fn}
      (hsuper : ∀ parent ∈ superclass, parent ∈ history) :
      Reached ((Exec.newClass name superclass methods s).1 :: history)
        (Exec.newClass name superclass methods s).2

namespace Store.Reached

variable {history : List Class} {s : Store}

theorem holds_initial {value : Value} (h : Store.initial.Holds value) : value.Within [] := by
  have hbuiltins (list : List Builtin) : ∀ {s : Store}, (∀ value, s.Holds value → value.Within []) →
      ∀ value, (list.foldl Store.bindBuiltin s).Holds value → value.Within [] := by
    induction list with
    | nil => exact fun h => h
    | cons op rest ih =>
        intro s h
        refine ih fun value hvalue => ?_
        rcases hvalue.of_bindIn with hold | rfl
        · exact h value (Store.Holds.of_eq s hold rfl rfl rfl rfl)
        · trivial
  refine hbuiltins Builtin.all (fun value hvalue => ?_) value h
  rcases hvalue.of_newFrame with hold | ⟨name, hname⟩
  · cases hold with
    | inVariable h => cases h
    | inField h => cases h
    | inSequence h => exact absurd h (by simp [Store.empty, Store.sequence])
    | asKey h => cases h
    | asItem h => cases h
  · cases hname

/-- The values that a store holds are of declared classes. -/
theorem within (h : s.Reached history) {value : Value} (hvalue : s.Holds value) :
    value.Within history := by
  induction h generalizing value with
  | initial => exact holds_initial hvalue
  | change _ _ _ hholds _ => exact hholds value hvalue
  | @declare history s _ name superclass methods _ ih =>
      exact (ih (Store.Holds.of_eq s hvalue rfl rfl rfl rfl)).mono (List.suffix_cons _ _)

theorem length_eq (h : s.Reached history) : history.length = s.classCount := by
  induction h with
  | initial => rfl
  | change _ hcount _ _ ih => rw [hcount, ih]
  | declare _ _ ih => exact congrArg (· + 1) ih

theorem ancestors (h : s.Reached history) {cls : Class} (hcls : cls ∈ history) :
    ∀ ancestor ∈ cls.ancestry, ancestor ∈ history := by
  induction h generalizing cls with
  | initial => cases hcls
  | change _ _ _ _ ih => exact ih hcls
  | @declare history s _ name superclass methods hsuper ih =>
      intro ancestor hancestor
      rcases List.mem_cons.mp hcls with rfl | hcls
      · cases superclass with
        | none =>
            rw [List.mem_singleton.mp hancestor]
            exact List.mem_cons_self
        | some parent =>
            rcases List.mem_cons.mp hancestor with rfl | hancestor
            · exact List.mem_cons_self
            · exact List.mem_cons_of_mem _ (ih (hsuper parent rfl) ancestor hancestor)
      · exact List.mem_cons_of_mem _ (ih hcls ancestor hancestor)

/-- Under every name, the table has the parent of the class declared last. -/
theorem parents (h : s.Reached history) (name : String) :
    s.parents.find? name = (Class.lastNamed history name).map Class.parentName := by
  induction h with
  | initial => rfl
  | change _ _ hparents _ ih => rw [hparents, ih]
  | @declare history s _ other superclass methods _ ih =>
      show (s.parents.insert other _).find? name = _
      rw [Table.find?_insert, Class.lastNamed, List.find?_cons]
      by_cases hname : name = other
      · subst hname
        simp [Class.name, Exec.newClass, Class.parentName, Class.superclass]
      · have hother : Class.name (Exec.newClass other superclass methods s).1 ≠ name :=
          fun h => hname h.symm
        rw [if_neg hname, ih, decide_eq_false hother]
        rfl

theorem current_iff (h : s.Reached history) {cls : Class} :
    cls.Current history ↔ s.parents.find? cls.name = some cls.parentName := by
  rw [h.parents, Option.map_eq_some_iff]
  rfl

/-! ## Subtypes and ancestors -/

variable {typeName : String}

/-- Nothing else is met from `Any` on. -/
theorem any_of_meets (h : s.Reached history) (htop : Class.AnyOnTop history) {steps : Nat}
    (hmeets : Meets s.parents.find? typeName steps anyType) :
    Text.sameName anyType typeName = true := by
  generalize hany : anyType = name at hmeets
  induction hmeets with
  | here hname => exact hname
  | @next _ name parent _ hparent _ ih =>
      subst hany
      rw [h.parents] at hparent
      rcases Option.map_eq_some_iff.mp hparent with ⟨last, hlast, rfl⟩
      have hlast' : anyType = last.parentName := by
        rw [Class.parentName, htop last hlast]
        rfl
      rw [hlast']
      exact ih hlast'

/-- If its ancestry is up to date, the names above the name of a class are those of its proper
ancestors, and `Any`. -/
theorem isSubtype_iff (h : s.Reached history) (htop : Class.AnyOnTop history)
    (hany : Text.sameName typeName anyType = false) (cls : Class)
    (hcurrent : ∀ ancestor ∈ cls.ancestry, ancestor.Current history) :
    isSubtype s.parents typeName cls.name = true ↔
      ∃ ancestor ∈ cls.ancestry.tail, Text.sameName typeName ancestor.name = true := by
  induction cls using Class.chain_induction with
  | root cls hroot =>
      rw [MiniPascal.isSubtype_iff, h.current_iff.mp (hcurrent cls cls.mem_ancestry_self),
        Class.parentName, hroot, Class.ancestry_of_root hroot]
      constructor
      · rintro ⟨parent, hparent, steps, hmeets⟩
        cases hparent
        have hsame := h.any_of_meets htop hmeets
        rw [Text.sameName_comm, hany] at hsame
        cases hsame
      · rintro ⟨ancestor, hancestor, -⟩
        cases hancestor
  | derived cls parent hsuper ih =>
      have hancestry := Class.ancestry_of_superclass hsuper
      have hstep : s.parents.find? cls.name = some parent.name := by
        rw [h.current_iff.mp (hcurrent cls cls.mem_ancestry_self), Class.parentName, hsuper]
        rfl
      have hrest := ih fun ancestor hancestor => hcurrent ancestor <| by
        rw [hancestry]
        exact List.mem_cons_of_mem _ hancestor
      rcases parent.exists_ancestry_eq with ⟨rest, hcons⟩
      rw [hcons, List.tail_cons, MiniPascal.isSubtype_iff] at hrest
      rw [MiniPascal.isSubtype_iff]
      calc (∃ name, s.parents.find? cls.name = some name ∧
            ∃ steps, Meets s.parents.find? typeName steps name)
        _ ↔ ∃ steps, Meets s.parents.find? typeName steps parent.name := by
            rw [hstep]
            simp
        _ ↔ Text.sameName typeName parent.name = true ∨
              ∃ ancestor ∈ rest, Text.sameName typeName ancestor.name = true := by
            rw [Text.sameName_comm]
            exact exists_meets_iff.trans (or_congr_right hrest)
        _ ↔ ∃ ancestor ∈ cls.ancestry.tail, Text.sameName typeName ancestor.name = true := by
            rw [hancestry, List.tail_cons, hcons]
            simp only [List.mem_cons, exists_eq_or_imp]

end Store.Reached

end MiniPascal
