import MiniPascal.Machine.Exec
import MiniPascal.Proofs.Syntax.CaseFolding

/-!
# Values and stores with folded words

Functions keep their declarations, so the spelling of reserved words gets into values, and from
there into frames, fields and containers.  Folding a store folds every declaration that it holds.
All that the machine computes from values and stores commutes with folding: texts, choices of
overloads and handlers, operators, containers and built-in functions.
-/

namespace MiniPascal

/-! ## Tables -/

namespace Table

def map (f : α → β) (table : Table α) : Table β where
  entries := table.entries.map fun entry => (entry.1, f entry.2)

@[simp] theorem map_empty (f : α → β) : (∅ : Table α).map f = ∅ := rfl

@[simp] theorem find?_map (f : α → β) (table : Table α) (name : String) :
    (table.map f).find? name = (table.find? name).map f := by
  obtain ⟨entries⟩ := table
  show (entries.map fun entry => (entry.1, f entry.2)).lookup name = (entries.lookup name).map f
  induction entries with
  | nil => rfl
  | cons entry rest ih =>
      obtain ⟨key, value⟩ := entry
      cases hkey : name == key with
      | true => simp [List.lookup_cons, hkey]
      | false => simp [List.lookup_cons, hkey, ih]

@[simp] theorem contains_map (f : α → β) (table : Table α) (name : String) :
    (table.map f).contains name = table.contains name := by
  simp [contains]

@[simp] theorem map_insert (f : α → β) (table : Table α) (name : String) (value : α) :
    (table.insert name value).map f = (table.map f).insert name (f value) := by
  obtain ⟨entries⟩ := table
  unfold map insert
  congr 1
  induction entries with
  | nil => rfl
  | cons entry rest ih =>
      obtain ⟨key, old⟩ := entry
      simp only [put, List.map_cons]
      split
      · rfl
      · rw [List.map_cons, ih]

end Table

variable (words : Keyword → Bool)

/-! ## Values -/

@[simp] theorem Function.name_fold (decl : Function) : (decl.fold words).name = decl.name := rfl

def Fn.fold (f : Fn) : Fn :=
  { f with decl := f.decl.fold words }

namespace Fn

@[simp] theorem id_fold (f : Fn) : (f.fold words).id = f.id := rfl

@[simp] theorem closure_fold (f : Fn) : (f.fold words).closure = f.closure := rfl

@[simp] theorem isInitializer_fold (f : Fn) : (f.fold words).isInitializer = f.isInitializer := rfl

@[simp] theorem name_fold (f : Fn) : (f.fold words).name = f.name := rfl

@[simp] theorem accepts_fold (parents : Table String) (f : Fn) (types : List String) :
    (f.fold words).accepts parents types = f.accepts parents types := rfl

end Fn

namespace Class

/-- A class with its methods and those of its ancestors folded. -/
def fold : Class → Class
  | mk id name none methods => mk id name none (methods.map (Fn.fold words))
  | mk id name (some parent) methods =>
      mk id name (some (fold parent)) (methods.map (Fn.fold words))

theorem fold_mk (id : Nat) (name : String) (superclass : Option Class) (methods : Table Fn) :
    (mk id name superclass methods).fold words =
      mk id name (superclass.map (fold words)) (methods.map (Fn.fold words)) := by
  cases superclass <;> simp [fold]

@[simp] theorem id_fold (cls : Class) : (cls.fold words).id = cls.id := by
  cases cls
  rw [fold_mk, id, id]

@[simp] theorem name_fold (cls : Class) : (cls.fold words).name = cls.name := by
  cases cls
  rw [fold_mk, name, name]

theorem ancestry_fold : ∀ cls : Class, (cls.fold words).ancestry = cls.ancestry.map (fold words)
  | mk _ _ none _ => by simp [fold, ancestry]
  | mk _ _ (some parent) _ => by simp [fold, ancestry, ancestry_fold parent]

@[simp] theorem findMethod_fold : ∀ (cls : Class) (name : String),
    (cls.fold words).findMethod name = (cls.findMethod name).map (Fn.fold words)
  | mk _ _ none methods, name => by simp [fold, findMethod]
  | mk _ _ (some parent) methods, name => by
      simp only [fold, findMethod, Table.find?_map]
      cases methods.find? name with
      | some method => rfl
      | none => exact findMethod_fold parent name

end Class

def Instance.fold (self : Instance) : Instance :=
  { self with cls := self.cls.fold words }

@[simp] theorem Instance.id_fold (self : Instance) : (self.fold words).id = self.id := rfl

@[simp] theorem Instance.cls_fold (self : Instance) :
    (self.fold words).cls = self.cls.fold words := rfl

namespace Value

/-- A value with all declarations in it folded. -/
def fold : Value → Value
  | .function f => .function (f.fold words)
  | .class cls => .class (cls.fold words)
  | .object self => .object (self.fold words)
  | other => other

@[simp] theorem fold_ofLiteral (value : Literal) :
    (ofLiteral value).fold words = ofLiteral value := by
  cases value <;> rfl

@[simp] theorem isTruthy_fold (value : Value) : (value.fold words).isTruthy = value.isTruthy := by
  cases value <;> rfl

@[simp] theorem typeName_fold (value : Value) : (value.fold words).typeName = value.typeName := by
  cases value with
  | object self => simp [fold, typeName]
  | _ => rfl

theorem map_typeName_fold (values : List Value) :
    (values.map (fold words)).map typeName = values.map typeName := by
  simp [Function.comp_def]

@[simp] theorem same_fold (left right : Value) :
    (left.fold words).same (right.fold words) = left.same right := by
  cases left <;> cases right <;> simp [fold, same]

@[simp] theorem toIndex_fold (value : Value) : (value.fold words).toIndex = value.toIndex := by
  cases value <;> rfl

@[simp] theorem ordinal_fold (value : Value) : (value.fold words).ordinal = value.ordinal := by
  cases value with
  | object self => simp [fold, ordinal, typeName]
  | _ => rfl

@[simp] theorem arraySize_fold (host : Host) (call : Nat) (value : Value) :
    arraySize host call (value.fold words) = arraySize host call value := by
  simp [arraySize]

end Value

/-! ## Stores -/

/-- A key with its value, folded. -/
def foldItem (item : Value × Value) : Value × Value :=
  (item.1.fold words, item.2.fold words)

/-- A store with all declarations in it folded. -/
def Store.fold (s : Store) : Store :=
  { s with
    frames := s.frames.map (Table.map (Value.fold words))
    overloads := s.overloads.map (List.map (Fn.fold words))
    fields := s.fields.map (Table.map (Value.fold words))
    sequences := s.sequences.map (Array.map (Value.fold words))
    maps := s.maps.map (List.map (foldItem words)) }

theorem getD_map (f : α → β) (items : Array α) (i : Nat) (default : α) :
    (items.map f).getD i (f default) = f (items.getD i default) := by
  simp only [Array.getD_eq_getD_getElem?, Array.getElem?_map, Option.getD_map]

/-- Items may be changed before or after one of them is modified. -/
theorem map_modify (f : α → β) {g : α → α} {h : β → β} (hfg : ∀ a, f (g a) = h (f a))
    (items : Array α) (i : Nat) :
    (items.modify i g).map f = (items.map f).modify i h := by
  apply Array.ext
  · simp
  · intro j _ _
    simp only [Array.getElem_map, Array.getElem_modify]
    split
    · exact hfg _
    · rfl

namespace Store

@[simp] theorem parents_fold (s : Store) : (s.fold words).parents = s.parents := rfl

/-! ### Frames -/

@[simp] theorem frame_fold (s : Store) (id : FrameId) :
    (s.fold words).frame id = (s.frame id).map (Value.fold words) :=
  getD_map _ s.frames id ∅

theorem newFrame_fold (s : Store) (bindings : Table Value) :
    (s.fold words).newFrame (bindings.map (Value.fold words)) =
      ((s.newFrame bindings).1, (s.newFrame bindings).2.fold words) := by
  simp [newFrame, fold]

theorem bindIn_fold (s : Store) (id : FrameId) (name : String) (value : Value) :
    (s.bindIn id name value).fold words =
      (s.fold words).bindIn id name (value.fold words) := by
  unfold bindIn fold
  simp only [Store.mk.injEq, and_true]
  exact map_modify _ (fun table => table.map_insert _ name value) _ _

@[simp] theorem findHere?_fold (s : Store) (env : Env) (name : String) :
    (s.fold words).findHere? env name = (s.findHere? env name).map (Value.fold words) := by
  cases env with
  | nil => rfl
  | cons id outer => simp [findHere?]

@[simp] theorem findAt?_fold (s : Store) (env : Env) (distance : Nat) (name : String) :
    (s.fold words).findAt? env distance name =
      (s.findAt? env distance name).map (Value.fold words) :=
  s.findHere?_fold words _ name

@[simp] theorem find?_fold (s : Store) (env : Env) (name : String) :
    (s.fold words).find? env name = (s.find? env name).map (Value.fold words) := by
  induction env with
  | nil => rfl
  | cons id outer ih =>
      simp only [find?, frame_fold, Table.find?_map]
      cases (s.frame id).find? name with
      | some value => rfl
      | none => exact ih

theorem bindHere_fold (s : Store) (env : Env) (name : String) (value : Value) :
    (s.bindHere env name value).fold words =
      (s.fold words).bindHere env name (value.fold words) := by
  cases env with
  | nil => rfl
  | cons id outer => exact s.bindIn_fold words id name value

@[simp] theorem frameOf?_fold (s : Store) (env : Env) (name : String) :
    (s.fold words).frameOf? env name = s.frameOf? env name := by
  induction env with
  | nil => rfl
  | cons id outer ih => simp [frameOf?, ih]

/-! ### Functions -/

@[simp] theorem overloadsOf_fold (s : Store) (f : Fn) :
    (s.fold words).overloadsOf (f.fold words) = (s.overloadsOf f).map (Fn.fold words) :=
  getD_map _ s.overloads f.id []

theorem newFn_fold (s : Store) (decl : Function) (closure : Env) (isInitializer : Bool) :
    (s.fold words).newFn (decl.fold words) closure isInitializer =
      ((s.newFn decl closure isInitializer).1.fold words,
        (s.newFn decl closure isInitializer).2.fold words) := by
  simp [newFn, fold, Fn.fold]

theorem addOverload_fold (s : Store) (f overload : Fn) :
    (s.addOverload f overload).fold words =
      (s.fold words).addOverload (f.fold words) (overload.fold words) := by
  unfold addOverload fold
  simp only [Store.mk.injEq, true_and, and_true]
  exact map_modify _ (fun list => by simp) _ _

theorem bindMethod_fold (s : Store) (f : Fn) (self : Instance) :
    (s.fold words).bindMethod (f.fold words) (self.fold words) =
      ((s.bindMethod f self).1.fold words, (s.bindMethod f self).2.fold words) := by
  have hframe := s.newFrame_fold words ((∅ : Table Value).insert "this" (.object self))
  rw [Table.map_insert, Table.map_empty, Value.fold] at hframe
  unfold bindMethod
  rw [hframe]
  exact newFn_fold words _ f.decl _ f.isInitializer

def Definition.fold : Definition → Definition
  | .fresh => .fresh
  | .overload existing added => .overload (existing.fold words) (added.fold words)
  | .refused => .refused

@[simp] theorem definition_fold (s : Store) (env : Env) (name : String) (value : Value) :
    (s.fold words).definition env name (value.fold words) =
      (s.definition env name value).fold words := by
  unfold definition
  rw [findHere?_fold]
  cases s.findHere? env name with
  | none => rfl
  | some existing =>
      cases existing with
      | function f => cases value <;> rfl
      | _ => rfl

/-! ### Instances and containers -/

@[simp] theorem fieldsOf_fold (s : Store) (self : Instance) :
    (s.fold words).fieldsOf (self.fold words) = (s.fieldsOf self).map (Value.fold words) :=
  getD_map _ s.fields self.id ∅

theorem newInstance_fold (s : Store) (cls : Class) :
    (s.fold words).newInstance (cls.fold words) =
      ((s.newInstance cls).1.fold words, (s.newInstance cls).2.fold words) := by
  simp [newInstance, fold, Instance.fold]

theorem setField_fold (s : Store) (self : Instance) (name : String) (value : Value) :
    (s.setField self name value).fold words =
      (s.fold words).setField (self.fold words) name (value.fold words) := by
  unfold setField fold
  simp only [Store.mk.injEq, true_and, and_true]
  exact map_modify _ (fun table => table.map_insert _ name value) _ _

@[simp] theorem sequence_fold (s : Store) (id : Nat) :
    (s.fold words).sequence id = (s.sequence id).map (Value.fold words) := by
  have hmap := getD_map (Array.map (Value.fold words)) s.sequences id #[]
  rw [Array.map_empty] at hmap
  exact hmap

theorem newSequence_fold (s : Store) (elements : Array Value) :
    (s.newSequence elements).2.fold words =
      ((s.fold words).newSequence (elements.map (Value.fold words))).2 := by
  simp [newSequence, fold]

theorem updateSequence_fold (s : Store) (id : Nat) {change change' : Array Value → Array Value}
    (h : ∀ elements, (change elements).map (Value.fold words) =
      change' (elements.map (Value.fold words))) :
    (s.updateSequence id change).fold words = (s.fold words).updateSequence id change' := by
  unfold updateSequence fold
  simp only [Store.mk.injEq, true_and, and_true]
  exact map_modify _ h _ _

@[simp] theorem mapEntries_fold (s : Store) (id : Nat) :
    (s.fold words).mapEntries id = (s.mapEntries id).map (foldItem words) :=
  getD_map _ s.maps id []

theorem newMap_fold (s : Store) (entries : List (Value × Value)) :
    (s.fold words).newMap (entries.map (foldItem words)) =
      ((s.newMap entries).1, (s.newMap entries).2.fold words) := by
  simp [newMap, fold]

theorem updateMap_fold (s : Store) (id : Nat)
    {change change' : List (Value × Value) → List (Value × Value)}
    (h : ∀ entries, (change entries).map (foldItem words) =
      change' (entries.map (foldItem words))) :
    (s.updateMap id change).fold words = (s.fold words).updateMap id change' := by
  unfold updateMap fold
  simp only [Store.mk.injEq, true_and, and_true]
  exact map_modify _ h _ _

theorem newNative_fold (s : Store) (op : NativeOp) :
    (s.fold words).newNative op = ((s.newNative op).1, (s.newNative op).2.fold words) := rfl

end Store

/-! ## Texts -/

namespace Store

theorem displayTo_fold (s : Store) (depth : Nat) : ∀ value : Value,
    (s.fold words).displayTo depth (value.fold words) = s.displayTo depth value := by
  induction depth with
  | zero =>
      intro value
      cases value with
      | boolean value => cases value <;> simp [Value.fold, displayTo]
      | _ => simp [Value.fold, displayTo]
  | succ depth ih =>
      have hvalues (values : List Value) :
          (values.map (Value.fold words)).map ((s.fold words).displayTo depth) =
            values.map (s.displayTo depth) := by
        simp [ih]
      intro value
      cases value with
      | boolean value => cases value <;> simp [Value.fold, displayTo]
      | array id | list id =>
          show (s.fold words).displayTo (depth + 1) (.array id) =
            s.displayTo (depth + 1) (.array id)
          simp only [displayTo, sequence_fold, Array.toList_map, hvalues]
      | stack id =>
          show (s.fold words).displayTo (depth + 1) (.stack id) =
            s.displayTo (depth + 1) (.stack id)
          simp only [displayTo, sequence_fold, Array.toList_map, ← List.map_reverse, hvalues]
      | map id =>
          show (s.fold words).displayTo (depth + 1) (.map id) = s.displayTo (depth + 1) (.map id)
          simp [displayTo, foldItem, ih, Function.comp_def]
      | _ => simp [Value.fold, displayTo]

@[simp] theorem display_fold (s : Store) (value : Value) :
    (s.fold words).display (value.fold words) = s.display value := by
  have hdepth : (s.fold words).sequences.size + (s.fold words).maps.size + 1 =
      s.sequences.size + s.maps.size + 1 := by
    simp [fold]
  unfold display
  rw [hdepth]
  exact s.displayTo_fold words _ value

@[simp] theorem describe_fold (s : Store) (value : Value) :
    (s.fold words).describe (value.fold words) = s.describe value := by
  have hdisplay := s.display_fold words value
  have hname := value.typeName_fold words
  cases value with
  | string text => rfl
  | char c => rfl
  | _ =>
      simp only [Value.fold] at hdisplay hname ⊢
      simp only [describe, hdisplay, hname]

end Store

/-! ## Operators -/

namespace Value

@[simp] theorem applyUnary_fold (op : UnaryOp) (operand : Value) :
    applyUnary op (operand.fold words) = (applyUnary op operand).map (fold words) := by
  cases op with
  | not =>
      simp only [applyUnary, isTruthy_fold]
      rfl
  | negate => cases operand <;> rfl

theorem integerArithmetic_fold (op : BinaryOp) (a b : Int64) :
    (integerArithmetic op a b).map (fold words) = integerArithmetic op a b := by
  cases op with
  | divide =>
      simp only [integerArithmetic]
      split <;> rfl
  | _ => rfl

theorem doubleArithmetic_fold (op : BinaryOp) (a b : Float) :
    (doubleArithmetic op a b).map (fold words) = doubleArithmetic op a b := by
  cases op with
  | divide =>
      simp only [doubleArithmetic]
      split <;> rfl
  | _ => rfl

@[simp] theorem arithmetic_fold (op : BinaryOp) (left right : Value) :
    arithmetic op (left.fold words) (right.fold words) =
      (arithmetic op left right).map (fold words) := by
  cases left <;> cases right <;>
    simp only [fold, arithmetic, integerArithmetic_fold, doubleArithmetic_fold] <;> rfl

@[simp] theorem order?_fold (left right : Value) :
    order? (left.fold words) (right.fold words) = order? left right := by
  cases left <;> cases right <;> rfl

@[simp] theorem applyComparison_fold (op : BinaryOp) (left right : Value) :
    applyComparison op (left.fold words) (right.fold words) =
      (applyComparison op left right).map (fold words) := by
  unfold applyComparison
  rw [order?_fold]
  cases order? left right with
  | error fault => rfl
  | ok ordering =>
      cases ordering with
      | none => rfl
      | some ordering => cases op <;> rfl

end Value

namespace Store

@[simp] theorem add_fold (s : Store) (left right : Value) :
    (s.fold words).add (left.fold words) (right.fold words) =
      (s.add left right).map (Value.fold words) := by
  have hleft := s.display_fold words left
  have hright := s.display_fold words right
  cases left <;> cases right <;> simp only [Value.fold] at hleft hright <;>
    simp only [Value.fold, add, hleft, hright] <;> rfl

@[simp] theorem applyBinary_fold (s : Store) (op : BinaryOp) (left right : Value) :
    (s.fold words).applyBinary op (left.fold words) (right.fold words) =
      (s.applyBinary op left right).map (Value.fold words) := by
  cases op with
  | equal | notEqual =>
      simp only [applyBinary, Value.same_fold]
      rfl
  | add => exact s.add_fold words left right
  | subtract | multiply | divide => exact Value.arithmetic_fold words _ left right
  | greater | greaterEqual | less | lessEqual => exact Value.applyComparison_fold words _ left right

end Store

/-! ## Containers -/

namespace Store

@[simp] theorem member?_fold (s : Store) (target : Value) (name : String) :
    (s.fold words).member? (target.fold words) name = s.member? target name := by
  cases target <;> simp [Value.fold, member?]

@[simp] theorem elementAt_fold (s : Store) (id : Nat) (index : Value) :
    (s.fold words).elementAt id (index.fold words) =
      (s.elementAt id index).map (Value.fold words) := by
  unfold elementAt
  rw [Value.toIndex_fold]
  cases index.toIndex with
  | error fault => rfl
  | ok i =>
      simp only [bind, Except.bind, sequence_fold, Array.getElem?_map]
      cases (s.sequence id)[i]? with
      | none => rfl
      | some value => rfl

@[simp] theorem subscript_fold (s : Store) (target index : Value) :
    (s.fold words).subscript (target.fold words) (index.fold words) =
      (s.subscript target index).map (Value.fold words) := by
  cases target with
  | string text =>
      show (s.fold words).subscript (.string text) (index.fold words) = _
      simp only [subscript, Value.toIndex_fold]
      cases index.toIndex with
      | error fault => rfl
      | ok i =>
          simp only [bind, Except.bind]
          cases text.toList[i]? with
          | none => rfl
          | some c => rfl
  | list id => exact s.elementAt_fold words id index
  | array id => exact s.elementAt_fold words id index
  | _ => rfl

end Store

@[simp] theorem lookupEntry_fold (key : Value) (entries : List (Value × Value)) :
    lookupEntry (key.fold words) (entries.map (foldItem words)) =
      (lookupEntry key entries).map (Value.fold words) := by
  induction entries with
  | nil => rfl
  | cons entry rest ih =>
      obtain ⟨existing, value⟩ := entry
      simp only [List.map_cons, foldItem, lookupEntry, Value.same_fold]
      split
      · rfl
      · exact ih

theorem putEntry_fold (key value : Value) (entries : List (Value × Value)) :
    (putEntry key value entries).map (foldItem words) =
      putEntry (key.fold words) (value.fold words) (entries.map (foldItem words)) := by
  induction entries with
  | nil => rfl
  | cons entry rest ih =>
      obtain ⟨existing, old⟩ := entry
      simp only [List.map_cons, foldItem, putEntry, Value.same_fold]
      split
      · rfl
      · rw [List.map_cons, ih]
        rfl

/-! ## Native functions -/

/-- The value of a native function and the store behind it. -/
def Store.applied (s : Store) (result : Except RuntimeFault (Value × (Store → Store))) :
    Except RuntimeFault (Value × Store) :=
  result.map fun called => (called.1, called.2 s)

namespace Store

theorem headD_fold (values : List Value) :
    (values.map (Value.fold words)).headD .nil = (values.headD .nil).fold words := by
  cases values <;> rfl

theorem callContainer_fold (s : Store) (op : ContainerOp) (target : Nat) (values : List Value) :
    (s.fold words).applied
        ((s.fold words).callContainer op target (values.map (Value.fold words))) =
      (s.applied (s.callContainer op target values)).map
        (Prod.map (Value.fold words) (Store.fold words)) := by
  unfold callContainer
  simp only [← List.map_tail, headD_fold, sequence_fold, mapEntries_fold, lookupEntry_fold]
  generalize values.headD .nil = first
  generalize values.tail.headD .nil = second
  cases op with
  | arrayGet | listGet =>
      simp only [elementAt_fold]
      cases s.elementAt target first with
      | error fault => rfl
      | ok value => rfl
  | arraySet =>
      simp only [Value.toIndex_fold, Array.size_map]
      cases first.toIndex with
      | error fault => rfl
      | ok i =>
          simp only [bind, Except.bind]
          split
          · have hupdate : (s.updateSequence target (·.setIfInBounds i second)).fold words =
                (s.fold words).updateSequence target
                  (·.setIfInBounds i (second.fold words)) :=
              s.updateSequence_fold words target (by simp)
            simp [applied, Except.map, pure, Except.pure, hupdate]
          · rfl
  | listAdd | stackPush =>
      have hupdate : (s.updateSequence target (·.push first)).fold words =
          (s.fold words).updateSequence target (·.push (first.fold words)) :=
        s.updateSequence_fold words target (by simp)
      simp [applied, Except.map, hupdate, Value.fold]
  | mapGet =>
      cases lookupEntry first (s.mapEntries target) with
      | none => rfl
      | some value => rfl
  | mapPut =>
      have hupdate := s.updateMap_fold words target (putEntry_fold words first second)
      simp [applied, Except.map, hupdate]
  | mapContains => simp [applied, Except.map, Value.fold]
  | stackPop =>
      have hupdate : (s.updateSequence target Array.pop).fold words =
          (s.fold words).updateSequence target Array.pop :=
        s.updateSequence_fold words target (by simp)
      simp only [Array.back?_map]
      cases (s.sequence target).back? with
      | none => rfl
      | some value => simp [applied, Except.map, hupdate]
  | stackPeek =>
      simp only [Array.back?_map]
      cases (s.sequence target).back? with
      | none => rfl
      | some value => rfl
  | stackIsEmpty => simp [applied, Except.map, Value.fold, Array.isEmpty]

@[simp] theorem length_fold (s : Store) (value : Value) :
    (s.fold words).length (value.fold words) = s.length value := by
  cases value <;> simp [Value.fold, length, Value.typeName]

end Store

theorem Value.copy_fold (text : Value) (start stop : Nat) :
    (text.fold words).copy start stop = (text.copy start stop).map (Value.fold words) := by
  cases text with
  | string s =>
      simp only [Value.fold, copy]
      split <;> rfl
  | _ => rfl

namespace Store

@[simp] theorem hostCalls_fold (s : Store) : (s.fold words).hostCalls = s.hostCalls :=
  rfl

theorem entering_fold (s : Store) (op : NativeOp) :
    (s.entering op).fold words = (s.fold words).entering op := by
  unfold entering
  split <;> rfl

theorem write_fold (s : Store) (host : Host) (text : String) :
    (s.fold words).applied ((s.fold words).write host text) =
      (s.applied (s.write host text)).map (Prod.map (Value.fold words) (Store.fold words)) := by
  simp only [write, hostCalls_fold]
  cases host.refusal? s.hostCalls with
  | none => rfl
  | some reason => rfl

theorem callBuiltin_fold (s : Store) (host : Host) (op : Builtin) (values : List Value) :
    (s.fold words).applied ((s.fold words).callBuiltin host op (values.map (Value.fold words))) =
      (s.applied (s.callBuiltin host op values)).map
        (Prod.map (Value.fold words) (Store.fold words)) := by
  have hsequences : (s.fold words).sequences.size = s.sequences.size := by simp [fold]
  have hmaps : (s.fold words).maps.size = s.maps.size := by simp [fold]
  unfold callBuiltin
  simp only [← List.map_tail, headD_fold, display_fold, hsequences, hmaps]
  generalize values.headD .nil = first
  generalize values.tail.headD .nil = second
  generalize values.tail.tail.headD .nil = third
  cases op with
  | writeLn | write => exact s.write_fold words host _
  | str | clock => rfl
  | ord =>
      simp only [Value.ordinal_fold]
      cases first.ordinal with
      | error fault => rfl
      | ok n => rfl
  | copy =>
      simp only [Value.toIndex_fold, Value.copy_fold]
      cases second.toIndex with
      | error fault => rfl
      | ok start =>
          cases third.toIndex with
          | error fault => rfl
          | ok stop =>
              simp only [bind, Except.bind]
              cases first.copy start stop with
              | error fault => rfl
              | ok text => rfl
  | length =>
      simp only [length_fold]
      cases s.length first with
      | error fault => rfl
      | ok n => rfl
  | array =>
      simp only [hostCalls_fold, Value.arraySize_fold]
      cases first.arraySize host s.hostCalls with
      | error fault => rfl
      | ok size =>
          have hnew := s.newSequence_fold words (Array.replicate size .nil)
          rw [Array.map_replicate] at hnew
          simp [applied, Except.map, bind, Except.bind, pure, Except.pure, Value.fold, hnew]
  | list | stack =>
      have hnew := s.newSequence_fold words #[]
      rw [Array.map_empty] at hnew
      simp [applied, Except.map, Value.fold, hnew]
  | map =>
      have hnew := s.newMap_fold words []
      rw [List.map_nil] at hnew
      simp [applied, Except.map, Value.fold, hnew]
  | assertTrue =>
      simp only [Value.isTruthy_fold]
      split <;> rfl
  | assertEqual =>
      simp only [Value.same_fold]
      split <;> rfl

theorem callNative_fold (s : Store) (host : Host) (op : NativeOp) (values : List Value) :
    (s.fold words).applied ((s.fold words).callNative host op (values.map (Value.fold words))) =
      (s.applied (s.callNative host op values)).map
        (Prod.map (Value.fold words) (Store.fold words)) := by
  cases op with
  | builtin op => exact s.callBuiltin_fold words host op values
  | member op target => exact s.callContainer_fold words op target values

/-! ## Choices -/

@[simp] theorem findOverload_fold (s : Store) (f : Fn) (types : List String) :
    (s.fold words).findOverload (f.fold words) types =
      (s.findOverload f types).map (Fn.fold words) := by
  unfold findOverload
  simp only [Fn.accepts_fold, parents_fold, overloadsOf_fold, List.find?_map, Function.comp_def]
  split <;> rfl

@[simp] theorem findMethodMatching_fold (s : Store) (cls : Class) (name : String)
    (types : List String) :
    (s.fold words).findMethodMatching (cls.fold words) name types =
      (s.findMethodMatching cls name types).map (Fn.fold words) := by
  unfold findMethodMatching
  rw [Class.findMethod_fold]
  cases cls.findMethod name with
  | none => rfl
  | some method => exact s.findOverload_fold words method types

@[simp] theorem findFunction_fold (s : Store) (env : Env) (name : String) (types : List String) :
    (s.fold words).findFunction env name types =
      (s.findFunction env name types).map (Fn.fold words) := by
  induction env with
  | nil => rfl
  | cons id outer ih =>
      simp only [findFunction, frame_fold, Table.find?_map, ih]
      cases (s.frame id).find? name with
      | none => rfl
      | some value =>
          cases value with
          | function f =>
              simp only [Option.map_some, Value.fold, findOverload_fold]
              cases s.findOverload f types with
              | none => rfl
              | some chosen => rfl
          | _ => rfl

@[simp] theorem boundInstance_fold (s : Store) (f : Fn) :
    (s.fold words).boundInstance (f.fold words) =
      (s.boundInstance f).map (Instance.fold words) := by
  unfold boundInstance
  rw [Fn.closure_fold, findHere?_fold]
  cases s.findHere? f.closure "this" with
  | none => rfl
  | some value => cases value <;> rfl

def Choice.fold : Choice → Choice
  | .function f => .function (f.fold words)
  | .method f self => .method (f.fold words) (self.fold words)

@[simp] theorem chooseMethod_fold (s : Store) (f : Fn) (types : List String) :
    (s.fold words).chooseMethod (f.fold words) types =
      (s.chooseMethod f types).map (Choice.fold words) := by
  unfold chooseMethod
  rw [boundInstance_fold]
  cases s.boundInstance f with
  | none => rfl
  | some self => simp [Function.comp_def, Choice.fold]

@[simp] theorem chooseOverload_fold (s : Store) (env : Env) (f : Fn) (types : List String) :
    (s.fold words).chooseOverload env (f.fold words) types =
      (s.chooseOverload env f types).map (Choice.fold words) := by
  simp [chooseOverload, Option.map_or, Function.comp_def, Choice.fold]

end Store

@[simp] theorem Eval.initializer?_fold (s : Store) (cls : Class) (types : List String) :
    initializer? (s.fold words) (cls.fold words) types =
      (initializer? s cls types).map (Fn.fold words) := by
  unfold initializer?
  simp only [Class.findMethod_fold, Store.findMethodMatching_fold, Option.map_map]
  congr 1
  funext first
  exact Option.getD_map _ _ _

namespace Exec

theorem ancestorNames_fold (value : Value) :
    ancestorNames (value.fold words) = ancestorNames value := by
  cases value with
  | object self =>
      simp [Value.fold, ancestorNames, Class.ancestry_fold, ← List.map_tail, Function.comp_def]
  | _ => rfl

theorem findHandler_fold (handlers : List (Handler Stmt)) (raised : Value) :
    findHandler (handlers.map (Handler.fold words)) (raised.fold words) =
      findHandler handlers raised := by
  have hhandles (name : String) : handles name ∘ Handler.fold words = handles name := rfl
  have hall : handlesAll ∘ Handler.fold words = handlesAll := rfl
  unfold findHandler
  simp only [Value.typeName_fold, ancestorNames_fold, List.findIdx?_map, hhandles, hall]

theorem bindParams_fold : ∀ (bindings : Table Value) (params : List Param) (values : List Value),
    (bindParams bindings params values).map (Value.fold words) =
      bindParams (bindings.map (Value.fold words)) params (values.map (Value.fold words))
  | _, [], _ => by simp [bindParams]
  | _, _ :: _, [] => by simp [bindParams]
  | bindings, param :: params, value :: values => by
      simp [bindParams, bindParams_fold _ params values]

theorem newClass_fold (name : String) (superclass : Option Class) (methods : Table Fn)
    (s : Store) :
    newClass name (superclass.map (Class.fold words)) (methods.map (Fn.fold words))
        (s.fold words) =
      ((newClass name superclass methods s).1.fold words,
        (newClass name superclass methods s).2.fold words) := by
  have hname : Class.name ∘ Class.fold words = Class.name := by
    funext cls
    exact cls.name_fold words
  unfold newClass
  rw [Class.fold_mk, Option.map_map, hname]
  rfl

end Exec

end MiniPascal
