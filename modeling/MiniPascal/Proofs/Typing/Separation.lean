import MiniPascal.Proofs.Typing.Climbing
import MiniPascal.Proofs.Typing.Vocabulary

/-!
# Checks among other declarations

What is known about the symbols that a check looks up decides it.  Two states of knowledge that
agree on them, one of them with more behind it, lead to the same outcome, and nothing but the
symbols of the statements is recorded on the way.
-/

namespace MiniPascal

namespace TypeTable

def domain (table : TypeTable) : List String :=
  table.scopes.flatMap (fun scope => scope.entries.map Prod.fst) ++
    table.global.entries.map Prod.fst

theorem length_domain (table : TypeTable) : table.domain.length = table.size := by
  have hfold (scopes : List (Table String)) : ∀ count : Nat,
      scopes.foldl (fun count scope => count + scope.size) count =
        (scopes.flatMap fun scope => scope.entries.map Prod.fst).length + count := by
    induction scopes with
    | nil => intro count; simp
    | cons scope rest ih =>
        intro count
        rw [List.foldl_cons, ih, List.flatMap_cons, List.length_append, List.length_map, Table.size]
        omega
  rw [size, hfold, domain, List.length_append, List.length_map, Table.size]

theorem mem_domain {table : TypeTable} {symbol : String} (h : (table.find? symbol).isSome) :
    symbol ∈ table.domain := by
  rcases Option.isSome_iff_exists.mp h with ⟨type, htype⟩
  rcases Option.or_eq_some_iff.mp htype with hscope | ⟨-, hglobal⟩
  · rcases List.exists_of_findSome?_eq_some hscope with ⟨scope, hscope, hfind⟩
    refine List.mem_append_left _ (List.mem_flatMap.mpr ⟨scope, hscope, ?_⟩)
    exact Table.mem_of_find? (by rw [hfind]; rfl)
  · exact List.mem_append_right _ (Table.mem_of_find? (by rw [hglobal]; rfl))

/-! ## Parts of tables -/

section Part

variable (T D : String → Prop)

/-- At depth `n` one table is part of another: the scopes are the same, and so are global types of
all symbols that words with `T` speak of.  The other one has changed from `base` on for symbols
with `D` only. -/
structure Part (n : Nat) (base part whole : TypeTable) : Prop where
  scopes : whole.scopes = part.scopes
  depth : part.scopes.length = n
  shared : ∀ symbol, Typing.Spoken T symbol →
    whole.global.find? symbol = part.global.find? symbol
  kept : ∀ symbol, ¬D symbol → whole.global.find? symbol = base.global.find? symbol
  own : ∀ symbol, (part.global.find? symbol).isSome → D symbol
  globalTypes : ∀ symbol type, part.global.find? symbol = some type → T type
  scopeTypes : ∀ scope ∈ part.scopes, ∀ symbol type, scope.find? symbol = some type → T type

end Part

namespace Part

variable {T D : String → Prop} {n : Nat} {base part whole : TypeTable}

theorem find? (h : Part T D n base part whole) {symbol : String}
    (hsymbol : Typing.Spoken T symbol) : whole.find? symbol = part.find? symbol := by
  rw [TypeTable.find?, TypeTable.find?, h.scopes, h.shared symbol hsymbol]

theorem types (h : Part T D n base part whole) {symbol type : String}
    (htype : part.find? symbol = some type) : T type := by
  rcases Option.or_eq_some_iff.mp htype with hscope | ⟨-, hglobal⟩
  · rcases List.exists_of_findSome?_eq_some hscope with ⟨scope, hscope, hfind⟩
    exact h.scopeTypes scope hscope symbol type hfind
  · exact h.globalTypes symbol type hglobal

theorem set (h : Part T D n base part whole) {symbol type : String} (htype : T type)
    (hsymbol : n = 0 → D symbol) :
    Part T D n base (part.set symbol type) (whole.set symbol type) := by
  have hscopes := h.scopes
  have hdepth := h.depth
  unfold TypeTable.set
  cases hpart : part.scopes with
  | nil =>
      rw [hpart] at hscopes hdepth
      rw [hscopes]
      have hown := hsymbol hdepth.symm
      refine ⟨rfl, hdepth, ?_, ?_, ?_, ?_, fun scope hscope => by cases hscope⟩
      · intro other hother
        rw [Table.find?_insert, Table.find?_insert, h.shared other hother]
      · intro other hother
        have hne : other ≠ symbol := fun heq => hother (heq ▸ hown)
        rw [Table.find?_insert, if_neg hne]
        exact h.kept other hother
      · intro other hother
        rw [Table.find?_insert] at hother
        split at hother
        · next heq => exact heq ▸ hown
        · exact h.own other hother
      · intro other found hfound
        rw [Table.find?_insert] at hfound
        split at hfound
        · cases hfound
          exact htype
        · exact h.globalTypes other found hfound
  | cons scope outer =>
      rw [hpart] at hscopes hdepth
      rw [hscopes]
      refine ⟨rfl, hdepth, h.shared, h.kept, h.own, h.globalTypes, ?_⟩
      have hall := h.scopeTypes
      rw [hpart] at hall
      rcases List.forall_mem_cons.mp hall with ⟨hfirst, hrest⟩
      refine List.forall_mem_cons.mpr ⟨fun other found hfound => ?_, hrest⟩
      rw [Table.find?_insert] at hfound
      split at hfound
      · cases hfound
        exact htype
      · exact hfirst other found hfound

theorem enter (h : Part T D n base part whole) :
    Part T D (n + 1) base part.enter whole.enter := by
  refine ⟨congrArg (∅ :: ·) h.scopes, congrArg Nat.succ h.depth, h.shared, h.kept, h.own,
    h.globalTypes, ?_⟩
  refine List.forall_mem_cons.mpr ⟨fun symbol type htype => ?_, h.scopeTypes⟩
  cases htype

theorem leave (h : Part T D (n + 1) base part whole) :
    Part T D n base part.leave whole.leave := by
  refine ⟨congrArg List.tail h.scopes, ?_, h.shared, h.kept, h.own, h.globalTypes, ?_⟩
  · show part.scopes.tail.length = n
    rw [List.length_tail, h.depth]
    rfl
  · exact fun scope hscope => h.scopeTypes scope (List.mem_of_mem_tail hscope)

theorem own_of_find? (h : Part T D 0 base part whole) {symbol : String}
    (hsymbol : (part.find? symbol).isSome) : D symbol := by
  refine h.own symbol ?_
  rw [TypeTable.find?, List.eq_nil_of_length_eq_zero h.depth] at hsymbol
  exact hsymbol

end Part

end TypeTable

namespace TypeLookup

/-- One state of knowledge is part of another. -/
structure Part (T D : String → Prop) (n : Nat) (base part whole : TypeLookup) : Prop where
  declared : TypeTable.Part T D n base.declared part.declared whole.declared
  inferred : TypeTable.Part T D n base.inferred part.inferred whole.inferred
  parents : TypeTable.Part T D n base.parents part.parents whole.parents
  generics : TypeTable.Part T D n base.generics part.generics whole.generics
  partClass : part.currentClass = base.currentClass
  wholeClass : whole.currentClass = base.currentClass
  classType : ∀ name ∈ base.currentClass, T name

namespace Part

variable {T D : String → Prop} {n : Nat} {base part whole : TypeLookup}
variable (h : Part T D n base part whole)
include h

theorem enter : Part T D (n + 1) base part.enter whole.enter :=
  ⟨h.declared.enter, h.inferred.enter, h.parents.enter, h.generics.enter, h.partClass,
    h.wholeClass, h.classType⟩

omit h in
theorem leave (h : Part T D (n + 1) base part whole) : Part T D n base part.leave whole.leave :=
  ⟨h.declared.leave, h.inferred.leave, h.parents.leave, h.generics.leave, h.partClass,
    h.wholeClass, h.classType⟩

theorem declare {symbol type : String} (htype : T type) (hsymbol : n = 0 → D symbol) :
    Part T D n base (part.declare symbol type) (whole.declare symbol type) :=
  ⟨h.declared.set htype hsymbol, h.inferred, h.parents, h.generics, h.partClass, h.wholeClass,
    h.classType⟩

theorem infer {symbol type : String} (htype : T type) (hsymbol : n = 0 → D symbol) :
    Part T D n base (part.infer symbol type) (whole.infer symbol type) :=
  ⟨h.declared, h.inferred.set htype hsymbol, h.parents, h.generics, h.partClass, h.wholeClass,
    h.classType⟩

theorem inherit {symbol type : String} (htype : T type) (hsymbol : n = 0 → D symbol) :
    Part T D n base (part.inherit symbol type) (whole.inherit symbol type) :=
  ⟨h.declared, h.inferred, h.parents.set htype hsymbol, h.generics, h.partClass, h.wholeClass,
    h.classType⟩

theorem specialize {symbol type : String} (htype : T type) (hsymbol : n = 0 → D symbol) :
    Part T D n base (part.specialize symbol type) (whole.specialize symbol type) :=
  ⟨h.declared, h.inferred, h.parents, h.generics.set htype hsymbol, h.partClass, h.wholeClass,
    h.classType⟩

theorem withClass {base' : TypeLookup} {name : Option String} (hname : ∀ type ∈ name, T type)
    (hbase : base' = { base with currentClass := name }) :
    Part T D n base' { part with currentClass := name } { whole with currentClass := name } := by
  subst hbase
  exact ⟨h.declared, h.inferred, h.parents, h.generics, rfl, rfl, hname⟩

theorem isAssignable {expected actual : String} (hactual : T actual) :
    whole.isAssignable expected actual = part.isAssignable expected actual := by
  have hsame (name : String) (hname : T name) :
      whole.parents.find? name = part.parents.find? name := h.parents.find? (.inl hname)
  -- the chains are the same, and both runs have fuel enough for them
  have hfuel (lookup : TypeLookup) (fuel : Nat) (hle : lookup.parents.size + 1 ≤ fuel) :
      climb lookup.parents.find? Text.lower expected fuel [] (lookup.parents.find? actual) =
        climb lookup.parents.find? Text.lower expected (lookup.parents.size + 1) []
          (lookup.parents.find? actual) := by
    refine climb_fuel (fun name hname => TypeTable.mem_domain hname) ?_ hle
    rw [← TypeTable.length_domain]
    exact Nat.lt_succ_of_le (List.length_filter_le _ _)
  let fuel := part.parents.size + whole.parents.size + 1
  unfold TypeLookup.isAssignable
  rw [← hfuel part fuel (by omega), ← hfuel whole fuel (by omega), hsame actual hactual]
  rw [climb_congr hsame (fun name parent hparent => h.parents.types hparent)
    (fun name hname => h.parents.types hname)]

end Part

end TypeLookup

end MiniPascal
