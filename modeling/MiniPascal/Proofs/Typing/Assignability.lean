import MiniPascal.Proofs.Typing.Separation

/-!
# Assignable types

A type is assignable to another one that it equals up to letter case, or that is met on the chain of
its parents.  Parents are looked up under the name as it is spelled, but the walk up the chain ends
at a name that was passed before in any spelling.  So it agrees with the subtypes by which calls
choose functions, unless it passes one name in two spellings; and types are assignable along other
types as long as these are spelled as the chain spells them.
-/

namespace MiniPascal

/-- No name is passed in two spellings on the way up from a name, in front of the expected one. -/
def Straight (parent? : String → Option String) (expected actual : String) : Prop :=
  ∀ name steps, parent? actual = some name → Meets parent? expected steps name →
    (chain parent? steps (some name)).Pairwise fun a b => Text.sameName a b = false

theorem nodup_lower_iff {names : List String} :
    (names.map Text.lower).Nodup ↔ names.Pairwise fun a b => Text.sameName a b = false := by
  rw [List.Nodup, List.pairwise_map]
  refine List.Pairwise.iff fun {a b} => ?_
  rw [Bool.eq_false_iff, Ne, Ne, Text.sameName_iff]

theorem Meets.exists_mem_chain {parent? : String → Option String} {expected name : String}
    {steps : Nat} (h : Meets parent? expected steps name) :
    ∃ spelling ∈ chain parent? (steps + 1) (some name),
      Text.sameName spelling expected = true := by
  induction h with
  | @here name hname => exact ⟨name, List.mem_cons_self, hname⟩
  | @next steps name parent _ hparent _ ih =>
      rcases ih with ⟨spelling, hmem, hsame⟩
      refine ⟨spelling, ?_, hsame⟩
      rw [chain, hparent]
      exact List.mem_cons_of_mem _ hmem

namespace TypeLookup

variable {lookup : TypeLookup} {expected actual : String}

/-- A type is assignable to itself in any spelling, and to those above it as long as the way up to
them is straight. -/
theorem isAssignable_iff :
    lookup.isAssignable expected actual = true ↔ Text.sameName expected actual = true ∨
      (∃ name, lookup.parents.find? actual = some name ∧
        ∃ steps, Meets lookup.parents.find? expected steps name) ∧
      Straight lookup.parents.find? expected actual := by
  have hlength : lookup.parents.domain.length < lookup.parents.size + 1 := by
    rw [TypeTable.length_domain]
    exact Nat.lt_succ_self _
  unfold isAssignable
  rw [Bool.or_eq_true, climb_eq_true_iff (fun _ => TypeTable.mem_domain) hlength]
  refine or_congr_right ⟨?_, ?_⟩
  · rintro ⟨name, steps, hname, hmeets, hnodup⟩
    refine ⟨⟨name, hname, steps, hmeets⟩, fun other more hother hmore => ?_⟩
    rw [hname] at hother
    cases hother
    rw [hmore.unique hmeets]
    exact nodup_lower_iff.mp hnodup
  · rintro ⟨⟨name, hname, steps, hmeets⟩, hstraight⟩
    exact ⟨name, steps, hname, hmeets, nodup_lower_iff.mpr (hstraight name steps hname hmeets)⟩

theorem exists_meets_of_isAssignable (h : lookup.isAssignable expected actual = true) :
    ∃ steps, Meets lookup.parents.find? expected steps actual := by
  rw [exists_meets_iff, Text.sameName_comm]
  exact (isAssignable_iff.mp h).imp_right And.left

/-- Of the types that are met from a type, it is assignable to those that the way up to is
straight. -/
theorem isAssignable_iff_of_meets
    (h : ∃ steps, Meets lookup.parents.find? expected steps actual) :
    lookup.isAssignable expected actual = true ↔
      Text.sameName expected actual = true ∨ Straight lookup.parents.find? expected actual := by
  rw [exists_meets_iff, Text.sameName_comm] at h
  rw [isAssignable_iff]
  constructor
  · exact Or.imp_right And.right
  · rintro (hsame | hstraight)
    · exact .inl hsame
    · exact h.imp_right fun habove => ⟨habove, hstraight⟩

/-! ## Assignable types and subtypes -/

/-- Over one table of parents, a type is assignable only to itself, in any spelling, and to its
supertypes; and it is assignable to all of them to which the way up passes no name in two
spellings, and to no other ones. -/
theorem isAssignable_eq_isSubtype_iff {parents : Table String}
    (h : ∀ name, lookup.parents.find? name = parents.find? name) (expected actual : String) :
    (lookup.isAssignable expected actual = true →
        Text.sameName expected actual = true ∨ isSubtype parents expected actual = true) ∧
      (lookup.isAssignable expected actual =
          (Text.sameName expected actual || isSubtype parents expected actual) ↔
        Text.sameName expected actual = true ∨ Straight parents.find? expected actual) := by
  have hparents : lookup.parents.find? = parents.find? := funext h
  have hassignable : lookup.isAssignable expected actual = true ↔
      Text.sameName expected actual = true ∨
        isSubtype parents expected actual = true ∧ Straight parents.find? expected actual := by
    rw [isAssignable_iff, hparents, isSubtype_iff]
  refine ⟨fun hrun => (hassignable.mp hrun).imp_right And.left, ?_⟩
  rw [Bool.eq_iff_iff, Bool.or_eq_true, hassignable]
  constructor
  · intro hagree
    by_cases habove : isSubtype parents expected actual = true
    · exact (hagree.mpr (.inr habove)).imp_right And.right
    · -- nothing is passed on the way to a name that is not met
      refine .inr fun name steps hname hmeets => absurd ?_ habove
      exact isSubtype_iff.mpr ⟨name, hname, steps, hmeets⟩
  · rintro (hsame | hstraight)
    · exact ⟨fun _ => .inl hsame, fun _ => .inl hsame⟩
    · exact or_congr_right (and_iff_left hstraight)

/-- What is known when only the parents of classes are recorded. -/
def ofParents (parents : Table String) : TypeLookup :=
  { empty with parents := { global := parents, scopes := [] } }

/-- `A` extends `B`, which extends the class `b`, which extends `C`. -/
def respelledParents : Table String :=
  .ofList [("A", "B"), ("B", "b"), ("b", "C")]

/-- `B` and `b` are both assignable to `C`.  Their subclass `A` is not, though it is a subtype, as
both of them are passed on the way. -/
theorem isAssignable_eq_isSubtype_iff_respelled :
    (ofParents respelledParents).isAssignable "C" "B" =
        (Text.sameName "C" "B" || isSubtype respelledParents "C" "B") ∧
      (ofParents respelledParents).isAssignable "c" "B" = true ∧
      (ofParents respelledParents).isAssignable "C" "A" = false ∧
      isSubtype respelledParents "C" "A" = true ∧
      ¬Straight respelledParents.find? "C" "A" := by
  have hparents (name : String) :
      (ofParents respelledParents).parents.find? name = respelledParents.find? name := rfl
  have hnot : (ofParents respelledParents).isAssignable "C" "A" = false := by decide +kernel
  have hsubtype : isSubtype respelledParents "C" "A" = true := by decide +kernel
  refine ⟨?_, by decide +kernel, hnot, hsubtype, fun hstraight => ?_⟩
  · refine (isAssignable_eq_isSubtype_iff hparents "C" "B").2.mpr (.inr ?_)
    have hassignable : (ofParents respelledParents).isAssignable "C" "B" = true := by
      decide +kernel
    exact ((isAssignable_iff.mp hassignable).resolve_left (by decide)).2
  · have hagree := (isAssignable_eq_isSubtype_iff hparents "C" "A").2.mpr (.inr hstraight)
    rw [hnot, hsubtype, Bool.or_true] at hagree
    cases hagree

/-! ## Assignable along other types -/

theorem of_mem_chain {parent? : String → Option String} {known : String → Prop}
    (hclosed : ∀ name parent, known name → parent? name = some parent → known parent)
    {steps : Nat} {name : String} (hname : known name) :
    ∀ passed ∈ chain parent? steps (some name), known passed := by
  induction steps generalizing name with
  | zero => exact List.forall_mem_nil _
  | succ steps ih =>
      rw [chain, List.forall_mem_cons]
      refine ⟨hname, ?_⟩
      cases hparent : parent? name with
      | none =>
          have hnil : chain parent? steps none = [] := by cases steps <;> rfl
          rw [hnil]
          exact List.forall_mem_nil _
      | some parent => exact ih (hclosed name parent hname hparent)

/-- Assignability is reflexive.  If `c` is assignable to `b`, then the chain from `c` has `b` in some
spelling, and whatever takes this one takes `c`, unless the way up to it passes a name in two
spellings.  Among types of which each has one spelling, assignability is transitive. -/
theorem isAssignable_preorder (lookup : TypeLookup) :
    (∀ a, lookup.isAssignable a a = true) ∧
      (∀ b c, lookup.isAssignable b c = true → ∃ spelling steps,
        Text.sameName b spelling = true ∧
          spelling ∈ chain lookup.parents.find? steps (some c) ∧
          ∀ a, lookup.isAssignable a spelling = true →
            (lookup.isAssignable a c = true ↔
              Text.sameName a c = true ∨ Straight lookup.parents.find? a c)) ∧
      ∀ known : String → Prop,
        (∀ name parent, known name → lookup.parents.find? name = some parent → known parent) →
        (∀ name other, known name → known other → Text.sameName name other = true →
          name = other) →
        ∀ a b c, known b → known c → lookup.isAssignable a b = true →
          lookup.isAssignable b c = true → lookup.isAssignable a c = true := by
  have hmiddle (b c : String) (h : lookup.isAssignable b c = true) : ∃ spelling steps,
      Text.sameName b spelling = true ∧ spelling ∈ chain lookup.parents.find? steps (some c) ∧
        ∀ a, lookup.isAssignable a spelling = true →
          (lookup.isAssignable a c = true ↔
            Text.sameName a c = true ∨ Straight lookup.parents.find? a c) := by
    rcases exists_meets_of_isAssignable h with ⟨steps, hmeets⟩
    rcases hmeets.exists_mem_chain with ⟨spelling, hmem, hsame⟩
    rw [Text.sameName_comm] at hsame
    refine ⟨spelling, steps + 1, hsame, hmem, fun a ha => ?_⟩
    exact isAssignable_iff_of_meets
      (exists_meets_of_mem_chain hmem (exists_meets_of_isAssignable ha))
  refine ⟨fun a => isAssignable_iff.mpr (.inl (Text.sameName_self a)), hmiddle, ?_⟩
  intro known hclosed hspelled a b c hb hc hab hbc
  rcases hmiddle b c hbc with ⟨spelling, steps, hsame, hmem, htakes⟩
  have hspelling : known spelling := of_mem_chain hclosed hc spelling hmem
  rw [hspelled b spelling hb hspelling hsame] at hab
  refine (htakes a hab).mpr (.inr fun name steps hname hmeets => ?_)
  -- names that are passed one after the other are different, so they differ in more than case
  have hall : ∀ passed ∈ chain lookup.parents.find? steps (some name), known passed :=
    of_mem_chain hclosed (hclosed c name hc hname)
  refine List.Pairwise.imp_of_mem (fun {x y} hx hy hne => ?_) hmeets.nodup_chain
  exact Bool.eq_false_iff.mpr fun heq => hne (hspelled x y (hall x hx) (hall y hy) heq)

/-- `A`, `B` and `C` extend each other in a circle. -/
def circularParents : Table String :=
  .ofList [("A", "B"), ("B", "C"), ("C", "A")]

/-- In a circle all classes are assignable to each other.  But a class `b` that extends `C` can be
assigned to `C`, and `B` to `b`, and still not `B` to `C`. -/
theorem isAssignable_preorder_circular :
    (ofParents circularParents).isAssignable "a" "C" = true ∧
      (ofParents (.ofList [("b", "C")])).isAssignable "C" "b" = true ∧
      (ofParents (.ofList [("b", "C")])).isAssignable "b" "B" = true ∧
      (ofParents (.ofList [("b", "C")])).isAssignable "C" "B" = false := by
  have hclosed : ∀ name parent, name ∈ ["A", "B", "C"] →
      (ofParents circularParents).parents.find? name = some parent →
        parent ∈ ["A", "B", "C"] := by
    have hall : ∀ name ∈ ["A", "B", "C"],
        ∃ parent ∈ ["A", "B", "C"],
          (ofParents circularParents).parents.find? name = some parent := by
      decide +kernel
    intro name parent hname hparent
    rcases hall name hname with ⟨other, hother, hfound⟩
    rw [hparent] at hfound
    cases hfound
    exact hother
  have hspelled : ∀ name other, name ∈ ["A", "B", "C"] → other ∈ ["A", "B", "C"] →
      Text.sameName name other = true → name = other := by
    have hall : ∀ name ∈ ["A", "B", "C"], ∀ other ∈ ["A", "B", "C"],
        Text.sameName name other = true → name = other := by decide +kernel
    exact fun name other hname hother => hall name hname other hother
  refine ⟨?_, by decide +kernel, by decide +kernel, by decide +kernel⟩
  exact (isAssignable_preorder (ofParents circularParents)).2.2 (· ∈ ["A", "B", "C"]) hclosed
    hspelled "a" "B" "C" (by decide) (by decide) (by decide +kernel) (by decide +kernel)

end TypeLookup

end MiniPascal
