import MiniPascal.Machine.Overload
import MiniPascal.Typing.Lookup

/-!
# Names above a name

A climb passes the names above its start, one after the other.  It gets to the expected name if that
is among them, unless a name in front of it has the key of one that was passed before.
-/

namespace MiniPascal

/-! ## Runs of a climb -/

section Chains

variable {parent? : String → Option String} {key : String → String} {expected : String}

theorem climb_none (fuel : Nat) (seen : List String) :
    climb parent? key expected fuel seen none = false := by
  cases fuel <;> rfl

theorem length_ahead_lt {domain seen : List String} {name : String} (hname : name ∈ domain)
    (hnew : key name ∉ seen) :
    (domain.filter fun other => decide (key other ∉ key name :: seen)).length <
      (domain.filter fun other => decide (key other ∉ seen)).length := by
  have hahead : name ∈ domain.filter fun other => decide (key other ∉ seen) :=
    List.mem_filter.mpr ⟨hname, decide_eq_true hnew⟩
  have hsplit : (domain.filter fun other => decide (key other ∉ key name :: seen)) =
      (domain.filter fun other => decide (key other ∉ seen)).filter
        fun other => decide (key other ≠ key name) := by
    rw [List.filter_filter]
    refine List.filter_congr fun other _ => ?_
    simp [not_or]
  rw [hsplit]
  exact List.length_filter_lt_length_iff_exists.mpr ⟨name, hahead, by simp⟩

/-- More fuel than there are names with a parent makes no difference. -/
theorem climb_fuel {domain : List String}
    (hdomain : ∀ name, (parent? name).isSome → name ∈ domain) :
    ∀ {fuel fuel' : Nat} {seen : List String} {start : Option String},
      (domain.filter fun name => decide (key name ∉ seen)).length < fuel → fuel ≤ fuel' →
        climb parent? key expected fuel' seen start = climb parent? key expected fuel seen start
  | 0, _, _, _, hcount, _ => by cases hcount
  | fuel + 1, 0, _, _, _, hle => by cases hle
  | fuel + 1, fuel' + 1, seen, none, _, _ => by rw [climb_none, climb_none]
  | fuel + 1, fuel' + 1, seen, some name, hcount, hle => by
      rw [climb, climb]
      split
      · rfl
      split
      · rfl
      · next hnew =>
        cases hparent : parent? name with
        | none => rw [climb_none, climb_none]
        | some parent =>
            refine climb_fuel hdomain ?_ (Nat.le_of_succ_le_succ hle)
            have hless := length_ahead_lt (hdomain name (by rw [hparent]; rfl)) hnew
            omega

theorem climb_congr {other? : String → Option String} {T : String → Prop}
    (hsame : ∀ name, T name → other? name = parent? name)
    (hclosed : ∀ name parent, parent? name = some parent → T parent) :
    ∀ {fuel : Nat} {seen : List String} {start : Option String}, (∀ name ∈ start, T name) →
      climb other? key expected fuel seen start = climb parent? key expected fuel seen start
  | _, _, none, _ => by rw [climb_none, climb_none]
  | 0, _, some _, _ => rfl
  | fuel + 1, seen, some name, hstart => by
      rw [climb, climb, hsame name (hstart name rfl)]
      split
      · rfl
      split
      · rfl
      · exact climb_congr hsame hclosed fun parent hparent => hclosed name parent hparent

/-! ## The expected name -/

/-- The chain of parents from a name meets the expected name for the first time after so many
steps. -/
inductive Meets (parent? : String → Option String) (expected : String) : Nat → String → Prop
  | here {name : String} (hname : Text.sameName name expected = true) :
      Meets parent? expected 0 name
  | next {steps : Nat} {name parent : String} (hname : Text.sameName name expected = false)
      (hparent : parent? name = some parent) (hrest : Meets parent? expected steps parent) :
      Meets parent? expected (steps + 1) name

def chain (parent? : String → Option String) : Nat → Option String → List String
  | 0, _ => []
  | _ + 1, none => []
  | steps + 1, some name => name :: chain parent? steps (parent? name)

namespace Meets

theorem unique {m n : Nat} {name : String} (h : Meets parent? expected m name)
    (h' : Meets parent? expected n name) : m = n := by
  induction h generalizing n with
  | here hname =>
      cases h' with
      | here _ => rfl
      | next hname' _ _ =>
          rw [hname] at hname'
          cases hname'
  | next hname hparent _ ih =>
      cases h' with
      | here hname' =>
          rw [hname] at hname'
          cases hname'
      | next _ hparent' hrest' =>
          rw [hparent] at hparent'
          cases hparent'
          rw [ih hrest']

theorem of_climb {fuel : Nat} {seen : List String} {name : String}
    (h : MiniPascal.climb parent? key expected fuel seen (some name) = true) :
    ∃ steps, Meets parent? expected steps name := by
  induction fuel generalizing seen name with
  | zero => cases h
  | succ fuel ih =>
      rw [MiniPascal.climb] at h
      split at h
      · next hname => exact ⟨0, .here hname⟩
      · next hname =>
          split at h
          · cases h
          · cases hparent : parent? name with
            | none =>
                rw [hparent, climb_none] at h
                cases h
            | some parent =>
                rw [hparent] at h
                rcases ih h with ⟨steps, hrest⟩
                exact ⟨steps + 1, .next (Bool.eq_false_iff.mpr hname) hparent hrest⟩

/-- A climb gets to the expected name unless the key of a name in front of it comes twice. -/
theorem climb_iff {steps : Nat} {name : String} (h : Meets parent? expected steps name) :
    ∀ {fuel : Nat} {seen : List String}, steps < fuel →
      (climb parent? key expected fuel seen (some name) = true ↔
        ((chain parent? steps (some name)).map key).Nodup ∧
          ∀ passed ∈ chain parent? steps (some name), key passed ∉ seen) := by
  induction h with
  | here hname =>
      intro fuel seen hfuel
      cases fuel with
      | zero => cases hfuel
      | succ fuel =>
          rw [climb, if_pos hname, chain]
          exact ⟨fun _ => ⟨List.nodup_nil, List.forall_mem_nil _⟩, fun _ => rfl⟩
  | @next steps name parent hname hparent hrest ih =>
      intro fuel seen hfuel
      cases fuel with
      | zero => cases hfuel
      | succ fuel =>
          rw [climb, hname, if_neg Bool.false_ne_true, chain, hparent, List.map_cons,
            List.nodup_cons, List.forall_mem_cons]
          by_cases hseen : key name ∈ seen
          · rw [if_pos hseen]
            exact ⟨nofun, fun h => absurd hseen h.2.1⟩
          · rw [if_neg hseen, ih (Nat.lt_of_succ_lt_succ hfuel), List.mem_map]
            -- the names behind have the key neither of the first one nor of those seen before
            constructor
            · rintro ⟨hnodup, hnew⟩
              refine ⟨⟨?_, hnodup⟩, hseen, ?_⟩
              · rintro ⟨passed, hpassed, hkey⟩
                exact hnew passed hpassed (hkey ▸ List.mem_cons_self)
              · exact fun passed hpassed hold => hnew passed hpassed (List.mem_cons_of_mem _ hold)
            · rintro ⟨⟨hfirst, hnodup⟩, -, hnew⟩
              refine ⟨hnodup, fun passed hpassed hmem => ?_⟩
              rcases List.mem_cons.mp hmem with hkey | hold
              · exact hfirst ⟨passed, hpassed, hkey⟩
              · exact hnew passed hpassed hold

/-- The names in front of the expected one are nearer to it, one after the other. -/
theorem of_mem_chain {steps : Nat} {name passed : String} (h : Meets parent? expected steps name)
    (hpassed : passed ∈ chain parent? steps (some name)) :
    ∃ rest, rest ≤ steps ∧ Meets parent? expected rest passed := by
  induction h with
  | here _ => cases hpassed
  | @next steps name parent hname hparent hrest ih =>
      rw [chain, hparent] at hpassed
      rcases List.mem_cons.mp hpassed with rfl | hpassed
      · exact ⟨steps + 1, Nat.le_refl _, .next hname hparent hrest⟩
      · rcases ih hpassed with ⟨rest, hle, hmeets⟩
        exact ⟨rest, Nat.le_succ_of_le hle, hmeets⟩

theorem nodup_chain {steps : Nat} {name : String} (h : Meets parent? expected steps name) :
    (chain parent? steps (some name)).Nodup := by
  induction h with
  | here _ => exact List.nodup_nil
  | @next steps name parent hname hparent hrest ih =>
      rw [chain, hparent, List.nodup_cons]
      refine ⟨fun hmem => ?_, ih⟩
      rcases hrest.of_mem_chain hmem with ⟨rest, hle, hmeets⟩
      have hsteps := hmeets.unique (.next hname hparent hrest)
      omega

end Meets

/-- Some name is met along a chain if it is the first one or if it is met from the second one. -/
theorem exists_meets_iff {name : String} : (∃ steps, Meets parent? expected steps name) ↔
    Text.sameName name expected = true ∨
      ∃ parent, parent? name = some parent ∧ ∃ steps, Meets parent? expected steps parent := by
  constructor
  · rintro ⟨steps, hmeets⟩
    cases hmeets with
    | here hname => exact .inl hname
    | next _ hparent hrest => exact .inr ⟨_, hparent, _, hrest⟩
  · intro h
    by_cases hname : Text.sameName name expected = true
    · exact ⟨0, .here hname⟩
    · rcases h.resolve_left hname with ⟨parent, hparent, steps, hrest⟩
      exact ⟨steps + 1, .next (Bool.eq_false_iff.mpr hname) hparent hrest⟩

/-- Whatever is met from a name on the chain is met from its start. -/
theorem exists_meets_of_mem_chain {steps : Nat} {name passed : String}
    (hpassed : passed ∈ chain parent? steps (some name))
    (h : ∃ rest, Meets parent? expected rest passed) :
    ∃ rest, Meets parent? expected rest name := by
  induction steps generalizing name with
  | zero => cases hpassed
  | succ steps ih =>
      rcases List.mem_cons.mp hpassed with rfl | hpassed
      · exact h
      · cases hparent : parent? name with
        | none =>
            rw [hparent] at hpassed
            cases steps <;> cases hpassed
        | some parent =>
            rw [hparent] at hpassed
            exact exists_meets_iff.mpr (.inr ⟨parent, hparent, ih hpassed⟩)

/-- With more fuel than there are names with a parent, a climb gets to the expected name if that is
met and the key of no name in front of it comes twice. -/
theorem climb_eq_true_iff {domain : List String}
    (hdomain : ∀ name, (parent? name).isSome → name ∈ domain) {fuel : Nat}
    (hfuel : domain.length < fuel) {start : Option String} :
    climb parent? key expected fuel [] start = true ↔
      ∃ name steps, start = some name ∧ Meets parent? expected steps name ∧
        ((chain parent? steps (some name)).map key).Nodup := by
  cases start with
  | none =>
      rw [climb_none]
      simp
  | some name =>
      -- fuel enough for the steps may be added
      have hmore (steps : Nat) : climb parent? key expected fuel [] (some name) =
          climb parent? key expected (fuel + (steps + 1)) [] (some name) :=
        (climb_fuel hdomain (Nat.lt_of_le_of_lt (List.length_filter_le _ _) hfuel)
          (Nat.le_add_right _ _)).symm
      have hrun {steps : Nat} (hmeets : Meets parent? expected steps name) :
          climb parent? key expected fuel [] (some name) = true ↔
            ((chain parent? steps (some name)).map key).Nodup := by
        rw [hmore steps, hmeets.climb_iff (by omega)]
        simp
      constructor
      · intro hclimb
        rcases Meets.of_climb hclimb with ⟨steps, hmeets⟩
        exact ⟨name, steps, rfl, hmeets, (hrun hmeets).mp hclimb⟩
      · rintro ⟨other, steps, hname, hmeets, hnodup⟩
        cases hname
        exact (hrun hmeets).mpr hnodup

end Chains

/-! ## Tables of parents -/

theorem Table.mem_of_find? {table : Table α} {name : String} (h : (table.find? name).isSome) :
    name ∈ table.entries.map Prod.fst := by
  rcases List.lookup_isSome_iff.mp h with ⟨entry, hentry, hname⟩
  rw [eq_of_beq hname]
  exact List.mem_map_of_mem hentry

/-- A name is a subtype of those above it in the table of parents. -/
theorem isSubtype_iff {parents : Table String} {expected actual : String} :
    isSubtype parents expected actual = true ↔
      ∃ parent, parents.find? actual = some parent ∧
        ∃ steps, Meets parents.find? expected steps parent := by
  have hlength : (parents.entries.map Prod.fst).length < parents.size + 1 := by
    rw [List.length_map]
    exact Nat.lt_succ_self _
  unfold isSubtype
  rw [climb_eq_true_iff (fun _ => Table.mem_of_find?) hlength]
  constructor
  · rintro ⟨parent, steps, hparent, hmeets, -⟩
    exact ⟨parent, hparent, steps, hmeets⟩
  · rintro ⟨parent, hparent, steps, hmeets⟩
    exact ⟨parent, steps, hparent, hmeets, by rw [List.map_id]; exact hmeets.nodup_chain⟩

end MiniPascal
