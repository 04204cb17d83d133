import MiniPascal.Proofs.Typing.SeparateChecks

/-!
# Checking programs together and apart

Programs of which none looks up what another one declares can be checked one by one: put one behind
the other they pass if and only if each of them passes alone.
-/

namespace MiniPascal

/-! ## Changes elsewhere -/

/-- The global types of symbols with `K`, and the scopes, are as they were. -/
def TypeTable.Keeps (K : String → Prop) (table table' : TypeTable) : Prop :=
  table'.scopes = table.scopes ∧
    ∀ symbol, K symbol → table'.global.find? symbol = table.global.find? symbol

theorem TypeTable.keeps_set {K : String → Prop} {table : TypeTable} {symbol type : String}
    (hscopes : table.scopes = []) (hsymbol : ¬K symbol) :
    table.Keeps K (table.set symbol type) := by
  unfold TypeTable.set
  rw [hscopes]
  refine ⟨hscopes.symm, fun other hother => ?_⟩
  have hne : other ≠ symbol := fun heq => hsymbol (heq ▸ hother)
  exact (Table.find?_insert _ _ _ _).trans (if_neg hne)

theorem TypeTable.Keeps.refl {K : String → Prop} (table : TypeTable) : table.Keeps K table :=
  ⟨rfl, fun _ _ => rfl⟩

namespace TypeLookup

/-- Nothing has changed for symbols with `K`. -/
structure Keeps (K : String → Prop) (lookup lookup' : TypeLookup) : Prop where
  declared : lookup.declared.Keeps K lookup'.declared
  inferred : lookup.inferred.Keeps K lookup'.inferred
  parents : lookup.parents.Keeps K lookup'.parents
  generics : lookup.generics.Keeps K lookup'.generics
  currentClass : lookup'.currentClass = lookup.currentClass

end TypeLookup

theorem TypeTable.Part.rebase {T D : String → Prop} {n : Nat} {part whole whole' : TypeTable}
    (h : Part T D n whole part whole) (hkeeps : whole.Keeps (Typing.Spoken T) whole') :
    Part T D n whole' part whole' :=
  ⟨hkeeps.1.trans h.scopes, h.depth,
    fun symbol hsymbol => (hkeeps.2 symbol hsymbol).trans (h.shared symbol hsymbol),
    fun _ _ => rfl, h.own, h.globalTypes, h.scopeTypes⟩

theorem TypeTable.Part.settle {T D : String → Prop} {n : Nat} {base part whole : TypeTable}
    (h : Part T D n base part whole) : Part T D n whole part whole :=
  ⟨h.scopes, h.depth, h.shared, fun _ _ => rfl, h.own, h.globalTypes, h.scopeTypes⟩

namespace TypeLookup.Part

variable {T D : String → Prop} {n : Nat} {base part whole whole' : TypeLookup}

theorem rebase (h : Part T D n whole part whole) (hkeeps : whole.Keeps (Typing.Spoken T) whole') :
    Part T D n whole' part whole' := by
  refine ⟨h.declared.rebase hkeeps.declared, h.inferred.rebase hkeeps.inferred,
    h.parents.rebase hkeeps.parents, h.generics.rebase hkeeps.generics, ?_, rfl, ?_⟩
  · exact h.partClass.trans hkeeps.currentClass.symm
  · rw [hkeeps.currentClass]
    exact h.classType

theorem settle (h : Part T D n base part whole) : Part T D n whole part whole := by
  refine ⟨h.declared.settle, h.inferred.settle, h.parents.settle, h.generics.settle, ?_, rfl, ?_⟩
  · exact h.partClass.trans h.wholeClass.symm
  · rw [h.wholeClass]
    exact h.classType

end TypeLookup.Part

namespace Typing

variable {T D : String → Prop}

theorem part_empty : TypeLookup.Part T D 0 .empty .empty .empty := by
  have htable : TypeTable.Part T D 0 .empty .empty .empty := by
    refine ⟨rfl, rfl, fun _ _ => rfl, fun _ _ => rfl, ?_, ?_, ?_⟩
    · intro symbol h
      cases h
    · intro symbol type h
      cases h
    · intro scope h
      cases h
  exact ⟨htable, htable, htable, htable, rfl, rfl, fun _ h => by cases h⟩

/-- Declarations of symbols that are not spoken of leave a part what it is. -/
theorem register_elsewhere {part : TypeLookup} : ∀ {list : List Stmt} {whole : TypeLookup},
    (∀ symbol ∈ Stmt.listSymbols list, ¬Spoken T symbol) →
      TypeLookup.Part T D 0 whole part whole →
      TypeLookup.Part T D 0 (list.foldl register whole) part (list.foldl register whole)
  | [], _, _, h => h
  | s :: rest, whole, hsymbols, h => by
      have hfirst (symbol : String) (hsymbol : symbol ∈ s.symbols) : ¬Spoken T symbol :=
        hsymbols symbol (List.mem_append_left _ hsymbol)
      have hrest (symbol : String) (hsymbol : symbol ∈ Stmt.listSymbols rest) :
          ¬Spoken T symbol := hsymbols symbol (List.mem_append_right _ hsymbol)
      have htop {table known : TypeTable} (h : TypeTable.Part T D 0 table known table) :
          table.scopes = [] := h.scopes.trans (List.eq_nil_of_length_eq_zero h.depth)
      have hstep : Recording (fun _ whole => TypeLookup.Part T D 0 whole part whole) s :=
        ⟨fun h hsymbol _ => h.rebase ⟨TypeTable.keeps_set (htop h.declared) (hfirst _ hsymbol),
            .refl _, .refl _, .refl _, rfl⟩,
          fun h hsymbol _ => h.rebase ⟨.refl _, .refl _, .refl _,
            TypeTable.keeps_set (htop h.generics) (hfirst _ hsymbol), rfl⟩,
          fun h hsymbol _ => h.rebase ⟨.refl _, .refl _,
            TypeTable.keeps_set (htop h.parents) (hfirst _ hsymbol), .refl _, rfl⟩⟩
      rw [List.foldl_cons]
      exact register_elsewhere hrest (hstep.register (a := whole) h)

/-! ## Programs -/

/-- A program has no fault that checking its types finds. -/
def Passes (program : List Stmt) : Prop :=
  Diagnostic.anyError (checkProgram program).2 = false

instance (program : List Stmt) : Decidable (Passes program) :=
  inferInstanceAs (Decidable (_ = false))

/-- Neither of two programs looks up what the other one declares. -/
def Separate (a b : List Stmt) : Prop :=
  (∀ symbol ∈ Stmt.listSymbols a, symbol ∉ lookedUp b) ∧
    ∀ symbol ∈ Stmt.listSymbols b, symbol ∉ lookedUp a

instance (a b : List Stmt) : Decidable (Separate a b) :=
  inferInstanceAs (Decidable (_ ∧ _))

/-- What is known of a program before its statements are checked. -/
def recorded (program : List Stmt) : TypeLookup :=
  program.foldl register .empty

theorem passes_iff {program : List Stmt} : Passes program ↔
    ∃ lookup, checkEach none program (recorded program) = .ok () lookup := by
  have hrun : checkStmts none program .empty = checkEach none program (recorded program) := rfl
  unfold Passes checkProgram
  rw [hrun]
  cases checkEach none program (recorded program) with
  | ok _ lookup => exact ⟨fun _ => ⟨lookup, rfl⟩, fun _ => rfl⟩
  | error error lookup =>
      refine ⟨fun h => ?_, ?_⟩
      · cases h
      · rintro ⟨_, h⟩
        cases h

/-- A program among others: what it has recorded is part of what all have. -/
def Among (program : List Stmt) (whole : TypeLookup) : Prop :=
  TypeLookup.Part (· ∈ vocabulary program) (· ∈ Stmt.listSymbols program) 0 whole
    (recorded program) whole

theorem checkEach_among {program : List Stmt} {whole : TypeLookup} (h : Among program whole) :
    Same (· ∈ vocabulary program) (· ∈ Stmt.listSymbols program) 0 whole
      (checkEach none program) (checkEach none program) (recorded program) whole fun _ => True :=
  checkEach_same (fun _ => List.mem_append_left _) program (fun _ => List.mem_append_right _)
    (fun _ _ hsymbol => hsymbol) h

theorem not_spoken {a b : List Stmt} (h : ∀ symbol ∈ Stmt.listSymbols a, symbol ∉ lookedUp b) :
    ∀ symbol ∈ Stmt.listSymbols a, ¬Spoken (· ∈ vocabulary b) symbol :=
  fun symbol hsymbol hspoken => h symbol hsymbol (spoken_iff.mp hspoken)

theorem among_recorded {program : List Stmt} {before after : List (List Stmt)}
    (hbefore : ∀ other ∈ before, Separate other program)
    (hafter : ∀ other ∈ after, Separate program other) :
    Among program (recorded (before ++ program :: after).flatten) := by
  have helsewhere {others : List (List Stmt)}
      (hothers : ∀ other ∈ others, ∀ symbol ∈ Stmt.listSymbols other,
        symbol ∉ lookedUp program) :
      ∀ symbol ∈ Stmt.listSymbols others.flatten, ¬Spoken (· ∈ vocabulary program) symbol := by
    intro symbol hsymbol
    rcases List.mem_flatMap.mp hsymbol with ⟨s, hs, hsymbol⟩
    rcases List.mem_flatten.mp hs with ⟨other, hother, hs⟩
    exact not_spoken (hothers other hother) symbol (List.mem_flatMap.mpr ⟨s, hs, hsymbol⟩)
  rw [recorded, List.flatten_append, List.flatten_cons, List.foldl_append, List.foldl_append]
  refine register_elsewhere (helsewhere fun other hother => (hafter other hother).2) ?_
  have hstart := register_elsewhere (D := (· ∈ Stmt.listSymbols program))
    (helsewhere fun other hother => (hbefore other hother).1) part_empty
  exact (register_part (fun _ => List.mem_append_left _) (fun _ => List.mem_append_right _)
    (fun _ _ hsymbol => hsymbol) hstart).settle

theorem checkEach_append (around : Option Callable) (xs ys : List Stmt) :
    checkEach around (xs ++ ys) = checkEach around xs >>= fun _ => checkEach around ys := by
  induction xs with
  | nil => rfl
  | cons s rest ih =>
      rw [List.cons_append, checkEach, checkEach, ih]
      exact (bind_assoc _ _ _).symm

/-- Checking a program leaves the others among the whole. -/
theorem Among.after {program other : List Stmt} {whole whole' part' : TypeLookup}
    (hother : Among other whole) (hseparate : Separate program other)
    (h : TypeLookup.Part (· ∈ vocabulary program) (· ∈ Stmt.listSymbols program) 0 whole part'
      whole') : Among other whole' := by
  have hkeeps {known known' all all' : TypeTable}
      (hold : TypeTable.Part (· ∈ vocabulary other) (· ∈ Stmt.listSymbols other) 0 all known all)
      (hnew : TypeTable.Part (· ∈ vocabulary program) (· ∈ Stmt.listSymbols program) 0 all known'
        all') : all.Keeps (Spoken (· ∈ vocabulary other)) all' := by
    refine ⟨?_, fun symbol hspoken => hnew.kept symbol fun hsymbol => ?_⟩
    · rw [hnew.scopes, hold.scopes, List.eq_nil_of_length_eq_zero hnew.depth,
        List.eq_nil_of_length_eq_zero hold.depth]
    · exact not_spoken hseparate.1 symbol hsymbol hspoken
  exact hother.rebase ⟨hkeeps hother.declared h.declared, hkeeps hother.inferred h.inferred,
    hkeeps hother.parents h.parents, hkeeps hother.generics h.generics, h.wholeClass⟩

theorem checkEach_flatten : ∀ {programs : List (List Stmt)} {whole : TypeLookup},
    (∀ program ∈ programs, Among program whole) → programs.Pairwise Separate →
      ((∃ lookup, checkEach none programs.flatten whole = .ok () lookup) ↔
        ∀ program ∈ programs, Passes program)
  | [], whole, _, _ => by
      refine ⟨fun _ program hprogram => ?_, fun _ => ⟨whole, rfl⟩⟩
      cases hprogram
  | program :: rest, whole, hamong, hseparate => by
      rcases List.forall_mem_cons.mp hamong with ⟨hfirst, hrest⟩
      rcases List.pairwise_cons.mp hseparate with ⟨hothers, hpairs⟩
      have hsame := checkEach_among hfirst
      have hrun : checkEach none (program :: rest).flatten whole =
          EStateM.bind (checkEach none program) (fun _ => checkEach none rest.flatten) whole := by
        rw [List.flatten_cons, checkEach_append]
        rfl
      rw [List.forall_mem_cons, passes_iff, hrun, EStateM.bind]
      unfold Same at hsame
      cases hpart : checkEach none program (recorded program) with
      | ok _ part' =>
          cases hwhole : checkEach none program whole with
          | ok _ whole' =>
              rw [hpart, hwhole] at hsame
              have hafter := checkEach_flatten
                (fun other hother => (hrest other hother).after (hothers other hother) hsame.2.1)
                hpairs
              dsimp only
              rw [hafter]
              exact ⟨fun h => ⟨⟨part', rfl⟩, h⟩, fun h => h.2⟩
          | error e' whole' =>
              rw [hpart, hwhole] at hsame
              exact hsame.elim
      | error e part' =>
          cases hwhole : checkEach none program whole with
          | ok _ whole' =>
              rw [hpart, hwhole] at hsame
              exact hsame.elim
          | error e' whole' =>
              refine ⟨?_, ?_⟩
              · rintro ⟨_, h⟩
                cases h
              · rintro ⟨⟨_, h⟩, -⟩
                cases h

/-- Programs that are separate pass together if and only if each of them passes. -/
theorem passes_flatten {programs : List (List Stmt)} (h : programs.Pairwise Separate) :
    Passes programs.flatten ↔ ∀ program ∈ programs, Passes program := by
  rw [passes_iff]
  refine checkEach_flatten (fun program hprogram => ?_) h
  rcases List.append_of_mem hprogram with ⟨before, after, rfl⟩
  rcases List.pairwise_append.mp h with ⟨-, hafter, hbefore⟩
  exact among_recorded (fun other hother => hbefore other hother program List.mem_cons_self)
    (List.pairwise_cons.mp hafter).1

end Typing

end MiniPascal
