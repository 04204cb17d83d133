import MiniPascal.Proofs.Session.UnitSplicing

/-!
# What a splice is made of

A splice takes the `uses` out of a source and of all units that it reads, and rearranges what is
left: the statements of a unit come to stand together, those of each text stay in their order, and
every path that a `uses` names is included from then on.
-/

namespace MiniPascal

namespace Stmt

/-- The statements of a text besides `uses`. -/
def kept (statements : List Stmt) : List Stmt :=
  statements.filter (!·.isUses)

@[simp] theorem kept_nil : kept [] = [] := rfl

@[simp] theorem kept_uses (keyword unit : Token) (rest : List Stmt) :
    kept (.uses keyword unit :: rest) = kept rest := rfl

theorem kept_cons {s : Stmt} (h : ∀ keyword unit, s ≠ .uses keyword unit) (rest : List Stmt) :
    kept (s :: rest) = s :: kept rest := by
  refine List.filter_cons_of_pos ?_
  cases s with
  | uses keyword unit => exact absurd rfl (h keyword unit)
  | _ => rfl

theorem kept_append (xs ys : List Stmt) : kept (xs ++ ys) = kept xs ++ kept ys :=
  List.filter_append ..

end Stmt

namespace Compile

open Stmt (kept)

theorem parse_included {source : Source} {c d : Compiler} {statements : List Stmt}
    (h : parse source c = .ok statements d) : d.included = c.included := by
  have hcases := parse_cases source c
  rw [h] at hcases
  exact hcases.1

/-- Some compiler reads the unit at a path, and these are its statements. -/
def ParsedUnit (files : FileTree) (path : String) (statements : List Stmt) : Prop :=
  ∃ text c d, files.read path = .ok text ∧ parse ⟨path, text⟩ c = .ok statements d

/-- A program consists of the statements of texts besides `uses`, each text in its order. -/
structure MadeOf (texts : List (List Stmt)) (program : List Stmt) : Prop where
  perm : program.Perm (kept texts.flatten)
  inOrder : ∀ statements ∈ texts, (kept statements).Sublist program

namespace MadeOf

theorem nil : MadeOf [[]] [] where
  perm := .nil
  inOrder := by simp

theorem cons {statement : Stmt} {statements program : List Stmt} {units : List (List Stmt)}
    (hkept : ∀ keyword unit, statement ≠ .uses keyword unit)
    (h : MadeOf (statements :: units) program) :
    MadeOf ((statement :: statements) :: units) (statement :: program) := by
  constructor
  · rw [List.flatten_cons, List.cons_append, Stmt.kept_cons hkept]
    exact h.perm.cons statement
  · refine List.forall_mem_cons.mpr ⟨?_, fun unit hunit => ?_⟩
    · rw [Stmt.kept_cons hkept]
      exact (h.inOrder statements List.mem_cons_self).cons_cons statement
    · exact (h.inOrder unit (List.mem_cons_of_mem _ hunit)).cons statement

/-- The statements of units in the place of a `uses` in front of a text. -/
theorem uses {keyword unit : Token} {statements here program : List Stmt}
    {units more : List (List Stmt)} (hhere : MadeOf units here)
    (h : MadeOf (statements :: more) program) :
    MadeOf ((.uses keyword unit :: statements) :: (units ++ more)) (here ++ program) := by
  constructor
  · have hrest : (kept units.flatten ++ (kept statements ++ kept more.flatten)).Perm
        (kept statements ++ (kept units.flatten ++ kept more.flatten)) :=
      List.perm_append_comm_assoc _ _ _
    simp only [List.flatten_cons, List.cons_append, Stmt.kept_uses, List.flatten_append,
      Stmt.kept_append]
    refine List.Perm.trans ?_ hrest
    have hprogram := h.perm
    rw [List.flatten_cons, Stmt.kept_append] at hprogram
    exact hhere.perm.append hprogram
  · intro other hother
    rw [List.mem_cons, List.mem_append] at hother
    rcases hother with rfl | hother | hother
    · exact (h.inOrder statements List.mem_cons_self).trans (List.sublist_append_right _ _)
    · exact (hhere.inOrder other hother).trans (List.sublist_append_left _ _)
    · exact (h.inOrder other (List.mem_cons_of_mem _ hother)).trans
        (List.sublist_append_right _ _)

end MadeOf

mutual

/-- What a `uses` stands for is made of the units that are read. -/
theorem SplicesUnit.madeOf {files : FileTree} {including : String} {c c₁ : Compiler} {unit : Token}
    {paths : List String} {program : List Stmt} :
    SplicesUnit files including c unit paths program c₁ →
      ∃ units, List.Forall₂ (ParsedUnit files) paths units ∧ MadeOf units program
  | .again _ => ⟨[], .nil, .nil, by simp⟩
  | .first _ hread hparse h => by
      rcases h.madeOf with ⟨units, hunits, hmade⟩
      exact ⟨_ :: units, .cons ⟨_, _, _, hread, hparse⟩ hunits, hmade⟩

/-- A splice is made of its own statements and of the units that are read. -/
theorem Splices.madeOf {files : FileTree} {including : String} {c c₁ : Compiler}
    {statements program : List Stmt} {paths : List String} :
    Splices files including c statements paths program c₁ →
      ∃ units, List.Forall₂ (ParsedUnit files) paths units ∧ MadeOf (statements :: units) program
  | .nil => ⟨[], .nil, .nil⟩
  | .kept hkept h => by
      rcases h.madeOf with ⟨units, hunits, hmade⟩
      exact ⟨units, hunits, hmade.cons hkept⟩
  | .uses hunit h => by
      rcases hunit.madeOf with ⟨units, hunits, hhere⟩
      rcases h.madeOf with ⟨more, hmore, hmade⟩
      exact ⟨units ++ more, List.rel_append hunits hmore, hhere.uses hmade⟩

end

mutual

theorem SplicesUnit.mem_included {files : FileTree} {including : String} {c c₁ : Compiler}
    {unit : Token} {paths : List String} {program : List Stmt} :
    SplicesUnit files including c unit paths program c₁ →
      ∀ path, path ∈ c₁.included ↔ path ∈ c.included ∨ path ∈ paths
  | .again _ => by simp
  | .first hnew _ hparse h => by
      intro path
      rw [h.mem_included path, parse_included hparse, UnitLog.mem_markIncluded, or_assoc,
        List.mem_cons]

/-- Included are the paths from before and those that are read. -/
theorem Splices.mem_included {files : FileTree} {including : String} {c c₁ : Compiler}
    {statements program : List Stmt} {paths : List String} :
    Splices files including c statements paths program c₁ →
      ∀ path, path ∈ c₁.included ↔ path ∈ c.included ∨ path ∈ paths
  | .nil => by simp
  | .kept _ h => h.mem_included
  | .uses hunit h => by
      intro path
      rw [h.mem_included path, hunit.mem_included path, List.mem_append, or_assoc]

end

theorem SplicesUnit.unit_included {files : FileTree} {including : String} {c c₁ : Compiler}
    {unit : Token} {paths : List String} {program : List Stmt}
    (h : SplicesUnit files including c unit paths program c₁) :
    unitPath including unit ∈ c₁.included := by
  rw [h.mem_included]
  cases h with
  | again hold => exact .inl hold
  | first => exact .inr List.mem_cons_self

/-- Behind a splice the paths of all its `uses` are included. -/
theorem Splices.uses_included {files : FileTree} {including : String} {keyword unit : Token} :
    ∀ {c c₁ : Compiler} {statements program : List Stmt} {paths : List String},
      Splices files including c statements paths program c₁ → .uses keyword unit ∈ statements →
      unitPath including unit ∈ c₁.included
  | _, _, _, _, _, .kept hkept h, hmem => by
      rcases List.mem_cons.mp hmem with hsame | hmem
      · exact absurd hsame.symm (hkept keyword unit)
      · exact h.uses_included hmem
  | _, _, _, _, _, .uses hunit h, hmem => by
      rcases List.mem_cons.mp hmem with hsame | hmem
      · cases hsame
        exact (h.mem_included _).mpr (.inl hunit.unit_included)
      · exact h.uses_included hmem

end Compile

/-- What a compiler includes with a source are the path of the source and what it reads, and if it
yields a program, that is the splice of what it reads. -/
theorem Compiler.compile_includes (c : Compiler) (files : FileTree) (source : Source) :
    ∃ paths, (∀ path ∈ paths, path ∉ c.included) ∧
      (∀ path, path ∈ (c.compile files source).2.included ↔
        path ∈ c.included ∨ path = Path.clean source.path ∨ path ∈ paths) ∧
      ∀ compilation, (c.compile files source).1 = .ok compilation → ∃ own c₁ c₂,
        Compile.parse source (c.markIncluded (Path.clean source.path)) = .ok own c₁ ∧
        Compile.Splices files source.path c₁ own paths compilation.program c₂ := by
  have hsame := (⟨c, []⟩ : UnitLog).compile_forget files source
  rcases ((⟨c, []⟩ : UnitLog).compile_ends files source).2 with ⟨paths, hadds, hspliced⟩
  refine ⟨paths, ?_, ?_, ?_⟩
  · intro path hpath hbefore
    exact hadds.new path hpath (UnitLog.mem_markIncluded.mpr (.inl hbefore))
  · intro path
    have hafter : (c.compile files source).2.included =
        ((⟨c, []⟩ : UnitLog).compile files source).2.compiler.included :=
      congrArg (fun outcome => outcome.2.included) hsame.symm
    rw [hafter, hadds.included, ← or_assoc]
    exact or_congr_left UnitLog.mem_markIncluded
  · intro compilation hresult
    exact hspliced compilation ((congrArg Prod.fst hsame).trans hresult)

end MiniPascal
