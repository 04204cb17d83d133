import MiniPascal.Proofs.Parser.ExpressionContract
import MiniPascal.Proofs.Syntax.Numbering

/-!
# Contracts of the parsers of declarations

Enumerations, variables and parameters take tokens, and the variables of a section are numbered as
statements are.
-/

namespace MiniPascal
namespace Parse

variable {D : Diagnostic → Prop}

/-! ## Enumerations -/

theorem names_yields {fault : SyntaxFault} {fuel : Nat} {c : Cursor} (hc : c.Ends N)
    (hfuel : c.ahead.length < fuel) :
    Yields D (separated (expectName fault) (acceptSymbol .comma) fuel) c fun names d =>
      d.ahead.length < c.ahead.length ∧ ∀ name ∈ names, N name.lexeme := by
  refine separated_yields (L := fuel) (R := fun _ (name : Token) _ => N name.lexeme)
    (M := fun _ _ _ => True) (S := fun _ (names : List Token) _ => ∀ name ∈ names, N name.lexeme)
    ?_ ?_ ?_ ?_ fuel c hc hfuel hfuel
  · intro c hc _
    refine (expectName_yields hc).imp ?_
    rintro name d - ⟨hkind, hpassed⟩
    have hshort := hpassed.length_eq
    exact ⟨by omega, hpassed.named hc hkind⟩
  · intro c hc
    exact (acceptSymbol_yields hc).imp fun _ _ _ _ => trivial
  · intro c name d e hname _
    exact List.forall_mem_singleton.mpr hname
  · intro c name d e names f hname _ hnames
    exact List.forall_mem_cons.mpr ⟨hname, hnames⟩

theorem enumDecl_yields {fuel : Nat} {c : Cursor} (hc : c.Ends N) (hfuel : c.ahead.length < fuel) :
    Yields D (enumDecl fuel) c fun decl d =>
      d.ahead.length < c.ahead.length ∧ ∀ member ∈ decl.members, N member.lexeme := by
  refine (expectName_yields hc).bind ?_
  rintro name d hcd ⟨-, hpassed⟩
  have hshort := hpassed.length_eq
  refine (expectSymbol_yields (hcd.ends hc)).discard.bind ?_
  rintro - e hde -
  have hd := hde.ends (hcd.ends hc)
  have hshort' := hde.length_le
  refine (expectSymbol_yields hd).discard.bind ?_
  rintro - f hef -
  have hshort'' := hef.length_le
  refine (names_yields (hef.ends hd) (by omega)).bind ?_
  rintro members g hfg ⟨hshorter, hmembers⟩
  have hg := hfg.ends (hef.ends hd)
  refine (expectSymbol_yields hg).discard.bind ?_
  rintro - k hgk -
  have hshort₃ := hgk.length_le
  refine (expectSymbol_yields (hgk.ends hg)).discard.bind ?_
  rintro - l hkl -
  have hshort₄ := hkl.length_le
  exact Yields.pure ⟨by omega, hmembers⟩

theorem enumSection_yields {fuel : Nat} {c : Cursor} (hc : c.Ends N)
    (hfuel : c.ahead.length < fuel) :
    Yields D (enumSection fuel) c fun decls _ =>
      ∀ decl ∈ decls, ∀ member ∈ decl.members, N member.lexeme := by
  refine collect_yields (T := fun c => c.peek.isIdentifier)
    (R := fun _ (decl : EnumDecl) _ => ∀ member ∈ decl.members, N member.lexeme)
    (S := fun _ (decls : List EnumDecl) _ =>
      ∀ decl ∈ decls, ∀ member ∈ decl.members, N member.lexeme)
    (fun _ => rfl) ?_ ?_ ?_ fuel c hc hfuel hfuel
  · intro c hc hlimit _
    exact enumDecl_yields hc hlimit
  · intro c _
    exact List.forall_mem_nil _
  · intro c decl d decls e hdecl hdecls
    exact List.forall_mem_cons.mpr ⟨hdecl, hdecls⟩

/-! ## Variables -/

theorem typeAnnotation_yields {c : Cursor} (hc : c.Ends N) :
    Yields D typeAnnotation c fun _ d => d.nextId = c.nextId := by
  refine Yields.ifSymbol hc ?_ ?_
  · intro token d _ hpassed
    have hd := hpassed.ends hc
    refine (expectName_yields hd).bind ?_
    rintro typeName e hde ⟨-, hpassed'⟩
    refine Yields.ifKeyword (hde.ends hd) ?_ ?_
    · intro word f _ hpassed''
      refine (expectName_yields (hpassed''.ends (hde.ends hd))).bind ?_
      rintro generic g - ⟨-, hpassed₃⟩
      refine Yields.pure ?_
      rw [hpassed₃.nextId, hpassed''.nextId, hpassed'.nextId, hpassed.nextId]
    · intro _
      refine Yields.pure ?_
      rw [hpassed'.nextId, hpassed.nextId]
  · intro _
    exact Yields.pure rfl

section Expressions

variable {expr : Parse Expr} {limit : Nat}

theorem initialValue_yields
    (hexpr : ∀ c : Cursor, c.Ends N → c.ahead.length < limit → Yields D expr c (c.Reads N 0))
    {c : Cursor} (hc : c.Ends N) (hlimit : c.ahead.length < limit) :
    Yields D (initialValue expr) c fun initial d =>
      Fresh N c.nextId (Stmt.optionalMentions initial) d.nextId := by
  refine Yields.ifSymbol hc ?_ ?_
  · intro token d _ hpassed
    have hshort := hpassed.length_eq
    refine (hexpr d (hpassed.ends hc) (by omega)).bind ?_
    intro value e _ hvalue
    refine Yields.pure ?_
    rw [← hpassed.nextId]
    exact hvalue.fresh
  · intro _
    exact Yields.pure (Fresh.nil (Nat.le_refl _))

theorem variableTail_yields
    (hexpr : ∀ c : Cursor, c.Ends N → c.ahead.length < limit → Yields D expr c (c.Reads N 0))
    {c : Cursor} (hc : c.Ends N) (hlimit : c.ahead.length < limit) :
    Yields D (variableTail expr) c fun tail d =>
      Fresh N c.nextId (Stmt.optionalMentions tail.2.2) d.nextId := by
  refine (typeAnnotation_yields hc).bind ?_
  intro annotation d hcd hnext
  have hshort := hcd.length_le
  refine (initialValue_yields hexpr (hcd.ends hc) (by omega)).bind ?_
  intro initial e hde hinitial
  refine (expectSymbol_yields (hde.ends (hcd.ends hc))).discard.bind ?_
  rintro - f - ⟨token, -, hpassed⟩
  refine Yields.pure ?_
  rw [hpassed.nextId, ← hnext]
  exact hinitial

theorem variableLine_yields
    (hexpr : ∀ c : Cursor, c.Ends N → c.ahead.length < limit → Yields D expr c (c.Reads N 0))
    {fuel : Nat} {c : Cursor} (hc : c.Ends N) (hfuel : c.ahead.length < fuel)
    (hlimit : c.ahead.length < limit) :
    Yields D (variableLine expr fuel) c fun decls d =>
      d.ahead.length < c.ahead.length ∧
        Stmt.Numbered N c.nextId (decls.map Stmt.var) d.nextId := by
  refine (names_yields hc hfuel).bind ?_
  rintro names d hcd ⟨hshorter, hnames⟩
  refine (variableTail_yields hexpr (hcd.ends hc) (by omega)).bind ?_
  rintro ⟨typeName, generic, initial⟩ e hde hinitial
  have hshort := hde.length_le
  refine Yields.pure ⟨by omega, ?_⟩
  have hgroup : Stmt.Numbered N c.nextId (Stmt.group typeName generic initial names) e.nextId :=
    Stmt.numbered_group hnames (hinitial.widen hcd.nextId (Nat.le_refl _))
  simpa [Stmt.group, Function.comp_def] using hgroup

theorem variableLineFollows_yields {c : Cursor} :
    Yields D variableLineFollows c fun _ d => d = c := by
  refine Yields.look (p := get) rfl ?_
  split
  · exact Yields.pure rfl
  · exact Yields.pure rfl

theorem variableSection_yields
    (hexpr : ∀ c : Cursor, c.Ends N → c.ahead.length < limit → Yields D expr c (c.Reads N 0))
    {fuel : Nat} {c : Cursor} (hc : c.Ends N) (hfuel : c.ahead.length < fuel)
    (hlimit : fuel ≤ limit) :
    Yields D (variableSection expr fuel) c fun decls d =>
      d.ahead.length < c.ahead.length ∧
        Stmt.Numbered N c.nextId (decls.map Stmt.var) d.nextId := by
  refine (separated_yields (L := fuel)
    (R := fun c decls d => Stmt.Numbered N c.nextId (decls.map Stmt.var) d.nextId)
    (M := fun _ c d => d = c)
    (S := fun c lines d => Stmt.Numbered N c.nextId (lines.flatten.map Stmt.var) d.nextId)
    ?_ ?_ ?_ ?_ fuel c hc hfuel hfuel).bind ?_
  · intro c hc hshort
    exact variableLine_yields hexpr hc hshort (by omega)
  · intro c _
    exact variableLineFollows_yields
  · rintro c decls d e hdecls rfl
    simpa using hdecls
  · rintro c decls d e lines f hdecls rfl hlines
    rw [List.flatten_cons, List.map_append]
    exact hdecls.append hlines
  · intro lines d _ hlines
    exact Yields.pure hlines

theorem loopVariable_yields
    (hexpr : ∀ c : Cursor, c.Ends N → c.ahead.length < limit → Yields D expr c (c.Reads N 0))
    {c : Cursor} (hc : c.Ends N) (hlimit : c.ahead.length < limit) :
    Yields D (loopVariable expr) c fun decl d =>
      Stmt.Numbered N c.nextId [.var decl] d.nextId := by
  refine (expectName_yields hc).bind ?_
  rintro name d hcd ⟨hkind, hpassed⟩
  have hshort := hpassed.length_eq
  have hname : ∀ other ∈ [name], N other.lexeme :=
    List.forall_mem_singleton.mpr (hpassed.named hc hkind)
  refine (variableTail_yields hexpr (hcd.ends hc) (by omega)).bind ?_
  rintro ⟨typeName, generic, initial⟩ e _ hinitial
  refine Yields.pure ?_
  rw [← hpassed.nextId]
  have hgroup : Stmt.Numbered N d.nextId (Stmt.group typeName generic initial [name]) e.nextId :=
    Stmt.numbered_group hname hinitial
  exact hgroup

/-! ## Sections -/

theorem numbered_enums {first limit : Nat} {decls : List EnumDecl} (h : first ≤ limit)
    (hdecls : ∀ decl ∈ decls, ∀ member ∈ decl.members, N member.lexeme) :
    Stmt.Numbered N first (decls.map Stmt.enumDecl) limit := by
  induction decls with
  | nil => exact Stmt.Numbered.nil h
  | cons decl rest ih =>
      rcases List.forall_mem_cons.mp hdecls with ⟨hdecl, hrest⟩
      have hhead : Stmt.Numbered N first [.enumDecl decl] first :=
        Stmt.numbered_of_references_nil hdecl (Nat.le_refl _) fun _ => rfl
      exact hhead.append (ih hrest)

/-- The members of the enumerations of a class are named as those of a function are. -/
theorem enums_named {announced : List Section}
    (h : Stmt.TidyList N (announced.flatMap Section.statements)) :
    ∀ decl ∈ announced.flatMap Section.enumDecls, ∀ member ∈ decl.members, N member.lexeme := by
  intro decl hdecl
  rcases List.mem_flatMap.mp hdecl with ⟨part, hpart, hmem⟩
  cases part
  case enums decls =>
    have hstatement : Stmt.enumDecl decl ∈ (Section.enums decls).statements :=
      List.mem_map_of_mem hmem
    exact h.mem (List.mem_flatMap.mpr ⟨_, hpart, hstatement⟩)
  case _ => cases hmem

theorem announcement_yields
    (hexpr : ∀ c : Cursor, c.Ends N → c.ahead.length < limit → Yields D expr c (c.Reads N 0))
    {fuel : Nat} {c : Cursor} (hc : c.Ends N) (hfuel : c.ahead.length < fuel)
    (hlimit : fuel ≤ limit)
    (hpeek : c.peek.keyword? = some .type ∨ c.peek.keyword? = some .var) :
    Yields D (announcement expr fuel) c fun announced d =>
      d.ahead.length < c.ahead.length ∧
        Stmt.Numbered N c.nextId announced.statements d.nextId := by
  refine Yields.ifKeyword hc ?_ ?_
  · intro token d _ hpassed
    have hshort := hpassed.length_eq
    refine (enumSection_yields (hpassed.ends hc) (by omega)).bind ?_
    intro decls e hde hdecls
    have hshort' := hde.length_le
    refine Yields.pure ⟨by omega, ?_⟩
    rw [← hpassed.nextId]
    exact numbered_enums hde.nextId hdecls
  · intro hnot
    have hvar : c.peek.kind = .keyword .var :=
      Token.kind_of_keyword? (hpeek.resolve_left hnot)
    refine (advance_yields hc (by rw [hvar]; simp)).discard.bind ?_
    rintro - d hcd ⟨token, -, hpassed⟩
    have hshort := hpassed.length_eq
    refine (variableSection_yields hexpr (hcd.ends hc) (by omega) hlimit).bind ?_
    rintro decls e - ⟨hshort', hdecls⟩
    refine Yields.pure ⟨by omega, ?_⟩
    rw [← hpassed.nextId]
    exact hdecls

theorem sections_yields
    (hexpr : ∀ c : Cursor, c.Ends N → c.ahead.length < limit → Yields D expr c (c.Reads N 0))
    {fuel : Nat} {c : Cursor} (hc : c.Ends N) (hfuel : c.ahead.length < fuel)
    (hlimit : fuel ≤ limit) :
    Yields D (sections expr fuel) c fun announced d =>
      Stmt.Numbered N c.nextId (announced.flatMap Section.statements) d.nextId := by
  refine collect_yields (L := fuel)
    (T := fun c => decide (c.peek.keyword? = some .type) ||
      decide (c.peek.keyword? = some .var))
    (R := fun c announced d => Stmt.Numbered N c.nextId announced.statements d.nextId)
    (S := fun c announced d =>
      Stmt.Numbered N c.nextId (announced.flatMap Section.statements) d.nextId)
    ?_ ?_ ?_ ?_ fuel c hc hfuel hfuel
  · intro c
    unfold atSection
    rw [bind_of_ok (rfl : atKeyword .type c = .ok (decide (c.peek.keyword? = some .type)) c),
      bind_of_ok (rfl : atKeyword .var c = .ok (decide (c.peek.keyword? = some .var)) c)]
    rfl
  · intro c hc hshort htest
    exact announcement_yields hexpr hc hshort hlimit (by simpa using htest)
  · intro c _
    exact Stmt.Numbered.nil (Nat.le_refl _)
  · intro c announced d rest e hhead hrest
    exact hhead.append hrest

end Expressions

/-! ## Parameters -/

theorem param_yields {c : Cursor} (hc : c.Ends N) :
    Yields D param c fun param d =>
      d.ahead.length < c.ahead.length ∧ N param.name.lexeme := by
  refine (expectName_yields hc).bind ?_
  rintro name d hcd ⟨hkind, hpassed⟩
  have hshort := hpassed.length_eq
  have hname := hpassed.named hc hkind
  refine Yields.ifSymbol (hcd.ends hc) ?_ ?_
  · intro token e _ hpassed'
    have hshort' := hpassed'.length_eq
    refine (expectName_yields (hpassed'.ends (hcd.ends hc))).bind ?_
    rintro typeName f - ⟨-, hpassed''⟩
    have hshort'' := hpassed''.length_eq
    exact Yields.pure ⟨by omega, hname⟩
  · intro _
    exact Yields.pure ⟨by omega, hname⟩

theorem paramList_yields {fuel : Nat} {c : Cursor} (hc : c.Ends N)
    (hfuel : c.ahead.length < fuel) :
    Yields D (separated param (acceptSymbol .comma) fuel) c fun params _ =>
      ∀ param ∈ params, N param.name.lexeme := by
  refine (separated_yields (L := fuel) (R := fun _ param _ => N param.name.lexeme)
    (M := fun _ _ _ => True) (S := fun _ params _ => ∀ param ∈ params, N param.name.lexeme)
    ?_ ?_ ?_ ?_ fuel c hc hfuel hfuel).imp fun _ _ _ h => h.2
  · intro c hc _
    exact param_yields hc
  · intro c hc
    exact (acceptSymbol_yields hc).imp fun _ _ _ _ => trivial
  · intro c param d e hparam _
    exact List.forall_mem_singleton.mpr hparam
  · intro c param d e params f hparam _ hparams
    exact List.forall_mem_cons.mpr ⟨hparam, hparams⟩

theorem params_yields {fuel : Nat} {c : Cursor} (hc : c.Ends N) (hfuel : c.ahead.length < fuel) :
    Yields D (params fuel) c fun params _ => ∀ param ∈ params, N param.name.lexeme := by
  refine Yields.ifSymbol hc ?_ ?_
  · intro token d _ hpassed
    have hd := hpassed.ends hc
    have hshort := hpassed.length_eq
    refine Yields.look rfl ?_
    split
    · refine (expectSymbol_yields hd).discard.bind ?_
      intro _ e _ _
      exact Yields.pure (List.forall_mem_nil _)
    · refine (paramList_yields hd (by omega)).bind ?_
      intro list e hde hlist
      refine (expectSymbol_yields (hde.ends hd)).discard.bind ?_
      intro _ f _ _
      exact Yields.pure hlist
  · intro _
    exact Yields.pure (List.forall_mem_nil _)

theorem resultType_yields {kind : FunctionKind} {c : Cursor} (hc : c.Ends N) :
    Yields D (resultType kind) c fun _ _ => True := by
  refine Yields.ifSymbol hc ?_ ?_
  · intro token d _ hpassed
    split
    · exact Yields.fail
    · refine (expectName_yields (hpassed.ends hc)).bind ?_
      intro name e _ _
      exact Yields.pure trivial
  · intro _
    exact Yields.pure trivial

end Parse
end MiniPascal
