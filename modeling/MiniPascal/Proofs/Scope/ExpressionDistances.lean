import Mathlib.Data.List.Forall2
import MiniPascal.Proofs.Syntax.Reference
import MiniPascal.Scope.Resolve

/-!
# Distances of names in expressions

The resolver walks through an expression without changing its scopes.  Every distance that it
records is the one of a mention in the expression, every name that is read and has a distance gets
it recorded, and the resolver reports a mention of a name that is just
being declared, or of `super` where there is none.
-/

namespace MiniPascal

/-- Scopes that have the names of a place, one by one. -/
def Named (scopes : List (Table Binding)) (p : Place) : Prop :=
  List.Forall₂ (fun table scope => ∀ name, table.contains name = true ↔ name ∈ scope.names)
    scopes p

theorem Named.distance? {scopes : List (Table Binding)} {p : Place} (h : Named scopes p)
    (name : String) : Resolution.distance? scopes name = p.distance? name := by
  unfold Resolution.distance? Place.distance?
  induction h with
  | nil => rfl
  | @cons table scope tables outer hnames _ ih =>
      have hsame : table.contains name = decide (name ∈ scope.names) := by
        rw [Bool.eq_iff_iff, decide_eq_true_iff]
        exact hnames name
      rw [List.findIdx?_cons, List.findIdx?_cons, ih, hsame]

namespace Resolution

theorem getElem?_locals_insert (locals : Locals) (key id : NodeId) (distance : Nat) :
    (locals.insert key distance)[id]? = if key = id then some distance else locals[id]? := by
  rw [Std.TreeMap.getElem?_insert]
  simp only [Nat.compare_eq_eq]

theorem isPending_of_scopes {r r' : Resolution} (h : r'.scopes = r.scopes) (name : String) :
    r'.isPending name = r.isPending name := by
  unfold isPending
  rw [h]

/-- The resolver walks from `r` to `r'` through the mentions of an expression. -/
structure Visits (site : Site) (mentions : List Mention) (r r' : Resolution) : Prop where
  scopes : r'.scopes = r.scopes
  grows : r.diagnostics <+: r'.diagnostics
  kept : ∀ id : NodeId, (r.locals[id]?).isSome → (r'.locals[id]?).isSome
  found : ∀ (id : NodeId) d, r'.locals[id]? = some d →
    r.locals[id]? = some d ∨ ∃ m ∈ mentions, m.id = id ∧ distance? r.scopes m.name = some d
  recorded : ∀ m ∈ mentions, m.use = .read → (distance? r.scopes m.name).isSome →
    (r'.locals[m.id]?).isSome
  pending : ∀ m ∈ mentions, m.use = .read → r.isPending m.name = true →
    Diagnostic.anyError r'.diagnostics = true
  parent : ∀ m ∈ mentions, m.use = .receiver → m.name = "super" →
    Diagnostic.anyError r'.diagnostics = true ∨ site.enclosing = .derived ∧
      ((distance? r.scopes "super").isSome → (r'.locals[m.id]?).isSome)

theorem anyError_mono {xs ys : List Diagnostic} (h : xs <+: ys)
    (herror : Diagnostic.anyError xs = true) : Diagnostic.anyError ys = true := by
  rcases h with ⟨zs, rfl⟩
  rw [Diagnostic.anyError_append, herror, Bool.true_or]

namespace Visits

variable {site : Site} {ms ns : List Mention} {r r' r'' : Resolution}

theorem refl (r : Resolution) : Visits site [] r r := by
  refine ⟨rfl, List.prefix_refl _, fun _ h => h, fun _ _ h => .inl h, ?_, ?_, ?_⟩
  · intro m hm
    cases hm
  · intro m hm
    cases hm
  · intro m hm
    cases hm

theorem trans (h : Visits site ms r r') (h' : Visits site ns r' r'') :
    Visits site (ms ++ ns) r r'' := by
  refine ⟨h'.scopes.trans h.scopes, h.grows.trans h'.grows,
    fun id hid => h'.kept id (h.kept id hid), ?_, ?_, ?_, ?_⟩
  · intro id d hlocal
    rcases h'.found id d hlocal with hold | ⟨m, hm, hid, hd⟩
    · rcases h.found id d hold with hold | ⟨m, hm, hid, hd⟩
      · exact .inl hold
      · exact .inr ⟨m, List.mem_append_left _ hm, hid, hd⟩
    · rw [h.scopes] at hd
      exact .inr ⟨m, List.mem_append_right _ hm, hid, hd⟩
  · intro m hm huse hd
    rcases List.mem_append.mp hm with hm | hm
    · exact h'.kept m.id (h.recorded m hm huse hd)
    · rw [← h.scopes] at hd
      exact h'.recorded m hm huse hd
  · intro m hm huse hpending
    rcases List.mem_append.mp hm with hm | hm
    · exact anyError_mono h'.grows (h.pending m hm huse hpending)
    · rw [← isPending_of_scopes h.scopes] at hpending
      exact h'.pending m hm huse hpending
  · intro m hm huse hname
    rcases List.mem_append.mp hm with hm | hm
    · rcases h.parent m hm huse hname with herror | ⟨hsite, hlocal⟩
      · exact .inl (anyError_mono h'.grows herror)
      · exact .inr ⟨hsite, fun hsuper => h'.kept m.id (hlocal hsuper)⟩
    · rcases h'.parent m hm huse hname with herror | ⟨hsite, hlocal⟩
      · exact .inl herror
      · rw [h.scopes] at hlocal
        exact .inr ⟨hsite, hlocal⟩

theorem congr (h : Visits site ms r r') (hsame : ∀ m, m ∈ ns ↔ m ∈ ms) : Visits site ns r r' := by
  refine ⟨h.scopes, h.grows, h.kept, ?_, ?_, ?_, ?_⟩
  · intro id d hlocal
    rcases h.found id d hlocal with hold | ⟨m, hm, hid, hd⟩
    · exact .inl hold
    · exact .inr ⟨m, (hsame m).mpr hm, hid, hd⟩
  · intro m hm
    exact h.recorded m ((hsame m).mp hm)
  · intro m hm
    exact h.pending m ((hsame m).mp hm)
  · intro m hm
    exact h.parent m ((hsame m).mp hm)

end Visits

/-! ## One mention -/

section Steps

variable {r : Resolution} {id : NodeId} {name : String}

@[simp] theorem scopes_resolve : (r.resolve id name).scopes = r.scopes := by
  unfold resolve
  split <;> rfl

@[simp] theorem diagnostics_resolve : (r.resolve id name).diagnostics = r.diagnostics := by
  unfold resolve
  split <;> rfl

theorem locals_resolve (key : NodeId) : (r.resolve id name).locals[key]? =
    if id = key then (distance? r.scopes name).or r.locals[key]? else r.locals[key]? := by
  unfold resolve
  cases distance? r.scopes name with
  | none => simp
  | some d => simp only [getElem?_locals_insert, Option.some_or]

theorem isSome_locals_resolve (h : (distance? r.scopes name).isSome) :
    ((r.resolve id name).locals[id]?).isSome := by
  rw [locals_resolve, if_pos rfl, Option.isSome_or, h, Bool.true_or]

/-- A mention after some reports; `hpending` and `hparent` say when there had to be one. -/
theorem visits_resolve {site : Site} (use : Use) {checked : Resolution}
    (hscopes : checked.scopes = r.scopes) (hlocals : checked.locals = r.locals)
    (hgrows : r.diagnostics <+: checked.diagnostics)
    (hpending : use = .read → r.isPending name = true →
      Diagnostic.anyError checked.diagnostics = true)
    (hparent : use = .receiver → name = "super" →
      Diagnostic.anyError checked.diagnostics = true ∨ site.enclosing = .derived) :
    Visits site [⟨id, name, use⟩] r (checked.resolve id name) := by
  refine ⟨scopes_resolve.trans hscopes, ?_, ?_, ?_, ?_, ?_, ?_⟩
  · rw [diagnostics_resolve]
    exact hgrows
  · intro key hkey
    rw [locals_resolve, hlocals]
    split
    · cases distance? checked.scopes name with
      | none => exact hkey
      | some d => rfl
    · exact hkey
  · intro key d hlocal
    rw [locals_resolve, hlocals, hscopes] at hlocal
    split at hlocal
    · next hkey =>
        rcases Option.or_eq_some_iff.mp hlocal with hd | ⟨-, hold⟩
        · exact .inr ⟨_, List.mem_singleton_self _, hkey, hd⟩
        · exact .inl hold
    · exact .inl hlocal
  · intro m hm _ hd
    rw [List.mem_singleton.mp hm] at hd ⊢
    exact isSome_locals_resolve (hscopes ▸ hd)
  · intro m hm huse hm'
    rw [List.mem_singleton.mp hm] at huse hm'
    rw [diagnostics_resolve]
    exact hpending huse hm'
  · intro m hm huse hname
    rw [List.mem_singleton.mp hm] at huse hname ⊢
    rw [diagnostics_resolve]
    rcases hparent huse hname with herror | hsite
    · exact .inl herror
    · refine .inr ⟨hsite, fun hsuper => ?_⟩
      change name = "super" at hname
      rw [← hname] at hsuper
      exact isSome_locals_resolve (hscopes ▸ hsuper)

end Steps

theorem anyError_report (r : Resolution) {fault : ScopeFault} (token : Token)
    (h : fault.level = .error) : Diagnostic.anyError (r.report fault token).diagnostics = true := by
  simp [report, Diagnostic.anyError, Diagnostic.isError, ScopeFault.diagnostic, h]

theorem grows_report (r : Resolution) (fault : ScopeFault) (token : Token) :
    r.diagnostics <+: (r.report fault token).diagnostics :=
  List.prefix_append _ _

theorem visits_report {site : Site} {r : Resolution} {id : NodeId} {fault : ScopeFault}
    {token : Token} : Visits site [⟨id, "this", .receiver⟩] r (r.report fault token) := by
  refine ⟨rfl, grows_report _ _ _, fun _ h => h, fun _ _ h => .inl h, ?_, ?_, ?_⟩
  · intro m hm huse
    rw [List.mem_singleton.mp hm] at huse
    cases huse
  · intro m hm huse
    rw [List.mem_singleton.mp hm] at huse
    cases huse
  · intro m hm _ hname
    rw [List.mem_singleton.mp hm] at hname
    change "this" = "super" at hname
    exact absurd hname (by decide)

/-! ## Expressions -/

mutual

theorem expr_visits (site : Site) :
    ∀ (e : Expr) (r : Resolution), Visits site e.mentions r (expr site e r)
  | .literal _, r => .refl r
  | .unary _ _ operand, r => expr_visits site operand r
  | .binary left _ _ right, r => (expr_visits site left r).trans (expr_visits site right _)
  | .logical left _ _ right, r => (expr_visits site left r).trans (expr_visits site right _)
  | .grouping inner, r => expr_visits site inner r
  | .variable id name, r => by
      refine visits_resolve .read ?_ ?_ ?_ ?_ ?_
      · split <;> rfl
      · split <;> rfl
      · split
        · exact grows_report _ _ _
        · exact List.prefix_refl _
      · intro _ hpending
        rw [if_pos hpending]
        exact anyError_report _ _ rfl
      · intro huse
        cases huse
  | .assign id name value, r => by
      refine (expr_visits site value r).trans
        (visits_resolve .write rfl rfl (List.prefix_refl _) ?_ ?_)
      · intro huse
        cases huse
      · intro huse
        cases huse
  | .call callee _ arguments, r =>
      (expr_visits site callee r).trans (exprs_visits site arguments _)
  | .get object _, r => expr_visits site object r
  | .set object _ value, r => by
      refine ((expr_visits site value r).trans (expr_visits site object _)).congr ?_
      intro m
      rw [Expr.mentions, List.mem_append, List.mem_append, Or.comm]
  | .subscript _ object index, r =>
      (expr_visits site object r).trans (expr_visits site index _)
  | .map _ items, r => entries_visits site items r
  | .this id keyword, r => by
      have hresolve : Visits site [⟨id, "this", .receiver⟩] r (r.resolve id "this") := by
        refine visits_resolve .receiver rfl rfl (List.prefix_refl _) ?_ ?_
        · intro huse
          cases huse
        · intro _ hname
          exact absurd hname (by decide)
      unfold expr
      cases site.enclosing with
      | outside => exact visits_report
      | base => exact hresolve
      | derived => exact hresolve
  | .super id keyword _, r => by
      refine visits_resolve .receiver ?_ ?_ ?_ ?_ ?_
      · split <;> rfl
      · split <;> rfl
      · split
        · exact grows_report _ _ _
        · exact grows_report _ _ _
        · exact List.prefix_refl _
      · intro huse
        cases huse
      · intro _ _
        split
        · exact .inl (anyError_report _ _ rfl)
        · exact .inl (anyError_report _ _ rfl)
        · next hsite => exact .inr hsite
  | .cast inner _, r => expr_visits site inner r

theorem exprs_visits (site : Site) :
    ∀ (list : List Expr) (r : Resolution),
      Visits site (Expr.listMentions list) r (exprs site list r)
  | [], r => .refl r
  | e :: rest, r => (expr_visits site e r).trans (exprs_visits site rest _)

theorem entries_visits (site : Site) :
    ∀ (list : List (Expr × Expr)) (r : Resolution),
      Visits site (Expr.entryMentions list) r (entries site list r)
  | [], r => .refl r
  | (key, value) :: rest, r =>
      ((expr_visits site key r).trans (expr_visits site value _)).trans
        (entries_visits site rest _)

end

end Resolution

end MiniPascal
