import MiniPascal.Proofs.Scope.ExpressionDistances
import MiniPascal.Proofs.Syntax.Numbering

/-!
# Distances of names in programs

The scopes of the resolver have the names of the place it is at.  In a program that it accepts,
every distance it records is the one of a reference with that number, no declaration reads its own
name, and `super` stands in a class that extends another one.
-/

namespace MiniPascal

namespace Place

theorem distance?_enter {p : Place} {region : Region} {names : List String} {name : String}
    (h : name ∉ names) :
    (p.enter region names).distance? name = (p.distance? name).map (· + 1) := by
  simp [enter, distance?, List.findIdx?_cons, h]

theorem distance?_enter_self {p : Place} {region : Region} {names : List String} {name : String}
    (h : name ∈ names) : (p.enter region names).distance? name = some 0 := by
  simp [enter, distance?, List.findIdx?_cons, h]

namespace Derived

variable {p : Place} {names : List String} (hnames : ∀ name ∈ names, Declarable name)
include hnames

theorem declare (h : p.Derived) : (p.declare names).Derived := by
  rcases h with ⟨nearer, hthis, hsuper⟩
  refine ⟨nearer, ?_, ?_⟩
  · rw [distance?_declare (.inr fun hmem => not_declarable_this (hnames _ hmem))]
    exact hthis
  · rw [distance?_declare (.inr fun hmem => not_declarable_super (hnames _ hmem))]
    exact hsuper

theorem enter {region : Region} (h : p.Derived) : (p.enter region names).Derived := by
  rcases h with ⟨nearer, hthis, hsuper⟩
  refine ⟨nearer + 1, ?_, ?_⟩
  · rw [distance?_enter fun hmem => not_declarable_this (hnames _ hmem), hthis]
    rfl
  · rw [distance?_enter fun hmem => not_declarable_super (hnames _ hmem), hsuper]
    rfl

end Derived

theorem derived_method (p : Place) (decl : ClassDecl Stmt) (method : Function) :
    ((p.enter (.parent decl) ["super"]).enter (.receiver method) ["this"]).Derived := by
  refine ⟨0, distance?_enter_self (List.mem_singleton_self _), ?_⟩
  rw [distance?_enter (by decide), distance?_enter_self (List.mem_singleton_self _)]
  rfl

end Place

/-- What the resolver takes to be around a place. -/
def Site.At (site : Site) (p : Place) : Prop :=
  site.enclosing = .derived → p.Derived

theorem Site.At.declare {site : Site} {p : Place} {names : List String} (h : site.At p)
    (hnames : ∀ name ∈ names, Declarable name) : site.At (p.declare names) :=
  fun hsite => (h hsite).declare hnames

theorem Site.At.enter {site : Site} {p : Place} {region : Region} {names : List String}
    (h : site.At p) (hnames : ∀ name ∈ names, Declarable name) :
    site.At (p.enter region names) :=
  fun hsite => (h hsite).enter hnames

namespace Stmt

theorem Tidy.declarable {s : Stmt} (h : s.Tidy Declarable) :
    ∀ name ∈ s.declared, Declarable name := by
  intro name hname
  cases s with
  | classDecl decl =>
      rcases h with ⟨hclass, henums, -⟩
      rcases List.mem_append.mp hname with hname | hname
      · rcases List.mem_flatMap.mp hname with ⟨enum, henum, hname⟩
        rcases List.mem_map.mp hname with ⟨member, hmember, rfl⟩
        exact henums enum henum member hmember
      · rw [List.mem_singleton.mp hname]
        exact hclass
  | enumDecl decl =>
      rcases List.mem_map.mp hname with ⟨member, hmember, rfl⟩
      exact h member hmember
  | function decl =>
      rw [List.mem_singleton.mp hname]
      exact h.1
  | var decl =>
      rw [List.mem_singleton.mp hname]
      exact h
  | _ => cases hname

end Stmt

/-! ## Scopes -/

namespace Named

variable {scopes : List (Table Binding)} {p : Place}

theorem enter {region : Region} (h : Named scopes p) :
    Named (∅ :: scopes) (p.enter region []) := by
  refine .cons ?_ h
  intro name
  constructor
  · intro hname
    cases hname
  · intro hname
    cases hname

theorem tail {scope : LexicalScope} (h : Named scopes (scope :: p)) : Named scopes.tail p := by
  cases h with
  | cons _ houter => exact houter

theorem region {first : Region} {names : List String} (h : Named scopes (p.enter first names))
    (second : Region) : Named scopes (p.enter second names) := by
  cases h with
  | cons hnames houter => exact .cons hnames houter

theorem insert {table : Table Binding} {name : String} {binding : Binding}
    (h : Named (table :: scopes) p) :
    Named (table.insert name binding :: scopes) (p.declare [name]) := by
  cases h with
  | cons hnames houter =>
      refine .cons ?_ houter
      intro key
      rw [Table.contains_insert, Bool.or_eq_true, decide_eq_true_iff, hnames key,
        List.mem_append, List.mem_singleton, Or.comm]

theorem update {table : Table Binding} {name : String} {binding : Binding}
    (h : Named (table :: scopes) p) (hname : table.contains name = true) :
    Named (table.insert name binding :: scopes) p := by
  cases h with
  | cons hnames houter =>
      refine .cons ?_ houter
      intro key
      rw [Table.contains_insert, Bool.or_eq_true, decide_eq_true_iff, hnames key]
      constructor
      · rintro (rfl | hkey)
        · exact (hnames key).mp hname
        · exact hkey
      · exact .inr

end Named

/-! ## Walks -/

namespace Resolution

/-- The resolver walks from `r` to `r'` through references, to the place `q`. -/
structure Walks (refs : List Reference) (q : Place) (r r' : Resolution) : Prop where
  named : Named r'.scopes q
  grows : r.diagnostics <+: r'.diagnostics
  kept : ∀ id : NodeId, (r.locals[id]?).isSome → (r'.locals[id]?).isSome
  found : ∀ (id : NodeId) d, r'.locals[id]? = some d →
    r.locals[id]? = some d ∨ ∃ ref ∈ refs, ref.mention.id = id ∧
      (ref.pending = false → ref.mention.use = .read ∨ ¬Declarable ref.mention.name →
        ref.distance? = some d) ∧ (d = 0 ∨ ref.distance? = some d)
  recorded : ∀ ref ∈ refs, ref.mention.use = .read → (ref.distance?).isSome →
    (r'.locals[ref.mention.id]?).isSome
  pending : ∀ ref ∈ refs, ref.pending = true → Diagnostic.anyError r'.diagnostics = true
  parent : ∀ ref ∈ refs, ref.mention.use = .receiver → ref.mention.name = "super" →
    Diagnostic.anyError r'.diagnostics = true ∨
      ref.place.Derived ∧ (r'.locals[ref.mention.id]?).isSome

namespace Walks

variable {refs others : List Reference} {p q : Place} {r r' r'' : Resolution}

theorem quiet (hnamed : Named r'.scopes q) (hgrows : r.diagnostics <+: r'.diagnostics)
    (hlocals : r'.locals = r.locals) : Walks [] q r r' := by
  refine ⟨hnamed, hgrows, ?_, ?_, ?_, ?_, ?_⟩
  · intro id hid
    rw [hlocals]
    exact hid
  · intro id d hlocal
    rw [hlocals] at hlocal
    exact .inl hlocal
  · intro ref href
    cases href
  · intro ref href
    cases href
  · intro ref href
    cases href

theorem trans (h : Walks refs p r r') (h' : Walks others q r' r'') :
    Walks (refs ++ others) q r r'' := by
  refine ⟨h'.named, h.grows.trans h'.grows, fun id hid => h'.kept id (h.kept id hid), ?_, ?_,
    ?_, ?_⟩
  · intro id d hlocal
    rcases h'.found id d hlocal with hold | ⟨ref, href, hd⟩
    · rcases h.found id d hold with hold | ⟨ref, href, hd⟩
      · exact .inl hold
      · exact .inr ⟨ref, List.mem_append_left _ href, hd⟩
    · exact .inr ⟨ref, List.mem_append_right _ href, hd⟩
  · intro ref href huse hd
    rcases List.mem_append.mp href with href | href
    · exact h'.kept _ (h.recorded ref href huse hd)
    · exact h'.recorded ref href huse hd
  · intro ref href hpending
    rcases List.mem_append.mp href with href | href
    · exact anyError_mono h'.grows (h.pending ref href hpending)
    · exact h'.pending ref href hpending
  · intro ref href huse hname
    rcases List.mem_append.mp href with href | href
    · rcases h.parent ref href huse hname with herror | ⟨hderived, hlocal⟩
      · exact .inl (anyError_mono h'.grows herror)
      · exact .inr ⟨hderived, h'.kept _ hlocal⟩
    · exact h'.parent ref href huse hname

/-- What comes before or behind a walk without references does not count. -/
theorem after (h : Walks [] p r r') (h' : Walks refs q r' r'') : Walks refs q r r'' :=
  h.trans h'

theorem before (h : Walks refs p r r') (h' : Walks [] q r' r'') : Walks refs q r r'' := by
  have htrans := h.trans h'
  rwa [List.append_nil] at htrans

theorem leave {scope : LexicalScope} (h : Walks refs (scope :: q) r r') :
    Walks refs q r r'.leave :=
  ⟨h.named.tail, h.grows, h.kept, h.found, h.recorded, h.pending, h.parent⟩

end Walks

/-! ## Declarations -/

section Declarations

variable {r : Resolution} {p : Place}

theorem walks_enter {region : Region} (h : Named r.scopes p) :
    Walks [] (p.enter region []) r r.enter :=
  .quiet h.enter (List.prefix_refl _) rfl

theorem walks_declare (h : Named r.scopes p) (name : Token) (kind : BindingKind) :
    Walks [] (p.declare [name.lexeme]) r (r.declare name kind) := by
  cases hscopes : r.scopes with
  | nil =>
      rw [hscopes] at h
      cases h
      have hsame : r.declare name kind = r := by
        unfold Resolution.declare
        rw [hscopes]
      rw [hsame]
      refine .quiet ?_ (List.prefix_refl _) rfl
      rw [hscopes]
      exact .nil
  | cons table outer =>
      rw [hscopes] at h
      unfold Resolution.declare
      simp only [hscopes]
      refine .quiet h.insert ?_ ?_
      · split
        · split
          · exact List.prefix_refl _
          · exact grows_report _ _ _
        · exact List.prefix_refl _
      · split
        · split <;> rfl
        · rfl

theorem walks_define (h : Named r.scopes p) (name : String) : Walks [] p r (r.define name) := by
  have hquiet : Walks [] p r r := .quiet h (List.prefix_refl _) rfl
  unfold Resolution.define
  cases hscopes : r.scopes with
  | nil => exact hquiet
  | cons table outer =>
      cases hfind : table.find? name with
      | none =>
          simp only [hfind]
          exact hquiet
      | some binding =>
          simp only [hfind]
          rw [hscopes] at h
          refine .quiet (h.update ?_) (List.prefix_refl _) rfl
          rw [Table.contains, hfind]
          rfl

theorem walks_introduce (h : Named r.scopes p) (name : Token) (kind : BindingKind) :
    Walks [] (p.declare [name.lexeme]) r (r.introduce name kind) :=
  have hdeclare := walks_declare h name kind
  hdeclare.before (walks_define hdeclare.named name.lexeme)

theorem walks_bindReceiver {scope : LexicalScope} (h : Named r.scopes (scope :: p))
    (name : String) :
    Walks [] (Place.declare (scope :: p) [name]) r (r.bindReceiver name) := by
  cases hscopes : r.scopes with
  | nil =>
      rw [hscopes] at h
      cases h
  | cons table outer =>
      rw [hscopes] at h
      unfold bindReceiver
      simp only [hscopes]
      exact .quiet h.insert (List.prefix_refl _) rfl

theorem walks_introduceAll (token : α → Token) (kind : BindingKind) (list : List α) :
    ∀ {p : Place} {r : Resolution}, Named r.scopes p →
      Walks [] (p.declare (list.map fun item => (token item).lexeme)) r
        (list.foldl (fun r item => r.introduce (token item) kind) r) := by
  induction list with
  | nil =>
      intro p r h
      rw [List.map_nil, Place.declare_nil]
      exact .quiet h (List.prefix_refl _) rfl
  | cons item rest ih =>
      intro p r h
      have hfirst := walks_introduce h (token item) kind
      have hrest := ih hfirst.named
      rw [← Place.declare_append] at hrest
      exact hfirst.after hrest

theorem walks_enums (enums : List EnumDecl) :
    ∀ {p : Place} {r : Resolution}, Named r.scopes p →
      Walks [] (p.declare (enums.flatMap EnumDecl.declared)) r
        (enums.foldl (fun r decl => enumDecl decl r) r) := by
  induction enums with
  | nil =>
      intro p r h
      rw [List.flatMap_nil, Place.declare_nil]
      exact .quiet h (List.prefix_refl _) rfl
  | cons decl rest ih =>
      intro p r h
      have hfirst : Walks [] (p.declare decl.declared) r (enumDecl decl r) :=
        walks_introduceAll id .enumMember decl.members h
      have hrest := ih hfirst.named
      rw [← Place.declare_append] at hrest
      exact hfirst.after hrest

theorem walks_params {decl : Function} (h : Named r.scopes p) :
    Walks [] (p.enter (.function decl) decl.paramNames) r (params decl.params r.enter) := by
  have henter : Walks [] (p.enter (.function decl) []) r r.enter := walks_enter h
  exact henter.after (walks_introduceAll Param.name .parameter decl.params henter.named)

end Declarations

/-! ## Expressions at places -/

section Expressions

variable {site : Site} {ms : List Mention} {p : Place} {r r' : Resolution}

theorem Visits.walks (h : Visits site ms r r') (hnamed : Named r.scopes p) (hsite : site.At p) :
    Walks (ms.map (Mention.located p)) p r r' := by
  refine ⟨h.scopes ▸ hnamed, h.grows, h.kept, ?_, ?_, ?_, ?_⟩
  · intro id d hlocal
    rcases h.found id d hlocal with hold | ⟨m, hm, hid, hd⟩
    · exact .inl hold
    · have hdistance := (hnamed.distance? m.name).symm.trans hd
      exact .inr ⟨m.located p, List.mem_map_of_mem hm, hid, fun _ _ => hdistance, .inr hdistance⟩
  · intro ref href huse hd
    rcases List.mem_map.mp href with ⟨m, hm, rfl⟩
    refine h.recorded m hm huse ?_
    rw [hnamed.distance?]
    exact hd
  · intro ref href hpending
    rcases List.mem_map.mp href with ⟨m, hm, rfl⟩
    cases hpending
  · intro ref href huse hname
    rcases List.mem_map.mp href with ⟨m, hm, rfl⟩
    rcases h.parent m hm huse hname with herror | ⟨henclosing, hlocal⟩
    · exact .inl herror
    · have hderived := hsite henclosing
      refine .inr ⟨hderived, hlocal ?_⟩
      rcases hderived with ⟨nearer, -, hsuper⟩
      rw [hnamed.distance?, hsuper]
      rfl

/-- The name of a variable is pending as long as its first value is resolved. -/
theorem isPending_declare {name : Token} {kind : BindingKind} (h : r.scopes ≠ []) :
    (r.declare name kind).isPending name.lexeme = true := by
  cases hscopes : r.scopes with
  | nil => exact absurd hscopes h
  | cons table outer => simp [Resolution.declare, isPending, hscopes]

/-- The first value of a variable stands in front of its declaration, but is resolved behind it. -/
theorem Visits.walks_initial {own : Token} {kind : BindingKind}
    (h : Visits site ms (r.declare own kind) r') (hnamed : Named r.scopes p) (hsite : site.At p)
    (hown : Declarable own.lexeme) :
    Walks (ms.map (Mention.initial p own.lexeme)) (p.declare [own.lexeme])
      (r.declare own kind) r' := by
  have hdeclared := (walks_declare hnamed own kind).named
  refine ⟨h.scopes ▸ hdeclared, h.grows, h.kept, ?_, ?_, ?_, ?_⟩
  · intro id d hlocal
    rcases h.found id d hlocal with hold | ⟨m, hm, hid, hd⟩
    · exact .inl hold
    · rw [hdeclared.distance?] at hd
      refine .inr ⟨m.initial p own.lexeme, List.mem_map_of_mem hm, hid, fun hpending huse => ?_,
        Place.distance?_of_declare hd⟩
      rw [Place.distance?_declare] at hd
      · exact hd
      · cases p with
        | nil => exact .inl rfl
        | cons scope outer =>
            refine .inr fun hmem => ?_
            have hname : m.name = own.lexeme := List.mem_singleton.mp hmem
            rcases huse with hread | hnot
            · change m.use = .read at hread
              simp [Mention.initial, hread, hname] at hpending
            · exact hnot (hname.symm ▸ hown)
  · intro ref href huse hd
    rcases List.mem_map.mp href with ⟨m, hm, rfl⟩
    refine h.recorded m hm huse ?_
    rw [hdeclared.distance?]
    exact Place.isSome_distance?_declare hd
  · intro ref href hpending
    rcases List.mem_map.mp href with ⟨m, hm, rfl⟩
    simp only [Mention.initial, Bool.and_eq_true, decide_eq_true_iff] at hpending
    rcases hpending with ⟨hplace, hread, hname⟩
    refine h.pending m hm hread ?_
    rw [hname]
    refine isPending_declare ?_
    intro hscopes
    rw [hscopes] at hnamed
    cases hnamed
    cases hplace
  · intro ref href huse hname
    rcases List.mem_map.mp href with ⟨m, hm, rfl⟩
    rcases h.parent m hm huse hname with herror | ⟨henclosing, hlocal⟩
    · exact .inl herror
    · refine .inr ⟨hsite henclosing, hlocal ?_⟩
      rcases (hsite henclosing).declare (List.forall_mem_singleton.mpr hown) with ⟨_, -, hsuper⟩
      rw [hdeclared.distance?, hsuper]
      rfl

theorem walks_expr (site : Site) (e : Expr) (hnamed : Named r.scopes p) (hsite : site.At p) :
    Walks (e.mentions.map (Mention.located p)) p r (expr site e r) :=
  (expr_visits site e r).walks hnamed hsite

theorem walks_optionalExpr (site : Site) (value : Option Expr) (hnamed : Named r.scopes p)
    (hsite : site.At p) :
    Walks (Stmt.optionalReferences p value) p r (optionalExpr site value r) := by
  cases value with
  | none => exact .quiet hnamed (List.prefix_refl _) rfl
  | some e => exact walks_expr site e hnamed hsite

theorem walks_exitSite (site : Site) (keyword : Token) (value : Option Expr)
    (hnamed : Named r.scopes p) : Walks [] p r (exitSite site keyword value r) := by
  have hquiet : Walks [] p r r := .quiet hnamed (List.prefix_refl _) rfl
  have hreport (r : Resolution) (fault : ScopeFault) (hnamed : Named r.scopes p) :
      Walks [] p r (r.report fault keyword) :=
    .quiet hnamed (grows_report _ _ _) rfl
  unfold exitSite
  split
  · split
    · exact (hreport r _ hnamed).after (hreport _ _ hnamed)
    · exact hreport r _ hnamed
  · split
    · exact hreport r _ hnamed
    · exact hquiet

theorem walks_var (site : Site) (decl : VarDecl) (hnamed : Named r.scopes p) (hsite : site.At p)
    (hname : Declarable decl.name.lexeme) :
    Walks (Stmt.initialReferences p decl) (p.declare [decl.name.lexeme]) r
      ((optionalExpr site decl.initial (r.declare decl.name .variable)).define
        decl.name.lexeme) := by
  have hdeclare := walks_declare hnamed decl.name .variable
  unfold Stmt.initialReferences
  cases decl.initial with
  | none => exact hdeclare.before (walks_define hdeclare.named _)
  | some e =>
      have hvalue := (expr_visits site e (r.declare decl.name .variable)).walks_initial hnamed
        hsite hname
      exact hdeclare.after (hvalue.before (walks_define hvalue.named _))

end Expressions

/-! ## Classes -/

section Classes

variable {p : Place} {r : Resolution}

theorem walks_parent {decl : ClassDecl Stmt} {parent : Superclass}
    (hparent : decl.superclass = some parent) (hnamed : Named r.scopes (p.declare decl.declared)) :
    Walks (Stmt.parentReferences p decl) (p.declare decl.declared) r
      ((if parent.name.lexeme = decl.name.lexeme then r.report .selfInheritance parent.name
        else r).resolve parent.id parent.name.lexeme) := by
  have hscopes : (if parent.name.lexeme = decl.name.lexeme
      then r.report .selfInheritance parent.name else r).scopes = r.scopes := by
    split <;> rfl
  have hlocals : (if parent.name.lexeme = decl.name.lexeme
      then r.report .selfInheritance parent.name else r).locals = r.locals := by
    split <;> rfl
  have hgrows : r.diagnostics <+: (if parent.name.lexeme = decl.name.lexeme
      then r.report .selfInheritance parent.name else r).diagnostics := by
    split
    · exact grows_report _ _ _
    · exact List.prefix_refl _
  unfold Stmt.parentReferences
  rw [hparent]
  refine ⟨?_, ?_, ?_, ?_, ?_, ?_, ?_⟩
  · rw [scopes_resolve, hscopes]
    exact hnamed
  · rw [diagnostics_resolve]
    exact hgrows
  · intro id hid
    rw [locals_resolve, hlocals]
    split
    · rw [Option.isSome_or, hid, Bool.or_true]
    · exact hid
  · intro id d hlocal
    rw [locals_resolve, hlocals, hscopes] at hlocal
    split at hlocal
    · next hid =>
        rcases Option.or_eq_some_iff.mp hlocal with hd | ⟨-, hold⟩
        · rw [hnamed.distance?] at hd
          exact .inr ⟨_, List.mem_singleton_self _, hid, fun _ _ => hd, .inr hd⟩
        · exact .inl hold
    · exact .inl hlocal
  · intro ref href _ hd
    rw [List.mem_singleton.mp href] at hd ⊢
    refine isSome_locals_resolve ?_
    rw [hscopes, hnamed.distance?]
    exact hd
  · intro ref href hpending
    rw [List.mem_singleton.mp href] at hpending
    rw [diagnostics_resolve, if_pos (of_decide_eq_true hpending)]
    exact anyError_report _ _ rfl
  · intro ref href huse
    rw [List.mem_singleton.mp href] at huse
    cases huse

theorem walks_enterClass (decl : ClassDecl Stmt) (hnamed : Named r.scopes p) (region : Region) :
    Walks (Stmt.parentReferences p decl) ((p.insideClass decl).enter region ["this"]) r
      (enterClass decl.name decl.superclass decl.enums r) := by
  have henums := walks_enums decl.enums hnamed
  have hname := henums.after (walks_introduce henums.named decl.name .class)
  rw [← Place.declare_append] at hname
  -- the scope of `this` is entered last
  have hthis {q : Place} {r : Resolution} (h : Named r.scopes q) :
      Walks [] (q.enter region ["this"]) r (r.enter.bindReceiver "this") := by
    have henter : Walks [] (q.enter region []) r r.enter := walks_enter h
    exact henter.after (walks_bindReceiver henter.named "this")
  unfold enterClass
  cases hsuperclass : decl.superclass with
  | none =>
      have hinside : p.insideClass decl = p.declare decl.declared := by
        rw [Place.insideClass, hsuperclass]
      have hrefs : Stmt.parentReferences p decl = [] := by
        rw [Stmt.parentReferences, hsuperclass]
      rw [hinside, hrefs]
      exact hname.after (hthis hname.named)
  | some parent =>
      have hinside : p.insideClass decl =
          (p.declare decl.declared).enter (.parent decl) ["super"] := by
        rw [Place.insideClass, hsuperclass]
      rw [hinside]
      have hparent := hname.after (walks_parent hsuperclass hname.named)
      have henter : Walks [] ((p.declare decl.declared).enter (.parent decl) []) _ _ :=
        walks_enter hparent.named
      have hsuper := (hparent.before henter).before (walks_bindReceiver henter.named "super")
      exact hsuper.before (hthis hsuper.named)

end Classes

/-! ## Statements -/

theorem walks_leaveClass {refs : List Reference} {p : Place} {decl : ClassDecl Stmt}
    {scope : LexicalScope} {r r' : Resolution}
    (h : Walks refs (scope :: p.insideClass decl) r r') :
    Walks refs (p.declare decl.declared) r (leaveClass decl.superclass r') := by
  unfold Place.insideClass at h
  unfold leaveClass
  cases hsuperclass : decl.superclass with
  | none =>
      rw [hsuperclass] at h
      exact h.leave
  | some parent =>
      rw [hsuperclass] at h
      exact h.leave.leave

theorem insideClass_at (site : Site) (p : Place) (decl : ClassDecl Stmt) (method : Function) :
    (insideClass site decl.superclass).At
      ((p.insideClass decl).enter (.receiver method) ["this"]) := by
  intro hsite
  unfold Place.insideClass
  unfold insideClass at hsite
  cases hsuperclass : decl.superclass with
  | none =>
      rw [hsuperclass] at hsite
      cases hsite
  | some parent => exact Place.derived_method _ decl method

theorem walks_block {body : List Stmt} {site : Site} {p : Place} {r : Resolution}
    (hstmts : ∀ q r', Named r'.scopes q → site.At q →
      Walks (Stmt.listReferences q body) (q.declare (Stmt.declaredBy body)) r'
        (stmts site body r'))
    (hnamed : Named r.scopes p) (hsite : site.At p) :
    Walks (Stmt.listReferences (p.enter (.block body) []) body) p r
      (stmts site body r.enter).leave := by
  have henter : Walks [] (p.enter (.block body) []) r r.enter := walks_enter hnamed
  exact (henter.after (hstmts _ _ henter.named (hsite.enter (by simp)))).leave

theorem walks_functionBody (decl : Function) {site : Site} {p : Place} {r : Resolution}
    (hstmts : ∀ q r', Named r'.scopes q → site.At q →
      Walks (Stmt.listReferences q decl.body) (q.declare (Stmt.declaredBy decl.body)) r'
        (stmts site decl.body r'))
    (hnamed : Named r.scopes p) (hsite : site.At p)
    (hparams : ∀ param ∈ decl.params, Declarable param.name.lexeme) :
    Walks (Stmt.listReferences (p.enter (.function decl) decl.paramNames) decl.body) p r
      (stmts site decl.body (params decl.params r.enter)).leave := by
  have henter : Walks [] (p.enter (.function decl) decl.paramNames) r _ := walks_params hnamed
  refine (henter.after (hstmts _ _ henter.named (hsite.enter ?_))).leave
  intro name hname
  rcases List.mem_map.mp hname with ⟨param, hparam, rfl⟩
  exact hparams param hparam

mutual

theorem walks_stmt :
    ∀ (s : Stmt) (site : Site) (p : Place) (r : Resolution), Named r.scopes p → site.At p →
      s.Tidy Declarable → Walks (s.references p) (p.declare s.declared) r (stmt site s r)
  | .block body, site, p, r, hnamed, hsite, htidy => by
      have hbody := walks_block
        (fun q r' hnamed' hsite' => walks_stmts body site q r' hnamed' hsite' htidy) hnamed hsite
      rw [show (Stmt.block body).declared = [] from rfl, Place.declare_nil]
      exact hbody
  | .classDecl ⟨name, superclass, fields, enums, methods⟩, site, p, r, hnamed, _, htidy => by
      have henter := walks_enterClass ⟨name, superclass, fields, enums, methods⟩ hnamed (.block [])
      have hmethods := walks_methods methods _ _ _ _ henter.named
        (insideClass_at site p ⟨name, superclass, fields, enums, methods⟩) htidy.2.2
      exact walks_leaveClass (henter.trans hmethods)
  | .enumDecl decl, site, p, r, hnamed, _, _ =>
      walks_introduceAll id .enumMember decl.members hnamed
  | .function ⟨kind, name, params, returnType, body⟩, site, p, r, hnamed, hsite, htidy => by
      rcases htidy with ⟨hname, hparams, hbody⟩
      have hdeclare := walks_introduce hnamed name .function
      have hrest := walks_functionBody ⟨kind, name, params, returnType, body⟩
        (fun q r' hnamed' hsite' =>
          walks_stmts body { site with function := .function } q r' hnamed' hsite' hbody)
        hdeclare.named (hsite.declare (List.forall_mem_singleton.mpr hname)) hparams
      exact hdeclare.after hrest
  | .ifThen condition thenBranch none, site, p, r, hnamed, hsite, htidy => by
      rcases htidy with ⟨hnone, hthen⟩
      have hcondition := walks_expr site condition hnamed hsite
      have hbranch := walks_stmt thenBranch site p _ hcondition.named hsite hthen
      rw [hnone] at hbranch
      exact hcondition.trans hbranch
  | .ifThen condition thenBranch (some elseBranch), site, p, r, hnamed, hsite, htidy => by
      rcases htidy with ⟨hnone, hthen, hnone', helse⟩
      have hcondition := walks_expr site condition hnamed hsite
      have hbranch := walks_stmt thenBranch site p _ hcondition.named hsite hthen
      rw [hnone, Place.declare_nil] at hbranch
      have hbranch' := walks_stmt elseBranch site p _ hbranch.named hsite helse
      rw [hnone'] at hbranch'
      exact (hcondition.trans hbranch).trans hbranch'
  | .while condition body, site, p, r, hnamed, hsite, htidy => by
      rcases htidy with ⟨hnone, hbody⟩
      have hcondition := walks_expr site condition hnamed hsite
      have hround := walks_stmt body site p _ hcondition.named hsite hbody
      rw [hnone] at hround
      exact hcondition.trans hround
  | .try keyword body handlerList otherwise, site, p, r, hnamed, hsite, htidy => by
      rcases htidy with ⟨hbody, hhandlers, hotherwise⟩
      have hguarded := walks_block
        (fun q r' hnamed' hsite' => walks_stmts body site q r' hnamed' hsite' hbody) hnamed hsite
      have hcaught := walks_handlers handlerList site p _ hguarded.named hsite hhandlers
      have hrest := walks_block
        (fun q r' hnamed' hsite' => walks_stmts otherwise site q r' hnamed' hsite' hotherwise)
        hcaught.named hsite
      rw [show (Stmt.try keyword body handlerList otherwise).declared = [] from rfl,
        Place.declare_nil]
      exact (hguarded.trans hcaught).trans hrest
  | .print keyword value, site, p, r, hnamed, hsite, _ => by
      rw [show (Stmt.print keyword value).declared = [] from rfl, Place.declare_nil]
      exact walks_expr site value hnamed hsite
  | .exit keyword value, site, p, r, hnamed, hsite, _ => by
      have hexit := walks_exitSite site keyword value hnamed
      rw [show (Stmt.exit keyword value).declared = [] from rfl, Place.declare_nil]
      exact hexit.after (walks_optionalExpr site value hexit.named hsite)
  | .raise keyword value, site, p, r, hnamed, hsite, _ => by
      rw [show (Stmt.raise keyword value).declared = [] from rfl, Place.declare_nil]
      exact walks_optionalExpr site value hnamed hsite
  | .var decl, site, p, r, hnamed, hsite, htidy => walks_var site decl hnamed hsite htidy
  | .break keyword, site, p, r, hnamed, _, _ => by
      rw [show (Stmt.break keyword).declared = [] from rfl, Place.declare_nil]
      exact .quiet hnamed (List.prefix_refl _) rfl
  | .expression value, site, p, r, hnamed, hsite, _ => by
      rw [show (Stmt.expression value).declared = [] from rfl, Place.declare_nil]
      exact walks_expr site value hnamed hsite
  | .uses names token, site, p, r, hnamed, _, _ => by
      rw [show (Stmt.uses names token).declared = [] from rfl, Place.declare_nil]
      exact .quiet hnamed (List.prefix_refl _) rfl

theorem walks_stmts :
    ∀ (list : List Stmt) (site : Site) (p : Place) (r : Resolution), Named r.scopes p →
      site.At p → Stmt.TidyList Declarable list →
      Walks (Stmt.listReferences p list) (p.declare (Stmt.declaredBy list)) r (stmts site list r)
  | [], site, p, r, hnamed, _, _ => by
      rw [Stmt.declaredBy, List.flatMap_nil, Place.declare_nil]
      exact .quiet hnamed (List.prefix_refl _) rfl
  | s :: rest, site, p, r, hnamed, hsite, htidy => by
      have hfirst := walks_stmt s site p r hnamed hsite htidy.1
      have hrest := walks_stmts rest site _ _ hfirst.named
        (hsite.declare htidy.1.declarable) htidy.2
      rw [← Place.declare_append] at hrest
      exact hfirst.trans hrest

theorem walks_methods :
    ∀ (list : List Function) (site : Site) (p : Place) (region : Region) (r : Resolution),
      Named r.scopes (p.enter region ["this"]) →
      (∀ method, site.At (p.enter (.receiver method) ["this"])) →
      Stmt.TidyMethods Declarable list →
      Walks (Stmt.methodReferences p list) (p.enter region ["this"]) r (methods site list r)
  | [], site, p, region, r, hnamed, _, _ => .quiet hnamed (List.prefix_refl _) rfl
  | ⟨kind, name, parameters, returnType, body⟩ :: rest, site, p, region, r, hnamed, hsite,
      htidy => by
      rcases htidy with ⟨hparams, hbody, hrest⟩
      have hfirst := walks_functionBody ⟨kind, name, parameters, returnType, body⟩
        (fun q r' hnamed' hsite' =>
          walks_stmts body (insideMethod site name) q r' hnamed' hsite' hbody)
        (hnamed.region (.receiver ⟨kind, name, parameters, returnType, body⟩)) (hsite _) hparams
      exact hfirst.trans (walks_methods rest site p region _ (hfirst.named.region region) hsite
        hrest)

theorem walks_handlers :
    ∀ (list : List (Handler Stmt)) (site : Site) (p : Place) (r : Resolution),
      Named r.scopes p → site.At p → Stmt.TidyHandlers Declarable list →
      Walks (Stmt.handlerReferences p list) p r (handlers site list r)
  | [], site, p, r, hnamed, _, _ => .quiet hnamed (List.prefix_refl _) rfl
  | ⟨name, typeName, body⟩ :: rest, site, p, r, hnamed, hsite, htidy => by
      rcases htidy with ⟨hname, hnone, hbody, hrest⟩
      have henter : Walks [] (p.enter (.handler ⟨name, typeName, body⟩) []) r r.enter :=
        walks_enter hnamed
      have hbind := henter.after (walks_introduce henter.named name .handler)
      have hfirst := walks_stmt body site _ _ hbind.named
        (hsite.enter (List.forall_mem_singleton.mpr hname)) hbody
      rw [hnone, Place.declare_nil] at hfirst
      have hleave := (hbind.after hfirst).leave
      exact hleave.trans (walks_handlers rest site p _ hleave.named hsite hrest)

end

/-! ## Programs -/

section Programs

variable {first limit : NodeId} {statements : List Stmt}
variable (h : Stmt.NumberedProgram Declarable first statements limit)
include h

theorem walks_program :
    Walks (Stmt.listReferences [] statements) [] start (program statements) := by
  refine walks_stmts statements .top [] start .nil ?_ h.tidy
  intro hsite
  cases hsite

/-- Distances are recorded for numbers of the program only. -/
theorem bounds_of_local {id : NodeId} {d : Nat}
    (hlocal : (program statements).locals[id]? = some d) : first ≤ id ∧ id < limit := by
  rcases (walks_program h).found id d hlocal with hold | ⟨ref, href, hid, -⟩
  · cases hold
  · rw [← hid]
    exact h.settled.bounds [] ref href

/-- A recorded distance leads to the innermost scope, or to one that has the name. -/
theorem scope_of_local {ref : Reference} {d : Nat} (href : ref ∈ Stmt.listReferences [] statements)
    (hlocal : (program statements).locals[ref.mention.id]? = some d) :
    d = 0 ∨ ∃ scope, ref.place[d]? = some scope ∧ ref.mention.name ∈ scope.names := by
  rcases (walks_program h).found _ d hlocal with hold | ⟨other, hother, hid, -, hd⟩
  · cases hold
  · rcases h.settled.twins [] other hother ref href hid with ⟨hmention, htail⟩
    rw [hmention]
    cases d with
    | zero => exact .inl rfl
    | succ n =>
        have hdistance := hd.resolve_left (Nat.succ_ne_zero n)
        rcases Place.scope_of_distance? hdistance with ⟨scope, hscope, hname⟩
        refine .inr ⟨scope, ?_, hname⟩
        rw [← List.getElem?_tail, htail, List.getElem?_tail]
        exact hscope

variable (hok : Diagnostic.anyError (program statements).diagnostics = false)
include hok

/-- No declaration of an accepted program reads its own name. -/
theorem pending_of_accepted :
    ∀ ref ∈ Stmt.listReferences [] statements, ref.pending = false := by
  intro ref href
  cases hpending : ref.pending with
  | false => rfl
  | true => exact absurd ((walks_program h).pending ref href hpending) (by simp [hok])

/-- In an accepted program, a recorded distance is that of every reference with its number. -/
theorem distance?_of_accepted {ref : Reference} {d : Nat}
    (href : ref ∈ Stmt.listReferences [] statements)
    (hfixed : ref.mention.use = .read ∨ ¬Declarable ref.mention.name)
    (hlocal : (program statements).locals[ref.mention.id]? = some d) :
    ref.distance? = some d := by
  have hpending := pending_of_accepted h hok
  rcases (walks_program h).found _ d hlocal with hold | ⟨other, hother, hid, hd⟩
  · cases hold
  · rcases h.settled.coherent [] hpending ref href other hother hfixed hid.symm with
      ⟨hmention, hdistance, -⟩
    rw [← hdistance]
    exact hd.1 (hpending other hother) (hmention ▸ hfixed)

/-- In an accepted program, the distance of a name that is read is recorded if there is one. -/
theorem local_eq_distance? {ref : Reference} (href : ref ∈ Stmt.listReferences [] statements)
    (huse : ref.mention.use = .read) :
    (program statements).locals[ref.mention.id]? = ref.distance? := by
  cases hlocal : (program statements).locals[ref.mention.id]? with
  | some d => exact (distance?_of_accepted h hok href (.inl huse) hlocal).symm
  | none =>
      cases hdistance : ref.distance? with
      | none => rfl
      | some d =>
          have hsome := (walks_program h).recorded ref href huse (by rw [hdistance]; rfl)
          rw [hlocal] at hsome
          cases hsome

/-- In an accepted program, `super` stands in a class that extends another one, and has a
distance. -/
theorem derived_of_accepted {ref : Reference} (href : ref ∈ Stmt.listReferences [] statements)
    (huse : ref.mention.use = .receiver) (hname : ref.mention.name = "super") :
    ref.place.Derived ∧ ((program statements).locals[ref.mention.id]?).isSome := by
  rcases (walks_program h).parent ref href huse hname with herror | hderived
  · rw [hok] at herror
    cases herror
  · exact hderived

end Programs

end Resolution

end MiniPascal
