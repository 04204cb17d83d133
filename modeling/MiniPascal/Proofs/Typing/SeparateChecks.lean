import MiniPascal.Proofs.Typing.Separation

/-!
# The same outcome from a part and from the whole

Every check of expressions and statements comes out the same from a state of knowledge and from one
that it is part of, as long as their words and symbols are among those the two agree on.
-/

namespace MiniPascal

namespace Typing

variable {T D : String → Prop} {n : Nat} {base part whole : TypeLookup}

/-! ## Types of expressions -/

/-- The same type or the same fault; a type satisfies `T`. -/
def Typed (T : String → Prop) (x y : Except TypeError String) : Prop :=
  y = x ∧ ∀ type, x = .ok type → T type

namespace Typed

theorem ok {type : String} (h : T type) : Typed T (.ok type) (.ok type) := by
  refine ⟨rfl, fun other hother => ?_⟩
  cases hother
  exact h

theorem error {e : TypeError} : Typed T (.error e) (.error e) :=
  ⟨rfl, fun _ h => by cases h⟩

theorem bind {x y : Except TypeError String} {f g : String → Except TypeError String}
    (hx : Typed T x y) (hf : ∀ type, T type → Typed T (f type) (g type)) :
    Typed T (x >>= f) (y >>= g) := by
  rcases hx with ⟨rfl, htype⟩
  cases y with
  | ok type => exact hf type (htype type rfl)
  | error e => exact error

end Typed

/-- The types that need no declaration are among the words. -/
def Complete (T : String → Prop) : Prop :=
  ∀ type ∈ builtinTypes, T type

section Reduce

variable (hT : Complete T)
include hT

theorem arithmeticType_typed {op : BinaryOp} {token : Token} {left right : String}
    (hleft : T left) :
    Typed T (arithmeticType op token left right) (arithmeticType op token left right) := by
  unfold arithmeticType
  split
  · exact .ok hleft
  split
  · exact .ok (hT _ (by decide))
  split
  · exact .ok hleft
  · exact .error

theorem logicalType_typed {token : Token} {left right : String} :
    Typed T (logicalType token left right) (logicalType token left right) := by
  unfold logicalType
  split
  · exact .error
  · exact .ok (hT _ (by decide))

theorem typed_getD {found : Option String} {other : String} (hfound : ∀ type ∈ found, T type)
    (hother : other ∈ builtinTypes) : T (found.getD other) := by
  cases found with
  | none => exact hT _ hother
  | some type => exact hfound type rfl

variable (h : TypeLookup.Part T D n base part whole)
include h

theorem namedCallType_typed {known symbols symbols' : TypeTable} {name result : String}
    (hsymbols : TypeTable.Part T D n known symbols symbols') (hname : T name)
    (hresult : T result) :
    Typed T (.ok (namedCallType part symbols name result))
      (.ok (namedCallType whole symbols' name result)) := by
  unfold namedCallType
  rw [h.partClass, h.wholeClass]
  split
  · exact .ok (hT _ (by decide))
  split
  · exact .ok (hT _ (by decide))
  split
  · cases hclass : base.currentClass with
    | none => exact .ok hresult
    | some className =>
        dsimp only
        rw [hsymbols.find? (.inr ⟨className, name, h.classType className hclass, hname, rfl⟩)]
        exact .ok (typed_getD hT (fun type htype => hsymbols.types htype) (by decide))
  · exact .ok hresult

theorem elementType_typed {object : Expr} {target : String}
    (hobject : ∀ word ∈ object.words, T word) :
    Typed T (.ok (elementType part object target)) (.ok (elementType whole object target)) := by
  unfold elementType
  split
  · exact .ok (hT _ (by decide))
  · split
    · next id name =>
        rw [h.generics.find? (.inl (hobject _ (List.mem_singleton_self _)))]
        exact .ok (typed_getD hT (fun type htype => h.generics.types htype) (by decide))
    · exact .ok (hT _ (by decide))

theorem reduce_typed : ∀ (e : Expr) {known : TypeTable} {symbols symbols' : TypeTable},
    (∀ word ∈ e.words, T word) → TypeTable.Part T D n known symbols symbols' →
      Typed T (reduce part symbols e) (reduce whole symbols' e)
  | .cast _ typeName, _, _, _, hwords, _ => by
      rw [reduce, reduce]
      exact .ok (hwords _ (List.mem_append_right _ (List.mem_singleton_self _)))
  | .literal value, _, _, _, _, _ => by
      rw [reduce, reduce]
      exact .ok (hT _ (literal_typeName_mem value))
  | .unary _ _ operand, _, _, _, hwords, hsymbols => by
      rw [reduce, reduce]
      exact reduce_typed operand hwords hsymbols
  | .grouping inner, _, _, _, hwords, hsymbols => by
      rw [reduce, reduce]
      exact reduce_typed inner hwords hsymbols
  | .binary left op token right, _, _, _, hwords, hsymbols => by
      rcases List.forall_mem_append.mp hwords with ⟨hleft, hright⟩
      rw [reduce, reduce]
      split
      · exact .ok (hT _ (by decide))
      · refine (reduce_typed left hleft hsymbols).bind fun leftType hleftType => ?_
        exact (reduce_typed right hright hsymbols).bind fun rightType _ =>
          arithmeticType_typed hT hleftType
  | .logical left _ token right, _, _, _, hwords, hsymbols => by
      rcases List.forall_mem_append.mp hwords with ⟨hleft, hright⟩
      rw [reduce, reduce]
      refine (reduce_typed left hleft hsymbols).bind fun leftType _ => ?_
      exact (reduce_typed right hright hsymbols).bind fun rightType _ => logicalType_typed hT
  | .variable _ name, _, _, _, hwords, hsymbols => by
      have hname : T name.lexeme := hwords _ (List.mem_singleton_self _)
      rw [reduce, reduce, hsymbols.find? (.inl hname)]
      exact .ok (typed_getD hT (fun type htype => hsymbols.types htype) (builtinType_mem _))
  | .get object name, _, symbols, symbols', hwords, hsymbols => by
      rcases List.forall_mem_append.mp hwords with ⟨hobject, hname⟩
      have hmember (receiver : String) (hreceiver : T receiver) :
          Typed T (.ok ((symbols.find? (memberSymbol receiver name.lexeme)).getD anyType))
            (.ok ((symbols'.find? (memberSymbol receiver name.lexeme)).getD anyType)) := by
        rw [hsymbols.find? (.inr ⟨receiver, name.lexeme, hreceiver,
          hname _ (List.mem_singleton_self _), rfl⟩)]
        exact .ok (typed_getD hT (fun type htype => hsymbols.types htype) (by decide))
      rw [reduce, reduce]
      refine (reduce_typed object hobject hsymbols).bind fun known hknown => ?_
      dsimp only
      split
      · exact (reduce_typed object hobject h.inferred).bind hmember
      · exact (Typed.ok hknown).bind hmember
  | .call callee _ _, _, symbols, symbols', hwords, hsymbols => by
      have hcallee : ∀ word ∈ callee.words, T word := (List.forall_mem_append.mp hwords).1
      rw [reduce, reduce]
      refine (reduce_typed callee hcallee hsymbols).bind fun result hresult => ?_
      cases callee with
      | «variable» id name =>
          exact namedCallType_typed hT h hsymbols (hcallee _ (List.mem_singleton_self _)) hresult
      | _ => exact .ok hresult
  | .subscript _ object _, _, _, _, hwords, hsymbols => by
      have hobject : ∀ word ∈ object.words, T word := (List.forall_mem_append.mp hwords).1
      rw [reduce, reduce]
      refine (reduce_typed object hobject hsymbols).bind fun target _ => ?_
      exact elementType_typed hT h hobject
  | .map _ _, _, _, _, _, _ => by
      rw [reduce, reduce]
      exact .ok (hT _ (by decide))
  | .this _ _, _, _, _, _, _ => by
      rw [reduce, reduce, h.partClass, h.wholeClass]
      exact .ok (typed_getD hT h.classType (by decide))
  | .assign _ _ _, _, _, _, _, _ => by
      rw [reduce, reduce]
      exact .ok (hT _ (by decide))
  | .set _ _ _, _, _, _, _, _ => by
      rw [reduce, reduce]
      exact .ok (hT _ (by decide))
  | .super _ _ _, _, _, _, _, _ => by
      rw [reduce, reduce]
      exact .ok (hT _ (by decide))

end Reduce

/-! ## Checks -/

/-- Both checks stop, or they have the same result, and one state is again part of the other. -/
def Same (T D : String → Prop) (n : Nat) (base : TypeLookup) (x y : Check α)
    (part whole : TypeLookup) (Q : α → Prop) : Prop :=
  match x part, y whole with
  | .ok value part', .ok value' whole' =>
      value' = value ∧ TypeLookup.Part T D n base part' whole' ∧ Q value
  | .error _ _, .error _ _ => True
  | _, _ => False

namespace Same

theorem pure {value : α} {Q : α → Prop} (h : TypeLookup.Part T D n base part whole)
    (hQ : Q value) :
    Same T D n base (Pure.pure value) (Pure.pure value) part whole Q :=
  ⟨rfl, h, hQ⟩

theorem throw {e e' : TypeError} {Q : α → Prop} :
    Same T D n base (MonadExcept.throw e) (MonadExcept.throw e') part whole Q :=
  trivial

theorem bind {x y : Check α} {f g : α → Check β} {Q : α → Prop} {R : β → Prop}
    (hx : Same T D n base x y part whole Q)
    (hf : ∀ value part whole, TypeLookup.Part T D n base part whole → Q value →
      Same T D n base (f value) (g value) part whole R) :
    Same T D n base (x >>= f) (y >>= g) part whole R := by
  unfold Same at hx ⊢
  show match EStateM.bind x f part, EStateM.bind y g whole with
    | .ok value part', .ok value' whole' => _
    | .error _ _, .error _ _ => True
    | _, _ => False
  unfold EStateM.bind
  cases hpart : x part with
  | ok value part' =>
      cases hwhole : y whole with
      | ok value' whole' =>
          rw [hpart, hwhole] at hx
          rcases hx with ⟨rfl, h, hQ⟩
          exact hf value' part' whole' h hQ
      | error e' whole' =>
          rw [hpart, hwhole] at hx
          exact hx.elim
  | error e part' =>
      cases hwhole : y whole with
      | ok value' whole' =>
          rw [hpart, hwhole] at hx
          exact hx.elim
      | error e' whole' => trivial

theorem look {f g : TypeLookup → Check α} {Q : α → Prop}
    (h : Same T D n base (f part) (g whole) part whole Q) :
    Same T D n base (get >>= f) (get >>= g) part whole Q :=
  h

theorem modify {change : TypeLookup → TypeLookup}
    (h : TypeLookup.Part T D n base (change part) (change whole)) :
    Same T D n base (modify change) (modify change) part whole fun _ => True :=
  ⟨rfl, h, trivial⟩

theorem inScope {x y : Check α} {Q : α → Prop}
    (h : Same T D (n + 1) base x y part.enter whole.enter Q) :
    Same T D n base (inScope x) (inScope y) part whole Q := by
  unfold Same at h ⊢
  unfold Typing.inScope
  cases hpart : x part.enter with
  | ok value part' =>
      cases hwhole : y whole.enter with
      | ok value' whole' =>
          rw [hpart, hwhole] at h
          exact ⟨h.1, h.2.1.leave, h.2.2⟩
      | error e' whole' =>
          rw [hpart, hwhole] at h
          exact h
  | error e part' =>
      cases hwhole : y whole.enter with
      | ok value' whole' =>
          rw [hpart, hwhole] at h
          exact h
      | error e' whole' => trivial

theorem insideClass {x y : Check α} {Q : α → Prop} {name : String}
    (hpart : TypeLookup.Part T D n base part whole)
    (h : Same T D n { base with currentClass := some name } x y
      { part with currentClass := some name } { whole with currentClass := some name } Q) :
    Same T D n base (insideClass name x) (insideClass name y) part whole Q := by
  unfold Same at h ⊢
  unfold Typing.insideClass
  cases hx : x { part with currentClass := some name } with
  | ok value part' =>
      cases hy : y { whole with currentClass := some name } with
      | ok value' whole' =>
          rw [hx, hy] at h
          dsimp only at h ⊢
          rw [hpart.partClass, hpart.wholeClass]
          exact ⟨h.1, h.2.1.withClass hpart.classType rfl, h.2.2⟩
      | error e' whole' =>
          rw [hx, hy] at h
          exact h
  | error e part' =>
      cases hy : y { whole with currentClass := some name } with
      | ok value' whole' =>
          rw [hx, hy] at h
          exact h
      | error e' whole' => trivial

end Same

section Checks

variable (hT : Complete T)
include hT

theorem typeOf_same {e : Expr} (hwords : ∀ word ∈ e.words, T word)
    (h : TypeLookup.Part T D n base part whole) :
    Same T D n base (typeOf e) (typeOf e) part whole T := by
  have htyped := reduce_typed hT h e hwords h.declared
  refine .look ?_
  unfold TypeLookup.typeOf
  rw [htyped.1]
  cases htype : reduce part part.declared e with
  | ok type => exact .pure h (htyped.2 type htype)
  | error e => exact .throw

theorem checkAssign_same {cast : Option String} {name : Token} {value : Expr}
    (hname : T name.lexeme) (hvalue : ∀ word ∈ value.words, T word)
    (h : TypeLookup.Part T D n base part whole) :
    Same T D n base (checkAssign cast name value) (checkAssign cast name value) part whole
      fun _ => True := by
  refine .look ?_
  rw [h.declared.find? (.inl hname)]
  cases hdeclared : part.declared.find? name.lexeme with
  | none => exact .pure h trivial
  | some expected =>
      dsimp only
      split
      · exact .pure h trivial
      -- at top level only what is declared there is assigned a type
      have hsymbol : n = 0 → D name.lexeme := by
        rintro rfl
        exact h.declared.own_of_find? (by rw [hdeclared]; rfl)
      refine (typeOf_same hT hvalue h).bind fun inferred part' whole' h' hinferred => ?_
      split
      · exact .modify (h'.infer hinferred hsymbol)
      · refine .look ?_
        rw [h'.isAssignable hinferred]
        split
        · exact .pure h' trivial
        · exact .throw

theorem checkSet_same {cast : Option String} {object : Expr} {name : Token} {inferred : String}
    (hobject : ∀ word ∈ object.words, T word) (hname : T name.lexeme) (hinferred : T inferred)
    (h : TypeLookup.Part T D n base part whole) :
    Same T D n base (checkSet cast object name inferred) (checkSet cast object name inferred) part
      whole fun _ => True := by
  refine (typeOf_same hT hobject h).bind fun receiver part' whole' h' hreceiver => .look ?_
  dsimp only
  rw [h'.declared.find? (.inr ⟨receiver, name.lexeme, hreceiver, hname, rfl⟩),
    h'.declared.find? (.inl hname)]
  split
  · exact .pure h' trivial
  · rw [h'.isAssignable hinferred]
    split
    · exact .pure h' trivial
    · exact .throw

end Checks

mutual

theorem checkExpr_same (hT : Complete T) :
    ∀ (e : Expr) {cast : Option String} {part whole : TypeLookup}, (∀ word ∈ e.words, T word) →
      TypeLookup.Part T D n base part whole →
      Same T D n base (checkExpr cast e) (checkExpr cast e) part whole fun _ => True
  | .literal _, _, _, _, _, h => .pure h trivial
  | .variable _ _, _, _, _, _, h => .pure h trivial
  | .this _ _, _, _, _, _, h => .pure h trivial
  | .super _ _ _, _, _, _, _, h => .pure h trivial
  | .cast inner typeName, _, _, _, hwords, h =>
      checkExpr_same hT inner (List.forall_mem_append.mp hwords).1 h
  | .unary _ _ operand, _, _, _, hwords, h => checkExpr_same hT operand hwords h
  | .grouping inner, _, _, _, hwords, h => checkExpr_same hT inner hwords h
  | .binary left _ _ right, _, _, _, hwords, h => by
      rcases List.forall_mem_append.mp hwords with ⟨hleft, hright⟩
      exact (checkExpr_same hT left hleft h).bind fun _ _ _ h' _ =>
        checkExpr_same hT right hright h'
  | .logical left _ _ right, _, _, _, hwords, h => by
      rcases List.forall_mem_append.mp hwords with ⟨hleft, hright⟩
      exact (checkExpr_same hT left hleft h).bind fun _ _ _ h' _ =>
        checkExpr_same hT right hright h'
  | .call callee _ arguments, _, _, _, hwords, h => by
      rcases List.forall_mem_append.mp hwords with ⟨hcallee, harguments⟩
      exact (checkExpr_same hT callee hcallee h).bind fun _ _ _ h' _ =>
        checkExprs_same hT arguments harguments h'
  | .get object _, _, _, _, hwords, h =>
      checkExpr_same hT object (List.forall_mem_append.mp hwords).1 h
  | .subscript _ object index, _, _, _, hwords, h => by
      rcases List.forall_mem_append.mp hwords with ⟨hobject, hindex⟩
      exact (checkExpr_same hT object hobject h).bind fun _ _ _ h' _ =>
        checkExpr_same hT index hindex h'
  | .map _ entries, _, _, _, hwords, h => checkEntries_same hT entries hwords h
  | .assign _ name value, _, _, _, hwords, h => by
      rcases List.forall_mem_append.mp hwords with ⟨hvalue, hname⟩
      exact (checkExpr_same hT value hvalue h).bind fun _ _ _ h' _ =>
        checkAssign_same hT (hname _ (List.mem_singleton_self _)) hvalue h'
  | .set object name value, _, _, _, hwords, h => by
      rcases List.forall_mem_append.mp hwords with ⟨hboth, hname⟩
      rcases List.forall_mem_append.mp hboth with ⟨hobject, hvalue⟩
      refine (typeOf_same hT hvalue h).bind fun inferred _ _ h₁ hinferred => ?_
      refine (checkExpr_same hT value hvalue h₁).bind fun _ _ _ h₂ _ => ?_
      refine (checkExpr_same hT object hobject h₂).bind fun _ _ _ h₃ _ => ?_
      exact checkSet_same hT hobject (hname _ (List.mem_singleton_self _)) hinferred h₃

theorem checkExprs_same (hT : Complete T) : ∀ (list : List Expr) {part whole : TypeLookup},
    (∀ word ∈ Expr.listWords list, T word) → TypeLookup.Part T D n base part whole →
      Same T D n base (checkExprs list) (checkExprs list) part whole fun _ => True
  | [], _, _, _, h => .pure h trivial
  | e :: rest, _, _, hwords, h => by
      rcases List.forall_mem_append.mp hwords with ⟨hfirst, hrest⟩
      exact (checkExpr_same hT e hfirst h).bind fun _ _ _ h' _ => checkExprs_same hT rest hrest h'

theorem checkEntries_same (hT : Complete T) :
    ∀ (items : List (Expr × Expr)) {part whole : TypeLookup},
      (∀ word ∈ Expr.entryWords items, T word) → TypeLookup.Part T D n base part whole →
      Same T D n base (checkEntries items) (checkEntries items) part whole fun _ => True
  | [], _, _, _, h => .pure h trivial
  | (key, value) :: rest, _, _, hwords, h => by
      rcases List.forall_mem_append.mp hwords with ⟨hboth, hrest⟩
      rcases List.forall_mem_append.mp hboth with ⟨hkey, hvalue⟩
      refine (checkExpr_same hT key hkey h).bind fun _ _ _ h₁ _ => ?_
      refine (checkExpr_same hT value hvalue h₁).bind fun _ _ _ h₂ _ => ?_
      exact checkEntries_same hT rest hrest h₂

end

/-! ## Statements -/

section Statements

variable (hT : Complete T)
include hT

theorem register_part {list : List Stmt} (hwords : ∀ word ∈ Stmt.listWords list, T word)
    (hsymbols : n = 0 → ∀ symbol ∈ Stmt.listSymbols list, D symbol)
    (h : TypeLookup.Part T D n base part whole) :
    TypeLookup.Part T D n base (list.foldl register part) (list.foldl register whole) := by
  induction list generalizing part whole with
  | nil => exact h
  | cons s rest ih =>
      rcases List.forall_mem_append.mp hwords with ⟨hfirst, hrest⟩
      have hown {symbol : String} (hsymbol : symbol ∈ s.symbols) (hn : n = 0) : D symbol :=
        hsymbols hn symbol (List.mem_append_left _ hsymbol)
      have htypes : ∀ type ∈ builtinTypes ++ s.words, T type :=
        List.forall_mem_append.mpr ⟨hT, hfirst⟩
      have hstep : Recording (TypeLookup.Part T D n base) s :=
        ⟨fun h hsymbol htype => h.declare (htypes _ htype) (hown hsymbol),
          fun h hsymbol htype => h.specialize (htypes _ htype) (hown hsymbol),
          fun h hsymbol htype => h.inherit (htypes _ htype) (hown hsymbol)⟩
      refine ih hrest (fun hn symbol hsymbol => ?_) (hstep.register h)
      exact hsymbols hn symbol (List.mem_append_right _ hsymbol)

theorem declaring_same {list : List Stmt} {x y : Check Unit}
    (hwords : ∀ word ∈ Stmt.listWords list, T word)
    (hsymbols : n = 0 → ∀ symbol ∈ Stmt.listSymbols list, D symbol)
    (h : TypeLookup.Part T D n base part whole)
    (hxy : ∀ {part whole : TypeLookup}, TypeLookup.Part T D n base part whole →
      Same T D n base x y part whole fun _ => True) :
    Same T D n base (declaring list x) (declaring list y) part whole fun _ => True :=
  (Same.modify (register_part hT hwords hsymbols h)).bind fun _ _ _ h' _ => hxy h'

theorem checkVar_same {decl : VarDecl} (hwords : ∀ word ∈ Stmt.words (.var decl), T word)
    (hsymbol : n = 0 → D decl.name.lexeme) (h : TypeLookup.Part T D n base part whole) :
    Same T D n base (checkVar decl) (checkVar decl) part whole fun _ => True := by
  rcases List.forall_mem_cons.mp hwords with ⟨htype, hrest⟩
  have hinitial : ∀ word ∈ Expr.optionalWords decl.initial, T word :=
    (List.forall_mem_cons.mp hrest).2
  unfold checkVar
  cases hvalue : decl.initial with
  | none => exact .pure h trivial
  | some initial =>
      rw [hvalue] at hinitial
      refine (checkExpr_same hT initial hinitial h).bind fun _ _ _ h₁ _ => ?_
      refine (typeOf_same hT hinitial h₁).bind fun inferred _ _ h₂ hinferred => ?_
      split
      · exact .modify (h₂.infer hinferred hsymbol)
      · refine (Same.modify (h₂.declare htype hsymbol)).bind fun _ _ _ h₃ _ => .look ?_
        rw [h₃.isAssignable hinferred]
        split
        · exact .pure h₃ trivial
        · exact .throw

theorem checkExit_same {around : Option Callable} {keyword : Token} {value : Expr}
    (hwords : ∀ word ∈ value.words, T word) (h : TypeLookup.Part T D n base part whole) :
    Same T D n base (checkExit around keyword value) (checkExit around keyword value) part whole
      fun _ => True := by
  unfold checkExit
  cases around with
  | none => exact .pure h trivial
  | some function =>
      dsimp only
      split
      · exact .throw
      refine (checkExpr_same hT value hwords h).bind fun _ _ _ h₁ _ => ?_
      refine (typeOf_same hT hwords h₁).bind fun inferred _ _ h₂ hinferred => .look ?_
      rw [h₂.isAssignable hinferred]
      split
      · exact .pure h₂ trivial
      · exact .throw

omit hT in
theorem declareParams_same {params : List Param}
    (htypes : ∀ word ∈ params.map (·.typeName), T word)
    (h : TypeLookup.Part T D (n + 1) base part whole) :
    Same T D (n + 1) base (declareParams params) (declareParams params) part whole
      fun _ => True := by
  refine .modify (foldl_pair (fun param hparam {a w} h => ?_) h)
  exact h.declare (htypes _ (List.mem_map_of_mem hparam)) nofun

omit hT in
theorem declareFields_same {decl : ClassDecl Stmt} (htypes : ∀ word ∈ decl.typeWords, T word)
    (h : TypeLookup.Part T D (n + 1) base part whole) :
    Same T D (n + 1) base (declareFields decl.fields) (declareFields decl.fields) part whole
      fun _ => True := by
  refine .modify (foldl_pair (fun field hfield {a w} h => ?_) h)
  exact h.declare (htypes _ (decl.mem_typeWords_field hfield).1) nofun

theorem block_same {around : Option Callable} {body : List Stmt}
    (hwords : ∀ word ∈ Stmt.listWords body, T word) (h : TypeLookup.Part T D n base part whole)
    (hbody : ∀ {part whole : TypeLookup}, TypeLookup.Part T D (n + 1) base part whole →
      Same T D (n + 1) base (checkEach around body) (checkEach around body) part whole
        fun _ => True) :
    Same T D n base (inScope (declaring body (checkEach around body)))
      (inScope (declaring body (checkEach around body))) part whole fun _ => True :=
  .inScope (declaring_same hT hwords nofun h.enter hbody)

/-- The body of a function, in a scope with its parameters. -/
theorem body_same {around : Option Callable} {params : List Param} {body : List Stmt}
    (hwords : ∀ word ∈ params.map (·.typeName) ++ Stmt.listWords body, T word)
    (h : TypeLookup.Part T D n base part whole)
    (hbody : ∀ {part whole : TypeLookup}, TypeLookup.Part T D (n + 1) base part whole →
      Same T D (n + 1) base (checkEach around body) (checkEach around body) part whole
        fun _ => True) :
    Same T D n base
      (inScope do declareParams params; declaring body (checkEach around body))
      (inScope do declareParams params; declaring body (checkEach around body)) part whole
      fun _ => True := by
  rcases List.forall_mem_append.mp hwords with ⟨hparams, hlist⟩
  refine .inScope ((declareParams_same hparams h.enter).bind fun _ _ _ h' _ => ?_)
  exact declaring_same hT hlist nofun h' hbody

end Statements

mutual

theorem checkStmt_same (hT : Complete T) :
    ∀ (s : Stmt) {around : Option Callable} {n : Nat} {base part whole : TypeLookup},
      (∀ word ∈ s.words, T word) → (n = 0 → ∀ symbol ∈ s.symbols, D symbol) →
        TypeLookup.Part T D n base part whole →
        Same T D n base (checkStmt around s) (checkStmt around s) part whole fun _ => True
  | .block body, _, _, _, _, _, hwords, _, h => by
      rw [checkStmt]
      exact block_same hT hwords h (checkEach_same hT body hwords nofun)
  | .classDecl ⟨name, superclass, fields, enums, methods⟩, _, _, _, _, _, hwords, _, h => by
      rcases List.forall_mem_append.mp hwords with ⟨htypes, hmethods⟩
      have hname : T name.lexeme := htypes _ List.mem_cons_self
      have hbody {base : TypeLookup} {n : Nat} {part whole : TypeLookup}
          (h : TypeLookup.Part T D (n + 1) base part whole) :
          Same T D (n + 1) base (do declareFields fields; checkMethods methods)
            (do declareFields fields; checkMethods methods) part whole fun _ => True :=
        (declareFields_same htypes h).bind fun _ _ _ h' _ =>
          checkMethods_same hT methods hmethods h'
      rw [checkStmt]
      have hclass : ∀ type ∈ some name.lexeme, T type := by
        intro type htype
        cases htype
        exact hname
      have hinside := h.withClass hclass rfl
      refine .insideClass h ?_
      cases superclass with
      | none => exact .inScope (hbody hinside.enter)
      | some parent => exact .inScope (.inScope (hbody hinside.enter.enter))
  | .function ⟨kind, name, params, returnType, body⟩, _, _, _, _, _, hwords, _, h => by
      have hrest := (List.forall_mem_cons.mp hwords).2
      rw [checkStmt]
      exact body_same hT hrest h
        (checkEach_same hT body (List.forall_mem_append.mp hrest).2 nofun)
  | .ifThen condition thenBranch none, _, _, _, _, _, hwords, hsymbols, h => by
      rcases List.forall_mem_append.mp hwords with ⟨hcondition, hthen⟩
      rw [checkStmt]
      exact (checkExpr_same hT condition hcondition h).bind fun _ _ _ h' _ =>
        checkStmt_same hT thenBranch hthen hsymbols h'
  | .ifThen condition thenBranch (some elseBranch), _, _, _, _, _, hwords, hsymbols, h => by
      rcases List.forall_mem_append.mp hwords with ⟨hfirst, helse⟩
      rcases List.forall_mem_append.mp hfirst with ⟨hcondition, hthen⟩
      rw [checkStmt]
      refine (checkExpr_same hT condition hcondition h).bind fun _ _ _ h₁ _ => ?_
      refine (checkStmt_same hT thenBranch hthen (fun hn symbol hsymbol =>
        hsymbols hn symbol (List.mem_append_left _ hsymbol)) h₁).bind fun _ _ _ h₂ _ => ?_
      exact checkStmt_same hT elseBranch helse (fun hn symbol hsymbol =>
        hsymbols hn symbol (List.mem_append_right _ hsymbol)) h₂
  | .while condition body, _, _, _, _, _, hwords, hsymbols, h => by
      rcases List.forall_mem_append.mp hwords with ⟨hcondition, hbody⟩
      rw [checkStmt]
      exact (checkExpr_same hT condition hcondition h).bind fun _ _ _ h' _ =>
        checkStmt_same hT body hbody hsymbols h'
  | .try _ body handlers otherwise, _, _, _, _, _, hwords, _, h => by
      rcases List.forall_mem_append.mp hwords with ⟨hfirst, hotherwise⟩
      rcases List.forall_mem_append.mp hfirst with ⟨hbody, hhandlers⟩
      rw [checkStmt]
      refine (block_same hT hbody h (checkEach_same hT body hbody nofun)).bind
        fun _ _ _ h₁ _ => ?_
      refine (checkHandlers_same hT handlers hhandlers h₁).bind fun _ _ _ h₂ _ => ?_
      exact block_same hT hotherwise h₂ (checkEach_same hT otherwise hotherwise nofun)
  | .exit keyword (some value), _, _, _, _, _, hwords, _, h => by
      rw [checkStmt]
      exact checkExit_same hT hwords h
  | .exit _ none, _, _, _, _, _, _, _, h => by
      rw [checkStmt]
      exact .pure h trivial
  | .var decl, _, _, _, _, _, hwords, hsymbols, h => by
      rw [checkStmt]
      exact checkVar_same hT hwords (fun hn => hsymbols hn _ (List.mem_singleton_self _)) h
  | .expression value, _, _, _, _, _, hwords, _, h => by
      rw [checkStmt]
      exact checkExpr_same hT value hwords h
  | .enumDecl _, _, _, _, _, _, _, _, h => by
      rw [checkStmt]
      exact .pure h trivial
  | .print _ _, _, _, _, _, _, _, _, h => by
      rw [checkStmt]
      exact .pure h trivial
  | .raise _ _, _, _, _, _, _, _, _, h => by
      rw [checkStmt]
      exact .pure h trivial
  | .break _, _, _, _, _, _, _, _, h => by
      rw [checkStmt]
      exact .pure h trivial
  | .uses _ _, _, _, _, _, _, _, _, h => by
      rw [checkStmt]
      exact .pure h trivial

theorem checkEach_same (hT : Complete T) :
    ∀ (list : List Stmt) {around : Option Callable} {n : Nat} {base part whole : TypeLookup},
      (∀ word ∈ Stmt.listWords list, T word) →
        (n = 0 → ∀ symbol ∈ Stmt.listSymbols list, D symbol) →
        TypeLookup.Part T D n base part whole →
        Same T D n base (checkEach around list) (checkEach around list) part whole fun _ => True
  | [], _, _, _, _, _, _, _, h => by
      rw [checkEach]
      exact .pure h trivial
  | s :: rest, _, _, _, _, _, hwords, hsymbols, h => by
      rcases List.forall_mem_append.mp hwords with ⟨hfirst, hrest⟩
      rw [checkEach]
      refine (checkStmt_same hT s hfirst (fun hn symbol hsymbol =>
        hsymbols hn symbol (List.mem_append_left _ hsymbol)) h).bind fun _ _ _ h' _ => ?_
      exact checkEach_same hT rest hrest (fun hn symbol hsymbol =>
        hsymbols hn symbol (List.mem_append_right _ hsymbol)) h'

theorem checkMethods_same (hT : Complete T) :
    ∀ (methods : List Function) {n : Nat} {base part whole : TypeLookup},
      (∀ word ∈ Stmt.methodWords methods, T word) → TypeLookup.Part T D n base part whole →
        Same T D n base (checkMethods methods) (checkMethods methods) part whole fun _ => True
  | [], _, _, _, _, _, h => by
      rw [checkMethods]
      exact .pure h trivial
  | ⟨kind, name, params, returnType, body⟩ :: rest, _, _, _, _, hwords, h => by
      rcases List.forall_mem_append.mp hwords with ⟨hfirst, hrest⟩
      have hbody := (List.forall_mem_cons.mp hfirst).2
      rw [checkMethods]
      refine (body_same hT hbody h
        (checkEach_same hT body (List.forall_mem_append.mp hbody).2 nofun)).bind ?_
      exact fun _ _ _ h' _ => checkMethods_same hT rest hrest h'

theorem checkHandlers_same (hT : Complete T) :
    ∀ (handlers : List (Handler Stmt)) {around : Option Callable} {n : Nat}
      {base part whole : TypeLookup},
      (∀ word ∈ Stmt.handlerWords handlers, T word) → TypeLookup.Part T D n base part whole →
        Same T D n base (checkHandlers around handlers) (checkHandlers around handlers) part whole
          fun _ => True
  | [], _, _, _, _, _, _, h => by
      rw [checkHandlers]
      exact .pure h trivial
  | ⟨name, typeName, body⟩ :: rest, _, _, _, _, _, hwords, h => by
      rcases List.forall_mem_append.mp hwords with ⟨hfirst, hrest⟩
      rcases List.forall_mem_append.mp hfirst with ⟨htype, hbody⟩
      have hcaught : T (typeName.getD anyType) := by
        cases typeName with
        | none => exact hT _ (by decide)
        | some type => exact htype type (List.mem_singleton_self _)
      rw [checkHandlers]
      refine (Same.inScope ((Same.modify (h.enter.declare hcaught nofun)).bind
        fun _ _ _ h' _ => checkStmt_same hT body hbody nofun h')).bind ?_
      exact fun _ _ _ h' _ => checkHandlers_same hT rest hrest h'

end

end Typing

end MiniPascal
