import MiniPascal.Proofs.Machine.Vouching

/-!
# Runs of compiled programs

Every entry of a run is vouched, as long as the references of the program are known and have the
distances that the resolver found for them.  The walk through the evaluator follows that of `Keeps`;
what it adds is the entry of each activity.
-/

namespace MiniPascal

/-- Known references, whose distances lead to a scope that has the name or to the innermost one.
Those of assignments are the distances of their names, but for the nodes in `own`. -/
structure Scoped (known : Reference → Prop) (own : NodeId → Prop) (locals : Locals) : Prop extends
    Resolved known locals where
  scope : ∀ r, known r → ∀ d, locals[r.mention.id]? = some d →
    d = 0 ∨ ∃ scope, r.place[d]? = some scope ∧ r.mention.name ∈ scope.names
  assigned : ∀ r, known r → r.mention.use = .write → ∀ d, locals[r.mention.id]? = some d →
    own r.mention.id ∨ r.distance? = some d

variable {known : Reference → Prop} {own : NodeId → Prop} {st : Setting} {w : World} {env : Env}

/-! ## Names -/

/-- Code in the frame of top-level code stands at the outermost place. -/
theorem Fits.of_global_head {events : List Event} {s : Store} {p : Place}
    (h : Fits events s p env) (henv : env.head? = some Store.globalFrame) : p = [] := by
  cases h with
  | top _ => rfl
  | inside _ _ hnewer _ _ _ houter =>
      cases henv
      rcases houter.frame_lt with ⟨outer, _, rfl, -⟩
      exact absurd (hnewer outer List.mem_cons_self) (Nat.not_lt_zero _)

/-- The environment of code has a frame for every scope of its place, with the names of the
scope. -/
theorem Fits.bound {p : Place} {events : List Event} {s : Store} {scope : LexicalScope} {d : Nat}
    (h : Fits events s p env) (hscope : p[d]? = some scope) :
    ∃ frame, env[d]? = some frame ∧ ∀ name ∈ scope.names, ((s.frame frame).find? name).isSome := by
  rcases h.frame hscope with ⟨frame, outer, hdrop, -, hbound, -⟩
  refine ⟨frame, ?_, hbound⟩
  rw [← List.head?_drop, hdrop]
  rfl

/-- The distance of a name that is assigned does not lead astray. -/
theorem Scoped.assign_vouched {p : Place} {id : NodeId} {name : Token} {value : Expr}
    {after : Point} {how : Ending} (hscoped : Scoped known own st.locals)
    (hp : Fits w.events w.store p env) (hm : Mentioned known p [⟨id, name.lexeme, .write⟩]) :
    Entry.Vouched known own
      ⟨.expression (.assign id name value), ⟨st.inside env, w.store⟩, after, how⟩ := by
  rcases hm _ List.mem_cons_self with ⟨r, hr, hmention, rfl⟩
  refine ⟨⟨r, hr, hmention⟩, ?_, ?_⟩
  · intro d frame hlocal hframe
    refine (hscoped.scope r hr d (by rw [hmention]; exact hlocal)).imp_right ?_
    rintro ⟨scope, hscope, hname⟩
    rcases hp.bound hscope with ⟨found, hfound, hbound⟩
    cases hfound.symm.trans hframe
    rw [hmention] at hname
    exact hbound name.lexeme hname
  · refine Classical.or_iff_not_imp_left.mpr fun hown d hlocal => ?_
    have hassigned := hscoped.assigned r hr (by rw [hmention]) d (by rw [hmention]; exact hlocal)
    rw [hmention] at hassigned
    rcases Place.scope_of_distance? (hassigned.resolve_left hown) with ⟨scope, hscope, hname⟩
    rcases hp.bound hscope with ⟨frame, hframe, hbound⟩
    rw [hmention] at hname
    exact ⟨frame, hframe, hbound name.lexeme hname⟩

/-- A method of the superclass is found, or there is none. -/
theorem superMethod_vouches {p : Place} {id : NodeId} {keyword method : Token}
    (hresolved : Resolved known st.locals) (h : Sound known w) (hp : Fits w.events w.store p env)
    (hm : Mentioned known p (Expr.super id keyword method).mentions) :
    Vouches known own (FailureOk known)
      (Journal.evaluating st (.expression (.super id keyword method))
        (Journal.here st fun cx => Eval.superMethod cx id keyword method)) w env []
      (ValueOk known) := by
  have hreaches : ReachesSuper (st.inside env) id w.store :=
    Resolved.reaching hresolved h hp hm
  refine (Vouches.here (superMethod_keeps h hp)
    (Trace.superMethod_erases (st.inside env) id keyword method)).expression
      ⟨h, hresolved, p, hp, hm⟩ fun entries => ?_
  rcases hreaches with ⟨nearer, superclass, self, hlocal, hsuper, hself⟩
  have hrun := Eval.superMethod_run hlocal hsuper hself keyword method
  refine ⟨nearer, superclass, self, ?_⟩
  unfold Journal.entryOf
  cases hfound : superclass.findMethod method.lexeme with
  | some found =>
      rw [hfound] at hrun
      rw [Journal.here_of_ok hrun]
      exact ⟨hlocal, hsuper, hself, rfl⟩
  | none =>
      rw [hfound] at hrun
      rw [Journal.here_of_error hrun]
      exact ⟨hlocal, hsuper, hself, rfl⟩

/-! ## Calls -/

/-- A caller that runs functions which may be called, on as many arguments as they take. -/
def CallerVouches (known : Reference → Prop) (own : NodeId → Prop) (call : Journal.Caller) :
    Prop :=
  ∀ w env f arguments, Sound known w → PlainFn known w f →
    (∀ value ∈ arguments, ValueOk known w value) → f.arity = arguments.length →
    Vouches known own (FailureOk known) (call f arguments) w env [] (ValueOk known)

section Calls

variable {call : Journal.Caller} (hcall : CallerVouches known own call)
include hcall

theorem instantiate_vouches {cls : Class} {paren : Token} {arguments : List Value}
    (h : Sound known w) (hcls : ClassOk known w cls)
    (harguments : ∀ value ∈ arguments, ValueOk known w value) :
    Vouches known own (FailureOk known) (Journal.instantiate call st cls paren arguments) w env []
      (ValueOk known) := by
  refine Vouches.look ?_
  cases hinitializer : Eval.initializer? w.store cls (arguments.map Value.typeName) with
  | none =>
      refine (Vouches.kept (checkArity_keeps h)).bind ?_
      intro w₁ _ hextends hsound _
      refine (Vouches.kept (newInstance_keeps hsound (hextends.classOk hcls))).bind ?_
      intro w₂ self _ hsound' hself
      exact Vouches.pure hsound' hself.2
  | some initializer =>
      refine (Vouches.kept (checkArity_keeps h)).bind ?_
      intro w₁ _ hextends hsound harity
      refine (Vouches.kept (newInstance_keeps hsound (hextends.classOk hcls))).bind ?_
      intro w₂ self hextends' hsound' hself
      have hx := hextends.trans hextends'
      have hbindable : Bindable known w initializer ⟨0, cls⟩ :=
        initializer?_bindable hcls hinitializer
      refine (Vouches.here (bindMethod_keeps hsound' (hbindable.later hx hself.1))
        (Trace.bindMethod_erases _ _)).bind ?_
      intro w₃ bound hextends'' hsound'' hbound
      have hx' := hx.trans hextends''
      have harity' : bound.arity = arguments.length := by
        rw [Fn.arity, hbound.2]
        exact harity
      refine (hcall w₃ env bound arguments hsound'' hbound.1.2.2
        (fun value hvalue => hx'.valueOk (harguments value hvalue)) harity').discard.bind ?_
      intro w₄ _ hextends₃ hsound₃ _
      exact Vouches.pure hsound₃ ((hextends''.trans hextends₃).classOk hself.2)

theorem applyValue_vouches {callee : Value} {paren : Token} {arguments : List Value}
    (h : Sound known w) (hcallee : ValueOk known w callee)
    (harguments : ∀ value ∈ arguments, ValueOk known w value) :
    Vouches known own (FailureOk known) (Journal.applyValue call st callee paren arguments) w env []
      (ValueOk known) := by
  have hother : Vouches known own (FailureOk known)
      (Journal.here st fun _ => Eval.failAt paren .notCallable) w env [] (ValueOk known) :=
    Vouches.kept (Keeps.failAt h)
  unfold Journal.applyValue
  cases callee with
  | function f =>
      refine Vouches.look ?_
      cases hchoice : w.store.chooseOverload (st.inside env).env f
          (arguments.map Value.typeName) with
      | none => exact Vouches.kept (Keeps.failAt h)
      | some choice =>
          refine (Vouches.here (bindChoice_keeps h (h.chooseOverload hcallee hchoice))
            (Trace.bindChoice_erases choice)).bind ?_
          intro w₁ selected hextends hsound hselected
          refine (Vouches.kept (checkArity_keeps hsound)).bind ?_
          intro w₂ _ hextends' hsound' harity
          exact hcall w₂ env selected arguments hsound' (hextends'.plainFn hselected)
            (fun value hvalue => (hextends.trans hextends').valueOk (harguments value hvalue))
            harity
  | native native => exact Vouches.kept (native_keeps h harguments)
  | «class» cls => exact instantiate_vouches hcall h hcallee harguments
  | _ => exact hother

end Calls

/-! ## Expressions -/

section Expressions

variable {call : Journal.Caller} {p : Place}

mutual

theorem expr_vouches (hcall : CallerVouches known own call) (hscoped : Scoped known own st.locals) :
    ∀ (e : Expr) (w : World), Sound known w → Fits w.events w.store p env →
      Mentioned known p e.mentions →
      Vouches known own (FailureOk known) (Journal.expr call st e) w env [] (ValueOk known)
  | .literal value, w, h, hp, hm =>
      (Vouches.pure h (Value.isData_ofLiteral value).valueOk).expression
        ⟨h, hscoped.toResolved, p, hp, hm⟩ fun _ => trivial
  | .cast inner _, w, h, hp, hm =>
      (expr_vouches hcall hscoped inner w h hp hm).expression
        ⟨h, hscoped.toResolved, p, hp, hm⟩ fun _ => trivial
  | .grouping inner, w, h, hp, hm =>
      (expr_vouches hcall hscoped inner w h hp hm).expression
        ⟨h, hscoped.toResolved, p, hp, hm⟩ fun _ => trivial
  | .unary op token operand, w, h, hp, hm => by
      refine Vouches.expression ?_ ⟨h, hscoped.toResolved, p, hp, hm⟩ fun _ => trivial
      refine (expr_vouches hcall hscoped operand w h hp hm).bind ?_
      intro w₁ value _ hsound _
      refine Vouches.kept (Keeps.orFail hsound ?_)
      intro result hresult
      exact (Value.applyUnary_isData hresult).valueOk
  | .binary left op token right, w, h, hp, hm => by
      refine Vouches.expression ?_ ⟨h, hscoped.toResolved, p, hp, hm⟩ fun _ => trivial
      refine (expr_vouches hcall hscoped left w h hp hm.left).bind ?_
      intro w₁ _ hx₁ hsound₁ _
      refine (expr_vouches hcall hscoped right w₁ hsound₁ (hx₁.fits hp) hm.right).bind ?_
      intro w₂ _ _ hsound₂ _
      refine Vouches.kept (Keeps.keep_look (Keeps.orFail hsound₂ ?_))
      intro result hresult
      exact (Store.applyBinary_isData hresult).valueOk
  | .logical left op token right, w, h, hp, hm => by
      refine Vouches.expression ?_ ⟨h, hscoped.toResolved, p, hp, hm⟩ fun _ => trivial
      refine (expr_vouches hcall hscoped left w h hp hm.left).bind ?_
      intro w₁ value hx₁ hsound₁ hvalue
      cases Eval.decides op value with
      | true => exact Vouches.pure hsound₁ hvalue
      | false => exact expr_vouches hcall hscoped right w₁ hsound₁ (hx₁.fits hp) hm.right
  | .variable id name, w, h, hp, hm =>
      (Vouches.here (lookUp_keeps h) (Trace.lookUp_erases (st.inside env) id name)).expression
        ⟨h, hscoped.toResolved, p, hp, hm⟩ fun _ => trivial
  | .this id keyword, w, h, hp, hm =>
      (Vouches.here (lookUp_keeps h) (Trace.lookUp_erases (st.inside env) id keyword)).expression
        ⟨h, hscoped.toResolved, p, hp, hm⟩ fun _ => trivial
  | .super id keyword method, w, h, hp, hm => superMethod_vouches hscoped.toResolved h hp hm
  | .assign id name value, w, h, hp, hm => by
      refine Vouches.expression ?_ ⟨h, hscoped.toResolved, p, hp, hm⟩ fun _ =>
        hscoped.assign_vouched hp hm.right
      refine (expr_vouches hcall hscoped value w h hp hm.left).bind ?_
      intro w₁ result _ hsound₁ hresult
      refine Vouches.kept (assign_keeps hsound₁ ?_ hresult)
      rcases hm.right _ List.mem_cons_self with ⟨r, hr, hmention, -⟩
      have hname := hscoped.written r hr (by rw [hmention])
      rw [hmention] at hname
      exact hname
  | .call callee paren arguments, w, h, hp, hm => by
      refine Vouches.expression ?_ ⟨h, hscoped.toResolved, p, hp, hm⟩ fun _ => trivial
      refine (expr_vouches hcall hscoped callee w h hp hm.left).bind ?_
      intro w₁ target hx₁ hsound₁ htarget
      refine (exprs_vouches hcall hscoped arguments w₁ hsound₁ (hx₁.fits hp) hm.right).bind ?_
      intro w₂ values hx₂ hsound₂ hvalues
      exact applyValue_vouches hcall hsound₂ (hx₂.valueOk htarget) hvalues
  | .get object name, w, h, hp, hm => by
      refine Vouches.expression ?_ ⟨h, hscoped.toResolved, p, hp, hm⟩ fun _ => trivial
      refine (expr_vouches hcall hscoped object w h hp hm).bind ?_
      intro w₁ target _ hsound₁ htarget
      exact Vouches.here (getProperty_keeps hsound₁ htarget) (Trace.getProperty_erases target name)
  | .set object name value, w, h, hp, hm => by
      refine Vouches.expression ?_ ⟨h, hscoped.toResolved, p, hp, hm⟩ fun _ => trivial
      refine (expr_vouches hcall hscoped object w h hp hm.left).bind ?_
      intro w₁ target hx₁ hsound₁ _
      refine (Vouches.kept (fieldOwner_keeps hsound₁)).bind ?_
      intro w₂ self hx₂ hsound₂ _
      refine (expr_vouches hcall hscoped value w₂ hsound₂ ((hx₁.trans hx₂).fits hp)
        hm.right).bind ?_
      intro w₃ result _ hsound₃ hresult
      refine (Vouches.kept (setField_keeps hsound₃ hresult)).bind ?_
      intro w₄ _ _ hsound₄ hresult'
      exact Vouches.pure hsound₄ hresult'
  | .subscript bracket object index, w, h, hp, hm => by
      refine Vouches.expression ?_ ⟨h, hscoped.toResolved, p, hp, hm⟩ fun _ => trivial
      refine (expr_vouches hcall hscoped object w h hp hm.left).bind ?_
      intro w₁ _ hx₁ hsound₁ _
      refine (expr_vouches hcall hscoped index w₁ hsound₁ (hx₁.fits hp) hm.right).bind ?_
      intro w₂ _ _ hsound₂ _
      refine Vouches.kept (Keeps.keep_look (Keeps.orFail hsound₂ ?_))
      intro result hresult
      exact hsound₂.subscript hresult
  | .map _ items, w, h, hp, hm => by
      refine Vouches.expression ?_ ⟨h, hscoped.toResolved, p, hp, hm⟩ fun _ => trivial
      refine (mapItems_vouches hcall hscoped items [] w h hp hm (List.forall_mem_nil _)).bind ?_
      intro w₁ contents _ hsound₁ hcontents
      refine (Vouches.kept (newMap_keeps hsound₁ hcontents)).bind ?_
      intro w₂ id _ hsound₂ _
      exact Vouches.pure hsound₂ trivial

theorem exprs_vouches (hcall : CallerVouches known own call)
    (hscoped : Scoped known own st.locals) :
    ∀ (list : List Expr) (w : World), Sound known w → Fits w.events w.store p env →
      Mentioned known p (Expr.listMentions list) →
      Vouches known own (FailureOk known) (Journal.exprs call st list) w env [] fun w' values =>
        ∀ value ∈ values, ValueOk known w' value
  | [], w, h, _, _ => Vouches.pure h (List.forall_mem_nil _)
  | e :: rest, w, h, hp, hm => by
      refine (expr_vouches hcall hscoped e w h hp hm.left).bind ?_
      intro w₁ value hx₁ hsound₁ hvalue
      refine (exprs_vouches hcall hscoped rest w₁ hsound₁ (hx₁.fits hp) hm.right).bind ?_
      intro w₂ values hx₂ hsound₂ hvalues
      exact Vouches.pure hsound₂ (List.forall_mem_cons.mpr ⟨hx₂.valueOk hvalue, hvalues⟩)

theorem mapItems_vouches (hcall : CallerVouches known own call)
    (hscoped : Scoped known own st.locals) :
    ∀ (items : List (Expr × Expr)) (contents : List (Value × Value)) (w : World),
      Sound known w → Fits w.events w.store p env →
      Mentioned known p (Expr.entryMentions items) →
      (∀ entry ∈ contents, ValueOk known w entry.2) →
      Vouches known own (FailureOk known) (Journal.mapItems call st items contents) w env []
        fun w' result => ∀ entry ∈ result, ValueOk known w' entry.2
  | [], _, w, h, _, _, hcontents => Vouches.pure h hcontents
  | (key, item) :: rest, contents, w, h, hp, hm, hcontents => by
      refine (expr_vouches hcall hscoped key w h hp hm.left.left).bind ?_
      intro w₁ keyValue hx₁ hsound₁ _
      refine (expr_vouches hcall hscoped item w₁ hsound₁ (hx₁.fits hp) hm.left.right).bind ?_
      intro w₂ itemValue hx₂ hsound₂ hitem
      refine mapItems_vouches hcall hscoped rest _ w₂ hsound₂ ((hx₁.trans hx₂).fits hp)
        hm.right ?_
      intro entry hentry
      rcases mem_putEntry hentry with hold | hnew
      · exact (hx₁.trans hx₂).valueOk (hcontents entry hold)
      · rw [hnew]
        exact hitem

end

end Expressions

/-! ## Statements -/

section Scopes

variable {p : Place}

/-- A statement that declares names at top level is one of those that do. -/
theorem Fits.tops_of_global_head {events : List Event} {store : Store} {s : Stmt}
    (hp : Fits events store p env) (henv : env.head? = some Store.globalFrame)
    (hdeclared : s.declared ≠ []) : p.tops [s] = [s] := by
  rw [hp.of_global_head henv]
  simp [Place.tops, hdeclared]

theorem child_vouches {region : Region} {bindings : Table Value} {Q : World → Env → Prop}
    (hx : Keeps known (FailureOk known) (Trace.enter region env bindings) w Q) :
    Vouches known own (SignalOk known) (Journal.child st bindings) w env [] Q :=
  (Vouches.here hx (Trace.enter_erases region env bindings)).ofEval

theorem Vouches.statement {s : Stmt} {x : Journaling Signal Unit} {Q : World → Unit → Prop}
    (hresolved : Resolved known st.locals) (h : Sound known w) (hp : Fits w.events w.store p env)
    (hplace : p.Inner) (htidy : s.Tidy Declarable)
    (hx : Vouches known own (SignalOk known) x w env [] Q) :
    Vouches known own (SignalOk known) (Journal.executing st s x) w env (p.tops [s]) Q :=
  hx.executing ⟨h, hresolved, p, hp, hplace, htidy⟩ hp.tops_of_global_head

/-- A statement that declares nothing leaves the environment at its place, whatever it does. -/
theorem Vouches.plain {s : Stmt} {x : Journaling Signal Unit}
    (hresolved : Resolved known st.locals) (h : Sound known w) (hp : Fits w.events w.store p env)
    (hplace : p.Inner) (htidy : s.Tidy Declarable) (hnone : s.declared = [])
    (hx : Vouches known own (SignalOk known) x w env [] fun _ _ => True) :
    Vouches known own (SignalOk known) (Journal.executing st s x) w env (p.tops [s])
      fun w' _ => Fits w'.events w'.store (p.declare s.declared) env := by
  refine Vouches.statement hresolved h hp hplace htidy (hx.imp fun w' _ hextends _ _ => ?_)
  rw [hnone, Place.declare_nil]
  exact hextends.fits hp

/-- A statement without declarations as part of another one. -/
theorem Vouches.part {s : Stmt} {x : Journaling Signal Unit} {Q : World → Unit → Prop}
    (hx : Vouches known own (SignalOk known) x w env (p.tops [s]) Q) (hnone : s.declared = []) :
    Vouches known own (SignalOk known) x w env [] fun _ _ => True := by
  rw [Place.tops_of_plain hnone] at hx
  exact hx.imp fun _ _ _ _ _ => trivial

theorem block_vouches {body : List Stmt} {fuel : Nat} {call : Journal.Caller}
    (hbody : ∀ (env : Env) (p : Place) (w : World), Sound known w → Fits w.events w.store p env →
      p.Inner → (∀ r ∈ Stmt.listReferences p body, known r) →
      Vouches known own (SignalOk known) (Journal.stmts call fuel st body) w env (p.tops body)
        fun _ _ => True)
    (h : Sound known w) (hp : Fits w.events w.store p env) (hplace : p.Inner)
    (hknown : ∀ r ∈ Stmt.listReferences (p.enter (.block body) []) body, known r) :
    Vouches known own (SignalOk known)
      (Journal.child st ∅ >>= fun inner =>
        Journal.within inner (Journal.stmts call fuel st body)) w env [] fun _ _ => True := by
  refine (child_vouches (enterBlock_keeps body h hp hplace.open)).bind ?_
  intro w₁ inner _ hsound₁ hinner
  exact (hbody inner _ w₁ hsound₁ hinner.1 ⟨rfl, rfl⟩ hknown).within

end Scopes

section Values

variable {call : Journal.Caller} {p : Place} (hcall : CallerVouches known own call)
variable (hscoped : Scoped known own st.locals)
include hcall hscoped

theorem optionalValue_vouches {value : Option Expr} (h : Sound known w)
    (hp : Fits w.events w.store p env)
    (hmentioned : ∀ e, value = some e → Mentioned known p e.mentions) :
    Vouches known own (FailureOk known) (Journal.optionalValue call st value) w env []
      (ValueOk known) := by
  cases value with
  | none => exact Vouches.pure h trivial
  | some e => exact expr_vouches hcall hscoped e w h hp (hmentioned e rfl)

theorem raiseValue_vouches {keyword : Token} {value : Option Expr} {Q : World → Unit → Prop}
    (h : Sound known w) (hp : Fits w.events w.store p env)
    (hmentioned : ∀ e, value = some e → Mentioned known p e.mentions) :
    Vouches known own (FailureOk known) (Journal.raiseValue call st keyword value) w env [] Q := by
  unfold Journal.raiseValue
  cases value with
  | none => exact Vouches.kept (Keeps.failAt h)
  | some e =>
      refine (expr_vouches hcall hscoped e w h hp (hmentioned e rfl)).bind ?_
      intro w₁ raised _ hsound₁ hraised
      refine Vouches.kept (Keeps.keep_error hsound₁ rfl ?_)
      intro found hfound
      cases hfound
      exact hraised

end Values

section Statements

variable {call : Journal.Caller}

mutual

theorem stmt_vouches (hcall : CallerVouches known own call) (hscoped : Scoped known own st.locals)
    (fuel : Nat) :
    ∀ (s : Stmt) (env : Env) (p : Place) (w : World), Sound known w →
      Fits w.events w.store p env → p.Inner → s.Tidy Declarable →
      (∀ r ∈ s.references p, known r) →
      Vouches known own (SignalOk known) (Journal.stmt call fuel st s) w env (p.tops [s])
        fun w' _ => Fits w'.events w'.store (p.declare s.declared) env
  | .block body, env, p, w, h, hp, hplace, htidy, hknown =>
      Vouches.plain hscoped.toResolved h hp hplace htidy rfl
        (block_vouches (fun env p w h hp hplace hknown =>
          stmts_vouches hcall hscoped fuel body env p w h hp hplace htidy hknown) h hp hplace
          hknown)
  | .classDecl decl, env, p, w, h, hp, hplace, htidy, hknown => by
      refine Vouches.statement hscoped.toResolved h hp hplace htidy ?_
      have hdefine : Keeps known (FailureOk known) (Trace.defineClass (st.inside env) decl) w
          fun w' _ => Fits w'.events w'.store (p.declare decl.declared) env :=
        defineClass_keeps hscoped.toResolved h hp hplace.open htidy hknown
      exact (Vouches.here hdefine (Trace.defineClass_erases (st.inside env) decl)).ofEval
  | .enumDecl decl, env, p, w, h, hp, hplace, htidy, _ => by
      refine Vouches.statement hscoped.toResolved h hp hplace htidy ?_
      exact (Vouches.kept (y := fun cx => Exec.defineEnum cx.env decl)
        (defineMembers_keeps h hp htidy)).ofEval
  | .function decl, env, p, w, h, hp, hplace, htidy, hknown => by
      refine Vouches.statement hscoped.toResolved h hp hplace htidy ?_
      rcases htidy with ⟨hname, hparams, hbody⟩
      exact (Vouches.kept (y := fun cx => Exec.defineFunction cx.env decl)
        (defineFunction_keeps h hp hplace.open hname ⟨hparams, hbody, hknown⟩)).ofEval
  | .ifThen condition thenBranch none, env, p, w, h, hp, hplace, htidy, hknown => by
      have hcondition := mentioned_located fun r hr => hknown r (List.mem_append_left _ hr)
      refine Vouches.plain hscoped.toResolved h hp hplace htidy rfl ?_
      rcases htidy with ⟨hnone, hthen⟩
      refine (expr_vouches hcall hscoped condition w h hp hcondition).ofEval.bind ?_
      intro w₁ value hx₁ hsound₁ _
      cases value.isTruthy with
      | false => exact Vouches.pure hsound₁ trivial
      | true =>
          exact (stmt_vouches hcall hscoped fuel thenBranch env p w₁ hsound₁ (hx₁.fits hp) hplace
            hthen fun r hr => hknown r (List.mem_append_right _ hr)).part hnone
  | .ifThen condition thenBranch (some elseBranch), env, p, w, h, hp, hplace, htidy, hknown => by
      have hcondition := mentioned_located fun r hr =>
        hknown r (List.mem_append_left _ (List.mem_append_left _ hr))
      refine Vouches.plain hscoped.toResolved h hp hplace htidy rfl ?_
      rcases htidy with ⟨hnone, hthen, hnone', helse⟩
      refine (expr_vouches hcall hscoped condition w h hp hcondition).ofEval.bind ?_
      intro w₁ value hx₁ hsound₁ _
      cases value.isTruthy with
      | false =>
          exact (stmt_vouches hcall hscoped fuel elseBranch env p w₁ hsound₁ (hx₁.fits hp) hplace
            helse fun r hr => hknown r (List.mem_append_right _ hr)).part hnone'
      | true =>
          exact (stmt_vouches hcall hscoped fuel thenBranch env p w₁ hsound₁ (hx₁.fits hp) hplace
            hthen fun r hr =>
              hknown r (List.mem_append_left _ (List.mem_append_right _ hr))).part hnone
  | .while condition body, env, p, w, h, hp, hplace, htidy, hknown => by
      have hcondition := mentioned_located fun r hr => hknown r (List.mem_append_left _ hr)
      refine Vouches.plain hscoped.toResolved h hp hplace htidy rfl ?_
      rcases htidy with ⟨hnone, hbody⟩
      refine (Vouches.repeatWhile (P := fun w => Fits w.events w.store p env) ?_ ?_ ?_ fuel w h
        hp).imp fun _ _ _ _ _ => trivial
      · exact fun w w' hx hfits => hx.fits hfits
      · exact fun w h hp => expr_vouches hcall hscoped condition w h hp hcondition
      · intro w h hp
        have hround := (stmt_vouches hcall hscoped fuel body env p w h hp hplace hbody
          fun r hr => hknown r (List.mem_append_right _ hr)).part hnone
        exact hround.imp fun w' _ hx _ _ => hx.fits hp
  | .try keyword body handlers otherwise, env, p, w, h, hp, hplace, htidy, hknown => by
      refine Vouches.plain hscoped.toResolved h hp hplace htidy rfl ?_
      rcases htidy with ⟨hbody, hhandlers, hotherwise⟩
      refine (child_vouches (enterBlock_keeps body h hp hplace.open)).bind ?_
      intro w₁ inner hx₁ hsound₁ hinner
      refine Vouches.catchError ?_ ?_
      · exact (stmts_vouches hcall hscoped fuel body inner _ w₁ hsound₁ hinner.1 ⟨rfl, rfl⟩ hbody
          fun r hr => hknown r (List.mem_append_left _ (List.mem_append_left _ hr))).within
      · intro w₂ error hx₂ hsound₂ herror
        have hp₂ := (hx₁.trans hx₂).fits hp
        cases hfound : Exec.findHandler handlers error.raisedValue with
        | some index =>
            simp only [hfound]
            exact handler_vouches hcall hscoped fuel handlers env p error.raisedValue index w₂
              hsound₂ hp₂ hplace (RuntimeError.valueOk_raisedValue herror) hhandlers fun r hr =>
                hknown r (List.mem_append_left _ (List.mem_append_right _ hr))
        | none =>
            simp only [hfound]
            exact block_vouches (fun env p w h hp hplace hknown =>
              stmts_vouches hcall hscoped fuel otherwise env p w h hp hplace hotherwise hknown)
              hsound₂ hp₂ hplace fun r hr => hknown r (List.mem_append_right _ hr)
  | .print keyword value, env, p, w, h, hp, hplace, htidy, hknown => by
      refine Vouches.plain hscoped.toResolved h hp hplace htidy rfl ?_
      refine ((expr_vouches hcall hscoped value w h hp (mentioned_located hknown)).bind ?_).ofEval
      exact fun w₁ result _ hsound₁ hresult => Vouches.kept (printLine_keeps hsound₁ hresult)
  | .exit keyword value, env, p, w, h, hp, hplace, htidy, hknown => by
      refine Vouches.plain hscoped.toResolved h hp hplace htidy rfl ?_
      refine (optionalValue_vouches hcall hscoped h hp ?_).ofEval.bind ?_
      · rintro e rfl
        exact mentioned_located hknown
      · exact fun w₁ result _ hsound₁ hresult => Vouches.throw hsound₁ hresult
  | .raise keyword value, env, p, w, h, hp, hplace, htidy, hknown => by
      refine Vouches.plain hscoped.toResolved h hp hplace htidy rfl
        (raiseValue_vouches hcall hscoped h hp ?_).ofEval
      rintro e rfl
      exact mentioned_located hknown
  | .var decl, env, p, w, h, hp, hplace, htidy, hknown => by
      refine Vouches.statement hscoped.toResolved h hp hplace htidy ?_
      refine ((optionalValue_vouches hcall hscoped h hp ?_).bind ?_).ofEval
      · intro e he m hm
        refine ⟨m.initial p decl.name.lexeme, hknown _ ?_, rfl, rfl⟩
        simp only [Stmt.references, Stmt.initialReferences, he]
        exact List.mem_map_of_mem hm
      · intro w₁ value hx₁ hsound₁ hvalue
        exact Vouches.kept (y := fun cx => Eval.define cx.env decl.name value)
          (define_keeps hsound₁ (hx₁.fits hp) htidy fun w₂ hx₂ _ => hx₂.valueOk hvalue)
  | .break keyword, env, p, w, h, hp, hplace, htidy, _ =>
      Vouches.plain hscoped.toResolved h hp hplace htidy rfl (Vouches.throw h trivial)
  | .expression value, env, p, w, h, hp, hplace, htidy, hknown =>
      Vouches.plain hscoped.toResolved h hp hplace htidy rfl
        (expr_vouches hcall hscoped value w h hp (mentioned_located hknown)).discard.ofEval
  | .uses names token, env, p, w, h, hp, hplace, htidy, _ =>
      Vouches.plain hscoped.toResolved h hp hplace htidy rfl (Vouches.pure h trivial)

theorem stmts_vouches (hcall : CallerVouches known own call) (hscoped : Scoped known own st.locals)
    (fuel : Nat) :
    ∀ (list : List Stmt) (env : Env) (p : Place) (w : World), Sound known w →
      Fits w.events w.store p env → p.Inner → Stmt.TidyList Declarable list →
      (∀ r ∈ Stmt.listReferences p list, known r) →
      Vouches known own (SignalOk known) (Journal.stmts call fuel st list) w env (p.tops list)
        fun _ _ => True
  | [], env, p, w, h, _, _, _, _ => Vouches.pure h trivial
  | s :: rest, env, p, w, h, hp, hplace, htidy, hknown => by
      rw [Place.tops_cons]
      refine (stmt_vouches hcall hscoped fuel s env p w h hp hplace htidy.1 fun r hr =>
        hknown r (List.mem_append_left _ hr)).seq ?_
      intro w₁ _ _ hsound₁ hfits
      exact stmts_vouches hcall hscoped fuel rest env _ w₁ hsound₁ hfits hplace.declare htidy.2
        fun r hr => hknown r (List.mem_append_right _ hr)

theorem handler_vouches (hcall : CallerVouches known own call)
    (hscoped : Scoped known own st.locals) (fuel : Nat) :
    ∀ (list : List (Handler Stmt)) (env : Env) (p : Place) (raised : Value) (index : Nat)
      (w : World), Sound known w → Fits w.events w.store p env → p.Inner →
      ValueOk known w raised → Stmt.TidyHandlers Declarable list →
      (∀ r ∈ Stmt.handlerReferences p list, known r) →
      Vouches known own (SignalOk known) (Journal.handler call fuel st raised list index) w env []
        fun _ _ => True
  | [], env, p, raised, index, w, h, hp, _, _, _, _ => Vouches.pure h trivial
  | ⟨name, typeName, body⟩ :: rest, env, p, raised, 0, w, h, hp, hplace, hraised, htidy,
      hknown => by
      rcases htidy with ⟨hname, -, hbody, -⟩
      refine (child_vouches (enterHandler_keeps ⟨name, typeName, body⟩ h hp hplace.open
        hname hraised)).bind ?_
      intro w₁ inner _ hsound₁ hinner
      have hrun := stmt_vouches hcall hscoped fuel body inner _ w₁ hsound₁ hinner.1 ⟨rfl, rfl⟩ hbody
        fun r hr => hknown r (List.mem_append_left _ hr)
      exact hrun.within.imp fun _ _ _ _ _ => trivial
  | ⟨name, typeName, body⟩ :: rest, env, p, raised, index + 1, w, h, hp, hplace, hraised, htidy,
      hknown =>
      handler_vouches hcall hscoped fuel rest env p raised index w h hp hplace hraised
        htidy.2.2.2 fun r hr => hknown r (List.mem_append_right _ hr)

end

end Statements

/-! ## Runs -/

theorem callFn_vouches (hscoped : Scoped known own st.locals) (fuel : Nat) :
    CallerVouches known own (Journal.callFn st fuel) := by
  induction fuel with
  | zero =>
      intro w env f arguments h _ _ _
      exact (Vouches.throw h trivial).called h hscoped.toResolved
  | succ fuel ih =>
      intro w env f arguments h hf harguments harity
      rcases hf with ⟨p, hp, hopen, hparams, htidy, hknown⟩
      refine Vouches.called ?_ h hscoped.toResolved
      refine (Vouches.here (enterCall_keeps h hp hopen hparams harguments harity)
        (Trace.enter_erases _ _ _)).bind ?_
      intro w₁ inner _ hsound₁ hinner
      refine (stmts_vouches ih hscoped fuel f.decl.body inner _ w₁ hsound₁ hinner.1 ⟨rfl, rfl⟩
        htidy
        hknown).resultOf.within.bind ?_
      intro w₂ returned _ hsound₂ hreturned
      cases f.isInitializer with
      | false => exact Vouches.pure hsound₂ hreturned
      | true =>
          rw [if_pos rfl]
          refine Vouches.looked hsound₂ ?_
          cases hthis : w₂.store.findHere? f.closure "this" with
          | none => trivial
          | some value => exact hsound₂.findHere hthis

/-- A program keeps a world sound as long as its references are known, and its entries are
vouched. -/
theorem program_vouches {m : Machine} (hscoped : Scoped known own m.locals) (fuel : Nat)
    {statements : List Stmt} (h : Sound known w) (hstatements : Knows known [] statements) :
    Vouches known own (SignalOk known) (Journal.program m fuel statements) w Store.globals
      (Place.tops [] statements) fun _ _ => True := by
  have hcall : CallerVouches known own (Journal.callFn m.setting fuel) :=
    callFn_vouches hscoped fuel
  exact stmts_vouches hcall hscoped fuel statements Store.globals [] w h (.top h.globalFrame)
    trivial hstatements.1 hstatements.2

end MiniPascal
