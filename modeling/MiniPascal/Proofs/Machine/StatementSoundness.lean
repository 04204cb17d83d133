import MiniPascal.Proofs.Machine.DeclarationSoundness

/-!
# Statements and calls keep worlds sound

A statement that stands at a place is executed in an environment that fits the place, and leaves
one that fits the place behind it.  A call enters the scope of the function from the environment
that the function was made in, however long ago; the induction on fuel closes the circle between
calls and bodies.
-/

namespace MiniPascal

variable {known : Reference → Prop} {w : World}

/-! ## Control -/

theorem ofEval_keeps {x : Tracing Failure α} {Q : World → α → Prop}
    (hx : Keeps known (FailureOk known) x w Q) :
    Keeps known (SignalOk known) (Trace.ofEval x) w Q := by
  unfold Keeps Trace.ofEval at *
  cases hrun : x w.trace with
  | ok value t =>
      rw [hrun] at hx
      exact hx
  | error failure t =>
      rw [hrun] at hx
      exact hx

theorem resultOf_keeps {body : Tracing Signal Unit} {Q : World → Unit → Prop}
    (hbody : Keeps known (SignalOk known) body w Q) :
    Keeps known (FailureOk known) (Trace.resultOf body) w (ValueOk known) := by
  unfold Keeps Trace.resultOf at *
  cases hrun : body w.trace with
  | ok value t =>
      rw [hrun] at hbody
      rcases hbody with ⟨w', htrace, hx, hsound, -⟩
      exact ⟨w', htrace, hx, hsound, trivial⟩
  | error signal t =>
      rw [hrun] at hbody
      cases signal with
      | «break» =>
          rcases hbody with ⟨w', htrace, hx, hsound, -⟩
          exact ⟨w', htrace, hx, hsound, trivial⟩
      | exit value => exact hbody
      | failed failure => exact hbody

theorem catchError_keeps {body : Tracing Signal Unit} {handle : RuntimeError → Tracing Signal Unit}
    {Q : World → Unit → Prop} (hbody : Keeps known (SignalOk known) body w Q)
    (hhandle : ∀ w' error, w.Extends w' → Sound known w' → FailureOk known w' (.error error) →
      Keeps known (SignalOk known) (handle error) w' Q) :
    Keeps known (SignalOk known) (Trace.catchError body handle) w Q := by
  unfold Keeps at hbody
  cases hrun : body w.trace with
  | ok value t =>
      have hsame : Trace.catchError body handle w.trace = .ok value t := by
        simp only [Trace.catchError, hrun]
      rw [hrun] at hbody
      unfold Keeps
      rw [hsame]
      exact hbody
  | error signal t =>
      rw [hrun] at hbody
      by_cases hcaught : ∃ error, signal = .failed (.error error)
      · rcases hcaught with ⟨error, rfl⟩
        rcases hbody with ⟨w', rfl, hx, hsound, hfailure⟩
        have hsame : Trace.catchError body handle w.trace = handle error w'.trace := by
          simp only [Trace.catchError, hrun]
        exact Keeps.of_run hx hsame (hhandle w' error hx hsound hfailure)
      · have hsame : Trace.catchError body handle w.trace = .error signal t := by
          unfold Trace.catchError
          rw [hrun]
          split
          · next heq =>
              cases heq
              exact absurd ⟨_, rfl⟩ hcaught
          · rfl
        unfold Keeps
        rw [hsame]
        exact hbody

theorem repeatWhile_keeps {condition : Tracing Failure Value} {body : Tracing Signal Unit}
    {P : World → Prop} (hP : ∀ w w', w.Extends w' → P w → P w')
    (hcondition : ∀ w, Sound known w → P w →
      Keeps known (FailureOk known) condition w (ValueOk known))
    (hbody : ∀ w, Sound known w → P w →
      Keeps known (SignalOk known) body w fun w' _ => P w') :
    ∀ (fuel : Nat) (w : World), Sound known w → P w →
      Keeps known (SignalOk known) (Trace.repeatWhile condition body fuel) w fun w' _ => P w' := by
  intro fuel
  induction fuel with
  | zero =>
      intro w h _
      exact ⟨w, rfl, .refl w, h, trivial⟩
  | succ fuel ih =>
      intro w h hw
      have htest := hcondition w h hw
      unfold Keeps at htest
      cases hrun : condition w.trace with
      | error failure t =>
          rw [hrun] at htest
          have hsame : Trace.repeatWhile condition body (fuel + 1) w.trace =
              .error (.failed failure) t := by
            simp only [Trace.repeatWhile, hrun]
          unfold Keeps
          rw [hsame]
          exact htest
      | ok value t =>
          rw [hrun] at htest
          rcases htest with ⟨w₁, rfl, hx₁, hsound₁, -⟩
          have hw₁ := hP w w₁ hx₁ hw
          cases htruthy : value.isTruthy with
          | false =>
              have hsame : Trace.repeatWhile condition body (fuel + 1) w.trace =
                  .ok () w₁.trace := by
                simp [Trace.repeatWhile, hrun, htruthy]
              exact Keeps.of_ok hsame hx₁ hsound₁ hw₁
          | true =>
              have hround := hbody w₁ hsound₁ hw₁
              unfold Keeps at hround
              cases hrun₁ : body w₁.trace with
              | ok done t =>
                  rw [hrun₁] at hround
                  rcases hround with ⟨w₂, rfl, hx₂, hsound₂, hw₂⟩
                  have hsame : Trace.repeatWhile condition body (fuel + 1) w.trace =
                      Trace.repeatWhile condition body fuel w₂.trace := by
                    simp only [Trace.repeatWhile, hrun, htruthy, if_true, hrun₁]
                  exact Keeps.of_run (hx₁.trans hx₂) hsame (ih w₂ hsound₂ hw₂)
              | error signal t =>
                  rw [hrun₁] at hround
                  rcases hround with ⟨w₂, rfl, hx₂, hsound₂, hsignal⟩
                  have hx := hx₁.trans hx₂
                  cases signal with
                  | «break» =>
                      have hsame : Trace.repeatWhile condition body (fuel + 1) w.trace =
                          .ok () w₂.trace := by
                        simp only [Trace.repeatWhile, hrun, htruthy, if_true, hrun₁]
                      exact Keeps.of_ok hsame hx hsound₂ (hP w₁ w₂ hx₂ hw₁)
                  | exit value =>
                      unfold Keeps
                      simp only [Trace.repeatWhile, hrun, htruthy, if_true, hrun₁]
                      exact ⟨w₂, rfl, hx, hsound₂, hsignal⟩
                  | failed failure =>
                      unfold Keeps
                      simp only [Trace.repeatWhile, hrun, htruthy, if_true, hrun₁]
                      exact ⟨w₂, rfl, hx, hsound₂, hsignal⟩

/-! ## Scopes -/

/-- A new frame for a scope that binds nothing of itself. -/
theorem enter_keeps {region : Region} {p : Place} {env : Env} {bindings : Table Value}
    {names : List String} (h : Sound known w) (hp : Fits w.events w.store p env)
    (hopen : p.Open) (hregion : region.reserved = [])
    (hvalues : ∀ name value, bindings.find? name = some value →
      Declarable name ∧ ValueOk known w value)
    (hnames : ∀ name ∈ names, Declarable name ∧ (bindings.find? name).isSome) :
    Keeps known (FailureOk known) (Trace.enter region env bindings) w fun w' env' =>
      Fits w'.events w'.store (p.enter region names) env' ∧ (p.enter region names).Open := by
  have hfree (name : String) (hname : ¬Declarable name) : bindings.find? name = none := by
    cases hfind : bindings.find? name with
    | none => rfl
    | some value => exact absurd (hvalues name value hfind).1 hname
  refine Keeps.of_ok (v := w.enter region env bindings) rfl (w.extends_enter _ _ _)
    (h.enter ?_ ?_) ⟨?_, ?_⟩
  · intro name value hvalue
    exact (hvalues name value hvalue).2
  · unfold FrameOk
    rw [w.frame_enter]
    cases region with
    | receiver decl => cases hregion
    | parent decl => cases hregion
    | _ => exact ⟨hfree "this" not_declarable_this, hfree "super" not_declarable_super⟩
  · refine hp.enter ?_ ?_ (.inr hopen)
    · intro name hname
      exact (hnames name hname).2
    · intro name hname
      exact .inl (hnames name hname).1
  · cases region with
    | parent decl => cases hregion
    | _ => rfl

theorem enterBlock_keeps (body : List Stmt) {p : Place} {env : Env} (h : Sound known w)
    (hp : Fits w.events w.store p env) (hopen : p.Open) :
    Keeps known (FailureOk known) (Trace.enter (.block body) env ∅) w fun w' env' =>
      Fits w'.events w'.store (p.enter (.block body) []) env' ∧
        (p.enter (.block body) []).Open := by
  refine enter_keeps h hp hopen rfl ?_ ?_
  · intro name value hvalue
    cases hvalue
  · intro name hname
    cases hname

theorem enterHandler_keeps (handler : Handler Stmt) {raised : Value} {p : Place} {env : Env}
    (h : Sound known w) (hp : Fits w.events w.store p env) (hopen : p.Open)
    (hname : Declarable handler.name.lexeme) (hraised : ValueOk known w raised) :
    Keeps known (FailureOk known)
      (Trace.enter (.handler handler) env ((∅ : Table Value).insert handler.name.lexeme raised)) w
      fun w' env' =>
        Fits w'.events w'.store (p.enter (.handler handler) [handler.name.lexeme]) env' ∧
          (p.enter (.handler handler) [handler.name.lexeme]).Open := by
  refine enter_keeps h hp hopen rfl ?_ ?_
  · intro other value hvalue
    rw [Table.find?_insert] at hvalue
    split at hvalue
    · next hsame =>
        cases hvalue
        exact ⟨hsame ▸ hname, hraised⟩
    · cases hvalue
  · intro other hother
    rw [List.mem_singleton.mp hother, Table.find?_insert, if_pos rfl]
    exact ⟨hname, rfl⟩

/-- With an argument for each, all parameters are bound. -/
theorem isSome_bindParams {params : List Param} :
    ∀ {bindings : Table Value} {values : List Value} {name : String},
      params.length = values.length →
      (bindings.find? name).isSome ∨ (∃ param ∈ params, param.name.lexeme = name) →
      ((Exec.bindParams bindings params values).find? name).isSome := by
  induction params with
  | nil =>
      intro bindings values name _ h
      rcases h with h | ⟨param, hparam, -⟩
      · exact h
      · cases hparam
  | cons param rest ih =>
      intro bindings values name hlength h
      cases values with
      | nil => cases hlength
      | cons first values =>
          refine ih (Nat.succ.inj hlength) ?_
          rw [Table.find?_insert]
          by_cases hsame : name = param.name.lexeme
          · rw [if_pos hsame]
            exact .inl rfl
          · rw [if_neg hsame]
            rcases h with h | ⟨other, hother, hname⟩
            · exact .inl h
            · rcases List.mem_cons.mp hother with rfl | hother
              · exact absurd hname.symm hsame
              · exact .inr ⟨other, hother, hname⟩

theorem enterCall_keeps {p : Place} {env : Env} {decl : Function} {arguments : List Value}
    (h : Sound known w) (hp : Fits w.events w.store p env) (hopen : p.Open)
    (hparams : ∀ param ∈ decl.params, Declarable param.name.lexeme)
    (harguments : ∀ value ∈ arguments, ValueOk known w value)
    (harity : decl.params.length = arguments.length) :
    Keeps known (FailureOk known)
      (Trace.enter (.function decl) env (Exec.bindParams ∅ decl.params arguments)) w fun w' env' =>
        Fits w'.events w'.store (p.enter (.function decl) decl.paramNames) env' ∧
          (p.enter (.function decl) decl.paramNames).Open := by
  refine enter_keeps h hp hopen rfl ?_ ?_
  · intro name value hvalue
    rcases find?_bindParams hvalue with hfind | ⟨hmem, param, hparam, rfl⟩
    · cases hfind
    · exact ⟨hparams param hparam, harguments value hmem⟩
  · intro name hname
    rcases List.mem_map.mp hname with ⟨param, hparam, rfl⟩
    exact ⟨hparams param hparam, isSome_bindParams harity (.inr ⟨param, hparam, rfl⟩)⟩

/-! ## Statements -/

theorem RuntimeError.valueOk_raisedValue {error : RuntimeError}
    (h : FailureOk known w (.error error)) : ValueOk known w error.raisedValue := by
  unfold raisedValue
  cases hvalue : error.value with
  | none => trivial
  | some value => exact h value hvalue

theorem printLine_keeps {host : Host} {keyword : Token} {value : Value} (h : Sound known w)
    (hvalue : ValueOk known w value) :
    Keeps known (FailureOk known) (Trace.keep (Exec.printLine host keyword value)) w
      fun _ _ => True := by
  have harguments : ∀ v ∈ [value], ValueOk known w v := List.forall_mem_singleton.mpr hvalue
  exact Keeps.keep_bind ((callNative_keeps h harguments).bind fun _ _ _ hsound _ =>
    Keeps.keep rfl rfl (.refl _) hsound trivial)

theorem mentioned_located {p : Place} {e : Expr}
    (h : ∀ r ∈ e.mentions.map (Mention.located p), known r) : Mentioned known p e.mentions := by
  intro m hm
  exact ⟨m.located p, h _ (List.mem_map_of_mem hm), rfl, rfl⟩

section Statements

variable {call : Trace.Caller} {cx : Context} (hcall : CallerOk known call)
variable (hresolved : Resolved known cx.locals)
include hcall hresolved

theorem optionalValue_keeps {p : Place} {value : Option Expr} (h : Sound known w)
    (hp : Fits w.events w.store p cx.env)
    (hmentioned : ∀ e, value = some e → Mentioned known p e.mentions) :
    Keeps known (FailureOk known) (Trace.optionalValue call cx value) w (ValueOk known) := by
  cases value with
  | none => exact Keeps.pure h trivial
  | some e => exact expr_keeps hcall hresolved e w h hp (hmentioned e rfl)

theorem raiseValue_keeps {p : Place} {keyword : Token} {value : Option Expr}
    {Q : World → Unit → Prop} (h : Sound known w) (hp : Fits w.events w.store p cx.env)
    (hmentioned : ∀ e, value = some e → Mentioned known p e.mentions) :
    Keeps known (FailureOk known) (Trace.raiseValue call cx keyword value) w Q := by
  cases value with
  | none => exact Keeps.failAt h
  | some e =>
      refine (expr_keeps hcall hresolved e w h hp (hmentioned e rfl)).bind ?_
      intro w₁ raised _ hsound₁ hraised
      refine Keeps.keep_error hsound₁ rfl ?_
      intro found hfound
      cases hfound
      exact hraised

end Statements

mutual

theorem stmt_keeps (hcall : CallerOk known call) (fuel : Nat) :
    ∀ (s : Stmt) (cx : Context) (p : Place) (w : World),
      Resolved known cx.locals → Sound known w →
      Fits w.events w.store p cx.env → p.Open → s.Tidy Declarable →
      (∀ r ∈ s.references p, known r) →
      Keeps known (SignalOk known) (Trace.stmt call fuel cx s) w fun w' _ =>
        Fits w'.events w'.store (p.declare s.declared) cx.env
  | .block body, cx, p, w, hresolved, h, hp, hopen, htidy, hknown => by
      refine (ofEval_keeps (enterBlock_keeps _ h hp hopen)).bind ?_
      intro w₁ env hx₁ hsound₁ henv
      rcases henv with ⟨hfits, hopen₁⟩
      refine (stmts_keeps hcall fuel body (cx.inside env) _ w₁ hresolved hsound₁ hfits hopen₁
        htidy hknown).imp ?_
      intro w₂ _ hx₂ _ _
      rw [show (Stmt.block body).declared = [] from rfl, Place.declare_nil]
      exact (hx₁.trans hx₂).fits hp
  | .classDecl decl, cx, p, w, hresolved, h, hp, hopen, htidy, hknown =>
      ofEval_keeps (defineClass_keeps hresolved h hp hopen htidy hknown)
  | .enumDecl decl, cx, p, w, hresolved, h, hp, _, htidy, _ =>
      ofEval_keeps (defineMembers_keeps h hp htidy)
  | .function decl, cx, p, w, hresolved, h, hp, hopen, htidy, hknown => by
      rcases htidy with ⟨hname, hparams, hbody⟩
      exact ofEval_keeps (defineFunction_keeps h hp hopen hname ⟨hparams, hbody, hknown⟩)
  | .ifThen condition thenBranch none, cx, p, w, hresolved, h, hp, hopen, htidy, hknown => by
      rcases htidy with ⟨-, hthen⟩
      have hcondition := mentioned_located fun r hr => hknown r (List.mem_append_left _ hr)
      refine (ofEval_keeps (expr_keeps hcall hresolved condition w h hp hcondition)).bind ?_
      intro w₁ value hx₁ hsound₁ _
      rw [show (Stmt.ifThen condition thenBranch none).declared = [] from rfl, Place.declare_nil]
      cases value.isTruthy with
      | false => exact Keeps.pure hsound₁ (hx₁.fits hp)
      | true =>
          refine (stmt_keeps hcall fuel thenBranch cx p w₁ hresolved hsound₁ (hx₁.fits hp) hopen
            hthen fun r hr => hknown r (List.mem_append_right _ hr)).imp ?_
          intro w₂ _ hx₂ _ _
          exact (hx₁.trans hx₂).fits hp
  | .ifThen condition thenBranch (some elseBranch), cx, p, w, hresolved, h, hp, hopen, htidy,
      hknown => by
      rcases htidy with ⟨-, hthen, -, helse⟩
      have hcondition := mentioned_located fun r hr =>
        hknown r (List.mem_append_left _ (List.mem_append_left _ hr))
      refine (ofEval_keeps (expr_keeps hcall hresolved condition w h hp hcondition)).bind ?_
      intro w₁ value hx₁ hsound₁ _
      rw [show (Stmt.ifThen condition thenBranch (some elseBranch)).declared = [] from rfl,
        Place.declare_nil]
      have hfits (w₂ : World) (hx₂ : w₁.Extends w₂) : Fits w₂.events w₂.store p cx.env :=
        (hx₁.trans hx₂).fits hp
      cases value.isTruthy with
      | false =>
          exact (stmt_keeps hcall fuel elseBranch cx p w₁ hresolved hsound₁ (hx₁.fits hp) hopen
            helse fun r hr => hknown r (List.mem_append_right _ hr)).imp fun w₂ _ hx₂ _ _ =>
              hfits w₂ hx₂
      | true =>
          exact (stmt_keeps hcall fuel thenBranch cx p w₁ hresolved hsound₁ (hx₁.fits hp) hopen
            hthen fun r hr => hknown r (List.mem_append_left _ (List.mem_append_right _ hr))).imp
              fun w₂ _ hx₂ _ _ => hfits w₂ hx₂
  | .while condition body, cx, p, w, hresolved, h, hp, hopen, htidy, hknown => by
      have hcondition := mentioned_located fun r hr => hknown r (List.mem_append_left _ hr)
      rw [show (Stmt.while condition body).declared = [] from rfl, Place.declare_nil]
      refine repeatWhile_keeps (P := fun w => Fits w.events w.store p cx.env) ?_ ?_ ?_ fuel w h hp
      · intro w w' hx hfits
        exact hx.fits hfits
      · intro w h hp
        exact expr_keeps hcall hresolved condition w h hp hcondition
      · intro w h hp
        refine (stmt_keeps hcall fuel body cx p w hresolved h hp hopen htidy.2
          fun r hr => hknown r (List.mem_append_right _ hr)).imp ?_
        intro w' _ hx _ _
        exact hx.fits hp
  | .try keyword body handlers otherwise, cx, p, w, hresolved, h, hp, hopen, htidy, hknown => by
      rcases htidy with ⟨hbody, hhandlers, hotherwise⟩
      rw [show (Stmt.try keyword body handlers otherwise).declared = [] from rfl,
        Place.declare_nil]
      refine (ofEval_keeps (enterBlock_keeps _ h hp hopen)).bind ?_
      intro w₁ env hx₁ hsound₁ henv
      rcases henv with ⟨hfits, hopen₁⟩
      refine catchError_keeps ?_ ?_
      · refine (stmts_keeps hcall fuel body (cx.inside env) _ w₁ hresolved hsound₁ hfits hopen₁
          hbody fun r hr => hknown r (List.mem_append_left _ (List.mem_append_left _ hr))).imp ?_
        intro w₂ _ hx₂ _ _
        exact (hx₁.trans hx₂).fits hp
      · intro w₂ error hx₂ hsound₂ herror
        have hp₂ := (hx₁.trans hx₂).fits hp
        cases hfound : Exec.findHandler handlers error.raisedValue with
        | some index =>
            simp only [hfound]
            exact handler_keeps hcall fuel handlers cx p error.raisedValue index w₂
              hresolved hsound₂ hp₂ hopen (RuntimeError.valueOk_raisedValue herror) hhandlers
              fun r hr => hknown r (List.mem_append_left _ (List.mem_append_right _ hr))
        | none =>
            simp only [hfound]
            refine (ofEval_keeps (enterBlock_keeps _ hsound₂ hp₂ hopen)).bind ?_
            intro w₃ env hx₃ hsound₃ henv
            rcases henv with ⟨hfits, hopen₃⟩
            refine (stmts_keeps hcall fuel otherwise (cx.inside env) _ w₃ hresolved hsound₃ hfits
              hopen₃ hotherwise fun r hr => hknown r (List.mem_append_right _ hr)).imp ?_
            intro w₄ _ hx₄ _ _
            exact (hx₃.trans hx₄).fits hp₂
  | .print keyword value, cx, p, w, hresolved, h, hp, _, _, hknown => by
      rw [show (Stmt.print keyword value).declared = [] from rfl, Place.declare_nil]
      refine ofEval_keeps ((expr_keeps hcall hresolved value w h hp
        (mentioned_located hknown)).bind ?_)
      intro w₁ result hx₁ hsound₁ hresult
      exact (printLine_keeps hsound₁ hresult).imp fun w₂ _ hx₂ _ _ => (hx₁.trans hx₂).fits hp
  | .exit keyword value, cx, p, w, hresolved, h, hp, _, _, hknown => by
      refine (ofEval_keeps (optionalValue_keeps hcall hresolved h hp ?_)).bind ?_
      · rintro e rfl
        exact mentioned_located hknown
      · intro w₁ result _ hsound₁ hresult
        exact Keeps.throw hsound₁ hresult
  | .raise keyword value, cx, p, w, hresolved, h, hp, _, _, hknown => by
      refine ofEval_keeps (raiseValue_keeps hcall hresolved h hp ?_)
      rintro e rfl
      exact mentioned_located hknown
  | .var decl, cx, p, w, hresolved, h, hp, _, htidy, hknown => by
      refine ofEval_keeps ((optionalValue_keeps hcall hresolved h hp ?_).bind ?_)
      · intro e he m hm
        refine ⟨m.initial p decl.name.lexeme, hknown _ ?_, rfl, rfl⟩
        simp only [Stmt.references, Stmt.initialReferences, he]
        exact List.mem_map_of_mem hm
      · intro w₁ value hx₁ hsound₁ hvalue
        exact define_keeps hsound₁ (hx₁.fits hp) htidy fun w₂ hx₂ _ => hx₂.valueOk hvalue
  | .break keyword, cx, p, w, hresolved, h, _, _, _, _ => Keeps.throw h trivial
  | .expression value, cx, p, w, hresolved, h, hp, _, _, hknown => by
      rw [show (Stmt.expression value).declared = [] from rfl, Place.declare_nil]
      refine ofEval_keeps ((Keeps.discard (expr_keeps hcall hresolved value w h hp
        (mentioned_located hknown))).imp ?_)
      intro w₁ _ hx₁ _ _
      exact hx₁.fits hp
  | .uses names token, cx, p, w, hresolved, h, hp, _, _, _ => by
      rw [show (Stmt.uses names token).declared = [] from rfl, Place.declare_nil]
      exact Keeps.pure h hp

theorem stmts_keeps (hcall : CallerOk known call) (fuel : Nat) :
    ∀ (list : List Stmt) (cx : Context) (p : Place) (w : World),
      Resolved known cx.locals → Sound known w →
      Fits w.events w.store p cx.env → p.Open → Stmt.TidyList Declarable list →
      (∀ r ∈ Stmt.listReferences p list, known r) →
      Keeps known (SignalOk known) (Trace.stmts call fuel cx list) w fun _ _ => True
  | [], cx, p, w, hresolved, h, _, _, _, _ => Keeps.pure h trivial
  | s :: rest, cx, p, w, hresolved, h, hp, hopen, htidy, hknown => by
      refine (stmt_keeps hcall fuel s cx p w hresolved h hp hopen htidy.1 fun r hr =>
        hknown r (List.mem_append_left _ hr)).bind ?_
      intro w₁ _ _ hsound₁ hfits
      exact stmts_keeps hcall fuel rest cx _ w₁ hresolved hsound₁ hfits hopen.declare htidy.2
        fun r hr => hknown r (List.mem_append_right _ hr)

theorem handler_keeps (hcall : CallerOk known call) (fuel : Nat) :
    ∀ (list : List (Handler Stmt)) (cx : Context) (p : Place) (raised : Value) (index : Nat)
      (w : World), Resolved known cx.locals → Sound known w → Fits w.events w.store p cx.env →
      p.Open →
      ValueOk known w raised → Stmt.TidyHandlers Declarable list →
      (∀ r ∈ Stmt.handlerReferences p list, known r) →
      Keeps known (SignalOk known) (Trace.handler call fuel cx raised list index) w fun w' _ =>
        Fits w'.events w'.store p cx.env
  | [], cx, p, raised, index, w, hresolved, h, hp, _, _, _, _ => Keeps.pure h hp
  | ⟨name, typeName, body⟩ :: rest, cx, p, raised, 0, w, hresolved, h, hp, hopen, hraised, htidy,
      hknown => by
      rcases htidy with ⟨hname, -, hbody, -⟩
      refine (ofEval_keeps (enterHandler_keeps _ h hp hopen hname hraised)).bind ?_
      intro w₁ env hx₁ hsound₁ henv
      rcases henv with ⟨hfits, hopen₁⟩
      refine (stmt_keeps hcall fuel body (cx.inside env) _ w₁ hresolved hsound₁ hfits hopen₁ hbody
        fun r hr => hknown r (List.mem_append_left _ hr)).imp ?_
      intro w₂ _ hx₂ _ _
      exact (hx₁.trans hx₂).fits hp
  | ⟨name, typeName, body⟩ :: rest, cx, p, raised, index + 1, w, hresolved, h, hp, hopen, hraised,
      htidy, hknown =>
      handler_keeps hcall fuel rest cx p raised index w hresolved h hp hopen hraised htidy.2.2.2
        fun r hr => hknown r (List.mem_append_right _ hr)

end

/-! ## Runs -/

/-- Functions may be called with any fuel. -/
theorem callFn_ok {cx : Context} (hresolved : Resolved known cx.locals) (fuel : Nat) :
    CallerOk known (Trace.callFn cx fuel) := by
  induction fuel with
  | zero =>
      intro w f arguments h _ _ _
      exact Keeps.throw h trivial
  | succ fuel ih =>
      intro w f arguments h hf harguments harity
      rcases hf with ⟨p, hp, hopen, hparams, htidy, hknown⟩
      refine (enterCall_keeps h hp hopen hparams harguments harity).bind ?_
      intro w₁ env _ hsound₁ henv
      rcases henv with ⟨hfits, hopen₁⟩
      refine (resultOf_keeps (stmts_keeps ih fuel f.decl.body (cx.inside env) _ w₁
        hresolved hsound₁ hfits hopen₁ htidy hknown)).bind ?_
      intro w₂ returned _ hsound₂ hreturned
      cases f.isInitializer with
      | false => exact Keeps.pure hsound₂ hreturned
      | true =>
          refine Keeps.look_store (Keeps.pure hsound₂ ?_)
          cases hthis : w₂.store.findHere? f.closure "this" with
          | none => trivial
          | some value => exact hsound₂.findHere hthis

/-- A program keeps a world sound as long as its references are known. -/
theorem program_keeps {m : Machine} (hresolved : Resolved known m.locals) (fuel : Nat)
    {statements : List Stmt} (h : Sound known w) (hstatements : Knows known [] statements) :
    Keeps known (SignalOk known) (Trace.program m fuel statements) w fun _ _ => True :=
  stmts_keeps (callFn_ok hresolved fuel) fuel statements m.context [] w hresolved h
    (.top h.globalFrame) trivial hstatements.1 hstatements.2

end MiniPascal
