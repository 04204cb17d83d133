import MiniPascal.Proofs.Machine.Journal
import MiniPascal.Proofs.Machine.Linking

/-!
# Linked runs

At every point of a run, the current environment and the environments of all functions at hand are
chains of one layout.  Every evaluation, execution and call keeps it so.
-/

namespace MiniPascal

/-! ## Linked journals -/

def Activity.values : Activity → List Value
  | .call f arguments => .function f :: arguments
  | _ => []

def Signal.values : Signal → List Value
  | .exit value => [value]
  | .failed (.error e) => e.value.toList
  | _ => []

def Ending.values : Ending → List Value
  | .value result => [result]
  | .done => []
  | .stopped signal => signal.values

def Point.layout (outer : FrameId → Env) (p : Point) : Layout where
  outer := outer
  size := p.store.frames.size

/-- The current environment is a chain, and so are those of all functions of the store. -/
structure Point.Linked (outer : FrameId → Env) (p : Point) : Prop where
  store : p.store.Linked (p.layout outer)
  env : (p.layout outer).Chain p.cx.env

/-- The points of an entry are linked, and so are the values that it deals in. -/
structure Entry.Linked (outer : FrameId → Env) (e : Entry) : Prop where
  before : e.before.Linked outer
  after : e.after.Linked outer
  begun : ∀ value ∈ e.activity.values, value.Linked (e.before.layout outer)
  ended : ∀ value ∈ e.ending.values, value.Linked (e.after.layout outer)

/-- The present point and all entries are linked. -/
structure Journal.Linked (l : Layout) (j : Journal) : Prop where
  store : j.store.Linked l
  env : l.Chain j.env
  entries : ∀ e ∈ j.entries,
    e.Linked l.outer ∧ e.before.store.frames.size ≤ l.size ∧ e.after.store.frames.size ≤ l.size

section Points

variable {l l' : Layout}

theorem Signal.Linked.values {signal : Signal} (h : signal.Linked l) :
    ∀ value ∈ signal.values, value.Linked l := by
  intro value hvalue
  rcases signal with _ | result | (error | _)
  · cases hvalue
  · rw [List.mem_singleton.mp hvalue]
    exact h
  · exact h value (Option.mem_toList.mp hvalue)
  · cases hvalue

theorem Store.Linked.mono {s : Store} {outer outer' : FrameId → Env}
    (h : s.Linked ⟨outer, s.frames.size⟩)
    (hl : ∀ frame, frame < s.frames.size → outer' frame = outer frame) :
    s.Linked ⟨outer', s.frames.size⟩ :=
  ⟨rfl, fun f hf => (h.live f hf).mono ⟨Nat.le_refl _, hl⟩⟩

theorem Point.Linked.mono {p : Point} (h : p.Linked l.outer) (hp : p.store.frames.size ≤ l.size)
    (hl : l.Extends l') : p.Linked l'.outer :=
  have hsame (frame : FrameId) (hframe : frame < p.store.frames.size) :
      l'.outer frame = l.outer frame := hl.outer frame (Nat.lt_of_lt_of_le hframe hp)
  ⟨h.store.mono hsame, h.env.mono ⟨Nat.le_refl _, hsame⟩⟩

theorem Entry.Linked.mono {e : Entry} (h : e.Linked l.outer)
    (hbefore : e.before.store.frames.size ≤ l.size) (hafter : e.after.store.frames.size ≤ l.size)
    (hl : l.Extends l') : e.Linked l'.outer where
  before := h.before.mono hbefore hl
  after := h.after.mono hafter hl
  begun value hvalue := (h.begun value hvalue).mono
    ⟨Nat.le_refl _, fun frame hframe => hl.outer frame (Nat.lt_of_lt_of_le hframe hbefore)⟩
  ended value hvalue := (h.ended value hvalue).mono
    ⟨Nat.le_refl _, fun frame hframe => hl.outer frame (Nat.lt_of_lt_of_le hframe hafter)⟩

namespace Journal.Linked

variable {st : Setting} {j : Journal} (h : j.Linked l)
include h

theorem withStore {s : Store} (hs : s.Linked l') (hl : l.Extends l') :
    Journal.Linked l' { j with store := s } where
  store := hs
  env := h.env.mono hl
  entries e he := by
    rcases h.entries e he with ⟨hlinked, hbefore, hafter⟩
    exact ⟨hlinked.mono hbefore hafter hl, Nat.le_trans hbefore hl.size,
      Nat.le_trans hafter hl.size⟩

theorem withEnv {env : Env} (henv : l.Chain env) : Journal.Linked l { j with env } :=
  ⟨h.store, henv, h.entries⟩

/-- The layout of the present point is that of the store. -/
theorem layout_eq : (j.point st).layout l.outer = l := by
  unfold Point.layout
  rw [show (j.point st).store = j.store from rfl, ← h.store.size]

theorem point : (j.point st).Linked l.outer := by
  constructor
  · rw [h.layout_eq]
    exact h.store
  · rw [h.layout_eq]
    exact h.env

end Journal.Linked
end Points

/-! ## The judgement -/

namespace Journal

variable {st : Setting} {l : Layout} {j : Journal}

/-- The judgement for evaluations with a journal. -/
abbrev EvalLinks (x : Journaling Failure α) (l : Layout) (j : Journal) (Q : Layout → α → Prop) :
    Prop :=
  Links Journal.Linked Failure.Linked x l j Q

/-- The judgement for executions with a journal. -/
abbrev ExecLinks (x : Journaling Signal α) (l : Layout) (j : Journal) (Q : Layout → α → Prop) :
    Prop :=
  Links Journal.Linked Signal.Linked x l j Q

theorem here_links {F : Layout → ε → Prop} {Q : Layout → α → Prop}
    {y : Context → EStateM ε Store α} (h : j.Linked l)
    (hy : Links Store.Linked F (y (st.inside j.env)) l j.store Q) :
    Links Journal.Linked F (here st y) l j Q := by
  unfold Links at hy ⊢
  unfold here
  cases hrun : y (st.inside j.env) j.store with
  | ok value s =>
      rw [hrun] at hy
      rcases hy with ⟨l', hl, hs, hQ⟩
      exact ⟨l', hl, h.withStore hs hl, hQ⟩
  | error e s =>
      rw [hrun] at hy
      rcases hy with ⟨l', hl, hs, hF⟩
      exact ⟨l', hl, h.withStore hs hl, hF⟩

theorem looked_links {F : Layout → ε → Prop} {Q : Layout → α → Prop} {f : Context → Store → α}
    (h : j.Linked l) (hvalue : Q l (f (st.inside j.env) j.store)) :
    Links Journal.Linked F (look st f) l j Q :=
  .of_ok rfl h hvalue

theorem look_links {F : Layout → ε → Prop} {Q : Layout → β → Prop} {q : Context → Store → α}
    {f : α → Journaling ε β} (h : Links Journal.Linked F (f (q (st.inside j.env) j.store)) l j Q) :
    Links Journal.Linked F (look st q >>= f) l j Q :=
  h

theorem within_links {F : Layout → ε → Prop} {Q : Layout → α → Prop} {env : Env}
    {x : Journaling ε α} (h : j.Linked l) (hx : Links Journal.Linked F x l { j with env } Q) :
    Links Journal.Linked F (within env x) l j Q := by
  unfold Links at hx ⊢
  unfold within
  cases hrun : x { j with env } with
  | ok value j' =>
      rw [hrun] at hx
      rcases hx with ⟨l', hl, hj, hQ⟩
      exact ⟨l', hl, hj.withEnv (h.env.mono hl), hQ⟩
  | error e j' =>
      rw [hrun] at hx
      rcases hx with ⟨l', hl, hj, hF⟩
      exact ⟨l', hl, hj.withEnv (h.env.mono hl), hF⟩

theorem noting_links {F : Layout → ε → Prop} {Q : Layout → α → Prop} {activity : Activity}
    {ending : α → Ending} {signal : ε → Signal} {x : Journaling ε α} (h : j.Linked l)
    (hbegun : ∀ value ∈ activity.values, value.Linked l)
    (hended : ∀ l' result, Q l' result → ∀ value ∈ (ending result).values, value.Linked l')
    (hstopped : ∀ l' e, F l' e → ∀ value ∈ (signal e).values, value.Linked l')
    (hx : Links Journal.Linked F x l j Q) :
    Links Journal.Linked F (noting st activity ending signal x) l j Q := by
  have hentry {l' : Layout} {j' : Journal} {how : Ending} (hl : l.Extends l') (hj : j'.Linked l')
      (hhow : ∀ value ∈ how.values, value.Linked l') : Journal.Linked l'
        { j' with entries := ⟨activity, j.point st, j'.point st, how⟩ :: j'.entries } := by
    refine ⟨hj.store, hj.env, List.forall_mem_cons.mpr ⟨?_, hj.entries⟩⟩
    have hsize : j.store.frames.size ≤ l.size := Nat.le_of_eq h.store.size.symm
    refine ⟨⟨h.point.mono hsize hl, hj.point, ?_, ?_⟩, Nat.le_trans hsize hl.size,
      Nat.le_of_eq hj.store.size.symm⟩
    · intro value hvalue
      have hlinked := hbegun value hvalue
      have hlayout : (j.point st).layout l.outer = l := h.layout_eq
      rw [← hlayout] at hlinked
      exact hlinked.mono ⟨Nat.le_refl _, fun frame hframe =>
        hl.outer frame (Nat.lt_of_lt_of_le hframe hsize)⟩
    · intro value hvalue
      have hlinked := hhow value hvalue
      have hlayout : (j'.point st).layout l'.outer = l' := hj.layout_eq
      rw [← hlayout] at hlinked
      exact hlinked
  unfold Links at hx ⊢
  unfold noting
  cases hrun : x j with
  | ok value j' =>
      rw [hrun] at hx
      rcases hx with ⟨l', hl, hj, hQ⟩
      exact ⟨l', hl, hentry hl hj (hended l' value hQ), hQ⟩
  | error e j' =>
      rw [hrun] at hx
      rcases hx with ⟨l', hl, hj, hF⟩
      exact ⟨l', hl, hentry hl hj (hstopped l' e hF), hF⟩

theorem evaluating_links {activity : Activity} {x : Journaling Failure Value} (h : j.Linked l)
    (hbegun : ∀ value ∈ activity.values, value.Linked l) (hx : EvalLinks x l j Value.Linked) :
    EvalLinks (evaluating st activity x) l j Value.Linked := by
  refine noting_links h hbegun (fun l' result hresult => ?_) (fun l' e he => ?_) hx
  · exact List.forall_mem_singleton.mpr hresult
  · have hfailed : Signal.Linked l' (.failed e) := he
    exact hfailed.values

theorem executing_links {s : Stmt} {x : Journaling Signal Unit} (h : j.Linked l)
    (hx : ExecLinks x l j fun _ _ => True) :
    ExecLinks (executing st s x) l j fun _ _ => True :=
  noting_links h (List.forall_mem_nil _) (fun _ _ _ => List.forall_mem_nil _)
    (fun _ _ he => Signal.Linked.values he) hx

/-! ## Calls -/

/-- Calls of functions whose environments are chains keep journals linked. -/
def CallerLinks (call : Caller) : Prop :=
  ∀ f arguments {l : Layout} {j : Journal}, j.Linked l → l.Chain f.closure →
    (∀ value ∈ arguments, value.Linked l) → EvalLinks (call f arguments) l j Value.Linked

section Calls

variable {call : Caller} (hcall : CallerLinks call)
include hcall

theorem instantiate_links {cls : Class} {paren : Token} {arguments : List Value}
    (h : j.Linked l) (hcls : cls.Linked l) (harguments : ∀ value ∈ arguments, value.Linked l) :
    EvalLinks (instantiate call st cls paren arguments) l j Value.Linked := by
  have hnew {l : Layout} {j : Journal} (h : j.Linked l) (hcls : cls.Linked l) :
      EvalLinks (here st fun _ => modifyGet fun s => s.newInstance cls) l j
        fun l' self => self.cls.Linked l' :=
    here_links h (.modifyGet h.store.newInstance hcls)
  refine look_links ?_
  split
  · refine (here_links h (Eval.checkArity_links h.store)).bind fun l₁ j₁ _ hl₁ h₁ _ => ?_
    exact (hnew h₁ (hcls.mono hl₁)).bind fun l₂ j₂ self _ h₂ hself => .pure h₂ hself
  · next initializer hinitializer =>
      have hchain := h.store.initializer? hcls hinitializer
      refine (here_links h (Eval.checkArity_links h.store)).bind fun l₁ j₁ _ hl₁ h₁ _ => ?_
      refine (hnew h₁ (hcls.mono hl₁)).bind fun l₂ j₂ self hl₂ h₂ hself => ?_
      have hl := hl₁.trans hl₂
      refine (here_links h₂ (Eval.bindMethod_links h₂.store (hchain.mono hl) hself)).bind
        fun l₃ j₃ bound hl₃ h₃ hbound => ?_
      have harguments₃ : ∀ value ∈ arguments, value.Linked l₃ := fun value hvalue =>
        (harguments value hvalue).mono (hl.trans hl₃)
      refine (hcall bound arguments h₃ hbound harguments₃).discard.bind
        fun l₄ j₄ _ hl₄ h₄ _ => ?_
      exact .pure h₄ (hself.mono (hl₃.trans hl₄))

theorem applyValue_links {callee : Value} {paren : Token} {arguments : List Value}
    (h : j.Linked l) (hcallee : callee.Linked l)
    (harguments : ∀ value ∈ arguments, value.Linked l) :
    EvalLinks (applyValue call st callee paren arguments) l j Value.Linked := by
  have hother : EvalLinks (here st fun _ => Eval.failAt paren .notCallable) l j Value.Linked :=
    here_links h (Eval.failAt_links h.store)
  unfold applyValue
  cases callee with
  | function f =>
      refine look_links ?_
      split
      · exact here_links h (Eval.failAt_links h.store)
      · next choice hchoice =>
          have hchosen := h.store.chooseOverload (hcallee f rfl) hchoice
          refine (here_links h (Eval.bindChoice_links h.store hchosen)).bind
            fun l₁ j₁ selected hl₁ h₁ hselected => ?_
          refine (here_links h₁ (Eval.checkArity_links h₁.store)).bind
            fun l₂ j₂ _ hl₂ h₂ _ => ?_
          exact hcall selected arguments h₂ (hselected.mono hl₂) fun value hvalue =>
            (harguments value hvalue).mono (hl₁.trans hl₂)
  | native native =>
      refine here_links h ((Eval.checkArity_links h.store).bind fun l₁ s₁ _ hl h₁ _ => ?_)
      exact Eval.callNative_links h₁ fun value hvalue => (harguments value hvalue).mono hl
  | «class» cls => exact instantiate_links hcall h hcallee harguments
  | _ => exact hother

end Calls

/-! ## Expressions -/

theorem data_links {y : Context → Eval Value} (h : j.Linked l)
    (hy : ∀ cx s, s.Linked l → Eval.Linking (y cx) l s fun _ value => value.IsData) :
    EvalLinks (here st y) l j Value.Linked := by
  have hrun : EvalLinks (here st y) l j fun _ value => value.IsData :=
    here_links h (hy (st.inside j.env) j.store h.store)
  unfold EvalLinks Links at hrun ⊢
  split at hrun
  · rcases hrun with ⟨l', hl, hj, hdata⟩
    exact ⟨l', hl, hj, hdata.linked⟩
  · exact hrun

theorem newMap_links {contents : List (Value × Value)} (h : j.Linked l)
    (hcontents : ∀ entry ∈ contents, entry.1.Linked l ∧ entry.2.Linked l) :
    EvalLinks (here st fun _ => modifyGet fun s => s.newMap contents) l j fun _ _ => True := by
  refine here_links (y := fun _ => modifyGet fun s => s.newMap contents) h ?_
  exact .modifyGet (h.store.newMap hcontents) trivial

mutual

theorem expr_links {call : Caller} (hcall : CallerLinks call) (st : Setting) :
    ∀ (e : Expr) {l : Layout} {j : Journal}, j.Linked l →
      EvalLinks (expr call st e) l j Value.Linked
  | .literal value, _, _, h => by
      rw [expr]
      exact evaluating_links h (List.forall_mem_nil _)
        (.pure h (Value.isData_ofLiteral value).linked)
  | .cast inner _, _, _, h => by
      rw [expr]
      exact evaluating_links h (List.forall_mem_nil _) (expr_links hcall st inner h)
  | .grouping inner, _, _, h => by
      rw [expr]
      exact evaluating_links h (List.forall_mem_nil _) (expr_links hcall st inner h)
  | .unary op token operand, _, _, h => by
      rw [expr]
      refine evaluating_links h (List.forall_mem_nil _) ?_
      refine (expr_links hcall st operand h).bind fun _ _ value _ h₁ _ => ?_
      exact data_links h₁ fun _ _ hs => Eval.orFail_links hs fun _ => Value.applyUnary_isData
  | .binary left op token right, _, _, h => by
      rw [expr]
      refine evaluating_links h (List.forall_mem_nil _) ?_
      refine (expr_links hcall st left h).bind fun _ _ leftValue _ h₁ _ => ?_
      refine (expr_links hcall st right h₁).bind fun _ _ rightValue _ h₂ _ => ?_
      exact data_links h₂ fun _ _ hs => .look <|
        Eval.orFail_links hs fun _ => Store.applyBinary_isData
  | .logical left op token right, _, _, h => by
      rw [expr]
      refine evaluating_links h (List.forall_mem_nil _) ?_
      refine (expr_links hcall st left h).bind fun _ _ leftValue _ h₁ hleft => ?_
      split
      · exact .pure h₁ hleft
      · exact expr_links hcall st right h₁
  | .variable id name, _, _, h => by
      rw [expr]
      exact evaluating_links h (List.forall_mem_nil _) (here_links h (Eval.lookUp_links h.store))
  | .this id keyword, _, _, h => by
      rw [expr]
      exact evaluating_links h (List.forall_mem_nil _) (here_links h (Eval.lookUp_links h.store))
  | .super id keyword method, _, _, h => by
      rw [expr]
      exact evaluating_links h (List.forall_mem_nil _)
        (here_links h (Eval.superMethod_links h.store))
  | .assign id name value, _, _, h => by
      rw [expr]
      refine evaluating_links h (List.forall_mem_nil _) ?_
      exact (expr_links hcall st value h).bind fun _ _ result _ h₁ hresult =>
        here_links h₁ (Eval.assign_links h₁.store hresult)
  | .call callee paren arguments, _, _, h => by
      rw [expr]
      refine evaluating_links h (List.forall_mem_nil _) ?_
      refine (expr_links hcall st callee h).bind fun _ _ target _ h₁ htarget => ?_
      refine (exprs_links hcall st arguments h₁).bind fun _ _ values hl h₂ hvalues => ?_
      exact applyValue_links hcall h₂ (htarget.mono hl) hvalues
  | .get object name, _, _, h => by
      rw [expr]
      refine evaluating_links h (List.forall_mem_nil _) ?_
      exact (expr_links hcall st object h).bind fun _ _ target _ h₁ htarget =>
        here_links h₁ (Eval.getProperty_links h₁.store htarget)
  | .set object name value, _, _, h => by
      rw [expr]
      refine evaluating_links h (List.forall_mem_nil _) ?_
      refine (expr_links hcall st object h).bind fun _ _ target _ h₁ _ => ?_
      refine (here_links h₁ (Eval.fieldOwner_links h₁.store)).bind fun _ _ self _ h₂ _ => ?_
      refine (expr_links hcall st value h₂).bind fun _ _ result _ h₃ hresult => ?_
      exact (here_links h₃ (.modify (h₃.store.setField hresult))).bind fun _ _ _ hl h₄ _ =>
        .pure h₄ (hresult.mono hl)
  | .subscript bracket object index, _, _, h => by
      rw [expr]
      refine evaluating_links h (List.forall_mem_nil _) ?_
      refine (expr_links hcall st object h).bind fun _ _ target _ h₁ _ => ?_
      refine (expr_links hcall st index h₁).bind fun _ _ position _ h₂ _ => ?_
      refine here_links h₂ (.look (Eval.orFail_links h₂.store fun result hresult => ?_))
      exact h₂.store.contents.subscript (fun _ => Value.IsData.linked) hresult
  | .map brace items, _, _, h => by
      rw [expr]
      refine evaluating_links h (List.forall_mem_nil _) ?_
      refine (mapItems_links hcall st items h (List.forall_mem_nil _)).bind
        fun _ _ contents _ h₁ hcontents => ?_
      exact (newMap_links h₁ hcontents).bind fun _ _ _ _ h₂ _ =>
        .pure h₂ (Value.IsData.linked trivial)

theorem exprs_links {call : Caller} (hcall : CallerLinks call) (st : Setting) :
    ∀ (list : List Expr) {l : Layout} {j : Journal}, j.Linked l →
      EvalLinks (exprs call st list) l j fun l' values => ∀ value ∈ values, value.Linked l'
  | [], _, _, h => by
      rw [exprs]
      exact .pure h (List.forall_mem_nil _)
  | e :: rest, _, _, h => by
      rw [exprs]
      refine (expr_links hcall st e h).bind fun _ _ value _ h₁ hvalue => ?_
      refine (exprs_links hcall st rest h₁).bind fun _ _ values hl h₂ hvalues => ?_
      exact .pure h₂ (List.forall_mem_cons.mpr ⟨hvalue.mono hl, hvalues⟩)

theorem mapItems_links {call : Caller} (hcall : CallerLinks call) (st : Setting) :
    ∀ (list : List (Expr × Expr)) {contents : List (Value × Value)} {l : Layout} {j : Journal},
      j.Linked l → (∀ entry ∈ contents, entry.1.Linked l ∧ entry.2.Linked l) →
      EvalLinks (mapItems call st list contents) l j fun l' contents =>
        ∀ entry ∈ contents, entry.1.Linked l' ∧ entry.2.Linked l'
  | [], _, _, _, h, hcontents => by
      rw [mapItems]
      exact .pure h hcontents
  | (key, item) :: rest, contents, l, _, h, hcontents => by
      rw [mapItems]
      refine (expr_links hcall st key h).bind fun l₁ _ keyValue hl₁ h₁ hkey => ?_
      refine (expr_links hcall st item h₁).bind fun l₂ _ itemValue hl₂ h₂ hitem => ?_
      refine mapItems_links hcall st rest h₂ fun entry hentry => ⟨?_, ?_⟩
      · rcases Store.key_of_mem_putEntry hentry with ⟨other, hother, hsame⟩ | hsame
        · rw [← hsame]
          exact (hcontents other hother).1.mono (hl₁.trans hl₂)
        · rw [hsame]
          exact hkey.mono hl₂
      · rcases mem_putEntry hentry with hold | hsame
        · exact (hcontents entry hold).2.mono (hl₁.trans hl₂)
        · rw [hsame]
          exact hitem

end

/-! ## Control -/

theorem ofEval_links {x : Journaling Failure α} {Q : Layout → α → Prop} (hx : EvalLinks x l j Q) :
    ExecLinks (ofEval x) l j Q := by
  unfold EvalLinks Links at hx
  unfold ExecLinks Links ofEval
  cases hrun : x j with
  | ok value j' =>
      rw [hrun] at hx
      exact hx
  | error failure j' =>
      rw [hrun] at hx
      exact hx

theorem child_links {bindings : Table Value} (h : j.Linked l)
    (hbindings : ∀ name value, bindings.find? name = some value → value.Linked l) :
    ExecLinks (child st bindings) l j fun l' env => l'.Chain env :=
  ofEval_links (here_links h (Eval.child_links h.store h.env hbindings))

theorem repeatWhile_links {condition : Journaling Failure Value} {body : Journaling Signal Unit}
    (hcondition : ∀ {l j}, j.Linked l → EvalLinks condition l j Value.Linked)
    (hbody : ∀ {l j}, j.Linked l → ExecLinks body l j fun _ _ => True) (fuel : Nat)
    (h : j.Linked l) : ExecLinks (repeatWhile condition body fuel) l j fun _ _ => True := by
  induction fuel generalizing l j with
  | zero => exact ⟨l, .refl l, h, trivial⟩
  | succ fuel ih =>
      have hfirst := hcondition h
      unfold EvalLinks Links at hfirst
      cases hrun : condition j with
      | error failure j₁ =>
          rw [hrun] at hfirst
          unfold ExecLinks Links repeatWhile
          rw [hrun]
          exact hfirst
      | ok value j₁ =>
          rw [hrun] at hfirst
          rcases hfirst with ⟨l₁, hl₁, h₁, -⟩
          by_cases htruthy : value.isTruthy = true
          · have hround := hbody h₁
            unfold ExecLinks Links at hround
            cases hrun' : body j₁ with
            | ok _ j₂ =>
                rw [hrun'] at hround
                rcases hround with ⟨l₂, hl₂, h₂, -⟩
                refine Links.of_run (hl₁.trans hl₂) ?_ (ih h₂)
                simp only [repeatWhile, hrun, htruthy, if_true, hrun']
            | error signal j₂ =>
                rw [hrun'] at hround
                rcases hround with ⟨l₂, hl₂, h₂, hsignal⟩
                unfold ExecLinks Links repeatWhile
                simp only [hrun, htruthy, if_true, hrun']
                cases signal with
                | «break» => exact ⟨l₂, hl₁.trans hl₂, h₂, trivial⟩
                | _ => exact ⟨l₂, hl₁.trans hl₂, h₂, hsignal⟩
          · unfold ExecLinks Links repeatWhile
            simp only [hrun, htruthy]
            exact ⟨l₁, hl₁, h₁, trivial⟩

theorem catchError_links {body : Journaling Signal Unit}
    {handle : RuntimeError → Journaling Signal Unit}
    (hbody : ExecLinks body l j fun _ _ => True)
    (hhandle : ∀ error l' j', j'.Linked l' → (Failure.error error).Linked l' →
      ExecLinks (handle error) l' j' fun _ _ => True) :
    ExecLinks (catchError body handle) l j fun _ _ => True := by
  unfold ExecLinks Links at hbody
  cases hrun : body j with
  | ok _ j₁ =>
      rw [hrun] at hbody
      unfold ExecLinks Links catchError
      rw [hrun]
      exact hbody
  | error signal j₁ =>
      rw [hrun] at hbody
      rcases hbody with ⟨l₁, hl, h₁, hsignal⟩
      rcases signal with _ | value | (error | _)
      case failed.error =>
        refine Links.of_run hl ?_ (hhandle error l₁ j₁ h₁ hsignal)
        simp only [catchError, hrun]
      all_goals
        unfold ExecLinks Links catchError
        rw [hrun]
        exact ⟨l₁, hl, h₁, hsignal⟩

theorem resultOf_links {body : Journaling Signal Unit}
    (hbody : ExecLinks body l j fun _ _ => True) : EvalLinks (resultOf body) l j Value.Linked := by
  have hnil (l : Layout) : Value.nil.Linked l := Value.IsData.linked trivial
  unfold ExecLinks Links at hbody
  unfold EvalLinks Links resultOf
  cases hrun : body j with
  | ok _ j₁ =>
      rw [hrun] at hbody
      rcases hbody with ⟨l₁, hl, h₁, -⟩
      exact ⟨l₁, hl, h₁, hnil l₁⟩
  | error signal j₁ =>
      rw [hrun] at hbody
      rcases hbody with ⟨l₁, hl, h₁, hsignal⟩
      cases signal with
      | «break» => exact ⟨l₁, hl, h₁, hnil l₁⟩
      | exit value => exact ⟨l₁, hl, h₁, hsignal⟩
      | failed failure => exact ⟨l₁, hl, h₁, hsignal⟩

/-! ## Statements -/

section Statements

variable {call : Caller} (hcall : CallerLinks call)
include hcall

theorem optionalValue_links {value : Option Expr} (h : j.Linked l) :
    EvalLinks (optionalValue call st value) l j Value.Linked := by
  cases value with
  | none => exact .pure h (Value.IsData.linked trivial)
  | some e => exact expr_links hcall st e h

theorem raiseValue_links {keyword : Token} {value : Option Expr} (h : j.Linked l) :
    EvalLinks (raiseValue call st keyword value) l j fun _ _ => True := by
  cases value with
  | none =>
      show EvalLinks (here st fun _ => Eval.failAt keyword .raisedNothing) l j _
      exact here_links h (Eval.failAt_links h.store)
  | some e =>
      refine (expr_links hcall st e h).bind fun l₁ j₁ result _ h₁ hresult => ?_
      refine here_links h₁ (.look (.throw h₁.store fun value hvalue => ?_))
      cases hvalue
      exact hresult

end Statements

mutual

theorem stmt_links {call : Caller} (hcall : CallerLinks call) (fuel : Nat) (st : Setting) :
    ∀ (s : Stmt) {l : Layout} {j : Journal}, j.Linked l →
      ExecLinks (stmt call fuel st s) l j fun _ _ => True
  | .block body, _, _, h => by
      rw [stmt]
      refine executing_links h ?_
      refine (child_links h fun _ _ hvalue => by cases hvalue).bind fun _ _ env _ h₁ henv => ?_
      exact within_links h₁ (stmts_links hcall fuel st body (h₁.withEnv henv))
  | .classDecl decl, _, _, h => by
      rw [stmt]
      exact executing_links h (ofEval_links (here_links h (Exec.defineClass_links h.store h.env)))
  | .enumDecl decl, _, _, h => by
      rw [stmt]
      exact executing_links h (ofEval_links (here_links h (Exec.defineMembers_links h.store)))
  | .function decl, _, _, h => by
      rw [stmt]
      exact executing_links h
        (ofEval_links (here_links h (Exec.defineFunction_links h.store h.env)))
  | .ifThen condition thenBranch none, _, _, h => by
      rw [stmt]
      refine executing_links h ?_
      refine (ofEval_links (expr_links hcall st condition h)).bind fun _ _ value _ h₁ _ => ?_
      split
      · exact stmt_links hcall fuel st thenBranch h₁
      · exact .pure h₁ trivial
  | .ifThen condition thenBranch (some elseBranch), _, _, h => by
      rw [stmt]
      refine executing_links h ?_
      refine (ofEval_links (expr_links hcall st condition h)).bind fun _ _ value _ h₁ _ => ?_
      split
      · exact stmt_links hcall fuel st thenBranch h₁
      · exact stmt_links hcall fuel st elseBranch h₁
  | .while condition body, _, _, h => by
      rw [stmt]
      exact executing_links h (repeatWhile_links (expr_links hcall st condition)
        (stmt_links hcall fuel st body) fuel h)
  | .try keyword body handlers otherwise, _, _, h => by
      have hnothing {l : Layout} :
          ∀ name value, (∅ : Table Value).find? name = some value → value.Linked l :=
        fun _ _ hvalue => by cases hvalue
      rw [stmt]
      refine executing_links h ?_
      refine (child_links h hnothing).bind fun _ _ env _ h₁ henv => ?_
      refine catchError_links
        (within_links h₁ (stmts_links hcall fuel st body (h₁.withEnv henv))) ?_
      intro error l₂ j₂ h₂ herror
      dsimp only
      split
      · next index _ =>
          exact handler_links hcall fuel st handlers index h₂
            (RuntimeError.linked_raisedValue herror)
      · exact (child_links h₂ hnothing).bind fun _ _ env _ h₃ henv =>
          within_links h₃ (stmts_links hcall fuel st otherwise (h₃.withEnv henv))
  | .print keyword value, _, _, h => by
      rw [stmt]
      refine executing_links h (ofEval_links ?_)
      refine (expr_links hcall st value h).bind fun _ _ result _ h₁ hresult => ?_
      have harguments := List.forall_mem_singleton.mpr hresult
      exact here_links h₁ (Eval.callNative_links h₁.store harguments).discard
  | .exit keyword value, _, _, h => by
      rw [stmt]
      refine executing_links h ?_
      exact (ofEval_links (optionalValue_links hcall h)).bind fun _ _ result _ h₁ hresult =>
        .throw h₁ hresult
  | .raise keyword value, _, _, h => by
      rw [stmt]
      exact executing_links h (ofEval_links (raiseValue_links hcall h))
  | .var decl, _, _, h => by
      rw [stmt]
      refine executing_links h (ofEval_links ?_)
      exact (optionalValue_links hcall h).bind fun _ _ value _ h₁ hvalue =>
        here_links h₁ (Eval.define_links h₁.store hvalue)
  | .break keyword, _, _, h => by
      rw [stmt]
      exact executing_links h (.throw h trivial)
  | .expression value, _, _, h => by
      rw [stmt]
      exact executing_links h (ofEval_links (expr_links hcall st value h).discard)
  | .uses keyword unit, _, _, h => by
      rw [stmt]
      exact executing_links h (.pure h trivial)

theorem stmts_links {call : Caller} (hcall : CallerLinks call) (fuel : Nat) (st : Setting) :
    ∀ (list : List Stmt) {l : Layout} {j : Journal}, j.Linked l →
      ExecLinks (stmts call fuel st list) l j fun _ _ => True
  | [], _, _, h => by
      rw [stmts]
      exact .pure h trivial
  | s :: rest, _, _, h => by
      rw [stmts]
      exact (stmt_links hcall fuel st s h).bind fun _ _ _ _ h₁ _ =>
        stmts_links hcall fuel st rest h₁

theorem handler_links {call : Caller} (hcall : CallerLinks call) (fuel : Nat) (st : Setting)
    {raised : Value} :
    ∀ (handlers : List (Handler Stmt)) (index : Nat) {l : Layout} {j : Journal}, j.Linked l →
      raised.Linked l → ExecLinks (handler call fuel st raised handlers index) l j fun _ _ => True
  | [], _, _, _, h, _ => by
      rw [handler]
      exact .pure h trivial
  | ⟨name, typeName, body⟩ :: _, 0, _, _, h, hraised => by
      rw [handler]
      exact (child_links h (Exec.linked_singleton hraised)).bind fun _ _ env _ h₁ henv =>
        within_links h₁ (stmt_links hcall fuel st body (h₁.withEnv henv))
  | _ :: rest, index + 1, _, _, h, hraised => by
      rw [handler]
      exact handler_links hcall fuel st rest index h hraised

end

/-! ## Calls and programs -/

theorem callFn_links (st : Setting) : ∀ fuel, CallerLinks (callFn st fuel)
  | 0 => fun f arguments _ _ h hf harguments =>
      evaluating_links h (List.forall_mem_cons.mpr ⟨Value.linked_function hf, harguments⟩)
        (.throw h trivial)
  | fuel + 1 => by
      intro f arguments l j h hf harguments
      refine evaluating_links h
        (List.forall_mem_cons.mpr ⟨Value.linked_function hf, harguments⟩) ?_
      refine (here_links h (Eval.child_links h.store hf fun _ value hvalue =>
        harguments value (mem_of_find?_bindParams hvalue))).bind fun _ _ env _ h₁ henv => ?_
      refine (within_links h₁ (resultOf_links (stmts_links (callFn_links st fuel) fuel st
        f.decl.body (h₁.withEnv henv)))).bind fun _ j₂ returned _ h₂ hreturned => ?_
      split
      · refine looked_links h₂ ?_
        cases hthis : j₂.store.findHere? f.closure "this" with
        | none => exact Value.IsData.linked trivial
        | some self => exact h₂.store.held (.of_findHere? hthis)
      · exact .pure h₂ hreturned

theorem program_links (m : Machine) (fuel : Nat) (statements : List Stmt) (h : j.Linked l) :
    ExecLinks (program m fuel statements) l j fun _ _ => True :=
  stmts_links (callFn_links m.setting fuel) fuel m.setting statements h

end Journal

/-- The journal that a computation ends with is linked. -/
theorem Links.ended {F : Layout → ε → Prop} {x : Journaling ε α} {l : Layout} {j : Journal}
    {Q : Layout → α → Prop} (h : Links Journal.Linked F x l j Q) :
    ∃ l', l.Extends l' ∧ (Journal.ended (x j)).Linked l' := by
  unfold Links at h
  cases hrun : x j with
  | ok value j' =>
      rw [hrun] at h
      rcases h with ⟨l', hl, hj, -⟩
      exact ⟨l', hl, hj⟩
  | error e j' =>
      rw [hrun] at h
      rcases h with ⟨l', hl, hj, -⟩
      exact ⟨l', hl, hj⟩

end MiniPascal
