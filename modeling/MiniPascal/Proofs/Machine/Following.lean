import MiniPascal.Proofs.Machine.Bodies

/-!
# Runs that follow each other

One run follows another if it does the same until the other one starves.  Expressions that are
evaluated with another way to call functions follow, as long as the calls of all functions follow
that the store carries.
-/

namespace MiniPascal

/-- From a store on, `y` does what `x` does, unless `x` starves: its result satisfies `Q` or its
failure satisfies `E`, and the store behind carries only functions with the property. -/
def Follows (P : Function → Prop) (starved : ε) (E : ε → Prop) (x y : EStateM ε Store α)
    (s : Store) (Q : α → Prop) : Prop :=
  match x s with
  | .ok value s' => y s = .ok value s' ∧ s'.Carries P ∧ Q value
  | .error e s' => e = starved ∨ y s = .error e s' ∧ s'.Carries P ∧ E e

namespace Follows

variable {P : Function → Prop} {starved : ε} {E : ε → Prop} {s : Store}

theorem pure {value : α} {Q : α → Prop} (h : s.Carries P) (hQ : Q value) :
    Follows P starved E (Pure.pure value) (Pure.pure value) s Q :=
  ⟨rfl, h, hQ⟩

theorem throw {e : ε} {Q : α → Prop} (h : s.Carries P) (hE : E e) :
    Follows P starved E (MonadExcept.throw e) (MonadExcept.throw e) s Q :=
  .inr ⟨rfl, h, hE⟩

theorem bind {x y : EStateM ε Store α} {f g : α → EStateM ε Store β} {Q : α → Prop}
    {R : β → Prop} (hx : Follows P starved E x y s Q)
    (hf : ∀ value s', s'.Carries P → Q value → Follows P starved E (f value) (g value) s' R) :
    Follows P starved E (x >>= f) (y >>= g) s R := by
  unfold Follows at hx ⊢
  show match EStateM.bind x f s with
    | .ok value s' => EStateM.bind y g s = .ok value s' ∧ _
    | .error e s' => e = starved ∨ EStateM.bind y g s = .error e s' ∧ _
  unfold EStateM.bind
  cases hrun : x s with
  | ok value s' =>
      rw [hrun] at hx
      rcases hx with ⟨hy, hs', hQ⟩
      rw [hy]
      exact hf value s' hs' hQ
  | error e s' =>
      rw [hrun] at hx
      refine hx.imp_right ?_
      rintro ⟨hy, hs', hE⟩
      rw [hy]
      exact ⟨rfl, hs', hE⟩

theorem discard {x y : EStateM ε Store α} {Q : α → Prop} (hx : Follows P starved E x y s Q) :
    Follows P starved E (Functor.discard x) (Functor.discard y) s fun _ => True := by
  show Follows P starved E (x >>= fun _ => Pure.pure ()) (y >>= fun _ => Pure.pure ()) s _
  exact hx.bind fun _ s' hs' _ => Follows.pure hs' trivial

theorem look {f g : Store → EStateM ε Store α} {Q : α → Prop}
    (h : Follows P starved E (f s) (g s) s Q) :
    Follows P starved E (get >>= f) (get >>= g) s Q :=
  h

theorem modify {change : Store → Store} (h : (change s).Carries P) :
    Follows P starved E (modify change) (modify change) s fun _ => True :=
  ⟨rfl, h, trivial⟩

theorem modifyGet {change : Store → α × Store} {Q : α → Prop} (h : (change s).2.Carries P)
    (hQ : Q (change s).1) : Follows P starved E (modifyGet change) (modifyGet change) s Q :=
  ⟨rfl, h, hQ⟩

end Follows

namespace Eval

variable {P : Function → Prop} {s : Store}

/-- One evaluation follows another. -/
abbrev Follows (P : Function → Prop) (x y : Eval α) (s : Store) (Q : α → Prop) : Prop :=
  MiniPascal.Follows P .starved (Failure.Carries P) x y s Q

theorem failAt_follows {token : Token} {fault : RuntimeFault} {Q : α → Prop} (h : s.Carries P) :
    Follows P (failAt token fault) (failAt token fault) s Q := by
  refine .throw h fun value hvalue => ?_
  cases hvalue

theorem orFail_follows {token : Token} {result : Except RuntimeFault α} {Q : α → Prop}
    (h : s.Carries P) (hQ : ∀ value, result = .ok value → Q value) :
    Follows P (orFail token result) (orFail token result) s Q := by
  cases result with
  | ok value => exact .pure h (hQ value rfl)
  | error fault => exact failAt_follows h

theorem child_follows {env : Env} {bindings : Table Value} (h : s.Carries P)
    (hbindings : ∀ name value, bindings.find? name = some value → value.Carries P) :
    Follows P (child env bindings) (child env bindings) s fun _ => True := by
  refine MiniPascal.Follows.bind (Q := fun _ => True) (.modifyGet (h.newFrame hbindings) trivial) ?_
  intro id s' hs' _
  exact .pure hs' trivial

theorem bindMethod_follows {method : Fn} {self : Instance} (h : s.Carries P)
    (hmethod : P method.decl) (hself : self.cls.Carries P) :
    Follows P (bindMethod method self) (bindMethod method self) s fun f => P f.decl :=
  .modifyGet (h.bindMethod hself) hmethod

theorem define_follows {env : Env} {name : Token} {value : Value} (h : s.Carries P)
    (hvalue : value.Carries P) :
    Follows P (define env name value) (define env name value) s fun _ => True := by
  refine .look ?_
  cases hdefinition : s.definition env name.lexeme value with
  | fresh => exact .modify (h.bindHere hvalue)
  | overload existing added =>
      have hadded : value = .function added := by
        unfold Store.definition at hdefinition
        split at hdefinition
        · cases hdefinition
        · split at hdefinition <;> cases hdefinition
          rfl
        · cases hdefinition
      rw [hadded] at hvalue
      exact .modify (h.addOverload hvalue)
  | refused => exact failAt_follows h

/-! ## Names -/

theorem thisInstance?_follows {env : Env} (h : s.Carries P) :
    Follows P (thisInstance? env) (thisInstance? env) s fun found =>
      ∀ self ∈ found, self.cls.Carries P := by
  refine .look ?_
  split
  · next self hself =>
      refine .pure h fun found hfound => ?_
      cases hfound
      exact h.find? hself
  · exact .pure h (by simp)

theorem property?_follows {self : Instance} {name : String} (h : s.Carries P)
    (hself : self.cls.Carries P) :
    Follows P (property? self name) (property? self name) s fun found =>
      ∀ value ∈ found, value.Carries P := by
  have hsome {value : Value} (hvalue : value.Carries P) :
      ∀ found ∈ some value, found.Carries P := by
    intro found hfound
    cases hfound
    exact hvalue
  unfold property?
  split
  · exact .pure h (hsome trivial)
  · refine .look ?_
    split
    · next value hvalue => exact .pure h (hsome (h.fields self name value hvalue))
    · split
      · next method hmethod =>
          refine (bindMethod_follows h (hself.findMethod hmethod) hself).bind ?_
          intro bound s' hs' hbound
          exact .pure hs' (hsome hbound)
      · exact .pure h (by simp)

theorem readVariable_follows {cx : Context} {id : NodeId} {name : String} (h : s.Carries P) :
    Follows P (readVariable cx id name) (readVariable cx id name) s fun found =>
      ∀ value ∈ found, value.Carries P := by
  refine .look ?_
  split
  · exact .pure h fun value hvalue => h.findHere? hvalue
  · refine .pure h fun value hvalue => ?_
    rcases Option.or_eq_some_iff.mp hvalue with hvalue | ⟨-, hvalue⟩
    · exact h.find? hvalue
    · exact h.find? hvalue

theorem lookUp_follows {cx : Context} {id : NodeId} {name : Token} (h : s.Carries P) :
    Follows P (lookUp cx id name) (lookUp cx id name) s (Value.Carries P) := by
  refine (readVariable_follows h).bind fun found s₁ h₁ hfound => ?_
  cases found with
  | some value => exact .pure h₁ (hfound value rfl)
  | none =>
      refine (thisInstance?_follows h₁).bind fun self? s₂ h₂ hself => ?_
      cases self? with
      | none => exact failAt_follows h₂
      | some self =>
          refine (property?_follows h₂ (hself self rfl)).bind fun property s₃ h₃ hproperty => ?_
          cases property with
          | some value => exact .pure h₃ (hproperty value rfl)
          | none => exact failAt_follows h₃

theorem assign_follows {cx : Context} {id : NodeId} {name : Token} {value : Value}
    (h : s.Carries P) (hvalue : value.Carries P) :
    Follows P (assign cx id name value) (assign cx id name value) s (Value.Carries P) := by
  have htarget : Follows P (targetFrame? cx id name.lexeme) (targetFrame? cx id name.lexeme) s
      fun _ => True := by
    unfold targetFrame?
    split
    · exact .pure h trivial
    · exact .look (.pure h trivial)
  refine htarget.bind fun frame? s₁ h₁ _ => ?_
  cases frame? with
  | some frame =>
      exact (MiniPascal.Follows.modify (h₁.bindIn hvalue)).bind fun _ s₂ h₂ _ => .pure h₂ hvalue
  | none =>
      refine (thisInstance?_follows h₁).bind fun self? s₂ h₂ hself => ?_
      cases self? with
      | some self =>
          exact (MiniPascal.Follows.modify (h₂.setField hvalue)).bind fun _ s₃ h₃ _ =>
            .pure h₃ hvalue
      | none => exact failAt_follows h₂

theorem superMethod_follows {cx : Context} {id : NodeId} {keyword method : Token}
    (h : s.Carries P) :
    Follows P (superMethod cx id keyword method) (superMethod cx id keyword method) s
      (Value.Carries P) := by
  unfold superMethod
  cases cx.locals[id]? with
  | none => exact failAt_follows h
  | some distance =>
      refine .look ?_
      dsimp only
      split
      · next superclass hsuper =>
          split
          · next self hreceiver =>
              have hself : self.cls.Carries P := by
                cases distance with
                | zero => cases hreceiver
                | succ nearer => exact h.findHere? hreceiver
              have hcls : superclass.Carries P := h.findHere? hsuper
              split
              · next found hfound =>
                  exact (bindMethod_follows h (hcls.findMethod hfound) hself).bind
                    fun bound s' hs' hbound => .pure hs' hbound
              · exact failAt_follows h
          · exact failAt_follows h
      · exact failAt_follows h

/-! ## Members -/

theorem memberValue_follows {member : Member} (h : s.Carries P) :
    Follows P (memberValue member) (memberValue member) s (Value.Carries P) := by
  cases member with
  | length count => exact .pure h trivial
  | method op target =>
      refine MiniPascal.Follows.bind (Q := fun _ => True)
        (.modifyGet (h.counted rfl rfl rfl ⟨h.contents.sequences, h.contents.maps⟩) trivial) ?_
      intro native s' hs' _
      exact .pure hs' trivial

theorem getProperty_follows {target : Value} {name : Token} (h : s.Carries P)
    (htarget : target.Carries P) :
    Follows P (getProperty target name) (getProperty target name) s (Value.Carries P) := by
  unfold getProperty
  split
  · next self =>
      refine (property?_follows h htarget).bind fun property s₁ h₁ hproperty => ?_
      cases property with
      | some value => exact .pure h₁ (hproperty value rfl)
      | none => exact failAt_follows h₁
  · refine .look ?_
    split
    · exact memberValue_follows h
    · exact failAt_follows h
    · exact failAt_follows h

theorem fieldOwner_follows {target : Value} {name : Token} (h : s.Carries P) :
    Follows P (fieldOwner target name) (fieldOwner target name) s fun _ => True := by
  unfold fieldOwner
  split
  · exact .pure h trivial
  · split
    · exact failAt_follows h
    · exact failAt_follows h

/-! ## Calls -/

theorem checkArity_follows {paren : Token} {expected got : Nat} (h : s.Carries P) :
    Follows P (checkArity paren expected got) (checkArity paren expected got) s fun _ => True := by
  unfold checkArity
  split
  · exact .pure h trivial
  · exact failAt_follows h

theorem callNative_follows {host : Host} {op : NativeOp} {paren : Token} {arguments : List Value}
    (h : s.Carries P) (harguments : ∀ value ∈ arguments, value.Carries P) :
    Follows P (callNative host op paren arguments) (callNative host op paren arguments) s
      (Value.Carries P) := by
  unfold Follows MiniPascal.Follows
  rw [callNative_apply]
  cases hrun : (s.entering op).callNative host op arguments with
  | error fault =>
      refine .inr ⟨rfl, h.entering op, fun value hvalue => ?_⟩
      cases hvalue
  | ok outcome =>
      rcases h.callNative harguments hrun with ⟨hvalue, hchange⟩
      exact ⟨rfl, hchange, hvalue⟩

/-- The calls of all functions with the property follow. -/
def CallerFollows (P : Function → Prop) (call call' : Caller) : Prop :=
  ∀ f arguments s, P f.decl → (∀ value ∈ arguments, value.Carries P) → s.Carries P →
    Follows P (call f arguments) (call' f arguments) s (Value.Carries P)

section Calls

variable {call call' : Caller} (hcall : CallerFollows P call call')
include hcall

theorem instantiate_follows {cls : Class} {paren : Token} {arguments : List Value}
    (h : s.Carries P) (hcls : cls.Carries P) (harguments : ∀ value ∈ arguments, value.Carries P) :
    Follows P (instantiate call cls paren arguments) (instantiate call' cls paren arguments) s
      (Value.Carries P) := by
  have hnew {s : Store} (h : s.Carries P) : Follows P
      (modifyGet fun s => s.newInstance cls) (modifyGet fun s => s.newInstance cls) s
      fun self => self.cls.Carries P := .modifyGet h.newInstance hcls
  refine .look ?_
  split
  · refine (checkArity_follows h).bind fun _ s₁ h₁ _ => ?_
    exact (hnew h₁).bind fun self s₂ h₂ hself => .pure h₂ hself
  · next initializer hinitializer =>
      refine (checkArity_follows h).bind fun _ s₁ h₁ _ => ?_
      refine (hnew h₁).bind fun self s₂ h₂ hself => ?_
      refine (bindMethod_follows h₂ (h.initializer? hcls hinitializer) hself).bind
        fun bound s₃ h₃ hbound => ?_
      exact (hcall bound arguments s₃ hbound harguments h₃).discard.bind
        fun _ s₄ h₄ _ => .pure h₄ hself

theorem applyValue_follows {cx : Context} {callee : Value} {paren : Token}
    {arguments : List Value} (h : s.Carries P) (hcallee : callee.Carries P)
    (harguments : ∀ value ∈ arguments, value.Carries P) :
    Follows P (applyValue call cx callee paren arguments)
      (applyValue call' cx callee paren arguments) s (Value.Carries P) := by
  cases callee with
  | function f =>
      refine .look ?_
      split
      · exact failAt_follows h
      · next choice hchoice =>
          have hchosen := h.chooseOverload hcallee hchoice
          have hselected : Follows P (bindChoice choice) (bindChoice choice) s
              fun f => P f.decl := by
            cases choice with
            | function f => exact .pure h hchosen
            | method f self => exact bindMethod_follows h hchosen.1 hchosen.2
          refine hselected.bind fun selected s₁ h₁ hdecl => ?_
          refine (checkArity_follows h₁).bind fun _ s₂ h₂ _ => ?_
          exact hcall selected arguments s₂ hdecl harguments h₂
  | native native =>
      exact (checkArity_follows h).bind fun _ s₁ h₁ _ => callNative_follows h₁ harguments
  | «class» cls => exact instantiate_follows hcall h hcallee harguments
  | _ => exact failAt_follows h

end Calls

/-! ## Expressions -/

variable {call call' : Caller}

mutual

theorem expr_follows (hcall : CallerFollows P call call') (cx : Context) :
    ∀ (e : Expr) {s : Store}, s.Carries P →
      Follows P (expr call cx e) (expr call' cx e) s (Value.Carries P)
  | .literal value, s, h => by
      rw [expr, expr]
      exact .pure h (Value.isData_ofLiteral value).carries
  | .cast inner _, s, h => by
      rw [expr, expr]
      exact expr_follows hcall cx inner h
  | .grouping inner, s, h => by
      rw [expr, expr]
      exact expr_follows hcall cx inner h
  | .unary op token operand, s, h => by
      rw [expr, expr]
      refine (expr_follows hcall cx operand h).bind fun value s₁ h₁ _ => ?_
      exact orFail_follows h₁ fun result hresult => (Value.applyUnary_isData hresult).carries
  | .binary left op token right, s, h => by
      rw [expr, expr]
      refine (expr_follows hcall cx left h).bind fun leftValue s₁ h₁ _ => ?_
      refine (expr_follows hcall cx right h₁).bind fun rightValue s₂ h₂ _ => .look ?_
      exact orFail_follows h₂ fun result hresult => (Store.applyBinary_isData hresult).carries
  | .logical left op _ right, s, h => by
      rw [expr, expr]
      refine (expr_follows hcall cx left h).bind fun leftValue s₁ h₁ hleft => ?_
      split
      · exact .pure h₁ hleft
      · exact expr_follows hcall cx right h₁
  | .variable id name, s, h => by
      rw [expr, expr]
      exact lookUp_follows h
  | .this id keyword, s, h => by
      rw [expr, expr]
      exact lookUp_follows h
  | .super id keyword method, s, h => by
      rw [expr, expr]
      exact superMethod_follows h
  | .assign id name value, s, h => by
      rw [expr, expr]
      exact (expr_follows hcall cx value h).bind fun result s₁ h₁ hresult =>
        assign_follows h₁ hresult
  | .call callee paren arguments, s, h => by
      rw [expr, expr]
      refine (expr_follows hcall cx callee h).bind fun target s₁ h₁ htarget => ?_
      refine (exprs_follows hcall cx arguments h₁).bind fun values s₂ h₂ hvalues => ?_
      exact applyValue_follows hcall h₂ htarget hvalues
  | .get object name, s, h => by
      rw [expr, expr]
      exact (expr_follows hcall cx object h).bind fun target s₁ h₁ htarget =>
        getProperty_follows h₁ htarget
  | .set object name value, s, h => by
      rw [expr, expr]
      refine (expr_follows hcall cx object h).bind fun target s₁ h₁ _ => ?_
      refine (fieldOwner_follows h₁).bind fun self s₂ h₂ _ => ?_
      refine (expr_follows hcall cx value h₂).bind fun result s₃ h₃ hresult => ?_
      exact (MiniPascal.Follows.modify (h₃.setField hresult)).bind fun _ s₄ h₄ _ =>
        .pure h₄ hresult
  | .subscript bracket object index, s, h => by
      rw [expr, expr]
      refine (expr_follows hcall cx object h).bind fun target s₁ h₁ _ => ?_
      refine (expr_follows hcall cx index h₁).bind fun position s₂ h₂ _ => .look ?_
      exact orFail_follows h₂ fun result hresult =>
        h₂.contents.subscript (fun _ => Value.IsData.carries) hresult
  | .map _ items, s, h => by
      rw [expr, expr]
      refine (entries_follows hcall cx items h (by simp)).bind fun contents s₁ h₁ hcontents => ?_
      refine MiniPascal.Follows.bind (Q := fun _ => True)
        (.modifyGet (h₁.newMap hcontents) trivial) ?_
      intro id s₂ h₂ _
      exact .pure h₂ trivial

theorem exprs_follows (hcall : CallerFollows P call call') (cx : Context) :
    ∀ (list : List Expr) {s : Store}, s.Carries P →
      Follows P (exprs call cx list) (exprs call' cx list) s fun values =>
        ∀ value ∈ values, value.Carries P
  | [], s, h => by
      rw [exprs, exprs]
      exact .pure h (by simp)
  | e :: rest, s, h => by
      rw [exprs, exprs]
      refine (expr_follows hcall cx e h).bind fun value s₁ h₁ hvalue => ?_
      refine (exprs_follows hcall cx rest h₁).bind fun values s₂ h₂ hvalues => ?_
      exact .pure h₂ (List.forall_mem_cons.mpr ⟨hvalue, hvalues⟩)

theorem entries_follows (hcall : CallerFollows P call call') (cx : Context) :
    ∀ (items : List (Expr × Expr)) {contents : List (Value × Value)} {s : Store}, s.Carries P →
      (∀ entry ∈ contents, entry.2.Carries P) →
      Follows P (entries call cx items contents) (entries call' cx items contents) s fun result =>
        ∀ entry ∈ result, entry.2.Carries P
  | [], contents, s, h, hcontents => by
      rw [entries, entries]
      exact .pure h hcontents
  | (key, item) :: rest, contents, s, h, hcontents => by
      rw [entries, entries]
      refine (expr_follows hcall cx key h).bind fun keyValue s₁ h₁ _ => ?_
      refine (expr_follows hcall cx item h₁).bind fun itemValue s₂ h₂ hitem => ?_
      refine entries_follows hcall cx rest h₂ fun entry hentry => ?_
      rcases mem_putEntry hentry with hold | hnew
      · exact hcontents entry hold
      · rw [hnew]
        exact hitem

end

end Eval

end MiniPascal
